import LlmWikiServe.PayloadGraph
import LlmWikiServe.ReadAgreement

/-!
# Metadata of loaded wikis

Whatever the adapter, a loaded wiki has metadata of texts, and its pages count with numbers.
-/

namespace LlmWikiServe.ProjectionPayload

section Loaded

variable [Unicode] [Interpreter] [Documents] [Host]

omit [Interpreter] [Unicode] [Documents] [Host] in
theorem jsonMetadata_sourceRoot {source : Text} {more : List (Text × Text)}
    (distinct : (("source_root" : Text) :: more.map Prod.fst).Nodup) :
    JsonMetadata (("source_root", .str source) :: more.map fun entry => (entry.1, .str entry.2)) :=
  @jsonMetadata_texts (("source_root", source) :: more) distinct

/-- The usage counts of a page's sources are numbers or absent. -/
def Counted (page : WikiPage) : Prop :=
  ∀ okf, page.okf = some okf → ∀ source ∈ okf.sources, IsCount source.usageCount

omit [Interpreter] [Unicode] [Documents] [Host] in
theorem isCount_usageCountValue (value : Value) : IsCount (usageCountValue value) := by
  cases value <;> simp [usageCountValue, IsCount]

omit [Unicode] [Documents] [Host] in
theorem normalizeOkfSource_counted {shared : List (Value × Value)} {value : Value}
    {source : OkfSource} (normalized : normalizeOkfSource shared value = .ok source) :
    IsCount source.usageCount := by
  unfold normalizeOkfSource at normalized
  split at normalized
  next entries =>
    dsimp only at normalized
    split at normalized
    next =>
      obtain ⟨_, failed, _⟩ := bind_eq_ok.mp normalized
      cases failed
    next =>
      obtain ⟨usageWindow, -, made⟩ := bind_eq_ok.mp normalized
      rw [← Except.ok.inj made]
      exact isCount_usageCountValue _
  next => cases normalized

omit [Documents] [Host] in
theorem normalizeOkfMetadata_counted {role : OkfDocumentRole} {conceptType : Text}
    {entries : List (Value × Value)} {okf : OkfMetadata}
    (normalized : normalizeOkfMetadata role conceptType entries = .ok okf) :
    ∀ source ∈ okf.sources, IsCount source.usageCount := by
  simp only [normalizeOkfMetadata, bind_eq_ok] at normalized
  obtain ⟨sources, areSources, _, _, _, _, _, _, _, _, _, _, _, _, _, _, _, _, made⟩ := normalized
  rw [← Except.ok.inj made]
  intro source sourceIn
  unfold normalizeOkfSources at areSources
  split at areSources
  next =>
    obtain rfl := Except.ok.inj areSources
    cases sourceIn
  next =>
    obtain ⟨value, -, single⟩ := mem_of_mapM_ok areSources sourceIn
    exact normalizeOkfSource_counted single
  next => simp [okfError] at areSources

omit [Host] in
theorem parsePage_counted {options : PageOptions} {path : RelPath} {content : Content}
    {page : WikiPage} (parsed : parsePage options path content = .ok page) : Counted page := by
  simp only [parsePage, bind_eq_ok] at parsed
  obtain ⟨raw, -, ⟨entries, body⟩, -, frontmatter, -, made⟩ := parsed
  rw [← Except.ok.inj made]
  intro okf found
  cases found

omit [Host] in
theorem parseOkfV02Page_counted {role : OkfDocumentRole} {path : RelPath} {content : Content}
    {page : WikiPage} (parsed : parseOkfV02Page role path content = .ok page) : Counted page := by
  simp only [parseOkfV02Page, bind_eq_ok] at parsed
  obtain ⟨raw, -, ⟨entries, body⟩, -, -, -, conceptType, -, okf, normalized, frontmatter, -,
    made⟩ := parsed
  rw [← Except.ok.inj made]
  intro other found
  obtain rfl : okf = other := Option.some.inj found
  exact normalizeOkfMetadata_counted normalized

/-- What the adapters load: metadata of texts, and pages whose counts are numbers. -/
structure Sound (loaded : LoadedWiki) : Prop where
  metadata : JsonMetadata loaded.metadata
  pages : ∀ page ∈ loaded.pages, Counted page

theorem parseMarkdownPages_counted {tree : FileTree} {options : PageOptions}
    {scanRoot pageRoot : RelPath} {pages : List WikiPage}
    (parsed : parseMarkdownPages tree options scanRoot pageRoot = .ok pages) :
    ∀ page ∈ pages, Counted page := by
  intro page pageIn
  obtain ⟨file, -, made⟩ := mem_of_mapM_ok parsed pageIn
  exact parsePage_counted made

theorem loadMarkdown_sound {name implementation : Text} {tree : FileTree} {loaded : LoadedWiki}
    (succeeded : loadMarkdown name implementation tree = .ok loaded) : Sound loaded := by
  unfold loadMarkdown at succeeded
  obtain ⟨pages, parsed, succeeded⟩ := bind_eq_ok.mp succeeded
  obtain ⟨edges, -, made⟩ := bind_eq_ok.mp succeeded
  rw [← Except.ok.inj made]
  exact ⟨@jsonMetadata_sourceRoot _ [] (List.nodup_singleton _), parseMarkdownPages_counted parsed⟩

theorem okfV02_sound {tree : FileTree} {loaded : LoadedWiki}
    (succeeded : okfV02Adapter.load tree = .ok loaded) : Sound loaded := by
  simp only [okfV02Adapter] at succeeded
  split at succeeded
  next => simp [bind, Except.bind] at succeeded
  next =>
    obtain ⟨pages, parsed, succeeded⟩ := bind_eq_ok.mp succeeded
    obtain ⟨edges, -, made⟩ := bind_eq_ok.mp succeeded
    rw [← Except.ok.inj made]
    refine ⟨@jsonMetadata_sourceRoot _
      [("source_profile", okfV02Name), ("format_version", okfV02Version)] (by decide), ?_⟩
    rw [loadedFrom_pages]
    intro page pageIn
    simp only [parseOkfV02Pages, bind_eq_ok] at parsed
    obtain ⟨parsedPages, parsed, same⟩ := parsed
    split at same
    next => simp [okfError, bind, Except.bind] at same
    next =>
      obtain rfl := Except.ok.inj same
      obtain ⟨file, -, parsedPage⟩ := mem_of_mapM_ok parsed pageIn
      exact parseOkfV02Page_counted parsedPage

theorem logseq_sound {tree : FileTree} {loaded : LoadedWiki}
    (succeeded : logseqAdapter.load tree = .ok loaded) : Sound loaded := by
  unfold logseqAdapter at succeeded
  obtain ⟨pages, parsed, succeeded⟩ := bind_eq_ok.mp succeeded
  obtain ⟨edges, -, made⟩ := bind_eq_ok.mp succeeded
  rw [← Except.ok.inj made]
  refine ⟨@jsonMetadata_sourceRoot _ [] (List.nodup_singleton _), fun page pageIn => ?_⟩
  obtain ⟨file, -, parsedPage⟩ := mem_of_mapM_ok parsed pageIn
  exact parsePage_counted parsedPage

theorem dendron_sound {tree : FileTree} {loaded : LoadedWiki}
    (succeeded : dendronAdapter.load tree = .ok loaded) : Sound loaded := by
  unfold dendronAdapter at succeeded
  obtain ⟨⟨sourceRoots, vaults⟩, -, succeeded⟩ := bind_eq_ok.mp succeeded
  obtain ⟨pages, parsed, succeeded⟩ := bind_eq_ok.mp succeeded
  obtain ⟨edges, -, made⟩ := bind_eq_ok.mp succeeded
  rw [← Except.ok.inj made]
  constructor
  · by_cases several : 1 < vaults
    · simp only [loadedFrom, loadedWiki, several, if_true]
      exact @jsonMetadata_sourceRoot _ [("vault_roots", _)]
        (by show ["source_root".toList, "vault_roots".toList].Nodup; decide)
    · simp only [loadedFrom, loadedWiki, several, if_false]
      exact @jsonMetadata_sourceRoot _ [] (List.nodup_singleton _)
  · intro page pageIn
    obtain ⟨vaultPages, vaultIn, pageIn⟩ := List.mem_flatten.mp pageIn
    obtain ⟨scanRoot, -, parsedVault⟩ := mem_of_mapM_ok parsed vaultIn
    exact parseMarkdownPages_counted parsedVault page pageIn

theorem quartz_sound {tree : FileTree} {loaded : LoadedWiki}
    (succeeded : quartzAdapter.load tree = .ok loaded) : Sound loaded := by
  unfold quartzAdapter at succeeded
  obtain ⟨pages, parsed, succeeded⟩ := bind_eq_ok.mp succeeded
  obtain ⟨-, -, succeeded⟩ := bind_eq_ok.mp succeeded
  obtain ⟨edges, -, made⟩ := bind_eq_ok.mp succeeded
  obtain rfl := Except.ok.inj made
  exact ⟨@jsonMetadata_texts [("content_root", _), ("source_root", _)]
    (by show ["content_root".toList, "source_root".toList].Nodup; decide),
    parseMarkdownPages_counted parsed⟩

theorem llmWikiMarkdown_sound {tree : FileTree} {loaded : LoadedWiki}
    (succeeded : llmWikiMarkdownAdapter.load tree = .ok loaded) : Sound loaded := by
  unfold llmWikiMarkdownAdapter at succeeded
  obtain ⟨pages, parsed, succeeded⟩ := bind_eq_ok.mp succeeded
  obtain ⟨edges, -, made⟩ := bind_eq_ok.mp succeeded
  rw [← Except.ok.inj made]
  exact ⟨@jsonMetadata_sourceRoot _ [] (List.nodup_singleton _), parseMarkdownPages_counted parsed⟩

theorem adapters_sound {tree : FileTree} {loaded : LoadedWiki} :
    ∀ adapter ∈ adapters, adapter.load tree = .ok loaded → Sound loaded := by
  intro adapter listed succeeded
  simp only [adapters, List.mem_cons, List.not_mem_nil, or_false] at listed
  obtain rfl | rfl | rfl | rfl | rfl | rfl | rfl | rfl := listed
  · exact okfV02_sound succeeded
  · exact loadMarkdown_sound succeeded
  · exact logseq_sound succeeded
  · exact dendron_sound succeeded
  · exact loadMarkdown_sound succeeded
  · exact quartz_sound succeeded
  · exact llmWikiMarkdown_sound succeeded
  · exact loadMarkdown_sound succeeded

theorem loadWiki_sound {profile : SourceProfile} {tree : FileTree} {loaded : LoadedWiki}
    (succeeded : loadWiki profile tree = .ok loaded) : Sound loaded := by
  unfold loadWiki at succeeded
  split at succeeded
  next => simp at succeeded
  next =>
    cases profile with
    | auto =>
        obtain ⟨adapter, listed, load⟩ := loadWith_eq_ok succeeded
        exact adapters_sound adapter listed load
    | okfV02 =>
        obtain ⟨required, load, succeeded⟩ := bind_eq_ok.mp succeeded
        obtain rfl := requirePages_eq_ok succeeded
        exact okfV02_sound load

end Loaded

end LlmWikiServe.ProjectionPayload
