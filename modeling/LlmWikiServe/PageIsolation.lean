import LlmWikiServe.PagePaths

/-!
# Pages in isolation

Every included file becomes one page, which depends on that file alone.  Frontmatter that is no
YAML or no mapping is ignored; frontmatter the YAML reader or the page model fails on otherwise
fails the whole directory.
-/

namespace LlmWikiServe

theorem forall₂_of_mapM_ok {α β : Type} {action : α → Except LoadError β} {inputs : List α}
    {outputs : List β} :
    inputs.mapM action = .ok outputs ↔
      List.Forall₂ (fun input output => action input = .ok output) inputs outputs := by
  induction inputs generalizing outputs with
  | nil =>
      rw [List.mapM_nil, List.forall₂_nil_left_iff]
      exact ⟨fun same => (Except.ok.inj same).symm, fun same => same ▸ rfl⟩
  | cons head tail inductionHypothesis =>
      rw [List.mapM_cons, bind_eq_ok, List.forall₂_cons_left_iff]
      constructor
      · rintro ⟨first, headDone, succeeded⟩
        obtain ⟨others, tailDone, succeeded⟩ := bind_eq_ok.mp succeeded
        exact ⟨first, others, headDone, inductionHypothesis.mp tailDone,
          (Except.ok.inj succeeded).symm⟩
      · rintro ⟨first, others, headDone, tailDone, rfl⟩
        exact ⟨first, headDone, bind_eq_ok.mpr ⟨others, inductionHypothesis.mpr tailDone, rfl⟩⟩

/-- A traversal in which every action succeeds does so. -/
theorem exists_mapM_ok {α β : Type} {action : α → Except LoadError β} {inputs : List α} :
    (∃ outputs, inputs.mapM action = .ok outputs) ↔
      ∀ input ∈ inputs, ∃ output, action input = .ok output := by
  induction inputs with
  | nil => exact iff_of_true ⟨[], rfl⟩ (by simp)
  | cons head tail inductionHypothesis =>
      rw [List.forall_mem_cons, ← inductionHypothesis]
      simp only [List.mapM_cons, bind_eq_ok]
      constructor
      · rintro ⟨outputs, first, headDone, others, tailDone, -⟩
        exact ⟨⟨first, headDone⟩, others, tailDone⟩
      · rintro ⟨⟨first, headDone⟩, others, tailDone⟩
        exact ⟨first :: others, first, headDone, others, tailDone, rfl⟩

/-! ## Frontmatter -/

section Frontmatter

variable [Documents]

def frontmatterBlock? (raw : Text) : Option Text :=
  if Text.startsWith raw "---\n" then
    (Text.find? "\n---" (raw.drop 4)).map fun stop => (raw.drop 4).take stop
  else none

def behindFrontmatter (raw : Text) : Text :=
  raw.drop (4 + (Text.find? "\n---" (raw.drop 4)).getD 0 + 4)

/-- The frontmatter is a mapping whose keys the page model takes. -/
def FrontmatterUsable (raw : Text) : Prop :=
  ∃ block entries, frontmatterBlock? raw = some block ∧
    Documents.safeLoad block = .ok (.dict entries) ∧ ∀ entry ∈ entries, (keyText? entry.1).isSome

/-- The YAML reader raises at most its own error, and a mapping has keys the page model takes. -/
def FrontmatterReadable (raw : Text) : Prop :=
  ∀ block, frontmatterBlock? raw = some block →
    (∀ message, Documents.safeLoad block ≠ .error (.raised message)) ∧
      ∀ entries, Documents.safeLoad block = .ok (.dict entries) →
        ∀ entry ∈ entries, (keyText? entry.1).isSome

theorem splitFrontmatter_cases (raw : Text) :
    (frontmatterBlock? raw = none ∧ splitFrontmatter raw = .ok ([], raw)) ∨
      ∃ block, frontmatterBlock? raw = some block ∧
        splitFrontmatter raw =
          match Documents.safeLoad block with
          | .error .syntax_ => .ok ([], raw)
          | .error (.raised message) => .error (.document message)
          | .ok (.dict entries) => .ok (entries, behindFrontmatter raw)
          | .ok _ => .ok ([], behindFrontmatter raw) := by
  unfold splitFrontmatter frontmatterBlock? behindFrontmatter
  cases Text.startsWith raw "---\n" with
  | false => exact Or.inl ⟨rfl, rfl⟩
  | true =>
      cases Text.find? "\n---" (raw.drop 4) with
      | none => exact Or.inl ⟨rfl, rfl⟩
      | some stop => exact Or.inr ⟨_, rfl, rfl⟩

end Frontmatter

theorem stringKeys?_isSome_iff {entries : List (Value × Value)} :
    (stringKeys? entries).isSome ↔ ∀ entry ∈ entries, (keyText? entry.1).isSome := by
  have decoded : ∀ entries : List (Value × Value),
      (entries.mapM fun entry => (keyText? entry.1).map fun key => (key, entry.2)).isSome ↔
        ∀ entry ∈ entries, (keyText? entry.1).isSome := by
    intro entries
    induction entries with
    | nil => simp
    | cons entry rest inductionHypothesis =>
        rw [List.forall_mem_cons, ← inductionHypothesis, List.mapM_cons]
        cases keyText? entry.1 with
        | none => simp
        | some key =>
            cases rest.mapM fun entry => (keyText? entry.1).map fun key => (key, entry.2) <;> simp
  have plainKeys : ∀ {entries : List (Value × Value)} {metadata : Metadata},
      plainKeys? entries = some metadata → ∀ entry ∈ entries, (keyText? entry.1).isSome := by
    intro entries
    induction entries with
    | nil => simp
    | cons entry rest inductionHypothesis =>
        intro metadata plain
        rcases entry with ⟨key, value⟩
        cases key with
        | str text =>
            simp only [plainKeys?, Option.map_eq_some_iff] at plain
            obtain ⟨remaining, plain, -⟩ := plain
            rw [List.forall_mem_cons]
            exact ⟨rfl, inductionHypothesis plain⟩
        | _ => simp [plainKeys?] at plain
  unfold stringKeys?
  split
  next metadata plain => exact iff_of_true rfl (plainKeys plain)
  next => rw [Option.isSome_map, decoded]

/-! ## One file -/

section Pages

variable [Unicode] [Interpreter] [Documents]

structure PageOf (options : PageOptions) (file : RelPath × Content) (page : WikiPage) : Prop where
  alone : parsePage options file.1 file.2 = .ok page
  ignored : ∀ raw, file.2.readText = .ok raw → ¬ FrontmatterUsable raw →
    page = markdownPage options file.1 [] raw ∨
      page = markdownPage options file.1 [] (behindFrontmatter raw)

variable {options : PageOptions} {file : RelPath × Content} {raw : Text}

theorem exists_parsePage_iff (read : file.2.readText = .ok raw) :
    (∃ page, parsePage options file.1 file.2 = .ok page) ↔ FrontmatterReadable raw := by
  have unfolded : ∀ page, parsePage options file.1 file.2 = .ok page ↔
      ∃ entries body frontmatter, splitFrontmatter raw = .ok (entries, body) ∧
        stringKeys? entries = some frontmatter ∧
        { markdownPage options file.1 (textKeys entries) body with frontmatter := frontmatter } =
          page := by
    intro page
    simp only [parsePage, read, bind_eq_ok, Except.ok.injEq, exists_eq_left', stringKeys_eq_ok,
      Prod.exists]
    constructor
    · rintro ⟨entries, body, parts, frontmatter, keyed, made⟩
      exact ⟨entries, body, frontmatter, parts, keyed, Except.ok.inj made⟩
    · rintro ⟨entries, body, frontmatter, parts, keyed, made⟩
      exact ⟨entries, body, parts, frontmatter, keyed, made ▸ rfl⟩
  simp only [unfolded]
  unfold FrontmatterReadable
  rcases splitFrontmatter_cases raw with ⟨absent, parts⟩ | ⟨block, present, parts⟩
  · refine iff_of_true ⟨_, [], raw, [], parts, rfl, rfl⟩ ?_
    simp [absent]
  · simp only [present, Option.some.injEq, forall_eq']
    rw [parts]
    split
    next failed => exact iff_of_true ⟨_, [], raw, [], rfl, rfl, rfl⟩ (by simp [failed])
    next message failed => simp [failed]
    next entries loaded =>
      simp only [loaded, Except.ok.injEq, Prod.mk.injEq, Value.dict.injEq, forall_eq',
        ← stringKeys?_isSome_iff]
      constructor
      · rintro ⟨page, _, body, frontmatter, ⟨rfl, -⟩, keyed, -⟩
        exact ⟨by simp, Option.isSome_of_eq_some keyed⟩
      · rintro ⟨-, keyed⟩
        obtain ⟨frontmatter, keyed⟩ := Option.isSome_iff_exists.mp keyed
        exact ⟨_, entries, _, frontmatter, ⟨rfl, rfl⟩, keyed, rfl⟩
    next value unmapped loaded =>
      refine iff_of_true ⟨_, [], _, [], rfl, rfl, rfl⟩ ⟨by simp [loaded], ?_⟩
      intro entries mapped
      exact absurd (loaded.symm.trans mapped) (by simpa using unmapped entries)

theorem pageOf_of_parsePage {page : WikiPage} (read : file.2.readText = .ok raw)
    (parsed : parsePage options file.1 file.2 = .ok page) : PageOf options file page := by
  refine ⟨parsed, fun other otherRead unusable => ?_⟩
  obtain rfl : raw = other := Except.ok.inj (read.symm.trans otherRead)
  have readable := (exists_parsePage_iff read).mp ⟨page, parsed⟩
  have same : ∀ {body}, splitFrontmatter raw = .ok ([], body) →
      page = markdownPage options file.1 [] body := by
    intro body parts
    simp only [parsePage, read, parts, bind_eq_ok, Except.ok.injEq, exists_eq_left'] at parsed
    obtain ⟨frontmatter, keyed, made⟩ := parsed
    obtain rfl : [] = frontmatter := Except.ok.inj keyed
    exact (Except.ok.inj made).symm
  rcases splitFrontmatter_cases raw with ⟨absent, parts⟩ | ⟨block, present, parts⟩
  · exact Or.inl (same parts)
  · split at parts
    next => exact Or.inl (same parts)
    next message failed => exact absurd failed ((readable block present).1 message)
    next entries loaded =>
      exact absurd ⟨block, entries, present, loaded, (readable block present).2 entries loaded⟩
        unusable
    next => exact Or.inr (same parts)

/-! ## All files of a directory -/

section Directory

variable [Host] {tree : FileTree} {scanRoot pageRoot : RelPath}

omit [Interpreter] [Documents] in
/-- The files that are to become pages. -/
def includedPaths (tree : FileTree) (scanRoot pageRoot : RelPath) : List RelPath :=
  ((rglob tree scanRoot).map Prod.fst).filter fun path =>
    isMarkdownName path && includeAdapterFile tree pageRoot path

omit [Interpreter] [Documents] in
theorem map_adapterFiles :
    (adapterFiles tree isMarkdownName scanRoot pageRoot).map Prod.fst =
      (includedPaths tree scanRoot pageRoot).map (List.drop pageRoot.length) := by
  unfold adapterFiles includedPaths
  induction rglob tree scanRoot with
  | nil => rfl
  | cons entry rest inductionHypothesis =>
      simp only [List.map_cons, List.filterMap_cons, List.filter_cons]
      split
      next skipped =>
        split at skipped
        next accepted =>
          obtain ⟨node, found, plain, regular⟩ :=
            includeAdapterFile_isFile (Bool.and_eq_true_iff.mp accepted).2
          obtain ⟨stat, content, rfl⟩ := Node.eq_file_of_not_symlink regular plain
          simp [contentAt?, found] at skipped
        next rejected => rw [if_neg rejected, inductionHypothesis]
      next file kept =>
        split at kept
        next accepted =>
          obtain ⟨content, -, rfl⟩ := Option.map_eq_some_iff.mp kept
          rw [if_pos accepted, List.map_cons, List.map_cons, inductionHypothesis]
        next => simp at kept

structure Isolated (options : PageOptions) (tree : FileTree) (scanRoot pageRoot : RelPath)
    (pages : List WikiPage) : Prop where
  parsed : parseMarkdownPages tree options scanRoot pageRoot = .ok pages
  ordered : (includedPaths tree scanRoot pageRoot).Pairwise (· < ·)
  paths : pages.map WikiPage.path =
    (includedPaths tree scanRoot pageRoot).map fun path =>
      RelPath.asPosix (path.drop pageRoot.length)
  pageOf : List.Forall₂ (PageOf options) (adapterFiles tree isMarkdownName scanRoot pageRoot) pages
  without : ∀ (other : FileTree) index,
    adapterFiles other isMarkdownName scanRoot pageRoot =
      (adapterFiles tree isMarkdownName scanRoot pageRoot).eraseIdx index →
    parseMarkdownPages other options scanRoot pageRoot = .ok (pages.eraseIdx index)

/-- Text files become pages in isolation exactly when the frontmatter of each can be read. -/
theorem exists_isolated_iff
    (utf8 : ∀ file ∈ adapterFiles tree isMarkdownName scanRoot pageRoot,
      ∃ text, file.2 = .text text) :
    (∃ pages, Isolated options tree scanRoot pageRoot pages) ↔
      ∀ file ∈ adapterFiles tree isMarkdownName scanRoot pageRoot, ∀ raw,
        file.2.readText = .ok raw → FrontmatterReadable raw := by
  have reads : ∀ file ∈ adapterFiles tree isMarkdownName scanRoot pageRoot,
      ∃ raw, file.2.readText = .ok raw := by
    intro file fileIn
    obtain ⟨text, decoded⟩ := utf8 file fileIn
    exact ⟨_, by rw [decoded]; rfl⟩
  constructor
  · rintro ⟨pages, isolated⟩ file fileIn raw read
    exact (exists_parsePage_iff read).mp (exists_mapM_ok.mp ⟨pages, isolated.parsed⟩ file fileIn)
  · intro readable
    have parses : ∃ pages, parseMarkdownPages tree options scanRoot pageRoot = .ok pages := by
      refine exists_mapM_ok.mpr fun file fileIn => ?_
      obtain ⟨raw, read⟩ := reads file fileIn
      exact (exists_parsePage_iff read).mpr (readable file fileIn raw read)
    obtain ⟨pages, parsed⟩ := parses
    have each := forall₂_of_mapM_ok.mp parsed
    refine ⟨pages, parsed, (sorted_rglob scanRoot).filter _, ?_, ?_, ?_⟩
    · rw [parseMarkdownPages_paths parsed, scanPaths_eq, map_adapterFiles, List.map_map]
      rfl
    · refine (List.forall₂_iff_get.mpr ⟨each.length_eq, fun index first second => ?_⟩)
      have fileIn := List.get_mem (adapterFiles tree isMarkdownName scanRoot pageRoot) ⟨index, first⟩
      obtain ⟨raw, read⟩ := reads _ fileIn
      exact pageOf_of_parsePage read ((List.forall₂_iff_get.mp each).2 index first second)
    · intro other index same
      unfold parseMarkdownPages
      rw [same, forall₂_of_mapM_ok, List.eraseIdx_eq_take_drop_succ,
        List.eraseIdx_eq_take_drop_succ]
      exact List.rel_append (List.forall₂_take index each) (List.forall₂_drop (index + 1) each)

end Directory

end Pages

section Sample

/-- A reader of lines `key: text`, a fragment of YAML in which a key of digits is an integer. -/
@[reducible]
def Documents.keyedLines : Documents where
  safeLoad block :=
    .ok (.dict ((Text.splitOn '\n' block).filterMap fun line =>
      if ':' ∈ line then
        let key := Text.beforeFirst ':' line
        let value := Value.str (Text.strip ((line.dropWhile (· ≠ ':')).drop 1))
        some (if key.all Char.isDigit then .int (Nat.ofDigitChars 10 key 0) else .str key, value)
      else none))
  jsonLoads _ := .error .syntax_

attribute [local instance] Unicode.ascii Value.plainInterpreter Documents.keyedLines Host.plain

/-- Two pages, the first with this frontmatter. -/
def frontmatterTree (block : Text) : FileTree :=
  .ofChildren ⟨1, 1, 0, 0⟩
    [("a.md", FileTree.textFile 2 (("---\n" : Text) ++ block ++ ("\n---\n" : Text))),
      ("b.md", FileTree.textFile 3 "text")] rfl

theorem adapterFiles_frontmatterTree (block : Text) :
    adapterFiles (frontmatterTree block) isMarkdownName [] [] =
      [([("a.md" : Text)], Content.text (("---\n" : Text) ++ block ++ ("\n---\n" : Text))),
        ([("b.md" : Text)], Content.text "text")] := rfl

theorem frontmatterTree_utf8 (block : Text) :
    ∀ file ∈ adapterFiles (frontmatterTree block) isMarkdownName [] [],
      ∃ text, file.2 = .text text := by
  intro file fileIn
  rw [adapterFiles_frontmatterTree] at fileIn
  simp only [List.mem_cons, List.not_mem_nil, or_false] at fileIn
  rcases fileIn with rfl | rfl
  · exact ⟨_, rfl⟩
  · exact ⟨_, rfl⟩

theorem exists_isolated_iff_titled :
    ∃ pages, Isolated {} (frontmatterTree "title: Plan") [] [] pages := by
  refine (exists_isolated_iff (frontmatterTree_utf8 "title: Plan")).mpr ?_
  intro file fileIn raw read block found
  rw [adapterFiles_frontmatterTree] at fileIn
  simp only [List.mem_cons, List.not_mem_nil, or_false] at fileIn
  rcases fileIn with rfl | rfl
  · obtain rfl := Except.ok.inj read
    have titled : frontmatterBlock? (("---\n" : Text) ++ ("title: Plan" : Text) ++ ("\n---\n" : Text)) =
        some "title: Plan" := by decide
    obtain rfl := Option.some.inj (titled.symm.trans found)
    constructor
    · intro message raised
      cases raised
    · intro entries parsed entry among
      obtain rfl : [(.str "title", .str "Plan")] = entries :=
        Value.dict.inj (Except.ok.inj parsed)
      obtain rfl := List.mem_singleton.mp among
      rfl
  · obtain rfl := Except.ok.inj read
    have plain : frontmatterBlock? "text" = none := by decide
    exact absurd (plain.symm.trans found) (by simp)

/-- A year as a key takes the other page down, too. -/
theorem integerKey_fails :
    (∀ file ∈ adapterFiles (frontmatterTree "2024: plan") isMarkdownName [] [],
      ∃ text, file.2 = .text text) ∧
      ¬ ∃ pages, Isolated {} (frontmatterTree "2024: plan") [] [] pages := by
  refine ⟨frontmatterTree_utf8 "2024: plan", ?_⟩
  rintro ⟨pages, isolated⟩
  have fails : (parseMarkdownPages (frontmatterTree "2024: plan") {} [] []).toOption.isNone := by
    decide +kernel
  rw [isolated.parsed] at fails
  exact Bool.noConfusion fails

end Sample

end LlmWikiServe
