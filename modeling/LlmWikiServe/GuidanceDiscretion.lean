import LlmWikiServe.GuidanceValidity

/-!
# What guidance lets through

Every text of a guidance passes the filter, whatever the filter finds, but for the path of a
folder: it is cut off a path that passed and trimmed by its check, and not tested again.
-/

namespace LlmWikiServe

/-! ## Folders that trimming keeps -/

theorem length_join_le (separator : Text) (front back : List Text) :
    (Text.join separator front).length ≤ (Text.join separator (front ++ back)).length := by
  have step : ∀ (first next : Text) (rest : List Text),
      Text.join separator (first :: next :: rest) =
        first ++ (separator ++ Text.join separator (next :: rest)) := by
    intro first next rest
    simp [Text.join, List.intercalate]
  induction front with
  | nil => exact Nat.zero_le _
  | cons first rest inductionHypothesis =>
      cases rest with
      | nil =>
          cases back with
          | nil => exact Nat.le_refl _
          | cons next others =>
              rw [List.singleton_append, step, List.length_append]
              simp [Text.join, List.intercalate]
      | cons next others =>
          rw [List.cons_append, List.cons_append, step, step]
          simp only [List.length_append]
          have shorter := inductionHypothesis
          rw [List.cons_append] at shorter
          omega

theorem length_jsonArray_le {front items : List Text} (inFront : front <+: items) :
    (jsonArray front).length ≤ (jsonArray items).length := by
  obtain ⟨back, rfl⟩ := inFront
  have shorter := length_join_le "," front back
  simp only [jsonArray, List.length_append, List.length_cons]
  omega

namespace RetrievalGuidance

variable {guidance trimmed : RetrievalGuidance} {characterBudget position : Nat}

/-- The guidance without its page cards that ends its folders with the one at a position. -/
def cutBehind (guidance : RetrievalGuidance) (position : Nat) : RetrievalGuidance :=
  { guidance with pageCards := [], folderCards := guidance.folderCards.take (position + 1) }

theorem length_jsonFor_cutBehind_le (characterBudget : Nat) (guidance : RetrievalGuidance)
    (position : Nat) :
    ((guidance.cutBehind position).jsonFor characterBudget).length ≤
      (guidance.jsonFor characterBudget).length := by
  have folders := @length_jsonArray_le
    ((guidance.folderCards.take (position + 1)).map FolderCard.json)
    (guidance.folderCards.map FolderCard.json) ((List.take_prefix _ _).map _)
  have pages := @length_jsonArray_le [] (guidance.pageCards.map PageCard.json) List.nil_prefix
  simp only [jsonFor, jsonObject, cutBehind, List.map_cons, List.map_nil, Text.join,
    List.intercalate, List.intersperse_cons_cons, List.intersperse_singleton, List.flatten_cons,
    List.flatten_nil, List.length_append, List.length_cons, List.length_nil] at folders pages ⊢
  omega

theorem folderCards_of_stuck (stuck : guidance.trimOnce = none) : guidance.folderCards = [] := by
  unfold trimOnce at stuck
  split_ifs at stuck with cards folders
  exact not_not.mp folders

/-- A round of trimming takes no folder that there is room for. -/
theorem cutBehind_trimOnce (tooLong : ¬(guidance.jsonFor characterBudget).length ≤ characterBudget)
    (step : guidance.trimOnce = some trimmed) :
    (position < trimmed.folderCards.length ∧
        ((trimmed.cutBehind position).jsonFor characterBudget).length ≤ characterBudget) ↔
      position < guidance.folderCards.length ∧
        ((guidance.cutBehind position).jsonFor characterBudget).length ≤ characterBudget := by
  unfold trimOnce at step
  split_ifs at step with cards folders terms identifiers <;>
    obtain rfl := Option.some.inj step
  · exact Iff.rfl
  · rw [not_not] at cards
    have positive := List.length_pos_of_ne_nil folders
    simp only [List.length_dropLast]
    by_cases last : position + 1 = guidance.folderCards.length
    · have whole : guidance.cutBehind position = guidance := by
        rw [cutBehind, last, List.take_length]
        cases guidance
        simp_all
      rw [whole]
      exact ⟨fun inside => by omega, fun both => absurd both.2 tooLong⟩
    · have same : position < guidance.folderCards.length →
          guidance.folderCards.dropLast.take (position + 1) =
            guidance.folderCards.take (position + 1) := by
        intro inside
        rw [List.dropLast_eq_take, List.take_take, Nat.min_eq_left (by omega)]
      constructor
      · rintro ⟨inside, fits⟩
        have earlier : position < guidance.folderCards.length := by omega
        rw [cutBehind, same earlier] at fits
        exact ⟨earlier, fits⟩
      · rintro ⟨inside, fits⟩
        rw [cutBehind, ← same inside] at fits
        exact ⟨by omega, fits⟩
  · rw [not_not] at folders
    simp [folders]
  · rw [not_not] at folders
    simp [folders]

/-- Trimming keeps exactly the folders that there is room for. -/
theorem folderCards_trimGuidanceFor (characterBudget : Nat) (guidance : RetrievalGuidance)
    (position : Nat) :
    position < (trimGuidanceFor characterBudget guidance).folderCards.length ↔
      position < guidance.folderCards.length ∧
        ((guidance.cutBehind position).jsonFor characterBudget).length ≤ characterBudget := by
  induction guidance using trimGuidanceFor.induct characterBudget with
  | case1 guidance fits =>
      rw [trimGuidanceFor_fits fits]
      exact ⟨fun inside => ⟨inside, (length_jsonFor_cutBehind_le _ _ _).trans fits⟩, And.left⟩
  | case2 guidance tooLong stuck =>
      rw [trimGuidanceFor_stuck stuck]
      simp [folderCards_of_stuck stuck]
  | case3 guidance tooLong trimmed step inductionHypothesis =>
      rw [trimGuidanceFor_step tooLong step, inductionHypothesis]
      exact cutBehind_trimOnce tooLong step

theorem trimGuidanceFor_cutFrom (characterBudget : Nat) (guidance : RetrievalGuidance) :
    (trimGuidanceFor characterBudget guidance).CutFrom guidance :=
  (trimGuidanceFor_run (CutFrom.refl guidance) fun differs => absurd rfl differs).1

def RoomFor (guidance : RetrievalGuidance) (path : Text) : Prop :=
  ∃ position, ∃ card ∈ guidance.folderCards[position]?, card.path = path ∧
    (guidance.cutBehind position).json.length ≤ guidanceCharacterBudget

theorem mem_folderCards_trimmed {path : Text} :
    (∃ card ∈ (trimGuidanceToBudget guidance).folderCards, card.path = path) ↔
      guidance.RoomFor path := by
  have cut := trimGuidanceFor_cutFrom guidanceCharacterBudget guidance
  have room := folderCards_trimGuidanceFor guidanceCharacterBudget guidance
  rw [trimGuidanceFor_default] at cut room
  constructor
  · rintro ⟨card, cardIn, rfl⟩
    obtain ⟨position, inside, located⟩ := List.mem_iff_getElem.mp cardIn
    refine ⟨position, card, ?_, rfl, ((room position).mp inside).2⟩
    have whole := cut.folderCards.getElem inside
    rw [located] at whole
    exact Option.mem_def.mpr (List.getElem?_eq_some_iff.mpr
      ⟨inside.trans_le cut.folderCards.length_le, whole.symm⟩)
  · rintro ⟨position, card, located, rfl, fits⟩
    obtain ⟨inside, found⟩ := List.getElem?_eq_some_iff.mp located
    have kept := (room position).mpr ⟨inside, fits⟩
    refine ⟨card, ?_, rfl⟩
    rw [← found, ← cut.folderCards.getElem kept]
    exact List.getElem_mem kept

end RetrievalGuidance

/-! ## Texts of a guidance -/

def FolderCard.texts (card : FolderCard) : List Text := card.path :: card.terms

/-- The texts that come from the pages and the query. -/
def RetrievalGuidance.texts (guidance : RetrievalGuidance) : List Text :=
  guidance.pageCards.flatMap PageCard.texts ++ guidance.folderCards.flatMap FolderCard.texts ++
    guidance.suggestedTerms ++ guidance.exactIdentifiers

theorem RetrievalGuidance.path_mem_texts {guidance : RetrievalGuidance} {card : FolderCard}
    (cardIn : card ∈ guidance.folderCards) : card.path ∈ guidance.texts := by
  simp only [texts, List.mem_append]
  exact Or.inl (Or.inl (Or.inr (List.mem_flatMap.mpr ⟨card, cardIn, List.mem_cons_self⟩)))

def RetrievalGuidance.Discreet (sensitive : Text → Bool) (guidance : RetrievalGuidance) : Prop :=
  ∀ text ∈ guidance.texts, sensitive text = false

/-- No text is one that the filter finds, the paths of folders left aside. -/
structure RetrievalGuidance.Filtered (sensitive : Text → Bool) (guidance : RetrievalGuidance) :
    Prop where
  pageCards : ∀ card ∈ guidance.pageCards, ∀ text ∈ card.texts, sensitive text = false
  folderTerms : ∀ card ∈ guidance.folderCards, ∀ text ∈ card.terms, sensitive text = false
  suggestedTerms : ∀ text ∈ guidance.suggestedTerms, sensitive text = false
  exactIdentifiers : ∀ text ∈ guidance.exactIdentifiers, sensitive text = false

namespace RetrievalGuidance.Filtered

variable {sensitive : Text → Bool} {guidance trimmed : RetrievalGuidance}

theorem cut (filtered : guidance.Filtered sensitive) (cut : trimmed.CutFrom guidance) :
    trimmed.Filtered sensitive where
  pageCards card cardIn := filtered.pageCards card (cut.pageCards.subset cardIn)
  folderTerms card cardIn := filtered.folderTerms card (cut.folderCards.subset cardIn)
  suggestedTerms text textIn := filtered.suggestedTerms text (cut.suggestedTerms.subset textIn)
  exactIdentifiers text textIn :=
    filtered.exactIdentifiers text (cut.exactIdentifiers.subset textIn)

theorem discreet_iff (filtered : guidance.Filtered sensitive) :
    guidance.Discreet sensitive ↔
      ∀ card ∈ guidance.folderCards, sensitive card.path = false := by
  constructor
  · intro discreet card cardIn
    exact discreet card.path (path_mem_texts cardIn)
  · intro paths text textIn
    simp only [texts, List.mem_append, List.mem_flatMap] at textIn
    rcases textIn with ((⟨card, cardIn, shown⟩ | ⟨card, cardIn, shown⟩) | term) | identifier
    · exact filtered.pageCards card cardIn text shown
    · rcases List.mem_cons.mp shown with rfl | term
      · exact paths card cardIn
      · exact filtered.folderTerms card cardIn text term
    · exact filtered.suggestedTerms text term
    · exact filtered.exactIdentifiers text identifier

end RetrievalGuidance.Filtered

section Assembly

variable [Unicode] {sensitive : Text → Bool}

theorem filtered_plainGuidanceBy (pages : List WikiPage) (query : Text)
    (orientationSource : OrientationSource) (fallbackModes : List FallbackMode)
    (folderSourcePages : List WikiPage) :
    (plainGuidanceBy sensitive pages query orientationSource fallbackModes
      folderSourcePages).Filtered sensitive where
  pageCards card cardIn := by
    obtain ⟨page, -, made⟩ := List.mem_filterMap.mp (List.mem_of_mem_take cardIn)
    exact (plainPageCardBy_sound made).passes
  folderTerms card cardIn := by
    obtain ⟨folder, -, rfl⟩ := mem_plainFolderCardsBy.mp (List.mem_of_mem_take cardIn)
    intro text textIn
    exact (folderTerms_listed (List.mem_of_mem_take textIn)).2
  suggestedTerms _ textIn := unique_passes textIn
  exactIdentifiers _ textIn := unique_passes textIn

omit [Unicode] in
theorem filtered_noGuidance (fallbackModes : List FallbackMode) :
    (noGuidance fallbackModes).Filtered sensitive := ⟨nofun, nofun, nofun, nofun⟩

/-- The pages whose folders the guidance shows. -/
def folderSourcePages (adapter : Text) (pages : List WikiPage) (includeDrafts : Bool) :
    List WikiPage :=
  let visible := visiblePages pages includeDrafts
  let authored := authoredOrientationPages pages includeDrafts
  if authored ≠ [] then authored
  else if adapter = ("generic-markdown" : Text) then visible
  else []

theorem filtered_plainRetrievalGuidanceBy (adapter : Text) (pages : List WikiPage) (query : Text)
    (includeDrafts : Bool) (fallbackModes : List FallbackMode) :
    (plainRetrievalGuidanceBy sensitive adapter pages query includeDrafts fallbackModes).Filtered
      sensitive := by
  unfold plainRetrievalGuidanceBy
  dsimp only
  split_ifs
  · exact filtered_plainGuidanceBy _ _ _ _ _
  · exact filtered_noGuidance _
  · exact filtered_plainGuidanceBy _ _ _ _ _
  · exact filtered_noGuidance _

theorem path_of_shown {pages : List WikiPage} {query : Text} {card : FolderCard}
    (cardIn : card ∈ shownFolderCardsBy sensitive pages query) :
    ∃ page ∈ pages, ∃ folder, parentFolderBy sensitive page.path = some folder ∧
      card.path = Text.strip folder := by
  obtain ⟨folder, folderIn, rfl⟩ := mem_plainFolderCardsBy.mp (List.mem_of_mem_take cardIn)
  obtain ⟨page, pageIn, found⟩ := exists_folder_iff.mp (List.mem_map_of_mem folderIn)
  exact ⟨page, pageIn, folder.1, found, rfl⟩

theorem path_of_plain {adapter : Text} {pages : List WikiPage} {query : Text}
    {includeDrafts : Bool} {fallbackModes : List FallbackMode} {card : FolderCard}
    (cardIn : card ∈ (plainRetrievalGuidanceBy sensitive adapter pages query includeDrafts
      fallbackModes).folderCards) :
    ∃ page ∈ folderSourcePages adapter pages includeDrafts, ∃ folder,
      parentFolderBy sensitive page.path = some folder ∧ card.path = Text.strip folder := by
  unfold plainRetrievalGuidanceBy at cardIn
  unfold folderSourcePages
  dsimp only at cardIn ⊢
  split_ifs at cardIn with authored extractive empty
  · rw [if_pos authored]
    exact path_of_shown cardIn
  · cases cardIn
  · rw [if_neg authored, if_pos extractive.1]
    exact path_of_shown cardIn
  · cases cardIn

/-- A guidance gives away nothing that the filter finds exactly when the filter finds no folder of
a page, trimmed, that the guidance has room for. -/
theorem buildRetrievalGuidanceBy_discreet_iff {adapter : Text} {pages : List WikiPage}
    {query : Text} {includeDrafts : Bool} {fallbackModes : List FallbackMode}
    {guidance : RetrievalGuidance}
    (returned : buildRetrievalGuidanceBy sensitive adapter pages query includeDrafts
      fallbackModes = .ok guidance) :
    guidance.Discreet sensitive ↔
      ∀ page ∈ folderSourcePages adapter pages includeDrafts, ∀ folder,
        parentFolderBy sensitive page.path = some folder →
        (plainRetrievalGuidanceBy sensitive adapter pages query includeDrafts
          fallbackModes).RoomFor (Text.strip folder) →
        sensitive (Text.strip folder) = false := by
  obtain ⟨rfl, -⟩ := buildRetrievalGuidanceBy_eq_ok.mp returned
  have whole := @filtered_plainRetrievalGuidanceBy _ sensitive adapter pages query includeDrafts
    fallbackModes
  have cut := RetrievalGuidance.trimGuidanceFor_cutFrom guidanceCharacterBudget
    (plainRetrievalGuidanceBy sensitive adapter pages query includeDrafts fallbackModes)
  rw [trimGuidanceFor_default] at cut
  rw [(whole.cut cut).discreet_iff]
  constructor
  · intro paths page _ folder _ room
    obtain ⟨card, cardIn, same⟩ := RetrievalGuidance.mem_folderCards_trimmed.mpr room
    rw [← same]
    exact paths card cardIn
  · intro folders card cardIn
    obtain ⟨page, pageIn, folder, found, same⟩ := path_of_plain (cut.folderCards.subset cardIn)
    have room := RetrievalGuidance.mem_folderCards_trimmed.mp ⟨card, cardIn, same⟩
    rw [same]
    exact folders page pageIn folder found room

end Assembly

section Sample

attribute [local instance] Unicode.ascii Value.plainInterpreter Documents.lines Host.plain

def FindsTerms [Unicode] (sensitive : Text → Bool) : Prop :=
  ∀ text : Text, Text.strip text ≠ [] →
    Text.replaceChar '-' '_' (Text.casefold (Text.strip text)) ∈ sensitiveStandaloneTerms →
    sensitive text = true

theorem findsTerms_sensitiveText [Unicode] : FindsTerms sensitiveText := by
  intro text present term
  simp [sensitiveText, present, term]

/-- A page in a directory whose name is a sensitive term with a blank behind it. -/
def tokenFolderTree : FileTree :=
  .ofChildren ⟨1, 1, 0, 0⟩
    [("token ", .dir ⟨2, 2, 0, 0⟩ [("b.md", FileTree.textFile 3 "text")])] (by decide)

theorem tokenFolder_loads :
    ∃ loaded, loadWiki .auto tokenFolderTree = .ok loaded ∧
      (∃ guidance, buildRetrievalGuidanceBy sensitiveText (projectWiki loaded).adapter
        (projectWiki loaded).pages "" false [] = .ok guidance) ∧
      (plainRetrievalGuidanceBy sensitiveText (projectWiki loaded).adapter
        (projectWiki loaded).pages "" false []).RoomFor "token" ∧
      sensitiveText "token" = true :=
  ⟨_, rfl, ⟨_, rfl⟩, ⟨0, _, rfl, rfl, by decide +kernel⟩, by decide +kernel⟩

/-- The folder of the page is shown without the blank. -/
theorem tokenFolder_indiscreet :
    ∃ loaded guidance, loadWiki .auto tokenFolderTree = .ok loaded ∧
      buildRetrievalGuidanceBy sensitiveText (projectWiki loaded).adapter
        (projectWiki loaded).pages "" false [] = .ok guidance ∧
      ¬guidance.Discreet sensitiveText := by
  obtain ⟨loaded, loads, ⟨guidance, returned⟩, room, found⟩ := tokenFolder_loads
  refine ⟨loaded, guidance, loads, returned, fun discreet => ?_⟩
  obtain ⟨rfl, -⟩ := buildRetrievalGuidanceBy_eq_ok.mp returned
  obtain ⟨card, cardIn, path⟩ := RetrievalGuidance.mem_folderCards_trimmed.mpr room
  have hidden := discreet card.path (RetrievalGuidance.path_mem_texts cardIn)
  rw [path, found] at hidden
  cases hidden

theorem buildRetrievalGuidanceBy_discreet_iff_token :
    ∃ loaded, loadWiki .auto tokenFolderTree = .ok loaded ∧
      ¬∀ page ∈ folderSourcePages (projectWiki loaded).adapter (projectWiki loaded).pages false,
        ∀ folder, parentFolderBy sensitiveText page.path = some folder →
          (plainRetrievalGuidanceBy sensitiveText (projectWiki loaded).adapter
            (projectWiki loaded).pages "" false []).RoomFor (Text.strip folder) →
          sensitiveText (Text.strip folder) = false := by
  obtain ⟨loaded, guidance, loads, returned, shown⟩ := tokenFolder_indiscreet
  exact ⟨loaded, loads, fun folders =>
    shown ((buildRetrievalGuidanceBy_discreet_iff returned).mpr folders)⟩

theorem tokenFolder_shown :
    FindsTerms sensitiveText ∧
      ∃ loaded guidance, loadWiki .auto tokenFolderTree = .ok loaded ∧
        buildRetrievalGuidanceBy sensitiveText (projectWiki loaded).adapter
          (projectWiki loaded).pages "" false [] = .ok guidance ∧
        ¬guidance.Discreet sensitiveText :=
  ⟨findsTerms_sensitiveText, tokenFolder_indiscreet⟩

end Sample

end LlmWikiServe
