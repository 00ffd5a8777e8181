import LlmWikiServe.Adapters
import LlmWikiServe.GuidanceBudget
import LlmWikiServe.GuidanceCards
import LlmWikiServe.Projection

/-!
# When guidance is returned

The guidance of a context is refused exactly for a folder that does not stand or for a text in two
spellings that only the check takes for one.
-/

namespace LlmWikiServe

section Assembly

variable [Unicode] {sensitive : Text → Bool}

def shownPageCardsBy (sensitive : Text → Bool) (pages : List WikiPage) : List PageCard :=
  (pages.filterMap (plainPageCardBy sensitive)).take 12

def shownFolderCardsBy (sensitive : Text → Bool) (pages : List WikiPage) (query : Text) :
    List FolderCard :=
  (plainFolderCardsBy sensitive pages query).take 8

def plainGuidanceBy (sensitive : Text → Bool) (pages : List WikiPage) (query : Text)
    (orientationSource : OrientationSource) (fallbackModes : List FallbackMode)
    (folderSourcePages : List WikiPage) : RetrievalGuidance :=
  let pageCards := shownPageCardsBy sensitive pages
  let folderCards := shownFolderCardsBy sensitive folderSourcePages query
  { orientationSource, folderCards, pageCards
    suggestedTerms := uniquePreservingOrderBy sensitive
      (termsFromTextBy sensitive query ++ pageCards.flatMap PageCard.terms ++
        folderCards.flatMap FolderCard.terms) 16 120
    exactIdentifiers := uniquePreservingOrderBy sensitive
      (pageCards.flatMap PageCard.exactIdentifiers ++ pageCards.map PageCard.path) 16 240
    fallbackModes := availableFallbackModes fallbackModes }

/-- What the checks ask of the pages beyond the rules. -/
structure GuidanceStands (sensitive : Text → Bool) (pages : List WikiPage) (query : Text)
    (folderSourcePages : List WikiPage) : Prop where
  folders : ∀ page ∈ folderSourcePages, ∀ folder,
    parentFolderBy sensitive page.path = some folder → FolderStands folder
  pageCards : ∀ page ∈ pages, ∀ card, plainPageCardBy sensitive page = some card → card.KeysAgree
  suggestedTerms : KeysAgree
    (uniquePreservingOrderBy sensitive
      (termsFromTextBy sensitive query ++
        (shownPageCardsBy sensitive pages).flatMap PageCard.terms ++
        (shownFolderCardsBy sensitive folderSourcePages query).flatMap FolderCard.terms) 16 120)
  exactIdentifiers : KeysAgree
    (uniquePreservingOrderBy sensitive
      ((shownPageCardsBy sensitive pages).flatMap PageCard.exactIdentifiers ++
        (shownPageCardsBy sensitive pages).map PageCard.path) 16 240)

omit [Unicode] in
/-- The modes that are offered are distinct and in order. -/
theorem validateFallbackModes_available (modes : List FallbackMode) :
    validateFallbackModes (availableFallbackModes modes) = .ok (availableFallbackModes modes) := by
  have distinct : (availableFallbackModes modes).Nodup :=
    List.Nodup.filter _ (by decide : fallbackModeOrder.Nodup)
  have ordered : availableFallbackModes modes =
      fallbackModeOrder.filter (· ∈ availableFallbackModes modes) := by
    apply List.filter_congr
    intro mode modeIn
    simp [availableFallbackModes, modeIn]
  rw [validateFallbackModes, if_neg (by simpa using distinct), if_neg (not_not.mpr ordered)]

theorem RetrievalGuidance.validate_eq_ok {guidance other : RetrievalGuidance}
    (folders : guidance.folderCards.length ≤ 8) (pages : guidance.pageCards.length ≤ 12)
    (terms : ListField 16 120 guidance.suggestedTerms)
    (identifiers : ListField 16 240 guidance.exactIdentifiers)
    (modes : validateFallbackModes guidance.fallbackModes = .ok guidance.fallbackModes) :
    guidance.validate = .ok other ↔
      other = guidance ∧ KeysAgree guidance.suggestedTerms ∧
        KeysAgree guidance.exactIdentifiers := by
  have fewFolders : checkItems "folder_cards" 8 guidance.folderCards = .ok () := if_pos folders
  have fewPages : checkItems "page_cards" 12 guidance.pageCards = .ok () := if_pos pages
  rw [RetrievalGuidance.validate, fewFolders, fewPages, modes]
  constructor
  · intro succeeded
    obtain ⟨_, -, succeeded⟩ := bind_eq_ok.mp succeeded
    obtain ⟨_, -, succeeded⟩ := bind_eq_ok.mp succeeded
    obtain ⟨_, termsDone, succeeded⟩ := bind_eq_ok.mp succeeded
    obtain ⟨_, identifiersDone, made⟩ := bind_eq_ok.mp succeeded
    obtain ⟨rfl, termsAgree⟩ := terms.check_eq_ok.mp termsDone
    obtain ⟨rfl, identifiersAgree⟩ := identifiers.check_eq_ok.mp identifiersDone
    exact ⟨(Except.ok.inj made).symm, termsAgree, identifiersAgree⟩
  · rintro ⟨rfl, termsAgree, identifiersAgree⟩
    refine bind_eq_ok.mpr ⟨(), rfl, bind_eq_ok.mpr ⟨(), rfl, ?_⟩⟩
    refine bind_eq_ok.mpr ⟨_, terms.check_eq_ok.mpr ⟨rfl, termsAgree⟩, ?_⟩
    exact bind_eq_ok.mpr ⟨_, identifiers.check_eq_ok.mpr ⟨rfl, identifiersAgree⟩, rfl⟩

/-- The guidance of pages passes its checks exactly when the pages let it. -/
theorem guidanceFromPagesBy_eq_ok {pages folderSourcePages : List WikiPage} {query : Text}
    {orientationSource : OrientationSource} {fallbackModes : List FallbackMode}
    {guidance : RetrievalGuidance} :
    guidanceFromPagesBy sensitive pages query orientationSource fallbackModes folderSourcePages =
        .ok guidance ↔
      guidance = plainGuidanceBy sensitive pages query orientationSource fallbackModes
          folderSourcePages ∧
        GuidanceStands sensitive pages query folderSourcePages := by
  have checked := fun other : RetrievalGuidance => @RetrievalGuidance.validate_eq_ok _
    (plainGuidanceBy sensitive pages query orientationSource fallbackModes folderSourcePages) other
    (List.length_take_le _ _) (List.length_take_le _ _) (listField_unique (by decide) _)
    (listField_unique (by decide) _) (validateFallbackModes_available fallbackModes)
  have cardsShown : ((pages.map (plainPageCardBy sensitive)).filterMap id).take 12 =
      shownPageCardsBy sensitive pages := by
    rw [shownPageCardsBy, List.filterMap_map]
    rfl
  have eachCard := fun (page : WikiPage) (_ : page ∈ pages) result =>
    @pageCardBy_eq_ok _ sensitive page result
  rw [guidanceFromPagesBy]
  constructor
  · intro succeeded
    obtain ⟨cards, cardsDone, succeeded⟩ := bind_eq_ok.mp succeeded
    obtain ⟨folders, foldersDone, succeeded⟩ := bind_eq_ok.mp succeeded
    obtain ⟨rfl, agree⟩ := (mapM_eq_ok eachCard).mp cardsDone
    obtain ⟨rfl, stand⟩ := folderCardsFromPagesBy_eq_ok.mp foldersDone
    rw [cardsShown] at succeeded
    obtain ⟨made, termsAgree, identifiersAgree⟩ := (checked guidance).mp succeeded
    exact ⟨made, stand, agree, termsAgree, identifiersAgree⟩
  · rintro ⟨made, stand, agree, termsAgree, identifiersAgree⟩
    refine bind_eq_ok.mpr ⟨_, (mapM_eq_ok eachCard).mpr ⟨rfl, agree⟩, ?_⟩
    refine bind_eq_ok.mpr ⟨_, folderCardsFromPagesBy_eq_ok.mpr ⟨rfl, stand⟩, ?_⟩
    rw [cardsShown]
    exact (checked guidance).mpr ⟨made, termsAgree, identifiersAgree⟩

theorem bind_guidanceFromPagesBy {pages folderSourcePages : List WikiPage} {query : Text}
    {orientationSource : OrientationSource} {fallbackModes : List FallbackMode}
    {rest : RetrievalGuidance → Except RequestError RetrievalGuidance}
    {guidance : RetrievalGuidance} :
    (guidanceFromPagesBy sensitive pages query orientationSource fallbackModes folderSourcePages >>=
        rest) = .ok guidance ↔
      rest (plainGuidanceBy sensitive pages query orientationSource fallbackModes
          folderSourcePages) = .ok guidance ∧
        GuidanceStands sensitive pages query folderSourcePages := by
  rw [bind_eq_ok]
  constructor
  · rintro ⟨whole, done, made⟩
    obtain ⟨rfl, stands⟩ := guidanceFromPagesBy_eq_ok.mp done
    exact ⟨made, stands⟩
  · rintro ⟨made, stands⟩
    exact ⟨_, guidanceFromPagesBy_eq_ok.mpr ⟨rfl, stands⟩, made⟩

omit [Unicode] in
theorem returns_iff {made guidance : RetrievalGuidance} :
    (.ok made : Except RequestError RetrievalGuidance) = .ok guidance ↔ guidance = made :=
  ⟨fun same => (Except.ok.inj same).symm, fun same => congrArg _ same.symm⟩

/-- The guidance without suggestions, as its checks leave it. -/
def noGuidance (fallbackModes : List FallbackMode) : RetrievalGuidance where
  orientationSource := .none
  fallbackModes := availableFallbackModes fallbackModes

theorem emptyGuidance_ok (fallbackModes : List FallbackMode) :
    emptyGuidance fallbackModes = .ok (noGuidance fallbackModes) := by
  have nothing : ∀ maxItems most, ListField maxItems most [] := fun _ _ =>
    ⟨nofun, Nat.zero_le _, List.nodup_nil⟩
  refine (RetrievalGuidance.validate_eq_ok (Nat.zero_le _) (Nat.zero_le _) (nothing _ _)
    (nothing _ _) (validateFallbackModes_available fallbackModes)).mpr ⟨rfl, ?_, ?_⟩
  · exact nofun
  · exact nofun

omit [Unicode] in
theorem trimGuidanceToBudget_noGuidance (fallbackModes : List FallbackMode) :
    trimGuidanceToBudget (noGuidance fallbackModes) = noGuidance fallbackModes :=
  (trimGuidanceFor_default _).symm.trans (trimGuidanceFor_stuck rfl)

/-- The guidance of a context before its checks and its trimming. -/
def plainRetrievalGuidanceBy (sensitive : Text → Bool) (adapter : Text) (pages : List WikiPage)
    (query : Text) (includeDrafts : Bool) (fallbackModes : List FallbackMode) :
    RetrievalGuidance :=
  let visible := visiblePages pages includeDrafts
  let authored := authoredOrientationPages pages includeDrafts
  if authored ≠ [] then plainGuidanceBy sensitive authored query .authored fallbackModes authored
  else if adapter = ("generic-markdown" : Text) ∧ visible ≠ [] then
    let guidance := plainGuidanceBy sensitive (projectionExtractivePagesBy sensitive visible query)
      query .projectionExtractive fallbackModes visible
    if guidance.isEmpty then noGuidance fallbackModes else guidance
  else noGuidance fallbackModes

/-- What the checks ask of the pages that the guidance is made from. -/
def GuidanceAgrees (sensitive : Text → Bool) (adapter : Text) (pages : List WikiPage)
    (query : Text) (includeDrafts : Bool) : Prop :=
  let visible := visiblePages pages includeDrafts
  let authored := authoredOrientationPages pages includeDrafts
  if authored ≠ [] then GuidanceStands sensitive authored query authored
  else if adapter = ("generic-markdown" : Text) ∧ visible ≠ [] then
    GuidanceStands sensitive (projectionExtractivePagesBy sensitive visible query) query visible
  else True

theorem buildRetrievalGuidanceBy_eq_ok {adapter : Text} {pages : List WikiPage} {query : Text}
    {includeDrafts : Bool} {fallbackModes : List FallbackMode} {guidance : RetrievalGuidance} :
    buildRetrievalGuidanceBy sensitive adapter pages query includeDrafts fallbackModes =
        .ok guidance ↔
      guidance = trimGuidanceToBudget
          (plainRetrievalGuidanceBy sensitive adapter pages query includeDrafts fallbackModes) ∧
        GuidanceAgrees sensitive adapter pages query includeDrafts := by
  unfold buildRetrievalGuidanceBy plainRetrievalGuidanceBy GuidanceAgrees
  dsimp only
  split_ifs with authored extractive empty
  · rw [bind_guidanceFromPagesBy]
    exact and_congr_left' returns_iff
  · rw [bind_guidanceFromPagesBy, if_pos empty, emptyGuidance_ok, trimGuidanceToBudget_noGuidance]
    exact and_congr_left' returns_iff
  · rw [bind_guidanceFromPagesBy, if_neg empty]
    exact and_congr_left' returns_iff
  · rw [emptyGuidance_ok, trimGuidanceToBudget_noGuidance]
    exact returns_iff.trans (and_iff_left trivial).symm

end Assembly

/-- Guidance is returned exactly when every folder of the pages it is made from stands once it is
trimmed, and no field has a text in two spellings that are one without regard to case. -/
theorem buildRetrievalGuidance_returns_iff [Unicode] (adapter : Text) (pages : List WikiPage)
    (query : Text) (includeDrafts : Bool) (fallbackModes : List FallbackMode) :
    (∃ guidance,
      buildRetrievalGuidance adapter pages query includeDrafts fallbackModes = .ok guidance) ↔
      GuidanceAgrees sensitiveText adapter pages query includeDrafts := by
  rw [← buildRetrievalGuidanceBy_sensitiveText]
  constructor
  · rintro ⟨guidance, returned⟩
    exact (buildRetrievalGuidanceBy_eq_ok.mp returned).2
  · intro agrees
    exact ⟨_, buildRetrievalGuidanceBy_eq_ok.mpr ⟨rfl, agrees⟩⟩

section Sample

attribute [local instance] Unicode.ascii Value.plainInterpreter Documents.lines Host.plain

/-- A page in a directory whose name is a blank. -/
def blankFolderTree : FileTree :=
  .ofChildren ⟨1, 1, 0, 0⟩
    [("a", .dir ⟨2, 2, 0, 0⟩
      [(" ", .dir ⟨3, 3, 0, 0⟩ [("b.md", FileTree.textFile 4 "text")])])] (by decide)

/-- Its folder is refused once it is trimmed, and with it the guidance. -/
theorem blankFolder_refused :
    ∃ loaded, loadWiki .auto blankFolderTree = .ok loaded ∧
      ∀ guidance, buildRetrievalGuidance (projectWiki loaded).adapter (projectWiki loaded).pages
        "" false [] ≠ .ok guidance := by
  refine ⟨_, rfl, fun guidance returned => ?_⟩
  cases returned

end Sample

end LlmWikiServe
