import LlmWikiServe.Guidance

/-!
# Guidance behind any filter

The guidance of a context with the test for sensitive text left open: what the code does with the
answers of the test, whatever they are.
-/

namespace LlmWikiServe

section Filter

variable [Unicode] (sensitive : Text → Bool)

/-- The key that `unique_preserving_order` compares. -/
def normalKey (text : Text) : Text := Text.casefold (Unicode.normalizeNfc text)

def uniquePreservingFromBy (maxChars : Nat) : Nat → List Text → List Text → List Text
  | _, _, [] => []
  | 0, _, _ => []
  | room + 1, seen, value :: rest =>
      let text := cleanInline value maxChars
      if text = [] || sensitive text || normalKey text ∈ seen then
        uniquePreservingFromBy maxChars (room + 1) seen rest
      else text :: uniquePreservingFromBy maxChars room (normalKey text :: seen) rest

def uniquePreservingOrderBy (values : List Text) (maxItems maxChars : Nat) : List Text :=
  uniquePreservingFromBy sensitive maxChars maxItems [] values

def termsFromTextBy (text : Text) : List Text :=
  if sensitive text then []
  else
    let terms := (Pattern.findAll termPattern text).map fun found => cleanInline found.text 120
    uniquePreservingOrderBy sensitive
      (terms.filter fun term =>
        2 ≤ term.length && Text.casefold term ∉ commonTerms && !sensitive term) 32 120

def exactIdentifiersFromTextBy (text : Text) : List Text :=
  let found := (Pattern.findAll exactIdentifierPattern text).map Pattern.Match.text
  uniquePreservingOrderBy sensitive (found.filter fun identifier => !sensitive identifier) 32 240

def safeExcerptBy (page : WikiPage) : Text :=
  (((page.summary :: paragraphs page.text).map fun candidate =>
    cleanMarkdownInline candidate 240).find? fun text =>
      text ≠ [] && !boilerplateText text && !sensitive text).getD []

def safeProjectedPathBy (path : Text) : Option Text :=
  let text := Text.replaceChar '\\' '/' (Text.strip path)
  let parts := Text.splitOn '/' text
  if text = [] || 1024 < text.length || sensitive text then none
  else if text.any fun char => char.toNat < 32 then none
  else if Text.startsWith text "/" || Text.contains "://" text then none
  else if parts.any fun part => part ∈ [([] : Text), ".", ".."] then none
  else if hasDrive parts then none
  else if parts.any fun part =>
      Text.replaceChar '-' '_' (Text.casefold (Text.beforeLast '.' part)) ∈
        sensitiveStandaloneTerms then none
  else some text

def parentFolderBy (path : Text) : Option Text :=
  (safeProjectedPathBy sensitive path).map fun safe =>
    if '/' ∈ safe then (if Text.beforeLast '/' safe = [] then "." else Text.beforeLast '/' safe)
    else "."

def pageTermsForGuidanceBy (page : WikiPage) : List Text :=
  uniquePreservingOrderBy sensitive
    (termsFromTextBy sensitive page.title ++ page.headings.flatMap (termsFromTextBy sensitive) ++
      page.tags.flatMap (termsFromTextBy sensitive)) 12 120

def pageExactIdentifiersBy (page : WikiPage) (excerpt : Text) : List Text :=
  let candidates :=
    (safeProjectedPathBy sensitive page.path).toList ++ page.sourceRefs ++ page.tags ++
      exactIdentifiersFromTextBy sensitive
        (Text.join " " (page.title :: page.headings ++ [excerpt]))
  uniquePreservingOrderBy sensitive candidates 8 240

def pageCardBy (page : WikiPage) : Except RequestError (Option PageCard) :=
  match safeProjectedPathBy sensitive page.path with
  | none => .ok none
  | some path =>
      let excerpt := safeExcerptBy sensitive page
      let pageId := cleanInline page.id 512
      let title := cleanInline (if page.title = [] then page.id else page.title) 240
      if excerpt = [] then .ok none
      else if pageId = [] || sensitive pageId then .ok none
      else if title = [] || sensitive title then .ok none
      else
        (PageCard.validate
          { pageId, title, path
            headings := uniquePreservingOrderBy sensitive page.headings 8 160
            terms := (pageTermsForGuidanceBy sensitive page).take 12
            exactIdentifiers := (pageExactIdentifiersBy sensitive page excerpt).take 8
            excerpt }).map some

def folderTermsBy (pages : List WikiPage) : List Text :=
  let counts := Keyed.group Text.casefold (pages.flatMap (pageTermsForGuidanceBy sensitive))
  let le := fun first second : Text × List Text =>
    if first.2.length = second.2.length then decide (first.1 ≤ second.1)
    else second.2.length < first.2.length
  (sortBy le counts).filterMap fun count => count.2.head?

def folderCardsFromPagesBy (pages : List WikiPage) (query : Text) :
    Except RequestError (List FolderCard) := do
  let placed := pages.filterMap fun page =>
    (parentFolderBy sensitive page.path).map fun folder => (folder, page)
  let cards ← (Keyed.group Prod.fst placed).mapM fun folder =>
    FolderCard.validate
      { path := folder.1
        pageCount := folder.2.length
        terms := (folderTermsBy sensitive (folder.2.map Prod.snd)).take 8 }
  return sortBy (folderCardLe (termsFromTextBy sensitive query)) cards

def extractiveLeBy (queryTerms : List Text) (first second : WikiPage) : Bool :=
  let firstOverlap := overlap (pageTermsForGuidanceBy sensitive first) queryTerms
  let secondOverlap := overlap (pageTermsForGuidanceBy sensitive second) queryTerms
  if firstOverlap = secondOverlap then orientationLe first second
  else secondOverlap < firstOverlap

def projectionExtractivePagesBy (pages : List WikiPage) (query : Text) : List WikiPage :=
  (sortBy (extractiveLeBy sensitive (termsFromTextBy sensitive query)) pages).take 24

def guidanceFromPagesBy (pages : List WikiPage) (query : Text)
    (orientationSource : OrientationSource) (fallbackModes : List FallbackMode)
    (folderSourcePages : List WikiPage) : Except RequestError RetrievalGuidance := do
  let cards ← pages.mapM (pageCardBy sensitive)
  let pageCards := (cards.filterMap id).take 12
  let folderCards := (← folderCardsFromPagesBy sensitive folderSourcePages query).take 8
  RetrievalGuidance.validate
    { orientationSource, folderCards, pageCards
      suggestedTerms := uniquePreservingOrderBy sensitive
        (termsFromTextBy sensitive query ++ pageCards.flatMap PageCard.terms ++
          folderCards.flatMap FolderCard.terms) 16 120
      exactIdentifiers := uniquePreservingOrderBy sensitive
        (pageCards.flatMap PageCard.exactIdentifiers ++ pageCards.map PageCard.path) 16 240
      fallbackModes := availableFallbackModes fallbackModes }

def buildRetrievalGuidanceBy (adapter : Text) (pages : List WikiPage) (query : Text)
    (includeDrafts : Bool) (fallbackModes : List FallbackMode) :
    Except RequestError RetrievalGuidance := do
  let visible := visiblePages pages includeDrafts
  let authored := authoredOrientationPages pages includeDrafts
  if authored ≠ [] then
    let guidance ←
      guidanceFromPagesBy sensitive authored query .authored fallbackModes authored
    return trimGuidanceToBudget guidance
  else if adapter = ("generic-markdown" : Text) ∧ visible ≠ [] then
    let selected := projectionExtractivePagesBy sensitive visible query
    let guidance ←
      guidanceFromPagesBy sensitive selected query .projectionExtractive fallbackModes visible
    if guidance.isEmpty then emptyGuidance fallbackModes
    else return trimGuidanceToBudget guidance
  else emptyGuidance fallbackModes

end Filter

/-! ## The filter of the code -/

section Own

variable [Unicode]

theorem uniquePreservingFromBy_sensitiveText :
    uniquePreservingFromBy sensitiveText = uniquePreservingFrom := by
  funext maxChars room seen values
  fun_induction uniquePreservingFrom maxChars room seen values with
  | case1 => simp [uniquePreservingFromBy]
  | case2 => simp [uniquePreservingFromBy]
  | case3 room seen value rest text key skipped inductionHypothesis =>
      rw [uniquePreservingFromBy, ← inductionHypothesis]
      exact if_pos skipped
  | case4 room seen value rest text key kept inductionHypothesis =>
      rw [uniquePreservingFromBy, ← inductionHypothesis]
      exact if_neg kept

theorem termsFromTextBy_sensitiveText : termsFromTextBy sensitiveText = termsFromText := by
  unfold termsFromTextBy termsFromText uniquePreservingOrderBy uniquePreservingOrder
  rw [uniquePreservingFromBy_sensitiveText]

theorem pageTermsForGuidanceBy_sensitiveText :
    pageTermsForGuidanceBy sensitiveText = pageTermsForGuidance := by
  unfold pageTermsForGuidanceBy pageTermsForGuidance uniquePreservingOrderBy uniquePreservingOrder
  rw [uniquePreservingFromBy_sensitiveText, termsFromTextBy_sensitiveText]

theorem pageCardBy_sensitiveText : pageCardBy sensitiveText = pageCard := by
  have identifiers : pageExactIdentifiersBy sensitiveText = pageExactIdentifiers := by
    unfold pageExactIdentifiersBy pageExactIdentifiers exactIdentifiersFromTextBy
      exactIdentifiersFromText uniquePreservingOrderBy uniquePreservingOrder
    rw [uniquePreservingFromBy_sensitiveText]
    rfl
  unfold pageCardBy pageCard uniquePreservingOrderBy uniquePreservingOrder
  rw [uniquePreservingFromBy_sensitiveText, pageTermsForGuidanceBy_sensitiveText, identifiers]
  rfl

theorem folderCardsFromPagesBy_sensitiveText :
    folderCardsFromPagesBy sensitiveText = folderCardsFromPages := by
  unfold folderCardsFromPagesBy folderCardsFromPages folderTermsBy folderTerms
  rw [pageTermsForGuidanceBy_sensitiveText, termsFromTextBy_sensitiveText]
  rfl

theorem guidanceFromPagesBy_sensitiveText :
    guidanceFromPagesBy sensitiveText = guidanceFromPages := by
  unfold guidanceFromPagesBy guidanceFromPages uniquePreservingOrderBy uniquePreservingOrder
  rw [uniquePreservingFromBy_sensitiveText, termsFromTextBy_sensitiveText,
    pageCardBy_sensitiveText, folderCardsFromPagesBy_sensitiveText]

/-- Behind the filter of the code stands the guidance of the code. -/
theorem buildRetrievalGuidanceBy_sensitiveText :
    buildRetrievalGuidanceBy sensitiveText = buildRetrievalGuidance := by
  unfold buildRetrievalGuidanceBy buildRetrievalGuidance projectionExtractivePagesBy
    projectionExtractivePages extractiveLeBy extractiveLe
  rw [guidanceFromPagesBy_sensitiveText, termsFromTextBy_sensitiveText,
    pageTermsForGuidanceBy_sensitiveText]

end Own

end LlmWikiServe
