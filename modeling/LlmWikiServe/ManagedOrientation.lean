import LlmWikiServe.Foundation.Ranking
import LlmWikiServe.ManagedContext
import LlmWikiServe.Postings

/-!
# Managed orientation

Where a generic wiki has no authored orientation pages, the pages of an orientation are chosen by
their degrees in the page graph, their shape and the hits of the managed record.  The pages are
filtered by approval, the edges are not: the edges that leave unapproved pages are harmless exactly
where they change neither which approved pages lead nor how these compare.
-/

namespace LlmWikiServe.ManagedContext

open Postings (countOf increment countOf_increment)

/-! ## The order of pages -/

/-- `hmac.new(secret, payload, sha256).hexdigest()` -/
class Keying where
  hmacSha256 : Text → Text → Text

section Scores

def authoredOrientationPageNames : List Text :=
  ["hot.md", "index.md", "overview.md", "quickstart.md"]

/-- The parts of `Path(text)` below its anchor. -/
def pathParts (text : Text) : List Text :=
  (Text.splitOn '/' text).filter fun part => part ≠ [] ∧ part ≠ ("." : Text)

def pathName (text : Text) : Text := (pathParts text).getLast?.getD []

/-- `len(Path(text).parts)`, an anchor counting as a part. -/
def pathPartCount (text : Text) : Nat :=
  (pathParts text).length + if Text.startsWith text "/" then 1 else 0

def hasAuthoredOrientationPages [Unicode] (pages : List WikiPage) : Bool :=
  pages.any fun page =>
    decide (page.role ∈ [PageRole.hot, .index, .overview]) &&
      decide (Text.casefold (pathName page.path) ∈ authoredOrientationPageNames)

def managedContextAppliesToIndex [Unicode] (index : WikiIndex) : Bool :=
  decide (index.adapter = ("generic-markdown" : Text)) &&
    decide (index.implementation = ("generic-markdown" : Text)) &&
    !hasAuthoredOrientationPages index.pages

def pageNode (pageId : Text) : Text := ("page:" : Text) ++ pageId

/-- The edges that enter and that leave each page node. -/
def pageDegreeCounts (edges : List GraphEdge) : List (Text × Nat) × List (Text × Nat) :=
  edges.foldl
    (fun counts edge =>
      (if Text.startsWith edge.target "page:" then increment counts.1 edge.target else counts.1,
        if Text.startsWith edge.source "page:" then increment counts.2 edge.source else counts.2))
    ([], [])

def orientationScore (page : WikiPage) (inbound outbound : List (Text × Nat))
    (priorBoost : PyFloat) : PyFloat :=
  let folderDepth := pathPartCount page.path - 1
  let shallowBonus : ℚ := 1 / (1 + folderDepth)
  (PyFloat.finite
    (countOf inbound (pageNode page.id) * 2 + countOf outbound (pageNode page.id) * (4 / 10) +
      (min page.sourceRefs.length 5 : Nat) * (5 / 10) +
      (min page.headings.length 8 : Nat) * (2 / 10) + shallowBonus)).add priorBoost

/-- Order by descending score, then role, then path. -/
def derivedLe (score : WikiPage → PyFloat) (first second : WikiPage) : Bool :=
  if (score second).lt (score first) then true
  else if (score first).lt (score second) then false
  else if roleRank first.role = roleRank second.role then decide (first.path ≤ second.path)
  else decide (roleRank first.role < roleRank second.role)

end Scores

section Keys

variable [Unicode] [Hashing] [Keying]

def managedContextSchemaVersion : Text := "managed-context-v1"

def opaquePageKey (scope : ManagedContextScope) (pageId secret : Text) : Text :=
  ("pk_" : Text) ++
    Keying.hmacSha256 secret
      (Text.join ['\x00']
        [managedContextSchemaVersion, Hashing.sha256 scope.namespace_,
          Hashing.sha256 scope.sourceId, scope.adapterKind, scope.projectionSignatureDigest,
          scope.sourceSignatureDigest, pageId])

variable [Numbers]

/-- The boost of a page by the record, absent where computing it raises. -/
def priorBoost (record : Option ManagedContextRecord) (scope : ManagedContextScope)
    (secret : Option Text) (config : ManagedContextConfig) (now : ℚ) (pageId : Text) :
    Option PyFloat :=
  match record, secret with
  | some record, some secret =>
      if secret = [] then some (.finite 0)
      else record.decayedBoost (opaquePageKey scope pageId secret) now config
  | _, _ => some (.finite 0)

/-- The pages in the order of their scores, absent where a boost raises. -/
def derivedOrientationPages (index : WikiIndex) (scope : ManagedContextScope)
    (record : Option ManagedContextRecord) (config : ManagedContextConfig) (secret : Option Text)
    (includeDrafts : Bool) (now : ℚ) : Option (List WikiPage) :=
  let pages := visiblePages index.pages includeDrafts
  let counts := pageDegreeCounts index.edges
  if pages.all fun page => (priorBoost record scope secret config now page.id).isSome then
    some (sortBy
      (derivedLe fun page => orientationScore page counts.1 counts.2
        ((priorBoost record scope secret config now page.id).getD (.finite 0))) pages)
  else none

end Keys

/-! ## The pages related to a query -/

section Queries

variable [Unicode] [Stemming]

def managedOrientationStopwords : List Text :=
  ["a", "an", "and", "are", "as", "at", "be", "by", "can", "could", "for", "from", "how", "i", "in",
    "is", "it", "of", "on", "or", "please", "show", "tell", "that", "the", "this", "to", "was",
    "what", "when", "where", "which", "who", "why", "with", "would"]

def lowInformationToken (token : Text) : Bool :=
  token.length = 1 && token.all Unicode.alphabetic

def significantQueryTokens (query : Text) : List Text :=
  (uniqueTokens (tokenize .legacy query)).filter fun token =>
    token ∉ managedOrientationStopwords && !lowInformationToken token

def pageMatchesQuery (page : WikiPage) (tokens : List Text) : Bool :=
  let haystack := Text.join " "
    [page.title, page.path, page.summary, page.text, Text.join " " page.tags,
      Text.join " " page.sourceRefs, Text.join " " page.headings]
  let pageTokens := tokenize .legacy haystack
  tokens.any fun token => token ∈ pageTokens

def adjacentPageIds (pageIds : List Text) (edges : List GraphEdge) : List Text :=
  let nodes := pageIds.map pageNode
  pageIds ++ edges.flatMap fun edge =>
    (if edge.source ∈ nodes ∧ Text.startsWith edge.target "page:" then
      [Text.removePrefix edge.target "page:"] else []) ++
    if edge.target ∈ nodes ∧ Text.startsWith edge.source "page:" then
      [Text.removePrefix edge.source "page:"] else []

/-- `{page.id: page for page in pages}.get(page_id)` -/
def pageById (pages : List WikiPage) (pageId : Text) : Option WikiPage :=
  pages.reverse.find? fun page => page.id = pageId

def matchedPageIds (pages : List WikiPage) (tokens : List Text)
    (evidenceResults : List (SearchResult PyFloat)) (minEvidenceScore : PyFloat) : List Text :=
  evidenceResults.filterMap fun result =>
    if result.score.lt minEvidenceScore then none
    else
      match pageById pages result.pageId with
      | none => none
      | some page => if pageMatchesQuery page tokens then some page.id else none

/-- The ids an orientation may show, `none` where it may show all. -/
def queryRelatedOrientationPageIds (index : WikiIndex) (query : Text)
    (evidenceResults : List (SearchResult PyFloat)) (includeDrafts : Bool)
    (minEvidenceScore : PyFloat) : Option (List Text) :=
  let tokens := significantQueryTokens query
  if Text.strip query = [] then none
  else if tokens = [] ∨ evidenceResults = [] then some []
  else
    let matched := matchedPageIds (visiblePages index.pages includeDrafts) tokens evidenceResults
      minEvidenceScore
    if matched = [] then some []
    else some (matched ++ adjacentPageIds matched index.edges)

end Queries

/-! ## Orientations -/

section Orientation

variable [Unicode] [Stemming] [Hashing] [Keying] [Numbers]

def orientationResult (snippetChars : Option Int) (config : ManagedContextConfig)
    (ranked : WikiPage × Nat) : SearchResult ℚ :=
  @toResult _ ℚ Floats.rational ranked.1 (1 - ranked.2 * (1 / 100)) "orientation"
    (snippetChars.orElse fun _ => some config.orientationSnippetChars) {}

/-- The pages of an orientation, the inner `none` where it does not apply and the outer one where
a boost raises. -/
def orientationPages (config : ManagedContextConfig) (record : Option ManagedContextRecord)
    (secret : Option Text) (index : WikiIndex) (scope : ManagedContextScope) (query : Text)
    (evidenceResults : List (SearchResult PyFloat)) (includeDrafts : Bool) (now : ℚ) :
    Option (Option (List WikiPage)) :=
  if !(config.enabled && managedContextAppliesToIndex index) then some none
  else
    match queryRelatedOrientationPageIds index query evidenceResults includeDrafts
      config.orientationMinEvidenceScore with
    | none =>
        (derivedOrientationPages index scope record config secret includeDrafts now).map
          fun pages => some (takeLimit config.orientationLimit pages)
    | some related =>
        if related = [] then some (some [])
        else
          (derivedOrientationPages index scope record config secret includeDrafts now).map
            fun pages => some (takeLimit (min config.orientationLimit config.queryOrientationLimit)
              (pages.filter fun page => page.id ∈ related))

def orientation (config : ManagedContextConfig) (record : Option ManagedContextRecord)
    (secret : Option Text) (index : WikiIndex) (scope : ManagedContextScope) (query : Text)
    (evidenceResults : List (SearchResult PyFloat)) (includeDrafts : Bool)
    (snippetChars : Option Int) (now : ℚ) : Option (Option (List (SearchResult ℚ))) :=
  (orientationPages config record secret index scope query evidenceResults includeDrafts now).map
    (Option.map fun pages => pages.zipIdx.map (orientationResult snippetChars config))

end Orientation

/-! ## Degrees -/

section Degrees

theorem startsWith_pageNode (pageId : Text) : Text.startsWith (pageNode pageId) "page:" = true := by
  simp [Text.startsWith, pageNode]

theorem removePrefix_pageNode (pageId : Text) :
    Text.removePrefix (pageNode pageId) "page:" = pageId := by
  simp [Text.removePrefix, Text.startsWith, pageNode]

theorem countOf_pageDegreeCounts_from (edges : List GraphEdge)
    (counts : List (Text × Nat) × List (Text × Nat)) (pageId : Text) :
    let found := edges.foldl
      (fun counts edge =>
        (if Text.startsWith edge.target "page:" then increment counts.1 edge.target else counts.1,
          if Text.startsWith edge.source "page:" then increment counts.2 edge.source else counts.2))
      counts
    countOf found.1 (pageNode pageId) = countOf counts.1 (pageNode pageId) +
        edges.countP (fun edge => edge.target = pageNode pageId) ∧
      countOf found.2 (pageNode pageId) = countOf counts.2 (pageNode pageId) +
        edges.countP (fun edge => edge.source = pageNode pageId) := by
  induction edges generalizing counts with
  | nil => simp
  | cons edge rest inductionHypothesis =>
      have step : ∀ (table : List (Text × Nat)) (node : Text),
          countOf (if Text.startsWith node "page:" then increment table node else table)
              (pageNode pageId) =
            countOf table (pageNode pageId) + if node = pageNode pageId then 1 else 0 := by
        intro table node
        by_cases isPage : Text.startsWith node "page:" = true
        · rw [if_pos isPage, countOf_increment]
        · have other : node ≠ pageNode pageId := by
            rintro rfl
            exact isPage (startsWith_pageNode pageId)
          rw [if_neg isPage, if_neg other, Nat.add_zero]
      obtain ⟨entering, leaving⟩ := inductionHypothesis
        (if Text.startsWith edge.target "page:" then increment counts.1 edge.target else counts.1,
          if Text.startsWith edge.source "page:" then increment counts.2 edge.source else counts.2)
      simp only [List.foldl_cons, List.countP_cons, decide_eq_true_eq]
      constructor
      · rw [entering, step]
        omega
      · rw [leaving, step]
        omega

theorem countOf_inbound (edges : List GraphEdge) (pageId : Text) :
    countOf (pageDegreeCounts edges).1 (pageNode pageId) =
      edges.countP fun edge => edge.target = pageNode pageId := by
  exact (countOf_pageDegreeCounts_from edges ([], []) pageId).1.trans (Nat.zero_add _)

theorem countOf_outbound (edges : List GraphEdge) (pageId : Text) :
    countOf (pageDegreeCounts edges).2 (pageNode pageId) =
      edges.countP fun edge => edge.source = pageNode pageId := by
  exact (countOf_pageDegreeCounts_from edges ([], []) pageId).2.trans (Nat.zero_add _)

end Degrees

/-! ## Sorting -/

section Sorting

variable {Item : Type}

theorem sortBy_congr {le other : Item → Item → Bool} {items : List Item}
    (agree : items.Pairwise fun first second => le first second = other first second) :
    sortBy le items = sortBy other items := by
  induction agree with
  | nil => rfl
  | @cons item rest same _ inductionHypothesis =>
      have insert : ∀ sorted : List Item, (∀ value ∈ sorted, value ∈ rest) →
          sorted.orderedInsert (fun first second => le first second = true) item =
            sorted.orderedInsert (fun first second => other first second = true) item := by
        intro sorted
        induction sorted with
        | nil => intro _; rfl
        | cons value others insertOthers =>
            intro within
            simp only [List.orderedInsert_cons, same value (within value List.mem_cons_self)]
            rw [insertOthers fun value among => within value (List.mem_cons_of_mem _ among)]
      have sorted := insert (sortBy le rest) fun value among => mem_sortBy.mp among
      calc
        sortBy le (item :: rest)
            = (sortBy le rest).orderedInsert (fun first second => le first second = true) item :=
          rfl
        _ = (sortBy le rest).orderedInsert (fun first second => other first second = true) item :=
            sorted
        _ = sortBy other (item :: rest) := by
            rw [inductionHypothesis]
            rfl

variable {Key : Type} [LinearOrder Key]

theorem sortBy_eq_zipIdx {le : Item → Item → Bool} {key : Item × Nat → Key} {items : List Item}
    (compares : items.zipIdx.Pairwise fun first second =>
      (le first.1 second.1 = true ↔ key first ≤ key second)) :
    sortBy le items =
      (sortBy (fun first second => decide (key first ≤ key second)) items.zipIdx).map Prod.fst := by
  have unzipped : (sortBy (fun first second => le first.1 second.1) items.zipIdx).map Prod.fst =
      sortBy le items := by
    rw [sortBy, List.map_insertionSort (fun first second => le first.1 second.1 = true)
      (fun first second => le first second = true) Prod.fst items.zipIdx fun _ _ _ _ => Iff.rfl,
      List.zipIdx_map_fst]
    rfl
  rw [← unzipped]
  congr 1
  apply sortBy_congr
  exact compares.imp fun same => Bool.eq_iff_iff.mpr (by simpa using same)

end Sorting

/-! ## Edges of unapproved pages -/

section Drafts

variable [Unicode]

/-- An edge whose source is an unapproved page. -/
def isDraftEdge (pages : List WikiPage) (edge : GraphEdge) : Bool :=
  pages.any fun page => !page.approvedForServing && decide (edge.source = pageNode page.id)

/-- Indexes of the same pages, whose edges differ in edges of unapproved pages only. -/
structure DiffersByDraftEdges (index other : WikiIndex) : Prop where
  pages : other.pages = index.pages
  adapter : other.adapter = index.adapter
  implementation : other.implementation = index.implementation
  edges : other.edges.filter (fun edge => !isDraftEdge index.pages edge) =
    index.edges.filter fun edge => !isDraftEdge index.pages edge

variable [Stemming]

theorem mem_matchedPageIds {pages : List WikiPage} {tokens : List Text}
    {evidenceResults : List (SearchResult PyFloat)} {minEvidenceScore : PyFloat} {pageId : Text} :
    pageId ∈ matchedPageIds pages tokens evidenceResults minEvidenceScore ↔
      ∃ result ∈ evidenceResults, result.score.lt minEvidenceScore = false ∧
        ∃ page, pageById pages result.pageId = some page ∧
          pageMatchesQuery page tokens = true ∧ page.id = pageId := by
  unfold matchedPageIds
  rw [List.mem_filterMap]
  constructor
  · rintro ⟨result, among, found⟩
    by_cases low : result.score.lt minEvidenceScore = true
    · rw [if_pos low] at found
      cases found
    · rw [if_neg low] at found
      cases named : pageById pages result.pageId with
      | none =>
          rw [named] at found
          cases found
      | some page =>
          rw [named] at found
          simp only at found
          split at found
          case isTrue holds =>
            exact ⟨result, among, Bool.not_eq_true _ ▸ low, page, named, holds, Option.some.inj found⟩
          case isFalse => cases found
  · rintro ⟨result, among, high, page, named, holds, same⟩
    refine ⟨result, among, ?_⟩
    rw [if_neg (by rw [high]; exact Bool.false_ne_true), named]
    simp only [holds, if_true, same]

theorem pageMatchesQuery_tokens {page : WikiPage} {tokens : List Text}
    (holds : pageMatchesQuery page tokens = true) : tokens ≠ [] := by
  rintro rfl
  simp [pageMatchesQuery] at holds

end Drafts

/-! ## What leads an orientation -/

section Leading

def shapeScore (page : WikiPage) : ℚ :=
  (min page.sourceRefs.length 5 : Nat) * (5 / 10) + (min page.headings.length 8 : Nat) * (2 / 10) +
    1 / (1 + (pathPartCount page.path - 1 : Nat))

def degreeScore (edges : List GraphEdge) (pageId : Text) : ℚ :=
  (edges.countP fun edge => edge.target = pageNode pageId) * 2 +
    (edges.countP fun edge => edge.source = pageNode pageId) * (4 / 10)

theorem orientationScore_eq (page : WikiPage) (edges : List GraphEdge) (boost : PyFloat) :
    orientationScore page (pageDegreeCounts edges).1 (pageDegreeCounts edges).2 boost =
      (PyFloat.finite (degreeScore edges page.id + shapeScore page)).add boost := by
  unfold orientationScore degreeScore shapeScore
  rw [countOf_inbound, countOf_outbound]
  ring_nf

/-- The score of a page by all edges, those of unapproved pages among them. -/
def pageScore (edges : List GraphEdge) (boost : WikiPage → PyFloat) (page : WikiPage) : PyFloat :=
  (PyFloat.finite (degreeScore edges page.id + shapeScore page)).add (boost page)

/-- A page comes before another one; pages that compare alike stay in their positions. -/
def comesBefore (score : WikiPage → PyFloat) (first second : WikiPage × Nat) : Bool :=
  derivedLe score first.1 second.1 &&
    (!derivedLe score second.1 first.1 || decide (first.2 < second.2))

section Related

variable [Unicode] [Stemming] (config : ManagedContextConfig) (pages : List WikiPage)
  (query : Text) (evidenceResults : List (SearchResult PyFloat)) (boost : WikiPage → PyFloat)

/-- The query is blank, or the evidence names the page or a neighbour of it. -/
def isRelated (edges : List GraphEdge) (page : WikiPage) : Bool :=
  let matched := matchedPageIds (visiblePages pages false) (significantQueryTokens query)
    evidenceResults config.orientationMinEvidenceScore
  decide (Text.strip query = []) || decide (page.id ∈ matched) || edges.any fun edge =>
    (decide (edge.source ∈ matched.map pageNode) && decide (edge.target = pageNode page.id)) ||
      (decide (edge.target ∈ matched.map pageNode) && decide (edge.source = pageNode page.id))

omit [Stemming] in
/-- How many pages an orientation has at most. -/
def orientationSize : Int :=
  if Text.strip query = [] then config.orientationLimit
  else min config.orientationLimit config.queryOrientationLimit

/-- Fewer related pages come before this one than an orientation has at most. -/
def Leads (edges : List GraphEdge) (entry : WikiPage × Nat) : Prop :=
  isRelated config pages query evidenceResults edges entry.1 = true ∧
    (visiblePages pages false).zipIdx.countP (fun other =>
      isRelated config pages query evidenceResults edges other.1 &&
        comesBefore (pageScore edges boost) other entry) < (orientationSize config query).toNat

instance (edges : List GraphEdge) (entry : WikiPage × Nat) :
    Decidable (Leads config pages query evidenceResults boost edges entry) :=
  inferInstanceAs (Decidable (_ ∧ _))

/-- The edges change neither which approved pages lead nor how these compare. -/
structure OrderKept (edges otherEdges : List GraphEdge) : Prop where
  leads : ∀ entry ∈ (visiblePages pages false).zipIdx,
    (Leads config pages query evidenceResults boost otherEdges entry ↔
      Leads config pages query evidenceResults boost edges entry)
  compare : ∀ first ∈ (visiblePages pages false).zipIdx,
    ∀ second ∈ (visiblePages pages false).zipIdx,
      Leads config pages query evidenceResults boost edges first →
      Leads config pages query evidenceResults boost edges second →
      comesBefore (pageScore otherEdges boost) first second =
        comesBefore (pageScore edges boost) first second

end Related

end Leading

/-! ## Sorting by keys -/

section Keyed

/-- Pages in order of descending score, then role, then path. -/
def pageSortKey (score : WikiPage → PyFloat) (page : WikiPage) :
    (WithBot (WithTop ℚ))ᵒᵈ ×ₗ Nat ×ₗ Text :=
  toLex (OrderDual.toDual (score page).level, toLex (roleRank page.role, page.path))

def entryKey (score : WikiPage → PyFloat) (entry : WikiPage × Nat) :
    ((WithBot (WithTop ℚ))ᵒᵈ ×ₗ Nat ×ₗ Text) ×ₗ Nat :=
  toLex (pageSortKey score entry.1, entry.2)

variable {score : WikiPage → PyFloat} (number : ∀ page, score page ≠ .nan)

include number

theorem derivedLe_iff_key (first second : WikiPage) :
    derivedLe score first second = true ↔ pageSortKey score first ≤ pageSortKey score second := by
  have above := PyFloat.lt_iff_level (number second) (number first)
  have below := PyFloat.lt_iff_level (number first) (number second)
  simp only [pageSortKey, Prod.Lex.toLex_le_toLex, OrderDual.toDual_lt_toDual, derivedLe,
    OrderDual.toDual_inj]
  rcases lt_trichotomy (score first).level (score second).level with less | same | more
  · simp [below.mpr less, Bool.eq_false_iff.mpr (mt above.mp less.not_gt), less.not_gt, less.ne]
  · simp only [Bool.eq_false_iff.mpr (mt above.mp same.not_gt),
      Bool.eq_false_iff.mpr (mt below.mp same.not_lt), same, lt_irrefl, false_or, true_and]
    by_cases roles : roleRank first.role = roleRank second.role <;> simp [roles]
  · simp [above.mpr more, more]

theorem comesBefore_iff_key (first second : WikiPage × Nat) :
    comesBefore score first second = true ↔ entryKey score first < entryKey score second := by
  rw [comesBefore, entryKey, entryKey, Prod.Lex.toLex_lt_toLex, Bool.and_eq_true, Bool.or_eq_true,
    Bool.not_eq_true', ← Bool.not_eq_true, derivedLe_iff_key number, derivedLe_iff_key number, not_le,
    decide_eq_true_eq]
  constructor
  · rintro ⟨ordered, less | position⟩
    · exact Or.inl less
    · rcases ordered.lt_or_eq with less | same
      · exact Or.inl less
      · exact Or.inr ⟨same, position⟩
  · rintro (less | ⟨same, position⟩)
    · exact ⟨less.le, Or.inl less⟩
    · exact ⟨same.le, Or.inr position⟩

theorem sortBy_derivedLe (pages : List WikiPage) :
    sortBy (derivedLe score) pages =
      (sortBy (fun first second => decide (entryKey score first ≤ entryKey score second))
        pages.zipIdx).map Prod.fst := by
  apply sortBy_eq_zipIdx
  have positions : pages.zipIdx.Pairwise fun first second => first.2 < second.2 := by
    rw [← List.pairwise_map (f := Prod.snd) (R := fun first second => first < second),
      List.zipIdx_map_snd]
    exact List.pairwise_lt_range'
  refine positions.imp fun {first second} earlier => ?_
  rw [derivedLe_iff_key number, entryKey, entryKey, Prod.Lex.toLex_le_toLex, le_iff_lt_or_eq]
  simp [earlier.le]

end Keyed

/-! ## Leading entries -/

section Entries

variable [Unicode] [Stemming] {config : ManagedContextConfig} {pages : List WikiPage}
  {query : Text} {evidenceResults : List (SearchResult PyFloat)} {boost : WikiPage → PyFloat}
  {edges : List GraphEdge}

omit [Unicode] [Stemming] in
theorem nodup_positions (items : List WikiPage) : (items.zipIdx.map Prod.snd).Nodup := by
  rw [List.zipIdx_map_snd]
  exact List.nodup_range'

def sortedEntries (score : WikiPage → PyFloat) (items : List WikiPage) : List (WikiPage × Nat) :=
  sortBy (fun first second => decide (entryKey score first ≤ entryKey score second)) items.zipIdx

omit [Unicode] [Stemming] in
theorem sortedEntries_pairwise (score : WikiPage → PyFloat) (items : List WikiPage) :
    (sortedEntries score items).Pairwise fun first second =>
      entryKey score first < entryKey score second := by
  have ordered : (sortedEntries score items).Pairwise fun first second =>
      entryKey score first ≤ entryKey score second :=
    sortBy_pairwise fun _ _ _ _ => decide_eq_true_iff
  have apart : (sortedEntries score items).Pairwise fun first second => first.2 ≠ second.2 := by
    have positions := ((sortBy_perm (fun first second => decide (entryKey score first ≤
      entryKey score second)) items.zipIdx).map Prod.snd).nodup_iff.mpr (nodup_positions items)
    exact List.pairwise_map.mp positions
  refine (ordered.and apart).imp ?_
  rintro first second ⟨below, other⟩
  refine lt_of_le_of_ne below fun same => other ?_
  simp only [entryKey, toLex_inj, Prod.mk.injEq] at same
  exact same.2

variable (config pages query evidenceResults boost edges) in
/-- The pages of an orientation, with their positions. -/
def leadingEntries : List (WikiPage × Nat) :=
  takeLimit (orientationSize config query)
    ((sortedEntries (pageScore edges boost) (visiblePages pages false)).filter fun entry =>
      isRelated config pages query evidenceResults edges entry.1)

theorem leadingEntries_pairwise :
    (leadingEntries config pages query evidenceResults boost edges).Pairwise fun first second =>
      entryKey (pageScore edges boost) first < entryKey (pageScore edges boost) second :=
  (sortedEntries_pairwise _ _).sublist ((takeLimit_sublist _ _).trans List.filter_sublist)

variable (number : ∀ page, pageScore edges boost page ≠ .nan)
  (limited : 0 ≤ orientationSize config query)

include number limited

theorem mem_leadingEntries {entry : WikiPage × Nat} :
    entry ∈ leadingEntries config pages query evidenceResults boost edges ↔
      entry ∈ (visiblePages pages false).zipIdx ∧
        Leads config pages query evidenceResults boost edges entry := by
  have sorted := (sortedEntries_pairwise (pageScore edges boost) (visiblePages pages false)).filter
    fun entry => isRelated config pages query evidenceResults edges entry.1
  have same := sortBy_perm (fun first second => decide (entryKey (pageScore edges boost) first ≤
    entryKey (pageScore edges boost) second)) (visiblePages pages false).zipIdx
  rw [leadingEntries, takeLimit, if_pos limited, Ranking.take_eq_filter_rank sorted,
    List.mem_filter, List.mem_filter, sortedEntries, mem_sortBy, Leads, and_assoc]
  refine and_congr_right fun _ => and_congr_right fun _ => ?_
  rw [decide_eq_true_eq, Ranking.rank, List.countP_filter, same.countP_eq]
  have counted : (visiblePages pages false).zipIdx.countP (fun other =>
        decide (entryKey (pageScore edges boost) other < entryKey (pageScore edges boost) entry) &&
          isRelated config pages query evidenceResults edges other.1) =
      (visiblePages pages false).zipIdx.countP (fun other =>
        isRelated config pages query evidenceResults edges other.1 &&
          comesBefore (pageScore edges boost) other entry) := by
    apply List.countP_congr
    intro other _
    simp [comesBefore_iff_key number, and_comm]
  rw [counted]

theorem leadingEntries_down {page : WikiPage} {position earlier : Nat}
    (leads : (page, position) ∈ leadingEntries config pages query evidenceResults boost edges)
    (less : earlier < position) (among : (page, earlier) ∈ (visiblePages pages false).zipIdx) :
    (page, earlier) ∈ leadingEntries config pages query evidenceResults boost edges := by
  rw [mem_leadingEntries number limited] at leads ⊢
  obtain ⟨-, related, few⟩ := leads
  refine ⟨among, related, lt_of_le_of_lt ?_ few⟩
  apply List.countP_mono_left
  intro other _ counted
  rw [Bool.and_eq_true, comesBefore_iff_key number] at counted ⊢
  refine ⟨counted.1, counted.2.trans ?_⟩
  rw [entryKey, entryKey, Prod.Lex.toLex_lt_toLex]
  exact Or.inr ⟨rfl, less⟩

omit [Unicode] [Stemming] number limited in
/-- Pages in strict orders, each with the equal pages of lesser positions, have their positions. -/
theorem eq_of_map_fst_eq {Key : Type} [LinearOrder Key] {universe_ : List (WikiPage × Nat)}
    {firstKey secondKey : WikiPage × Nat → Key}
    (firstDown : ∀ page, ∀ earlier position, earlier < position →
      firstKey (page, earlier) < firstKey (page, position))
    (secondDown : ∀ page, ∀ earlier position, earlier < position →
      secondKey (page, earlier) < secondKey (page, position))
    {first second : List (WikiPage × Nat)}
    (firstSorted : first.Pairwise fun left right => firstKey left < firstKey right)
    (secondSorted : second.Pairwise fun left right => secondKey left < secondKey right)
    (firstWithin : first ⊆ universe_) (secondWithin : second ⊆ universe_)
    (firstClosed : ∀ page earlier position, (page, position) ∈ first → earlier < position →
      (page, earlier) ∈ universe_ → (page, earlier) ∈ first)
    (secondClosed : ∀ page earlier position, (page, position) ∈ second → earlier < position →
      (page, earlier) ∈ universe_ → (page, earlier) ∈ second)
    (same : first.map Prod.fst = second.map Prod.fst) : first = second := by
  induction first using List.reverseRecOn generalizing second with
  | nil => exact (List.map_eq_nil_iff.mp same.symm).symm
  | append_singleton front last inductionHypothesis =>
      rcases List.eq_nil_or_concat' second with rfl | ⟨otherFront, otherLast, rfl⟩
      · simp at same
      rw [List.map_append, List.map_append] at same
      obtain ⟨fronts, lasts⟩ := List.append_inj' same rfl
      rw [List.pairwise_append] at firstSorted secondSorted
      -- A page of a lesser position than one in the front is not the last one.
      have front_closed : ∀ page earlier position, (page, position) ∈ front → earlier < position →
          (page, earlier) ∈ universe_ → (page, earlier) ∈ front := by
        intro page earlier position among less inUniverse
        have closed := firstClosed page earlier position (List.mem_append_left _ among) less inUniverse
        refine (List.mem_append.mp closed).resolve_right fun isLast => ?_
        exact (firstSorted.2.2 _ among _ isLast).not_gt (firstDown page earlier position less)
      have other_closed : ∀ page earlier position, (page, position) ∈ otherFront →
          earlier < position → (page, earlier) ∈ universe_ → (page, earlier) ∈ otherFront := by
        intro page earlier position among less inUniverse
        have closed := secondClosed page earlier position (List.mem_append_left _ among) less
          inUniverse
        refine (List.mem_append.mp closed).resolve_right fun isLast => ?_
        exact (secondSorted.2.2 _ among _ isLast).not_gt (secondDown page earlier position less)
      obtain rfl := inductionHypothesis firstSorted.1 secondSorted.1
        (fun _ among => firstWithin (List.mem_append_left _ among))
        (fun _ among => secondWithin (List.mem_append_left _ among)) front_closed other_closed fronts
      obtain ⟨page, position⟩ := last
      obtain ⟨otherPage, otherPosition⟩ := otherLast
      obtain rfl : page = otherPage := by simpa using lasts
      have firstIn : (page, position) ∈ front ++ [(page, position)] := by simp
      have secondIn : (page, otherPosition) ∈ front ++ [(page, otherPosition)] := by simp
      rcases lt_trichotomy position otherPosition with less | rfl | more
      · have closed := secondClosed page position otherPosition secondIn less (firstWithin firstIn)
        have inFront := (List.mem_append.mp closed).resolve_right (by simp [less.ne])
        exact absurd (firstSorted.2.2 _ inFront _ (List.mem_singleton_self _)) (lt_irrefl _)
      · rfl
      · have closed := firstClosed page otherPosition position firstIn more (secondWithin secondIn)
        have inFront := (List.mem_append.mp closed).resolve_right (by simp [more.ne])
        exact absurd (secondSorted.2.2 _ inFront _ (List.mem_singleton_self _)) (lt_irrefl _)

end Entries

/-! ## Two orders of one list -/

section Orders

variable {Item Key : Type} [LinearOrder Key]

/-- Two strictly ordered lists are equal when they have the same members and compare them alike. -/
theorem eq_iff_of_pairwise {firstKey secondKey : Item → Key} {first second : List Item}
    (firstSorted : first.Pairwise fun left right => firstKey left < firstKey right)
    (secondSorted : second.Pairwise fun left right => secondKey left < secondKey right) :
    first = second ↔ (∀ item, item ∈ first ↔ item ∈ second) ∧
      ∀ left ∈ first, ∀ right ∈ first,
        (firstKey left < firstKey right ↔ secondKey left < secondKey right) := by
  constructor
  · rintro rfl
    refine ⟨fun _ => Iff.rfl, fun left leftIn right rightIn => ?_⟩
    have both := (firstSorted.and secondSorted).imp
      (S := fun left right => (firstKey left < firstKey right ∧ secondKey left < secondKey right) ∨
        (firstKey right < firstKey left ∧ secondKey right < secondKey left)) Or.inl
    have symmetric : Std.Symm fun left right : Item =>
        (firstKey left < firstKey right ∧ secondKey left < secondKey right) ∨
          (firstKey right < firstKey left ∧ secondKey right < secondKey left) :=
      ⟨fun _ _ => Or.symm⟩
    by_cases same : left = right
    · simp [same]
    · rcases both.forall leftIn rightIn same with ⟨below, alsoBelow⟩ | ⟨above, alsoAbove⟩
      · simp [below, alsoBelow]
      · simp [above.not_gt, alsoAbove.not_gt]
  · rintro ⟨members, compare⟩
    have firstNodup : first.Nodup := firstSorted.imp fun less => fun same => less.ne (congrArg _ same)
    have secondNodup : second.Nodup :=
      secondSorted.imp fun less => fun same => less.ne (congrArg _ same)
    have permuted : first.Perm second := (List.perm_ext_iff_of_nodup firstNodup secondNodup).mpr members
    have resorted : first.Pairwise fun left right => secondKey left < secondKey right :=
      firstSorted.imp_of_mem fun leftIn rightIn less => (compare _ leftIn _ rightIn).mp less
    exact permuted.eq_of_pairwise (fun _ _ _ _ below above => absurd above below.not_gt) resorted
      secondSorted

end Orders

/-! ## Orientations of two edge lists -/

section Independence

variable [Unicode] [Stemming] [Hashing] [Keying] [Numbers]

/-- The boost of a page, zero where computing it raises. -/
def boostOf (record : Option ManagedContextRecord) (scope : ManagedContextScope)
    (secret : Option Text) (config : ManagedContextConfig) (now : ℚ) (page : WikiPage) : PyFloat :=
  (priorBoost record scope secret config now page.id).getD (.finite 0)

variable {config : ManagedContextConfig} {record : Option ManagedContextRecord}
  {scope : ManagedContextScope} {secret : Option Text} {query : Text}
  {evidenceResults : List (SearchResult PyFloat)} {now : ℚ}

omit [Unicode] [Stemming] [Hashing] [Keying] [Numbers] in
theorem div?_isSome {first second : PyFloat} (nonzero : second ≠ .finite 0) :
    (first.div? second).isSome = true := by
  unfold PyFloat.div?
  rw [if_neg nonzero]
  cases first <;> cases second <;> simp

omit [Unicode] [Stemming] in
/-- Only a maximum of zero makes a boost raise, and only a maximal boost of NaN makes it NaN. -/
theorem priorBoost_spec (counter : config.maxHitCounter.le (.finite 0) = false)
    (number : config.maxBoost ≠ .nan) (pageId : Text) :
    ∃ boost, priorBoost record scope secret config now pageId = some boost ∧ boost ≠ .nan := by
  have zero : ∃ boost, some (PyFloat.finite 0) = some boost ∧ boost ≠ .nan := ⟨_, rfl, by simp⟩
  unfold priorBoost
  split
  next record secret =>
    split
    · exact zero
    · unfold ManagedContextRecord.decayedBoost
      split
      · exact zero
      · dsimp only
        split
        · exact zero
        · have nonzero : config.maxHitCounter ≠ .finite 0 := by
            intro none_
            rw [none_] at counter
            exact absurd counter (by decide)
          have smaller (share : PyFloat) : config.maxBoost.min share ≠ .nan := by
            unfold PyFloat.min
            split
            next less => cases share <;> simp_all [PyFloat.lt]
            next => exact number
          obtain ⟨share, divided⟩ := Option.isSome_iff_exists.mp (div?_isSome nonzero)
          rw [divided, Option.map_some]
          exact ⟨_, rfl, smaller _⟩
  · exact zero

omit [Unicode] [Stemming] [Hashing] [Keying] [Numbers] in
theorem pageScore_number {boost : WikiPage → PyFloat} (number : ∀ page, boost page ≠ .nan)
    (edges : List GraphEdge) (page : WikiPage) : pageScore edges boost page ≠ .nan := by
  unfold pageScore
  have isNumber := number page
  cases shape : boost page with
  | finite value =>
      rw [PyFloat.add, PyFloat.ofExact]
      split_ifs <;> simp
  | inf => simp [PyFloat.add]
  | negInf => simp [PyFloat.add]
  | nan => exact absurd shape isNumber

omit [Hashing] [Keying] [Numbers] in
theorem isRelated_iff {pages : List WikiPage} {edges : List GraphEdge} {page : WikiPage}
    (asked : Text.strip query ≠ []) :
    let matched := matchedPageIds (visiblePages pages false) (significantQueryTokens query)
      evidenceResults config.orientationMinEvidenceScore
    isRelated config pages query evidenceResults edges page = true ↔
      page.id ∈ matched ++ adjacentPageIds matched edges := by
  intro matched
  have neighbour : ∀ (edge : GraphEdge), page.id ∈
      ((if edge.source ∈ matched.map pageNode ∧ Text.startsWith edge.target "page:" then
          [Text.removePrefix edge.target "page:"] else []) ++
        if edge.target ∈ matched.map pageNode ∧ Text.startsWith edge.source "page:" then
          [Text.removePrefix edge.source "page:"] else []) ↔
      edge.source ∈ matched.map pageNode ∧ edge.target = pageNode page.id ∨
        edge.target ∈ matched.map pageNode ∧ edge.source = pageNode page.id := by
    have named : ∀ node : Text, Text.startsWith node "page:" = true ∧
        page.id = Text.removePrefix node "page:" ↔ node = pageNode page.id := by
      intro node
      constructor
      · rintro ⟨isPage, same⟩
        obtain ⟨rest, rfl⟩ := List.isPrefixOf_iff_prefix.mp isPage
        rw [same]
        exact congrArg pageNode (removePrefix_pageNode rest).symm
      · rintro rfl
        exact ⟨startsWith_pageNode _, (removePrefix_pageNode _).symm⟩
    have picked : ∀ (linked isPage : Prop) [Decidable (linked ∧ isPage)] (pageId : Text),
        page.id ∈ (if linked ∧ isPage then [pageId] else []) ↔
          linked ∧ isPage ∧ page.id = pageId := by
      intro linked isPage _ pageId
      split <;> simp_all
    intro edge
    rw [List.mem_append, picked, picked, named, named]
  simp only [isRelated, asked, decide_false, Bool.false_or, Bool.or_eq_true, decide_eq_true_eq,
    List.any_eq_true, Bool.and_eq_true, List.mem_append, adjacentPageIds, List.mem_flatMap, neighbour,
    or_self_left]
  rfl

theorem orientationPages_eq (enabled : config.enabled = true)
    (valid : validateManagedContextConfig config = none) (number : config.maxBoost ≠ .nan)
    {index : WikiIndex} (applies : managedContextAppliesToIndex index = true) :
    orientationPages config record secret index scope query evidenceResults false now =
      some (some ((leadingEntries config index.pages query evidenceResults
        (boostOf record scope secret config now) index.edges).map Prod.fst)) := by
  have checked := configChecked_of_valid enabled valid
  have boosts := @priorBoost_spec _ _ _ _ record scope secret now checked.maxHitCounter number
  have numbers : ∀ page, pageScore index.edges (boostOf record scope secret config now) page ≠ .nan := by
    apply pageScore_number
    intro page
    obtain ⟨boost, found, isNumber⟩ := boosts page.id
    rw [boostOf, found]
    exact isNumber
  have derived : derivedOrientationPages index scope record config secret false now =
      some ((sortedEntries (pageScore index.edges (boostOf record scope secret config now))
        (visiblePages index.pages false)).map Prod.fst) := by
    have whole : (visiblePages index.pages false).all
        (fun page => (priorBoost record scope secret config now page.id).isSome) = true := by
      apply List.all_eq_true.mpr
      intro page _
      obtain ⟨boost, found, -⟩ := boosts page.id
      rw [found]
      rfl
    rw [derivedOrientationPages, sortedEntries, ← sortBy_derivedLe numbers]
    refine (if_pos whole).trans ?_
    simp only [orientationScore_eq]
    rfl
  unfold orientationPages
  rw [if_neg (by simp [enabled, applies]), derived]
  by_cases asked : Text.strip query = []
  · have all : ∀ page, isRelated config index.pages query evidenceResults index.edges page = true :=
      fun page => by simp [isRelated, asked]
    simp only [queryRelatedOrientationPageIds, if_pos asked, Option.map_some, leadingEntries,
      orientationSize, all, List.filter_true, takeLimit_map]
  · have related : ∀ page, isRelated config index.pages query evidenceResults index.edges page =
        true ↔ page.id ∈ matchedPageIds (visiblePages index.pages false)
          (significantQueryTokens query) evidenceResults config.orientationMinEvidenceScore ++
        adjacentPageIds (matchedPageIds (visiblePages index.pages false)
          (significantQueryTokens query) evidenceResults config.orientationMinEvidenceScore)
          index.edges := fun page => isRelated_iff asked
    by_cases unmatched : matchedPageIds (visiblePages index.pages false)
        (significantQueryTokens query) evidenceResults config.orientationMinEvidenceScore = []
    · have nothing : ∀ page,
          isRelated config index.pages query evidenceResults index.edges page = false := by
        intro page
        rw [← Bool.not_eq_true, related]
        simp [unmatched, adjacentPageIds]
      simp only [queryRelatedOrientationPageIds, if_neg asked, unmatched, if_true, ite_self,
        leadingEntries, nothing, List.filter_false]
      simp [takeLimit]
    · obtain ⟨pageId, among⟩ := List.exists_mem_of_ne_nil _ unmatched
      obtain ⟨result, resultIn, -, page, -, matched, -⟩ := mem_matchedPageIds.mp among
      have some_ : ¬ (significantQueryTokens query = [] ∨ evidenceResults = []) := by
        rintro (noTokens | noEvidence)
        · exact pageMatchesQuery_tokens matched noTokens
        · exact List.ne_nil_of_mem resultIn noEvidence
      have ids : queryRelatedOrientationPageIds index query evidenceResults false
          config.orientationMinEvidenceScore = some (matchedPageIds (visiblePages index.pages false)
            (significantQueryTokens query) evidenceResults config.orientationMinEvidenceScore ++
              adjacentPageIds (matchedPageIds (visiblePages index.pages false)
                (significantQueryTokens query) evidenceResults config.orientationMinEvidenceScore)
                index.edges) := by
        simp only [queryRelatedOrientationPageIds, if_neg asked, if_neg some_, if_neg unmatched]
      simp only [ids, List.append_eq_nil_iff, unmatched, false_and, if_false, Option.map_some,
        leadingEntries, orientationSize, if_neg asked, ← takeLimit_map, List.filter_map]
      congr 4
      apply List.filter_congr
      intro entry _
      rw [Bool.eq_iff_iff, related]
      simp

omit [Hashing] [Keying] [Numbers] in
/-- The orientations of two indexes have the same pages where the same entries lead. -/
theorem leadingEntries_eq_iff {pages : List WikiPage} {boost : WikiPage → PyFloat}
    {edges otherEdges : List GraphEdge} (number : ∀ page, boost page ≠ .nan)
    (limited : 0 ≤ orientationSize config query) :
    (leadingEntries config pages query evidenceResults boost otherEdges).map Prod.fst =
        (leadingEntries config pages query evidenceResults boost edges).map Prod.fst ↔
      OrderKept config pages query evidenceResults boost edges otherEdges := by
  have members := fun {entry} => @mem_leadingEntries _ _ config pages query evidenceResults boost
    edges (pageScore_number number edges) limited entry
  have otherMembers := fun {entry} => @mem_leadingEntries _ _ config pages query evidenceResults
    boost otherEdges (pageScore_number number otherEdges) limited entry
  have positions : ∀ (score : WikiPage → PyFloat) (page : WikiPage) (earlier position : Nat),
      earlier < position → entryKey score (page, earlier) < entryKey score (page, position) := by
    intro score page earlier position less
    rw [entryKey, entryKey, Prod.Lex.toLex_lt_toLex]
    exact Or.inr ⟨rfl, less⟩
  have withPositions : (leadingEntries config pages query evidenceResults boost edges).map Prod.fst =
        (leadingEntries config pages query evidenceResults boost otherEdges).map Prod.fst ↔
      leadingEntries config pages query evidenceResults boost edges =
        leadingEntries config pages query evidenceResults boost otherEdges := by
    refine ⟨fun same => ?_, congrArg _⟩
    exact @eq_of_map_fst_eq _ _ (visiblePages pages false).zipIdx _ _ (positions _) (positions _) _ _
      leadingEntries_pairwise leadingEntries_pairwise (fun _ among => (members.mp among).1)
      (fun _ among => (otherMembers.mp among).1)
      (fun _ _ _ among less => leadingEntries_down (pageScore_number number edges) limited among less)
      (fun _ _ _ among less =>
        leadingEntries_down (pageScore_number number otherEdges) limited among less) same
  rw [eq_comm, withPositions, eq_iff_of_pairwise leadingEntries_pairwise leadingEntries_pairwise]
  simp only [members, otherMembers]
  constructor
  · rintro ⟨leads, compare⟩
    refine ⟨fun entry among => ?_, fun first firstIn second secondIn firstLeads secondLeads => ?_⟩
    · simpa [among, iff_comm] using leads entry
    · rw [Bool.eq_iff_iff, comesBefore_iff_key (pageScore_number number otherEdges),
        comesBefore_iff_key (pageScore_number number edges)]
      exact (compare first ⟨firstIn, firstLeads⟩ second ⟨secondIn, secondLeads⟩).symm
  · intro kept
    refine ⟨fun entry => and_congr_right fun among => (kept.leads entry among).symm, ?_⟩
    rintro first ⟨firstIn, firstLeads⟩ second ⟨secondIn, secondLeads⟩
    have same := kept.compare first firstIn second secondIn firstLeads secondLeads
    rw [Bool.eq_iff_iff, comesBefore_iff_key (pageScore_number number otherEdges),
      comesBefore_iff_key (pageScore_number number edges)] at same
    exact same.symm

omit [Hashing] [Keying] [Numbers] [Stemming] in
theorem applies_congr {index other : WikiIndex} (differs : DiffersByDraftEdges index other) :
    managedContextAppliesToIndex other = managedContextAppliesToIndex index := by
  simp only [managedContextAppliesToIndex, differs.pages, differs.adapter, differs.implementation]

end Independence

/-! ## A draft that reorders two pages -/

section Sample

def pageEdge (source target : Text) : GraphEdge where
  source := pageNode source
  target := pageNode target
  relation := "links_to"

/-- Codes that are their own inputs. -/
@[reducible]
def Keying.transparent : Keying where
  hmacSha256 secret payload := secret ++ payload

@[reducible]
def Numbers.exact : Numbers where
  halfPower exponent := 1 / 2 ^ exponent.floor.toNat
  floatOfText _ := none
  intOfText _ := none

attribute [local instance] Unicode.ascii Stemming.identity Hashing.transparent Keying.transparent
  Numbers.exact

def orientedPages : List WikiPage :=
  [{ id := "alpha", title := "Alpha", path := "alpha.md", role := .topic, text := "Alpha" },
    { id := "beta", title := "Beta", path := "beta.md", role := .topic, text := "Beta" },
    { id := "plan", title := "Plan", path := "plan.md", role := .topic, text := "Plan",
      reviewState := .draft }]

def orientedIndex (edges : List GraphEdge) : WikiIndex where
  root := ["srv", "wiki"]
  title := "Wiki"
  description := []
  pages := orientedPages
  nodes := []
  edges := edges
  adapter := "generic-markdown"
  implementation := "generic-markdown"
  metadata := []

def orientedScope : ManagedContextScope := ⟨"default", "wiki", "generic-markdown", "p", "s"⟩

/-- An orientation without a query and without a record. -/
def shownResults (index : WikiIndex) : Option (Option (List (SearchResult ℚ))) :=
  orientation { enabled := true } none (some "secret") index orientedScope [] [] false none 0

def shownIds (edges : List GraphEdge) : Option (Option (List Text)) :=
  (shownResults (orientedIndex edges)).map (Option.map (List.map SearchResult.pageId))

/-- A link of the draft to another site. -/
def externalEdge : GraphEdge where
  source := pageNode "plan"
  target := "url:https://example.org"
  relation := "links_to"

end Sample

end LlmWikiServe.ManagedContext
