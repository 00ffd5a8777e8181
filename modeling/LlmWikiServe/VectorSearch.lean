import LlmWikiServe.SearchResults
import LlmWikiServe.VectorChunks

/-!
# Vector search

Pages are ranked by the best cosine of their chunk records.  The scores come from the array
library, for all records in blocks or for some of them, or else from a plain loop over the
records whenever the library does not answer.
-/

namespace LlmWikiServe.VectorSearch

open VectorChunks (normalizedPageText)

structure VectorChunkRecord (R : Type) where
  pageId : Text
  ordinal : Int
  start : Int
  end_ : Int
  vector : List R
  norm : R

structure VectorIndex (R : Type) where
  records : List (VectorChunkRecord R)
  dimension : Nat
  vectorMatrix : Option (List (List R))
  vectorNorms : Option (List R)

inductive VectorSearchError where
  | inconsistentPositions
  | unexpectedDimension
  | missingVectors
  | unreadableRow
  | invalidRow
  | embeddingDimension
  | nonFiniteEmbedding
  deriving DecidableEq

def VectorSearchError.text : VectorSearchError → Text
  | .inconsistentPositions => "Vector index record positions are inconsistent."
  | .unexpectedDimension => "Vector cache record has an unexpected dimension."
  | .missingVectors =>
      "Vector cache record is missing in-memory vectors. Rebuild the vector cache."
  | .unreadableRow => "Vector cache matrix row could not be read. Rebuild the vector cache."
  | .invalidRow =>
      "Vector cache matrix row has invalid shape or values. Rebuild the vector cache."
  | .embeddingDimension => "Vector provider produced an embedding with an unexpected dimension."
  | .nonFiniteEmbedding => "Vector provider produced a non-finite embedding value."

/-- Why an iteration over scores stops: `_VectorScoreUnavailable`, an error or the `ValueError` of
a strict `zip`. -/
inductive ScoreFailure where
  | unavailable
  | error (error : VectorSearchError)
  | unequalLengths
  deriving DecidableEq

def vectorFilteredCopyMaxRows : Nat := 128

def vectorScoreBlockRows : Nat := 2048

/-! ## Snippets of chunks -/

/-- The part of a page the snippet of a chunk is taken from. -/
def chunkWindow {R : Type} (page : WikiPage) (record : VectorChunkRecord R) (limit : Nat) : Text :=
  let text := normalizedPageText page.text
  if 0 ≤ record.start ∧ record.start < record.end_ ∧ record.end_ ≤ text.length then
    let start := record.start.toNat - 80
    Text.slice start (max record.end_.toNat (start + limit) - start) text
  else if page.text = [] then page.summary
  else page.text

def chunkSnippet {R : Type} (page : WikiPage) (record : VectorChunkRecord R)
    (snippetChars : Option Int) : Text :=
  let limit := snippetLimit snippetChars
  if limit = 0 then []
  else
    let clean := Text.join " " (Text.split (chunkWindow page record limit))
    if clean.length ≤ limit then clean
    else Text.rstrip (clean.take (limit - 1)) ++ ("..." : Text)

section Scores

variable {R : Type} [Floats R]

def vectorResult (page : WikiPage) (score : R) (record : VectorChunkRecord R)
    (snippetChars : Option Int) : SearchResult R where
  pageId := page.id
  title := page.title
  path := page.path
  score := Floats.round 4 score
  snippet := chunkSnippet page record snippetChars
  role := page.role
  sourceRefs := page.sourceRefs
  route := "vector"

/-! ## Cosines

A score is `none` where it is minus infinity. -/

/-- `norm <= 0` -/
def hasNoNorm (norm : R) : Bool := Floats.le norm (Floats.ofRat 0)

def dot (first second : List R) : R :=
  (List.zipWith Floats.mul first second).foldl Floats.add (Floats.ofRat 0)

def cosine (queryVector : List R) (queryNorm : R) (documentVector : List R) (documentNorm : R) :
    R :=
  Floats.div (dot queryVector documentVector) (Floats.mul queryNorm documentNorm)

/-- The quotient of one row, `-inf` where it is not finite. -/
def numpyRowScore (queryVector : List R) (queryNorm : R) (row : List R) (norm : R) : Option R :=
  let denominator := Floats.mul norm queryNorm
  let zero : R := Floats.ofRat 0
  if Floats.le denominator zero && Floats.le zero denominator then none
  else
    let score := Floats.div (dot row queryVector) denominator
    if Floats.isFinite score then some score else none

/-- The scores of some rows, `none` where the library is absent, raises or has other shapes. -/
def numpyCosineScores (answers : Bool) (matrix : List (List R)) (norms : List R)
    (queryVector : List R) (queryNorm : R) : Option (List (Option R)) :=
  if !answers || matrix.length ≠ norms.length ||
      matrix.any (fun row => row.length ≠ queryVector.length) then none
  else some (List.zipWith (numpyRowScore queryVector queryNorm) matrix norms)

/-- The positions of a range with their scores, in blocks.  `answers` tells for which rows the
library answers; a failing block ends the iteration, and all its scores are dropped then. -/
def iterNumpyCosineScoreRange (answers : List Nat → Bool) (matrix : List (List R))
    (norms : List R) (queryVector : List R) (queryNorm : R) (stop : Nat) :
    Nat → Nat → Except ScoreFailure (List (Nat × Option R))
  | 0, _ => .ok []
  | fuel + 1, cursor =>
      if stop ≤ cursor then .ok []
      else
        let next := min stop (cursor + vectorScoreBlockRows)
        let rows := next - cursor
        match numpyCosineScores (answers (List.range' cursor rows))
            ((matrix.drop cursor).take rows) ((norms.drop cursor).take rows)
            queryVector queryNorm with
        | none => .error .unavailable
        | some scores =>
            if scores.length ≠ rows then .error .unavailable
            else do
              let later ← iterNumpyCosineScoreRange answers matrix norms queryVector queryNorm stop
                fuel next
              return (List.range' cursor rows).zip scores ++ later

omit [Floats R] in
def strictlyIncreasing (positions : List Nat) : Bool :=
  (positions.zip positions.tail).all fun pair => pair.1 < pair.2

omit [Floats R] in
def contiguousFrom (start previous : Nat) : List Nat → List (Nat × Nat)
  | [] => [(start, previous + 1)]
  | position :: rest =>
      if position = previous + 1 then contiguousFrom start position rest
      else (start, previous + 1) :: contiguousFrom position position rest

omit [Floats R] in
def contiguousPositionRanges : List Nat → List (Nat × Nat)
  | [] => []
  | start :: rest => contiguousFrom start start rest

def iterNumpyVectorRecordScoreItems (answers : List Nat → Bool) (matrix : List (List R))
    (norms : List R) (positions : List Nat) (queryVector : List R) (queryNorm : R)
    (recordPositionsWereFiltered : Bool) : Except ScoreFailure (List (Nat × Option R)) :=
  let range := fun start stop =>
    iterNumpyCosineScoreRange answers matrix norms queryVector queryNorm stop (stop - start) start
  if !recordPositionsWereFiltered then range 0 positions.length
  else if positions.length ≤ vectorFilteredCopyMaxRows then
    match positions.mapM (matrix[·]?), positions.mapM (norms[·]?) with
    | some rows, some rowNorms =>
        match numpyCosineScores (answers positions) rows rowNorms queryVector queryNorm with
        | none => .error .unavailable
        | some scores =>
            if scores.length ≠ positions.length then .error .unavailable
            else .ok (positions.zip scores)
    | _, _ => .error .unavailable
  else if !strictlyIncreasing positions then .error .unavailable
  else do
    let items ← (contiguousPositionRanges positions).mapM fun bounds => range bounds.1 bounds.2
    return items.flatten

/-! ## The loop over records -/

def vectorTuple (vector : List R) (expectedDimension : Nat) : Except VectorSearchError (List R) :=
  if vector.length ≠ expectedDimension then .error .embeddingDimension
  else if !vector.all Floats.isFinite then .error .nonFiniteEmbedding
  else .ok vector

def vectorForRecordScore (index : VectorIndex R) (position : Nat) (record : VectorChunkRecord R) :
    Except VectorSearchError (List R) :=
  if record.vector ≠ [] then
    if record.vector.length ≠ index.dimension then .error .unexpectedDimension
    else .ok record.vector
  else
    match index.vectorMatrix with
    | none => .error .missingVectors
    | some matrix =>
        match matrix[position]? with
        | none => .error .unreadableRow
        | some row =>
            match vectorTuple row index.dimension with
            | .error _ => .error .invalidRow
            | .ok vector => .ok vector

def pythonVectorRecordScore (index : VectorIndex R) (queryVector : List R) (queryNorm : R)
    (position : Nat) : Except ScoreFailure (Option R) :=
  match index.records[position]? with
  | none => .error (.error .inconsistentPositions)
  | some record =>
      if hasNoNorm record.norm || !Floats.isFinite record.norm then .ok none
      else
        match vectorForRecordScore index position record with
        | .error error => .error (.error error)
        | .ok documentVector =>
            if queryVector.length ≠ documentVector.length then .error .unequalLengths
            else .ok (some (cosine queryVector queryNorm documentVector record.norm))

def pythonScoreItems (index : VectorIndex R) (queryVector : List R) (queryNorm : R)
    (positions : List Nat) : Except ScoreFailure (List (Nat × Option R)) :=
  positions.mapM fun position => do
    let score ← pythonVectorRecordScore index queryVector queryNorm position
    return (position, score)

def iterVectorRecordScoreItems (answers : List Nat → Bool) (index : VectorIndex R)
    (queryVector : List R) (queryNorm : R) (recordPositions : Option (List Nat))
    (useNumpy : Bool) : Except ScoreFailure (List (Nat × Option R)) :=
  match recordPositions, (if useNumpy then index.vectorMatrix else none), index.vectorNorms with
  | none, some matrix, some norms =>
      iterNumpyCosineScoreRange answers matrix norms queryVector queryNorm index.records.length
        index.records.length 0
  | none, _, _ =>
      pythonScoreItems index queryVector queryNorm (List.range index.records.length)
  | some [], _, _ => .ok []
  | some positions, some matrix, some norms =>
      iterNumpyVectorRecordScoreItems answers matrix norms positions queryVector queryNorm true
  | some positions, _, _ => pythonScoreItems index queryVector queryNorm positions

/-! ## The best record of a page -/

omit [Floats R] in
/-- `{page.id: page for page in pages}` -/
def pagesById (pages : List WikiPage) : List (Text × WikiPage) :=
  Keyed.update [] (pages.map fun page => (page.id, page))

/-- The positions of the records of a small set of pages, `none` asking for all records. -/
def filteredRecordPositionsForSmallPageSubset (index : VectorIndex R)
    (pages : List (Text × WikiPage)) (excluded : List Text) : Option (List Nat) :=
  let effectivePageIds :=
    ((pages.map Prod.snd).filter fun page => !pageIsExcluded excluded page).map WikiPage.id
  if effectivePageIds = [] then some []
  else if index.records.all fun record => record.pageId ∈ effectivePageIds then none
  else
    let positions := (index.records.zipIdx.filter fun entry =>
      entry.1.pageId ∈ effectivePageIds && !hasNoNorm entry.1.norm).map Prod.snd
    if vectorFilteredCopyMaxRows < positions.length then none else some positions

/-- `(score, -record.ordinal) > (previous[0], -previous[1].ordinal)` -/
def beats (candidate previous : R × VectorChunkRecord R) : Bool :=
  Floats.lt previous.1 candidate.1 ||
    (!Floats.lt candidate.1 previous.1 && candidate.2.ordinal < previous.2.ordinal)

abbrev BestByPage (R : Type) := List (Text × (R × VectorChunkRecord R))

/-- Keep a scored record when it is the best of its page so far. -/
def keepBest (index : VectorIndex R) (pages : List (Text × WikiPage)) (excluded : List Text)
    (best : BestByPage R) (item : Nat × Option R) : BestByPage R :=
  match index.records[item.1]?, item.2 with
  | some record, some score =>
      match Keyed.get? pages record.pageId with
      | none => best
      | some page =>
          if pageIsExcluded excluded page || hasNoNorm record.norm || !Floats.isFinite score then
            best
          else
            match Keyed.get? best record.pageId with
            | none => Keyed.set best record.pageId (score, record)
            | some previous =>
                if beats (score, record) previous then
                  Keyed.set best record.pageId (score, record)
                else best
  | _, _ => best

def bestVectorRecordsByPageFromScores (answers : List Nat → Bool) (index : VectorIndex R)
    (pages : List (Text × WikiPage)) (excluded : List Text) (queryVector : List R) (queryNorm : R)
    (recordPositions : Option (List Nat)) (useNumpy : Bool) :
    Except ScoreFailure (BestByPage R) := do
  let items ←
    iterVectorRecordScoreItems answers index queryVector queryNorm recordPositions useNumpy
  return items.foldl (keepBest index pages excluded) []

def bestVectorRecordsByPage (answers : List Nat → Bool) (index : VectorIndex R)
    (pages : List (Text × WikiPage)) (excluded : List Text) (queryVector : List R) (queryNorm : R)
    (recordPositions : Option (List Nat)) : Except ScoreFailure (BestByPage R) :=
  let fromScores :=
    bestVectorRecordsByPageFromScores answers index pages excluded queryVector queryNorm
      recordPositions
  match fromScores true with
  | .error .unavailable => fromScores false
  | outcome => outcome

/-! ## The ranking -/

structure RankedPage (R : Type) where
  page : WikiPage
  score : R
  record : VectorChunkRecord R

/-- Order by `vector_sort_key`: descending score, role, path, id and ordinal. -/
def vectorLe (first second : RankedPage R) : Bool :=
  if Floats.lt second.score first.score then true
  else if Floats.lt first.score second.score then false
  else if roleRank first.page.role ≠ roleRank second.page.role then
    roleRank first.page.role < roleRank second.page.role
  else if first.page.path ≠ second.page.path then decide (first.page.path ≤ second.page.path)
  else if first.page.id ≠ second.page.id then decide (first.page.id ≤ second.page.id)
  else decide (first.record.ordinal ≤ second.record.ordinal)

omit [Floats R] in
def rankedPages (pages : List (Text × WikiPage)) (best : BestByPage R) : List (RankedPage R) :=
  best.filterMap fun entry => (Keyed.get? pages entry.1).map fun page =>
    { page, score := entry.2.1, record := entry.2.2 }

variable [Unicode]

def vectorQueryFallbackResults (pages : List WikiPage) (query : Text) (limit : Int)
    (snippetChars : Option Int) (excludePageIds : List Text) : List (SearchResult R) :=
  if Text.strip query ≠ [] then [] else overviewResults pages limit snippetChars excludePageIds

/-- A provider of embeddings, with the square root of `math`. -/
structure EmbeddingProvider (R : Type) where
  dimension : Nat
  embedQuery : Text → List R
  sqrt : R → R

omit [Unicode] in
def vectorNorm (provider : EmbeddingProvider R) (vector : List R) : R :=
  provider.sqrt (dot vector vector)

omit [Unicode] in
/-- The vector of a query and its norm, unless the query is blank or the norm is zero. -/
def embedQueryVector (provider : EmbeddingProvider R) (query : Text) :
    Except ScoreFailure (Option (List R × R)) :=
  if Text.strip query = [] then .ok none
  else
    match vectorTuple (provider.embedQuery query) provider.dimension with
    | .error error => .error (.error error)
    | .ok queryVector =>
        let queryNorm := vectorNorm provider queryVector
        .ok (if hasNoNorm queryNorm then none else some (queryVector, queryNorm))

structure VectorOptions where
  limit : Int
  snippetChars : Option Int := none
  excludePageIds : List Text := []

def searchVectorIndexWithQueryVector (answers : List Nat → Bool) (index : VectorIndex R)
    (pages : List WikiPage) (query : Text) (queryVector : Option (List R)) (queryNorm : R)
    (options : VectorOptions) : Except ScoreFailure (List (SearchResult R)) :=
  match queryVector, hasNoNorm queryNorm with
  | some queryVector, false => do
      let byId := pagesById pages
      let excluded := pageExclusionSet options.excludePageIds
      let positions := filteredRecordPositionsForSmallPageSubset index byId excluded
      if positions = some [] then return []
      else
        let best ←
          bestVectorRecordsByPage answers index byId excluded queryVector queryNorm positions
        return (takeLimit options.limit (sortBy vectorLe (rankedPages byId best))).map
          fun ranked => vectorResult ranked.page ranked.score ranked.record options.snippetChars
  | _, _ =>
      .ok (vectorQueryFallbackResults pages query options.limit options.snippetChars
        options.excludePageIds)

def searchVectorIndex (answers : List Nat → Bool) (index : VectorIndex R)
    (provider : EmbeddingProvider R) (pages : List WikiPage) (query : Text)
    (options : VectorOptions) : Except ScoreFailure (List (SearchResult R)) := do
  let queryState ← embedQueryVector provider query
  searchVectorIndexWithQueryVector answers index pages query (queryState.map Prod.fst)
    ((queryState.map Prod.snd).getD (Floats.ofRat 0)) options

end Scores

end LlmWikiServe.VectorSearch
