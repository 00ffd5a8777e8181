import LlmWikiServe.RankBands
import LlmWikiServe.VectorResults

/-!
# The ranking of vector search

Over exact arithmetic every route to the scores gives one ranking: the pages by the best cosine
of their records.
-/

namespace LlmWikiServe.VectorSearch

open LexicalScan (Scoring)

noncomputable section

variable [Scoring]

/-! ## Well-formed indexes -/

namespace VectorIndex

/-- The vector of a record, its own one or its row of the matrix. -/
def vectorAt (index : VectorIndex ℝ) (position : Nat) : List ℝ :=
  match index.records[position]? with
  | none => []
  | some record =>
      if record.vector ≠ [] then record.vector
      else ((index.vectorMatrix.getD [])[position]?).getD []

def normAt (index : VectorIndex ℝ) (position : Nat) : ℝ :=
  (index.records[position]?.map VectorChunkRecord.norm).getD 0

structure Sound (index : VectorIndex ℝ) : Prop where
  dimension : ∀ position < index.records.length,
    (index.vectorAt position).length = index.dimension
  rows : ∀ matrix, index.vectorMatrix = some matrix →
    matrix = (List.range index.records.length).map index.vectorAt
  norms : ∀ norms, index.vectorNorms = some norms →
    norms = index.records.map VectorChunkRecord.norm
  vectors : index.vectorMatrix = none → ∀ record ∈ index.records, record.vector ≠ []

omit [Scoring] in
theorem records_norms (index : VectorIndex ℝ) :
    index.records.map VectorChunkRecord.norm =
      (List.range index.records.length).map index.normAt := by
  apply List.ext_getElem
  · simp
  · intro position inside _
    have here : position < index.records.length := by simpa using inside
    simp [normAt, here]

end VectorIndex

/-! ## Scores of positions -/

section Items

variable {index : VectorIndex ℝ} {queryVector : List ℝ} {queryNorm : ℝ}

def cosineAt (index : VectorIndex ℝ) (queryVector : List ℝ) (queryNorm : ℝ) (position : Nat) : ℝ :=
  cosine queryVector queryNorm (index.vectorAt position) (index.normAt position)

/-- What the array library answers for some positions. -/
def numpyItems (index : VectorIndex ℝ) (queryVector : List ℝ) (queryNorm : ℝ)
    (positions : List Nat) : List (Nat × Option ℝ) :=
  positions.map fun position =>
    (position, numpyRowScore queryVector queryNorm (index.vectorAt position)
      (index.normAt position))

theorem dot_comm (first second : List ℝ) : dot first second = dot second first := by
  exact congrArg (List.foldl Floats.add (Floats.ofRat 0))
    (List.zipWith_comm_of_comm (f := Floats.mul) fun left right => mul_comm left right)

theorem numpyRowScore_eq (positive : 0 < queryNorm) {norm : ℝ} (normed : 0 < norm)
    (row : List ℝ) :
    numpyRowScore queryVector queryNorm row norm = some (cosine queryVector queryNorm row norm) := by
  have product : 0 < norm * queryNorm := mul_pos normed positive
  unfold numpyRowScore cosine
  rw [dot_comm row]
  simp [Floats.le, Floats.mul, Floats.ofRat, Floats.isFinite, Floats.div, product.not_ge,
    mul_comm queryNorm]

theorem numpyCosineScores_zip {answers : Bool} {positions : List Nat} {scores : List (Option ℝ)}
    (answered : numpyCosineScores answers (positions.map index.vectorAt)
      (positions.map index.normAt) queryVector queryNorm = some scores) :
    positions.zip scores = numpyItems index queryVector queryNorm positions := by
  unfold numpyCosineScores at answered
  split at answered
  · cases answered
  · obtain rfl := Option.some.inj answered
    rw [List.zipWith_map, List.zipWith_self, List.zip_map_right]
    simp [numpyItems, List.zip, Function.comp_def]

omit [Scoring] in
/-- The rows of a block of positions. -/
theorem drop_take_range {α : Type} (value : Nat → α) {size cursor rows : Nat}
    (inside : cursor + rows ≤ size) :
    (((List.range size).map value).drop cursor).take rows =
      (List.range' cursor rows).map value := by
  rw [← List.map_drop, ← List.map_take, List.range_eq_range', List.drop_range',
    List.take_range'_of_length_ge (by omega), mul_one, zero_add]

section Routes

variable (sound : index.Sound) {matrix : List (List ℝ)} {norms : List ℝ}
  (rows : index.vectorMatrix = some matrix) (rowNorms : index.vectorNorms = some norms)

include sound rows rowNorms

/-- The blocks of a range give the items of the range, or the library has failed. -/
theorem iterNumpyCosineScoreRange_items (answers : List Nat → Bool) {stop : Nat}
    (inside : stop ≤ index.records.length) (fuel cursor : Nat) (enough : stop - cursor ≤ fuel) :
    iterNumpyCosineScoreRange answers matrix norms queryVector queryNorm stop fuel cursor =
        .error .unavailable ∨
      iterNumpyCosineScoreRange answers matrix norms queryVector queryNorm stop fuel cursor =
        .ok (numpyItems index queryVector queryNorm (List.range' cursor (stop - cursor))) := by
  induction fuel generalizing cursor with
  | zero =>
      have empty : stop - cursor = 0 := by omega
      rw [empty]
      exact .inr rfl
  | succ fuel inductionHypothesis =>
      rw [iterNumpyCosineScoreRange]
      split
      next ended =>
        rw [Nat.sub_eq_zero_of_le ended]
        exact .inr rfl
      next running =>
        have block : vectorScoreBlockRows = 2048 := rfl
        simp only []
        generalize nextIs : min stop (cursor + vectorScoreBlockRows) = next
        have matrixRows := drop_take_range index.vectorAt
          (show cursor + (next - cursor) ≤ index.records.length by omega)
        have normRows := drop_take_range index.normAt
          (show cursor + (next - cursor) ≤ index.records.length by omega)
        rw [← sound.rows matrix rows] at matrixRows
        rw [← index.records_norms, ← sound.norms norms rowNorms] at normRows
        rw [matrixRows, normRows]
        split
        next => exact .inl rfl
        next scores answered =>
          have items := numpyCosineScores_zip answered
          split
          next => exact .inl rfl
          next =>
            rcases inductionHypothesis next (by omega) with failed | later
            · rw [failed]
              exact .inl rfl
            · rw [later, items]
              refine .inr (congrArg Except.ok ?_)
              have joined : List.range' cursor (stop - cursor) =
                  List.range' cursor (next - cursor) ++ List.range' next (stop - next) := by
                rw [show next = cursor + (next - cursor) by omega, Nat.add_sub_cancel_left,
                  List.range'_append_1]
                congr 1
                omega
              rw [joined, numpyItems, numpyItems, numpyItems, List.map_append]

omit [Scoring] sound rows rowNorms in
/-- The ranges of consecutive positions hold the positions. -/
theorem contiguousFrom_flatMap (start previous : Nat) (ordered : start ≤ previous)
    (positions : List Nat) :
    (contiguousFrom start previous positions).flatMap
        (fun bounds => List.range' bounds.1 (bounds.2 - bounds.1)) =
      List.range' start (previous + 1 - start) ++ positions := by
  induction positions generalizing start previous with
  | nil => simp [contiguousFrom]
  | cons position rest inductionHypothesis =>
      rw [contiguousFrom]
      split
      next following =>
        subst following
        rw [inductionHypothesis start (previous + 1) (by omega),
          show previous + 1 + 1 - start = (previous + 1 - start) + 1 by omega,
          List.range'_1_concat, List.append_assoc,
          show start + (previous + 1 - start) = previous + 1 by omega]
        rfl
      next =>
        rw [List.flatMap_cons, inductionHypothesis position position le_rfl,
          Nat.add_sub_cancel_left]
        rfl

omit [Scoring] sound rows rowNorms in
theorem contiguousPositionRanges_flatMap (positions : List Nat) :
    (contiguousPositionRanges positions).flatMap
      (fun bounds => List.range' bounds.1 (bounds.2 - bounds.1)) = positions := by
  cases positions with
  | nil => rfl
  | cons start rest =>
      rw [contiguousPositionRanges, contiguousFrom_flatMap start start le_rfl,
        Nat.add_sub_cancel_left]
      rfl

omit [Scoring] sound rows rowNorms in
theorem mapM_some {α β : Type} {values : List α} {pick : α → Option β} {picked : α → β}
    (found : ∀ value ∈ values, pick value = some (picked value)) :
    values.mapM pick = some (values.map picked) := by
  induction values with
  | nil => rfl
  | cons value rest inductionHypothesis =>
      rw [List.mapM_cons, found value List.mem_cons_self,
        inductionHypothesis fun other otherIn => found other (List.mem_cons_of_mem _ otherIn)]
      rfl

omit [Scoring] sound rows rowNorms in
theorem mapM_outcomes {α β : Type} {values : List α} {step : α → Except ScoreFailure β}
    {answer : α → β}
    (each : ∀ value ∈ values, step value = .error .unavailable ∨ step value = .ok (answer value)) :
    values.mapM step = .error .unavailable ∨ values.mapM step = .ok (values.map answer) := by
  induction values with
  | nil => exact .inr rfl
  | cons value rest inductionHypothesis =>
      rw [List.mapM_cons]
      rcases each value List.mem_cons_self with failed | answered
      · rw [failed]
        exact .inl rfl
      · rcases inductionHypothesis fun other otherIn => each other (List.mem_cons_of_mem _ otherIn)
          with failed | later
        · rw [answered, failed]
          exact .inl rfl
        · rw [answered, later]
          exact .inr rfl

theorem iterNumpyVectorRecordScoreItems_items (answers : List Nat → Bool) {positions : List Nat}
    (inside : ∀ position ∈ positions, position < index.records.length) :
    iterNumpyVectorRecordScoreItems answers matrix norms positions queryVector queryNorm true =
        .error .unavailable ∨
      iterNumpyVectorRecordScoreItems answers matrix norms positions queryVector queryNorm true =
        .ok (numpyItems index queryVector queryNorm positions) := by
  have matrixRows := sound.rows matrix rows
  have normRows := (sound.norms norms rowNorms).trans index.records_norms
  unfold iterNumpyVectorRecordScoreItems
  simp only [Bool.not_true, Bool.false_eq_true, if_false]
  split
  next few =>
    -- The rows are copied.
    rw [@mapM_some _ _ positions (matrix[·]?) index.vectorAt, @mapM_some _ _ positions (norms[·]?)
      index.normAt]
    · simp only []
      split
      next => exact .inl rfl
      next scores answered =>
        rw [numpyCosineScores_zip answered]
        split
        · exact .inl rfl
        · exact .inr rfl
    · intro position positionIn
      simp [normRows, inside position positionIn]
    · intro position positionIn
      simp [matrixRows, inside position positionIn]
  next many =>
    split
    next => exact .inl rfl
    next increasing =>
      -- Every range lies among the records.
      have bounded : ∀ bounds ∈ contiguousPositionRanges positions,
          bounds.1 < bounds.2 → bounds.2 ≤ index.records.length := by
        intro bounds boundsIn nonempty
        have last : bounds.2 - 1 ∈ positions := by
          rw [← contiguousPositionRanges_flatMap positions]
          refine List.mem_flatMap.mpr ⟨bounds, boundsIn, ?_⟩
          rw [List.mem_range'_1]
          omega
        have below := inside _ last
        omega
      have ranges := @mapM_outcomes _ _ (contiguousPositionRanges positions)
        (fun bounds => iterNumpyCosineScoreRange answers matrix norms queryVector queryNorm
          bounds.2 (bounds.2 - bounds.1) bounds.1)
        (fun bounds => numpyItems index queryVector queryNorm
          (List.range' bounds.1 (bounds.2 - bounds.1))) ?_
      · rcases ranges with failed | answered
        · rw [failed]
          exact .inl rfl
        · rw [answered]
          have joined : (contiguousPositionRanges positions).flatMap (fun bounds =>
              numpyItems index queryVector queryNorm
                (List.range' bounds.1 (bounds.2 - bounds.1))) =
              numpyItems index queryVector queryNorm positions := by
            conv_rhs => rw [← contiguousPositionRanges_flatMap positions]
            exact List.map_flatMap.symm
          rw [← joined, List.flatMap_def]
          exact .inr rfl
      · intro bounds boundsIn
        by_cases nonempty : bounds.1 < bounds.2
        · exact iterNumpyCosineScoreRange_items sound rows rowNorms answers
            (bounded bounds boundsIn nonempty) _ _ le_rfl
        · rw [Nat.sub_eq_zero_of_le (not_lt.mp nonempty)]
          exact .inr rfl

end Routes

/-- What the loop over records gives for some positions. -/
def pythonItems (index : VectorIndex ℝ) (queryVector : List ℝ) (queryNorm : ℝ)
    (positions : List Nat) : List (Nat × Option ℝ) :=
  positions.map fun position =>
    (position, if index.normAt position ≤ 0 then none
      else some (cosineAt index queryVector queryNorm position))

theorem vectorForRecordScore_eq (sound : index.Sound) {position : Nat}
    {record : VectorChunkRecord ℝ} (here : index.records[position]? = some record) :
    vectorForRecordScore index position record = .ok (index.vectorAt position) := by
  have below := (List.getElem?_eq_some_iff.mp here).1
  have sized := sound.dimension position below
  unfold vectorForRecordScore
  by_cases own : record.vector = []
  · rw [if_neg (not_not.mpr own)]
    cases stored : index.vectorMatrix with
    | none => exact absurd own (sound.vectors stored record (List.mem_of_getElem? here))
    | some matrix =>
        have row : matrix[position]? = some (index.vectorAt position) := by
          simp [sound.rows matrix stored, below]
        simp [row, vectorTuple, sized, Floats.isFinite]
  · have same : index.vectorAt position = record.vector := by
      simp [VectorIndex.vectorAt, here, own]
    rw [same] at sized
    simp [own, same, sized]

theorem pythonScoreItems_items (sound : index.Sound)
    (dimension : queryVector.length = index.dimension) {positions : List Nat} (inside : ∀ position ∈ positions, position < index.records.length) :
    pythonScoreItems index queryVector queryNorm positions =
      .ok (pythonItems index queryVector queryNorm positions) := by
  have each : ∀ position ∈ positions,
      pythonVectorRecordScore index queryVector queryNorm position =
        .ok (if index.normAt position ≤ 0 then none
          else some (cosineAt index queryVector queryNorm position)) := by
    intro position positionIn
    have below := inside position positionIn
    have here : index.records[position]? = some index.records[position] :=
      List.getElem?_eq_getElem below
    have normed : index.normAt position = index.records[position].norm := by
      simp [VectorIndex.normAt, here]
    have sized := sound.dimension position below
    rw [pythonVectorRecordScore, here]
    simp only [hasNoNorm, Floats.le, Floats.ofRat, Floats.isFinite, Rat.cast_zero, Bool.not_true,
      Bool.or_false, decide_eq_true_eq, normed]
    split
    next => rfl
    next =>
      rw [vectorForRecordScore_eq sound here]
      simp [dimension, sized, cosineAt, normed]
  unfold pythonScoreItems pythonItems
  induction positions with
  | nil => rfl
  | cons position rest inductionHypothesis =>
      rw [List.mapM_cons, each position List.mem_cons_self,
        inductionHypothesis (fun other otherIn => inside other (List.mem_cons_of_mem _ otherIn))
          fun other otherIn => each other (List.mem_cons_of_mem _ otherIn)]
      rfl

/-! ## The best records -/

section Best

variable {pages : List (Text × WikiPage)} {excluded : List Text}

def keepAt (index : VectorIndex ℝ) (pages : List (Text × WikiPage)) (excluded : List Text)
    (queryVector : List ℝ) (queryNorm : ℝ) (best : BestByPage ℝ) (position : Nat) :
    BestByPage ℝ :=
  keepBest index pages excluded best (position, some (cosineAt index queryVector queryNorm position))

theorem keepBest_eq {position : Nat} {score : Option ℝ}
    (scored : 0 < index.normAt position →
      score = some (cosineAt index queryVector queryNorm position)) (best : BestByPage ℝ) :
    keepBest index pages excluded best (position, score) =
      keepAt index pages excluded queryVector queryNorm best position := by
  unfold keepAt keepBest
  cases here : index.records[position]? with
  | none => rfl
  | some record =>
      have norm : index.normAt position = record.norm := by simp [VectorIndex.normAt, here]
      by_cases normed : 0 < record.norm
      · rw [scored (norm ▸ normed)]
      · have refused : hasNoNorm record.norm = true := by
          simpa [hasNoNorm, Floats.le, Floats.ofRat] using normed
        cases score <;> cases found : Keyed.get? pages record.pageId <;> simp [refused, found]

theorem foldl_keepBest {positions : List Nat} {score : Nat → Option ℝ}
    (scored : ∀ position, 0 < index.normAt position →
      score position = some (cosineAt index queryVector queryNorm position)) :
    (positions.map fun position => (position, score position)).foldl
        (keepBest index pages excluded) [] =
      positions.foldl (keepAt index pages excluded queryVector queryNorm) [] := by
  rw [List.foldl_map]
  exact List.foldl_ext _ _ _ fun best position _ => keepBest_eq (scored position) best

variable (sound : index.Sound) (positive : 0 < queryNorm)
  (dimension : queryVector.length = index.dimension)

include sound positive dimension

omit positive in
/-- An iteration gives the items of the library or of the loop; only the library is unavailable. -/
theorem iterVectorRecordScoreItems_items (answers : List Nat → Bool)
    {recordPositions : Option (List Nat)} {positions : List Nat}
    (asked : positions = recordPositions.getD (List.range index.records.length))
    (below : ∀ position ∈ positions, position < index.records.length) (useNumpy : Bool)
    {items : Except ScoreFailure (List (Nat × Option ℝ))}
    (iterated : iterVectorRecordScoreItems answers index queryVector queryNorm recordPositions
      useNumpy = items) :
    (useNumpy = true ∧ items = .error .unavailable) ∨
      items = .ok (numpyItems index queryVector queryNorm positions) ∨
      items = .ok (pythonItems index queryVector queryNorm positions) := by
  have loop := @pythonScoreItems_items _ _ _ queryNorm sound dimension _ below
  unfold iterVectorRecordScoreItems at iterated
  -- The library is asked where the matrix and the norms are there.
  cases matrixIs : if useNumpy = true then index.vectorMatrix else none with
  | none =>
      rw [matrixIs] at iterated
      rcases recordPositions with - | (- | ⟨first, rest⟩)
      · exact .inr (.inr (iterated.symm.trans (asked ▸ loop)))
      · exact .inr (.inl (iterated.symm.trans (by rw [asked]; rfl)))
      · exact .inr (.inr (iterated.symm.trans (asked ▸ loop)))
  | some matrix =>
      rw [matrixIs] at iterated
      have numpy : useNumpy = true := by
        by_contra off
        rw [if_neg off] at matrixIs
        cases matrixIs
      rw [if_pos numpy] at matrixIs
      cases normsAre : index.vectorNorms with
      | none =>
          rw [normsAre] at iterated
          rcases recordPositions with - | (- | ⟨first, rest⟩)
          · exact .inr (.inr (iterated.symm.trans (asked ▸ loop)))
          · exact .inr (.inl (iterated.symm.trans (by rw [asked]; rfl)))
          · exact .inr (.inr (iterated.symm.trans (asked ▸ loop)))
      | some norms =>
          rw [normsAre] at iterated
          rcases recordPositions with - | (- | ⟨first, rest⟩)
          · have whole := @iterNumpyCosineScoreRange_items _ index queryVector queryNorm sound
              matrix norms matrixIs normsAre answers index.records.length le_rfl
              index.records.length 0 (by omega)
            rw [Nat.sub_zero, ← List.range_eq_range'] at whole
            refine whole.imp (fun failed => ⟨numpy, iterated.symm.trans failed⟩) fun answered => ?_
            exact .inl (iterated.symm.trans (asked ▸ answered))
          · exact .inr (.inl (iterated.symm.trans (by rw [asked]; rfl)))
          · have some_ := @iterNumpyVectorRecordScoreItems_items _ index queryVector queryNorm
              sound matrix norms matrixIs normsAre answers positions below
            rw [asked] at some_
            refine some_.imp (fun failed => ⟨numpy, iterated.symm.trans failed⟩) fun answered => ?_
            exact .inl (iterated.symm.trans (asked ▸ answered))

/-- The best records of the positions asked for, which are all by default. -/
def bestOf (index : VectorIndex ℝ) (pages : List (Text × WikiPage)) (excluded : List Text)
    (queryVector : List ℝ) (queryNorm : ℝ) (recordPositions : Option (List Nat)) : BestByPage ℝ :=
  (recordPositions.getD (List.range index.records.length)).foldl
    (keepAt index pages excluded queryVector queryNorm) []

/-- Every iteration that ends gives the best records of the positions asked for; the loop over
records always ends. -/
theorem bestVectorRecordsByPageFromScores_eq (answers : List Nat → Bool)
    {recordPositions : Option (List Nat)}
    (inside : ∀ position ∈ recordPositions.getD (List.range index.records.length),
      position < index.records.length) (useNumpy : Bool) :
    (useNumpy = true ∧ bestVectorRecordsByPageFromScores answers index pages excluded queryVector
        queryNorm recordPositions useNumpy = .error .unavailable) ∨
      bestVectorRecordsByPageFromScores answers index pages excluded queryVector queryNorm
        recordPositions useNumpy =
          .ok (bestOf index pages excluded queryVector queryNorm recordPositions) := by
  unfold bestVectorRecordsByPageFromScores bestOf
  rcases @iterVectorRecordScoreItems_items _ _ _ queryNorm sound dimension answers _ _ rfl inside
    useNumpy _ rfl with ⟨numpy, failed⟩ | items | items
  · rw [failed]
    exact .inl ⟨numpy, rfl⟩
  · rw [items]
    exact .inr (congrArg Except.ok (foldl_keepBest fun position normed =>
      numpyRowScore_eq positive normed _))
  · rw [items]
    exact .inr (congrArg Except.ok (foldl_keepBest fun position normed =>
      if_neg (not_le.mpr normed)))

theorem bestVectorRecordsByPage_eq (answers : List Nat → Bool)
    {recordPositions : Option (List Nat)}
    (inside : ∀ position ∈ recordPositions.getD (List.range index.records.length),
      position < index.records.length) :
    bestVectorRecordsByPage answers index pages excluded queryVector queryNorm recordPositions =
      .ok (bestOf index pages excluded queryVector queryNorm recordPositions) := by
  have outcome := fun useNumpy => @bestVectorRecordsByPageFromScores_eq _ index queryVector
    queryNorm pages excluded sound positive dimension answers recordPositions inside useNumpy
  unfold bestVectorRecordsByPage
  rcases outcome true with ⟨-, failed⟩ | found
  · rcases outcome false with ⟨numpy, -⟩ | found
    · cases numpy
    · simp only [failed, found]
  · simp only [found]

end Best

/-! ## The best record of a page -/

/-- Better is the higher score, and the lower ordinal for one score. -/
def scoredKey (scored : ℝ × VectorChunkRecord ℝ) : ℝ ×ₗ ℤᵒᵈ :=
  toLex (scored.1, OrderDual.toDual scored.2.ordinal)

def scoredRecord (index : VectorIndex ℝ) (queryVector : List ℝ) (queryNorm : ℝ) (pageId : Text)
    (position : Nat) : Option (ℝ × VectorChunkRecord ℝ) :=
  index.records[position]?.bind fun record =>
    if record.pageId = pageId ∧ 0 < record.norm then
      some (cosineAt index queryVector queryNorm position, record)
    else none

/-- The best record of a page: the highest cosine, and the lowest ordinal for one cosine. -/
def bestRecord (index : VectorIndex ℝ) (queryVector : List ℝ) (queryNorm : ℝ) (page : WikiPage) :
    Option (ℝ × VectorChunkRecord ℝ) :=
  ((List.range index.records.length).filterMap
    (scoredRecord index queryVector queryNorm page.id)).argmax scoredKey

theorem beats_iff (candidate previous : ℝ × VectorChunkRecord ℝ) :
    beats candidate previous = true ↔ scoredKey previous < scoredKey candidate := by
  unfold beats scoredKey
  rw [Prod.Lex.toLex_lt_toLex]
  simp only [Floats.lt, Bool.or_eq_true, decide_eq_true_eq, Bool.and_eq_true, Bool.not_eq_true',
    decide_eq_false_iff_not, OrderDual.toDual_lt_toDual]
  constructor
  · rintro (above | ⟨notBelow, earlier⟩)
    · exact .inl above
    · rcases (not_lt.mp notBelow).lt_or_eq with above | same
      · exact .inl above
      · exact .inr ⟨same, earlier⟩
  · rintro (above | ⟨same, earlier⟩)
    · exact .inl above
    · exact .inr ⟨same.not_gt, earlier⟩

section Pages

variable {pages : List (Text × WikiPage)} {excluded : List Text}

def Visible (pages : List (Text × WikiPage)) (excluded : List Text) (pageId : Text) : Prop :=
  ∃ page, Keyed.get? pages pageId = some page ∧ pageIsExcluded excluded page = false

def betterOf (known : Option (ℝ × VectorChunkRecord ℝ)) :
    Option (ℝ × VectorChunkRecord ℝ) → Option (ℝ × VectorChunkRecord ℝ)
  | none => known
  | some scored =>
      List.argAux (fun first second => scoredKey second < scoredKey first) known scored

theorem get?_keepAt (best : BestByPage ℝ) (position : Nat) {pageId : Text}
    (visible : Visible pages excluded pageId) :
    Keyed.get? (keepAt index pages excluded queryVector queryNorm best position) pageId =
      betterOf (Keyed.get? best pageId)
        (scoredRecord index queryVector queryNorm pageId position) := by
  unfold keepAt keepBest scoredRecord
  cases here : index.records[position]? with
  | none => rfl
  | some record =>
      obtain ⟨page, found, included⟩ := visible
      simp only [Option.bind_some]
      by_cases same : record.pageId = pageId
      · subst same
        by_cases normed : 0 < record.norm
        · have kept : hasNoNorm record.norm = false := by
            simpa [hasNoNorm, Floats.le, Floats.ofRat] using normed
          simp only [found, included, kept, normed, Floats.isFinite, Bool.or_self, Bool.not_true,
            Bool.false_eq_true, if_false, and_self, if_true]
          cases known : Keyed.get? best record.pageId with
          | none => simp [Keyed.get?_set, betterOf, List.argAux]
          | some previous =>
              simp only [betterOf, List.argAux, beats_iff]
              split
              · rw [Keyed.get?_set, if_pos rfl]
              · exact known
        · have refused : hasNoNorm record.norm = true := by
            simpa [hasNoNorm, Floats.le, Floats.ofRat] using normed
          simp [found, refused, normed, betterOf]
      · simp only [same, false_and, if_false, betterOf]
        split
        · rfl
        · split
          · rfl
          · split
            · rw [Keyed.get?_set, if_neg same]
            · split
              · rw [Keyed.get?_set, if_neg same]
              · rfl

theorem get?_foldl_keepAt (positions : List Nat) (best : BestByPage ℝ) {pageId : Text}
    (visible : Visible pages excluded pageId) :
    Keyed.get? (positions.foldl (keepAt index pages excluded queryVector queryNorm) best) pageId =
      (positions.filterMap (scoredRecord index queryVector queryNorm pageId)).foldl
        (List.argAux fun first second => scoredKey second < scoredKey first)
        (Keyed.get? best pageId) := by
  induction positions generalizing best with
  | nil => rfl
  | cons position rest inductionHypothesis =>
      rw [List.foldl_cons, inductionHypothesis, get?_keepAt best position visible]
      cases scored : scoredRecord index queryVector queryNorm pageId position with
      | none => rw [List.filterMap_cons_none scored, betterOf]
      | some record => rw [List.filterMap_cons_some scored, List.foldl_cons, betterOf]

theorem bestOf_included (recordPositions : Option (List Nat)) :
    BestIncluded index pages excluded
      (bestOf index pages excluded queryVector queryNorm recordPositions) :=
  List.foldlRecOn _ _ ⟨List.nodup_nil, by simp, by simp⟩ fun _ known _ _ => keepBest_included known _

/-! ## Positions of a small set of pages -/

omit [Scoring] in
theorem zipIdx_filter_snd {α : Type} (values : List α) (keep : α → Nat → Bool) :
    ((values.zipIdx.filter fun entry => keep entry.1 entry.2).map Prod.snd) =
      (List.range values.length).filter fun position =>
        values[position]?.any fun value => keep value position := by
  induction values using List.reverseRecOn with
  | nil => rfl
  | append_singleton values value inductionHypothesis =>
      rw [List.zipIdx_append, List.filter_append, List.map_append, inductionHypothesis,
        List.length_append, List.length_singleton, List.range_succ, List.filter_append]
      congr 1
      · apply List.filter_congr
        intro position among
        rw [List.getElem?_append_left (List.mem_range.mp among)]
      · cases kept : keep value values.length <;> simp [kept]

def eligiblePositions (index : VectorIndex ℝ) (pages : List (Text × WikiPage))
    (excluded : List Text) : List Nat :=
  (index.records.zipIdx.filter fun entry =>
    entry.1.pageId ∈ ((pages.map Prod.snd).filter fun page =>
      !pageIsExcluded excluded page).map WikiPage.id && !hasNoNorm entry.1.norm).map Prod.snd

theorem eligiblePositions_eq : eligiblePositions index pages excluded =
    (List.range index.records.length).filter fun position =>
      index.records[position]?.any fun record =>
        record.pageId ∈ ((pages.map Prod.snd).filter fun page =>
          !pageIsExcluded excluded page).map WikiPage.id && !hasNoNorm record.norm :=
  zipIdx_filter_snd index.records fun record _ =>
    record.pageId ∈ ((pages.map Prod.snd).filter fun page =>
      !pageIsExcluded excluded page).map WikiPage.id && !hasNoNorm record.norm

/-- The filtered positions are all eligible ones, or the search goes over all records. -/
theorem filteredRecordPositions_eq {positions : List Nat}
    (filtered : filteredRecordPositionsForSmallPageSubset index pages excluded = some positions) :
    positions = eligiblePositions index pages excluded := by
  unfold filteredRecordPositionsForSmallPageSubset at filtered
  simp only [] at filtered
  split at filtered
  next none_ =>
    obtain rfl := Option.some.inj filtered
    simp [eligiblePositions, none_]
  next =>
    split at filtered
    next => cases filtered
    next =>
      split at filtered
      next => cases filtered
      next => exact (Option.some.inj filtered).symm

end Pages

/-! ## The declared ranking -/

/-- `(-score, role_rank, path, id)` -/
def rankingKey (ranked : RankedPage ℝ) : ℝ ×ₗ ℕ ×ₗ Text ×ₗ Text :=
  toLex (-ranked.score, toLex (roleRank ranked.page.role, toLex (ranked.page.path, ranked.page.id)))

/-- The pages that are not excluded and have a record with a norm, by their best records. -/
def ranking (index : VectorIndex ℝ) (wiki : List WikiPage) (excluded : List Text)
    (queryVector : List ℝ) (queryNorm : ℝ) : List (RankedPage ℝ) :=
  ((wiki.filter fun page => !pageIsExcluded excluded page).filterMap fun page =>
      (bestRecord index queryVector queryNorm page).map fun best =>
        { page, score := best.1, record := best.2 }).insertionSort
    fun first second => rankingKey first ≤ rankingKey second

/-- `vector_sort_key` -/
def vectorSortKey (ranked : RankedPage ℝ) : ℝ ×ₗ ℕ ×ₗ Text ×ₗ Text ×ₗ ℤ :=
  toLex (-ranked.score, toLex (roleRank ranked.page.role, toLex (ranked.page.path,
    toLex (ranked.page.id, ranked.record.ordinal))))

theorem vectorLe_iff (first second : RankedPage ℝ) :
    vectorLe first second = true ↔ vectorSortKey first ≤ vectorSortKey second := by
  unfold vectorLe
  simp only [Floats.lt, decide_eq_true_eq, vectorSortKey, Prod.Lex.toLex_le_toLex, neg_lt_neg_iff,
    neg_inj]
  split_ifs with above below roles paths ids
  · simp [above]
  · simp [below.not_gt, below.ne]
  · have scores := le_antisymm (not_lt.mp above) (not_lt.mp below)
    simp [scores, roles]
  · have scores := le_antisymm (not_lt.mp above) (not_lt.mp below)
    simp [scores, not_not.mp roles, paths, lt_iff_le_and_ne]
  · have scores := le_antisymm (not_lt.mp above) (not_lt.mp below)
    simp [scores, not_not.mp roles, not_not.mp paths, ids, lt_iff_le_and_ne]
  · have scores := le_antisymm (not_lt.mp above) (not_lt.mp below)
    simp [scores, not_not.mp roles, not_not.mp paths, not_not.mp ids]

omit [Scoring] in
theorem rankingKey_le {first second : RankedPage ℝ}
    (ordered : vectorSortKey first ≤ vectorSortKey second) :
    rankingKey first ≤ rankingKey second := by
  simp only [vectorSortKey, rankingKey, Prod.Lex.toLex_le_toLex] at ordered ⊢
  rcases ordered with scores | ⟨scores, roles | ⟨roles, paths | ⟨paths, ids | ⟨ids, -⟩⟩⟩⟩
  · exact .inl scores
  · exact .inr ⟨scores, .inl roles⟩
  · exact .inr ⟨scores, .inr ⟨roles, .inl paths⟩⟩
  · exact .inr ⟨scores, .inr ⟨roles, .inr ⟨paths, ids.le⟩⟩⟩
  · exact .inr ⟨scores, .inr ⟨roles, .inr ⟨paths, ids.le⟩⟩⟩

section Ranking

variable {wiki : List WikiPage} (distinct : (wiki.map WikiPage.id).Nodup) {excluded : List Text}
  {recordPositions : Option (List Nat)}
  (routes : recordPositions = none ∨
    recordPositions = some (eligiblePositions index (pagesById wiki) excluded))

omit [Scoring] in
theorem pagesById_eq (distinct : (wiki.map WikiPage.id).Nodup) :
    pagesById wiki = wiki.map fun page => (page.id, page) := by
  refine Keyed.update_nil ?_
  rw [List.map_map]
  exact distinct

include distinct

omit [Scoring] in
theorem get?_pagesById_iff {pageId : Text} {page : WikiPage} :
    Keyed.get? (pagesById wiki) pageId = some page ↔ page ∈ wiki ∧ page.id = pageId := by
  rw [pagesById_eq distinct]
  constructor
  · intro found
    obtain ⟨held, heldIn, same⟩ := List.mem_map.mp (Keyed.mem_of_get? found)
    obtain ⟨rfl, rfl⟩ := Prod.mk.inj same
    exact ⟨heldIn, rfl⟩
  · rintro ⟨pageIn, rfl⟩
    refine @Keyed.get?_of_mem _ _ _ _ (page.id, page) ?_ (List.mem_map_of_mem pageIn)
    rw [List.map_map]
    exact distinct

include routes

theorem get?_bestOf {page : WikiPage} (pageIn : page ∈ wiki)
    (included : pageIsExcluded excluded page = false) :
    Keyed.get? (bestOf index (pagesById wiki) excluded queryVector queryNorm recordPositions)
      page.id = bestRecord index queryVector queryNorm page := by
  have found : Keyed.get? (pagesById wiki) page.id = some page :=
    (get?_pagesById_iff distinct).mpr ⟨pageIn, rfl⟩
  unfold bestOf
  rw [get?_foldl_keepAt _ _ ⟨page, found, included⟩]
  rcases routes with rfl | rfl
  · rfl
  · -- The positions left out have no record of the page.
    rw [Option.getD_some, eligiblePositions_eq, List.filterMap_filter]
    refine congrArg (List.argmax scoredKey) (List.filterMap_congr fun position _ => ?_)
    split
    next => rfl
    next left =>
      unfold scoredRecord
      cases here : index.records[position]? with
      | none => rfl
      | some record =>
          rw [here, Option.any_some, Bool.and_eq_true, decide_eq_true_eq, Bool.not_eq_true'] at left
          rw [Option.bind_some, if_neg]
          rintro ⟨same, normed⟩
          refine left ⟨?_, by simpa [hasNoNorm, Floats.le, Floats.ofRat] using normed⟩
          rw [same]
          refine List.mem_map_of_mem (List.mem_filter.mpr ⟨?_, by simp [included]⟩)
          exact List.mem_map.mpr ⟨_, Keyed.mem_of_get? found, rfl⟩

theorem mem_rankedPages_iff {ranked : RankedPage ℝ} :
    ranked ∈ rankedPages (pagesById wiki)
        (bestOf index (pagesById wiki) excluded queryVector queryNorm recordPositions) ↔
      ranked ∈ (wiki.filter fun page => !pageIsExcluded excluded page).filterMap fun page =>
        (bestRecord index queryVector queryNorm page).map fun best =>
          { page, score := best.1, record := best.2 : RankedPage ℝ } := by
  have kept : BestIncluded index (pagesById wiki) excluded
      (bestOf index (pagesById wiki) excluded queryVector queryNorm recordPositions) :=
    bestOf_included recordPositions
  unfold rankedPages
  rw [List.mem_filterMap, List.mem_filterMap]
  constructor
  · rintro ⟨entry, entryIn, same⟩
    obtain ⟨page, found, rfl⟩ := Option.map_eq_some_iff.mp same
    obtain ⟨pageIn, sameId⟩ := (get?_pagesById_iff distinct).mp found
    obtain ⟨visible, visibleFound, included⟩ :=
      kept.included entry entryIn
    obtain rfl := Option.some.inj (visibleFound.symm.trans found)
    refine ⟨visible, List.mem_filter.mpr ⟨pageIn, by simp [included]⟩, ?_⟩
    rw [← get?_bestOf distinct routes pageIn included, sameId,
      Keyed.get?_of_mem kept.distinct entryIn]
    rfl
  · rintro ⟨page, pageAmong, same⟩
    obtain ⟨pageIn, included⟩ := List.mem_filter.mp pageAmong
    obtain ⟨best, found, rfl⟩ := Option.map_eq_some_iff.mp same
    rw [← get?_bestOf distinct routes pageIn (by simpa using included)] at found
    refine ⟨(page.id, best), Keyed.mem_of_get? found, ?_⟩
    rw [(get?_pagesById_iff distinct).mpr ⟨pageIn, rfl⟩]
    rfl

/-- On every route the ranking is the declared one. -/
theorem sortBy_rankedPages :
    sortBy vectorLe (rankedPages (pagesById wiki)
        (bestOf index (pagesById wiki) excluded queryVector queryNorm recordPositions)) =
      ranking index wiki excluded queryVector queryNorm := by
  have kept : BestIncluded index (pagesById wiki) excluded
      (bestOf index (pagesById wiki) excluded queryVector queryNorm recordPositions) :=
    bestOf_included recordPositions
  have nodup : (rankedPages (pagesById wiki)
      (bestOf index (pagesById wiki) excluded queryVector queryNorm recordPositions)).Nodup := by
    refine List.Nodup.of_map (fun ranked => ranked.page.id)
      (List.Nodup.sublist (@Keyed.filterMap_keys _ _ _ _ _ Prod.fst _ ?_) kept.distinct)
    intro entry ranked same
    obtain ⟨page, found, rfl⟩ := Option.map_eq_some_iff.mp same
    exact ((get?_pagesById_iff distinct).mp found).2
  have declaredNodup : ((wiki.filter fun page => !pageIsExcluded excluded page).filterMap
      fun page => (bestRecord index queryVector queryNorm page).map fun best =>
        { page, score := best.1, record := best.2 : RankedPage ℝ }).Nodup := by
    refine List.Nodup.of_map (fun ranked => ranked.page.id)
      (List.Nodup.sublist (@Keyed.filterMap_keys _ _ _ _ _ WikiPage.id _ ?_)
        (distinct.sublist (List.filter_sublist.map _)))
    intro page ranked same
    obtain ⟨best, -, rfl⟩ := Option.map_eq_some_iff.mp same
    rfl
  have total : Std.Total fun first second : RankedPage ℝ => rankingKey first ≤ rankingKey second :=
    ⟨fun first second => le_total (rankingKey first) (rankingKey second)⟩
  have trans : IsTrans (RankedPage ℝ) fun first second => rankingKey first ≤ rankingKey second :=
    ⟨fun _ _ _ => le_trans⟩
  refine @List.Perm.eq_of_pairwise _ (fun first second => rankingKey first ≤ rankingKey second)
    _ _ ?_ ?_ (List.pairwise_insertionSort _ _) ?_
  · -- One key has one page, and a page has one best record.
    intro first second firstIn secondIn le ge
    have key : rankingKey first = rankingKey second := le_antisymm le ge
    simp only [rankingKey, toLex_inj, Prod.mk.injEq] at key
    rw [mem_sortBy, mem_rankedPages_iff distinct routes] at firstIn
    rw [ranking, (List.perm_insertionSort _ _).mem_iff] at secondIn
    obtain ⟨page, pageAmong, same⟩ := List.mem_filterMap.mp firstIn
    obtain ⟨other, otherAmong, otherSame⟩ := List.mem_filterMap.mp secondIn
    obtain ⟨best, found, rfl⟩ := Option.map_eq_some_iff.mp same
    obtain ⟨otherBest, otherFound, rfl⟩ := Option.map_eq_some_iff.mp otherSame
    have samePage : page = other := List.inj_on_of_nodup_map distinct
      (List.mem_of_mem_filter pageAmong) (List.mem_of_mem_filter otherAmong) key.2.2.2
    subst samePage
    obtain rfl := Option.some.inj (found.symm.trans otherFound)
    rfl
  · exact (sortBy_pairwise fun first _ second _ => vectorLe_iff first second).imp rankingKey_le
  · refine (sortBy_perm _ _).trans (((List.perm_ext_iff_of_nodup nodup declaredNodup).mpr
      fun ranked => ?_).trans (List.perm_insertionSort _ _).symm)
    exact mem_rankedPages_iff distinct routes

omit distinct routes in
/-- The positions a search asks for are all of them, or the eligible ones. -/
theorem filtered_routes :
    let positions := filteredRecordPositionsForSmallPageSubset index (pagesById wiki) excluded
    positions = none ∨ positions = some (eligiblePositions index (pagesById wiki) excluded) := by
  intro positions
  cases filtered : positions with
  | none => exact .inl rfl
  | some given => exact .inr (congrArg some (filteredRecordPositions_eq filtered))

omit distinct in
theorem routes_inside : ∀ position ∈ recordPositions.getD (List.range index.records.length),
    position < index.records.length := by
  intro position positionIn
  rcases routes with rfl | rfl
  · exact List.mem_range.mp positionIn
  · rw [Option.getD_some, eligiblePositions_eq] at positionIn
    exact List.mem_range.mp (List.mem_of_mem_filter positionIn)

end Ranking

end Items

/-- Vector search gives the declared ranking, cut to the limit.  So does every route: all records
or the eligible ones, with a library that answers for any blocks or by the loop alone. -/
theorem searchVectorIndex_ranking {index : VectorIndex ℝ} (sound : index.Sound)
    {wiki : List WikiPage} (distinct : (wiki.map WikiPage.id).Nodup) [Unicode] (query : Text)
    {queryVector : List ℝ} (dimension : queryVector.length = index.dimension) {queryNorm : ℝ}
    (positive : 0 < queryNorm) (options : VectorOptions) (answers : List Nat → Bool) :
    let excluded := pageExclusionSet options.excludePageIds
    let ranked := ranking index wiki excluded queryVector queryNorm
    searchVectorIndexWithQueryVector answers index wiki query (some queryVector) queryNorm options =
        .ok ((takeLimit options.limit ranked).map fun ranked =>
          vectorResult ranked.page ranked.score ranked.record options.snippetChars) ∧
      ∀ recordPositions : Option (List Nat),
        (recordPositions = none ∨
          recordPositions = some (eligiblePositions index (pagesById wiki) excluded)) →
        ∀ useNumpy,
          let best := bestVectorRecordsByPageFromScores answers index (pagesById wiki) excluded
            queryVector queryNorm recordPositions useNumpy
          (useNumpy = true ∧ best = .error .unavailable) ∨
            best.map (fun best => sortBy vectorLe (rankedPages (pagesById wiki) best)) =
              .ok ranked := by
  intro excluded ranked
  refine ⟨?_, fun recordPositions routes useNumpy => ?_⟩
  · have refused : hasNoNorm queryNorm = false := by
      simpa [hasNoNorm, Floats.le, Floats.ofRat] using positive
    have routes := @filtered_routes _ index wiki excluded
    have best := @bestVectorRecordsByPage_eq _ index queryVector queryNorm (pagesById wiki) excluded
      sound positive dimension answers _ (routes_inside routes)
    have sorted := @sortBy_rankedPages _ index queryVector queryNorm wiki distinct excluded _ routes
    unfold searchVectorIndexWithQueryVector
    simp only [refused]
    split
    next none_ =>
      -- No position is eligible, so no page has a record with a norm.
      rw [none_] at sorted
      have empty : ranked = [] := sorted.symm.trans rfl
      rw [empty, List.sublist_nil.mp (takeLimit_sublist options.limit _)]
      rfl
    next =>
      rw [best]
      exact congrArg (fun ranked => Except.ok ((takeLimit options.limit ranked).map _)) sorted
  · intro best
    rcases @bestVectorRecordsByPageFromScores_eq _ index queryVector queryNorm (pagesById wiki)
      excluded sound positive dimension answers recordPositions (routes_inside routes) useNumpy with
      failed | found
    · exact .inl failed
    · refine .inr ?_
      simp only [best, found]
      exact congrArg Except.ok (sortBy_rankedPages distinct routes)

end

noncomputable section Sample

attribute [local instance] Unicode.ascii RankBands.sampleScoring

def samplePages : List WikiPage :=
  [{ id := "a", title := "Alpha", path := "a.md", role := .topic, text := "alpha" },
    { id := "b", title := "Beta", path := "b.md", role := .topic, text := "beta" }]

/-- Two records of one page, the vector of the second only in the matrix. -/
def sampleIndex : VectorIndex ℝ where
  records :=
    [{ pageId := "a", ordinal := 0, start := 0, end_ := 5, vector := [0, 1], norm := 1 },
      { pageId := "a", ordinal := 1, start := 0, end_ := 5, vector := [], norm := 1 }]
  dimension := 2
  vectorMatrix := some [[0, 1], [1, 0]]
  vectorNorms := some [1, 1]

theorem sampleIndex_sound : sampleIndex.Sound where
  dimension position below := by
    have either : position = 0 ∨ position = 1 := by
      have bound : sampleIndex.records.length = 2 := rfl
      omega
    rcases either with rfl | rfl <;> simp [VectorIndex.vectorAt, sampleIndex]
  rows matrix rows := by
    obtain rfl := Option.some.inj rows
    simp [VectorIndex.vectorAt, sampleIndex, List.range_succ]
  norms norms rowNorms := by
    obtain rfl := Option.some.inj rowNorms
    simp [sampleIndex]
  vectors none_ := by cases none_

theorem searchVectorIndex_ranking_two :
    searchVectorIndexWithQueryVector (fun _ => true) sampleIndex samplePages "alpha" (some [1, 0]) 1
        { limit := 8 } =
      .ok ((takeLimit 8 (ranking sampleIndex samplePages [] [1, 0] 1)).map fun ranked =>
        vectorResult ranked.page ranked.score ranked.record none) :=
  (searchVectorIndex_ranking sampleIndex_sound (by decide +kernel) "alpha" rfl one_pos
    { limit := 8 } fun _ => true).1

end Sample

end LlmWikiServe.VectorSearch
