import LlmWikiServe.Projection

/-!
# Metadata of merged edges

Edges of one triple are merged into the first of them.  An entry keeps its value while all values
of its key are equal, and becomes a list of them otherwise.
-/

namespace LlmWikiServe

namespace Value

/-- A value that holds no others. -/
def Scalar : Value → Prop
  | .sequence _ _ => False
  | .dict _ => False
  | _ => True

instance (value : Value) : Decidable value.Scalar :=
  match value with
  | .sequence _ _ => isFalse id
  | .dict _ => isFalse id
  | .none => isTrue trivial
  | .bool _ => isTrue trivial
  | .int _ => isTrue trivial
  | .float _ => isTrue trivial
  | .str _ => isTrue trivial
  | .bytes _ => isTrue trivial
  | .date _ => isTrue trivial
  | .datetime _ => isTrue trivial

/-- `None` or `""` -/
def blank : Value → Bool
  | .none => true
  | .str text => text = []
  | _ => false

/-- The values in order of first appearance. -/
def distinct (values : List Value) : List Value :=
  values.foldl (fun kept value => if value.isIn kept then kept else kept ++ [value]) []

theorem isIn_iff {value : Value} {values : List Value} :
    value.isIn values = true ↔ ∃ kept ∈ values, kept.same value = true := by
  simp [isIn]

/-- A scalar is itself: a float that is not equal to itself is a NaN. -/
theorem same_self {value : Value} (scalar : value.Scalar) : value.same value = true := by
  cases value with
  | float value =>
      cases number : value.number <;> cases nan : value.nan <;>
        simp [same, identical, equals, equalsScalar, number, nan]
  | sequence => cases scalar
  | dict => cases scalar
  | _ => simp [same, equals, equalsScalar, number?, DateTime.equals]

theorem distinct_concat (values : List Value) (value : Value) :
    distinct (values ++ [value]) =
      if value.isIn (distinct values) then distinct values else distinct values ++ [value] := by
  unfold distinct
  rw [List.foldl_append]
  rfl

theorem exists_same_distinct {value : Value} {values : List Value} (scalar : value.Scalar)
    (among : value ∈ values) : ∃ kept ∈ distinct values, kept.same value = true := by
  induction values using List.reverseRecOn with
  | nil => cases among
  | append_singleton earlier last inductionHypothesis =>
      rw [distinct_concat]
      rcases List.mem_append.mp among with old | new
      · obtain ⟨kept, keptIn, same⟩ := inductionHypothesis old
        refine ⟨kept, ?_, same⟩
        split
        · exact keptIn
        · exact List.mem_append_left _ keptIn
      · obtain rfl := List.mem_singleton.mp new
        split
        next present =>
          exact isIn_iff.mp present
        · exact ⟨value, List.mem_append_right _ (List.mem_singleton_self value),
            same_self scalar⟩

theorem blank_of_same {first second : Value} (empty : first.blank = true)
    (alike : first.same second = true) : second.blank = true := by
  cases first with
  | none => cases second <;> simp_all [same, identical, equals, equalsScalar, number?, blank]
  | str text => cases second <;> simp_all [same, identical, equals, equalsScalar, number?, blank]
  | _ => simp [blank] at empty

theorem list_equals_scalar (items : List Value) {value : Value} (scalar : value.Scalar) :
    (Value.list items).equals value = false := by
  cases value with
  | sequence => cases scalar
  | _ => rfl

end Value

/-- What is stored under a key whose non-blank values so far are given. -/
inductive Merges (values : List Value) : Option Value → Prop where
  | absent : values = [] → Merges values none
  | blank (stored : Value) : stored.blank = true → values = [] → Merges values (some stored)
  | one (stored : Value) : stored.Scalar → stored.blank = false →
      Value.distinct values = [stored] → Merges values (some stored)
  | list (items : List Value) : items.Pairwise (fun first second => first.same second = false) →
      (items.filter fun item => !item.blank) = Value.distinct values →
      Merges values (some (Value.list items))

def nonBlank (value : Value) : List Value := [value].filter fun value => !value.blank

theorem Merges.first {value : Value} (scalar : value.Scalar) :
    Merges (nonBlank value) (some value) := by
  by_cases empty : value.blank = true
  · exact .blank value empty (by simp [nonBlank, empty])
  · have present : nonBlank value = [value] := by simp [nonBlank, empty]
    rw [present]
    exact .one value scalar (by simpa using empty) (by simp [Value.distinct, Value.isIn])

theorem mergeMetadataEntry_over {merged : Metadata} {entry : Text × Value} {existing : Value}
    (found : Keyed.get? merged entry.1 = some existing) (present : existing.blank = false) :
    mergeMetadataEntry merged entry =
      if existing.equals entry.2 then merged
      else Keyed.set merged entry.1 (mergeMetadataValue existing entry.2) := by
  unfold mergeMetadataEntry
  rw [found]
  cases existing with
  | none => simp [Value.blank] at present
  | str text =>
      cases text with
      | nil => simp [Value.blank] at present
      | cons char rest => rfl
  | _ => rfl

theorem mergeMetadataEntry_fresh {merged : Metadata} {entry : Text × Value}
    (fresh : ∀ existing, Keyed.get? merged entry.1 = some existing → existing.blank = true) :
    mergeMetadataEntry merged entry = Keyed.set merged entry.1 entry.2 := by
  unfold mergeMetadataEntry
  cases found : Keyed.get? merged entry.1 with
  | none => rfl
  | some existing =>
      have empty := fresh existing found
      cases existing with
      | none => rfl
      | str text =>
          cases text with
          | nil => rfl
          | cons char rest => simp [Value.blank] at empty
      | _ => simp [Value.blank] at empty

theorem get?_mergeMetadataEntry_other {merged : Metadata} {entry : Text × Value} {key : Text}
    (differs : entry.1 ≠ key) :
    Keyed.get? (mergeMetadataEntry merged entry) key = Keyed.get? merged key := by
  unfold mergeMetadataEntry
  split
  · rw [Keyed.get?_set, if_neg differs]
  · rw [Keyed.get?_set, if_neg differs]
  · rw [Keyed.get?_set, if_neg differs]
  · split
    · rfl
    · rw [Keyed.get?_set, if_neg differs]

theorem Merges.overOne {values : List Value} {existing value : Value}
    (scalar : existing.Scalar) (present : existing.blank = false)
    (one : Value.distinct values = [existing]) :
    Merges (values ++ nonBlank value)
      (some (if existing.equals value then existing else mergeMetadataValue existing value)) := by
  have grown : Value.distinct (values ++ [value]) =
      if existing.same value then [existing] else [existing, value] := by
    rw [Value.distinct_concat, one]
    simp [Value.isIn]
  by_cases equal : existing.equals value = true
  · have alike : existing.same value = true := by simp [Value.same, equal]
    rw [if_pos equal]
    refine .one existing scalar present ?_
    by_cases empty : value.blank = true
    · simpa [nonBlank, empty] using one
    · simpa [nonBlank, empty, alike] using grown
  · have merged : mergeMetadataValue existing value =
        Value.list (if existing.same value then [existing] else [existing, value]) := by
      unfold mergeMetadataValue
      cases existing with
      | sequence => cases scalar
      | _ => simp [Value.isIn]
    rw [if_neg equal, merged]
    by_cases alike : existing.same value = true
    -- The object itself, a NaN: it becomes a list of one.
    · rw [if_pos alike]
      refine .list _ (List.pairwise_singleton _ _) ?_
      by_cases empty : value.blank = true
      · simp [nonBlank, empty, present, one]
      · simpa [nonBlank, empty, present, alike] using grown.symm
    · have differs : existing.same value = false := by simpa using alike
      rw [if_neg alike]
      refine .list _ (by simp [differs]) ?_
      by_cases empty : value.blank = true
      · simp [nonBlank, empty, present, one]
      · simpa [nonBlank, empty, present, differs] using grown.symm

theorem Merges.overList {values items : List Value} {value : Value}
    (apart : items.Pairwise (fun first second => first.same second = false))
    (kept : (items.filter fun item => !item.blank) = Value.distinct values) :
    Merges (values ++ nonBlank value) (some (mergeMetadataValue (Value.list items) value)) := by
  have shape : mergeMetadataValue (Value.list items) value =
      Value.list (if value.isIn items then items else items ++ [value]) := rfl
  rw [shape]
  by_cases empty : value.blank = true
  · refine .list _ ?_ ?_
    · split
      · exact apart
      next absent =>
        refine List.pairwise_append.mpr ⟨apart, List.pairwise_singleton _ _, ?_⟩
        intro item itemIn other otherIn
        obtain rfl := List.mem_singleton.mp otherIn
        exact Bool.eq_false_iff.mpr fun equal => absent (Value.isIn_iff.mpr ⟨item, itemIn, equal⟩)
    · split <;> simp [nonBlank, empty, kept]
  · have full : value.blank = false := by simpa using empty
    -- A value that is one of the items is one that is not blank.
    have alike : value.isIn items = value.isIn (Value.distinct values) := by
      rw [Bool.eq_iff_iff, Value.isIn_iff, Value.isIn_iff, ← kept]
      constructor
      · rintro ⟨item, itemIn, equal⟩
        refine ⟨item, List.mem_filter.mpr ⟨itemIn, ?_⟩, equal⟩
        by_contra hidden
        have emptyItem : item.blank = true := by simpa using hidden
        exact empty (Value.blank_of_same emptyItem equal)
      · rintro ⟨item, itemIn, equal⟩
        exact ⟨item, List.mem_of_mem_filter itemIn, equal⟩
    have extended : nonBlank value = [value] := by simp [nonBlank, full]
    rw [extended]
    refine .list _ ?_ ?_
    · split
      · exact apart
      next absent =>
        refine List.pairwise_append.mpr ⟨apart, List.pairwise_singleton _ _, ?_⟩
        intro item itemIn other otherIn
        obtain rfl := List.mem_singleton.mp otherIn
        exact Bool.eq_false_iff.mpr fun equal => absent (Value.isIn_iff.mpr ⟨item, itemIn, equal⟩)
    · rw [Value.distinct_concat, ← alike]
      split
      · exact kept
      · simp [full, kept]

theorem mergeMetadataEntry_merges {values : List Value} {merged : Metadata}
    {entry : Text × Value} (scalar : entry.2.Scalar)
    (merges : Merges values (Keyed.get? merged entry.1)) :
    Merges (values ++ nonBlank entry.2)
      (Keyed.get? (mergeMetadataEntry merged entry) entry.1) := by
  have fresh : (∀ existing, Keyed.get? merged entry.1 = some existing → existing.blank = true) →
      values = [] → Merges (values ++ nonBlank entry.2)
        (Keyed.get? (mergeMetadataEntry merged entry) entry.1) := by
    rintro empty rfl
    rw [mergeMetadataEntry_fresh empty, Keyed.get?_set, if_pos rfl]
    exact .first scalar
  cases found : Keyed.get? merged entry.1 with
  | none =>
      rw [found] at merges
      cases merges with
      | absent none_ => exact fresh (by simp [found]) none_
  | some existing =>
      rw [found] at merges
      cases merges with
      | blank _ empty none_ =>
          refine fresh ?_ none_
          rintro other otherFound
          rw [found] at otherFound
          exact Option.some.inj otherFound ▸ empty
      | one _ existingScalar present one =>
          have result : Keyed.get? (mergeMetadataEntry merged entry) entry.1 =
              some (if existing.equals entry.2 then existing
                else mergeMetadataValue existing entry.2) := by
            rw [mergeMetadataEntry_over found present]
            split
            · exact found
            · rw [Keyed.get?_set, if_pos rfl]
          rw [result]
          exact .overOne existingScalar present one
      | list items apart kept =>
          rw [mergeMetadataEntry_over found rfl, Value.list_equals_scalar items scalar,
            if_neg Bool.false_ne_true, Keyed.get?_set, if_pos rfl]
          exact .overList apart kept

def valuesIn (key : Text) (metadata : Metadata) : List Value :=
  (metadata.filter fun entry => entry.1 = key).flatMap fun entry => nonBlank entry.2

theorem mergeMetadata_merges {key : Text} {values : List Value} {existing incoming : Metadata}
    (scalar : ∀ entry ∈ incoming, entry.2.Scalar)
    (merges : Merges values (Keyed.get? existing key)) :
    Merges (values ++ valuesIn key incoming)
      (Keyed.get? (mergeMetadata existing incoming) key) := by
  induction incoming generalizing existing values with
  | nil => simpa [mergeMetadata, valuesIn] using merges
  | cons entry rest inductionHypothesis =>
      have restScalar := fun other among => scalar other (List.mem_cons_of_mem entry among)
      have shape : mergeMetadata existing (entry :: rest) =
          mergeMetadata (mergeMetadataEntry existing entry) rest := rfl
      rw [shape]
      by_cases same : entry.1 = key
      · have step := mergeMetadataEntry_merges (scalar entry List.mem_cons_self) (same ▸ merges)
        rw [same] at step
        have all : values ++ valuesIn key (entry :: rest) =
            (values ++ nonBlank entry.2) ++ valuesIn key rest := by
          simp [valuesIn, same]
        rw [all]
        exact inductionHypothesis restScalar step
      · have all : valuesIn key (entry :: rest) = valuesIn key rest := by simp [valuesIn, same]
        rw [all]
        refine inductionHypothesis restScalar ?_
        rwa [get?_mergeMetadataEntry_other same]

theorem merges_start {key : Text} {metadata : Metadata}
    (distinct : (metadata.map Prod.fst).Nodup) (scalar : ∀ entry ∈ metadata, entry.2.Scalar) :
    Merges (valuesIn key metadata) (Keyed.get? metadata key) := by
  induction metadata with
  | nil => exact .absent rfl
  | cons entry rest inductionHypothesis =>
      obtain ⟨fresh, restDistinct⟩ := List.nodup_cons.mp distinct
      by_cases same : entry.1 = key
      · have others : (rest.filter fun entry => entry.1 = key) = [] := by
          refine List.filter_eq_nil_iff.mpr fun other among => ?_
          have differs : other.1 ≠ entry.1 := fun equality =>
            fresh (equality ▸ List.mem_map_of_mem among)
          simpa [← same] using differs
        have values : valuesIn key (entry :: rest) = nonBlank entry.2 := by
          simp [valuesIn, same, others]
        have found : Keyed.get? (entry :: rest) key = some entry.2 := by
          simp [Keyed.get?, same]
        rw [values, found]
        exact .first (scalar entry List.mem_cons_self)
      · have values : valuesIn key (entry :: rest) = valuesIn key rest := by
          simp [valuesIn, same]
        have found : Keyed.get? (entry :: rest) key = Keyed.get? rest key := by
          simp [Keyed.get?, same]
        rw [values, found]
        exact inductionHypothesis restDistinct fun other among =>
          scalar other (List.mem_cons_of_mem entry among)

def valuesOf (key : Text) (edges : List GraphEdge) : List Value :=
  edges.flatMap fun edge => valuesIn key edge.metadata

theorem foldl_mergeEdge_merges {key : Text} {values : List Value} {kept : GraphEdge}
    {edges : List GraphEdge} (scalar : ∀ edge ∈ edges, ∀ entry ∈ edge.metadata, entry.2.Scalar)
    (merges : Merges values (Keyed.get? kept.metadata key)) :
    Merges (values ++ valuesOf key edges)
      (Keyed.get? (edges.foldl mergeEdge kept).metadata key) := by
  induction edges generalizing kept values with
  | nil => simpa [valuesOf] using merges
  | cons edge rest inductionHypothesis =>
      have step := mergeMetadata_merges (scalar edge List.mem_cons_self) merges
      have all : values ++ valuesOf key (edge :: rest) =
          (values ++ valuesIn key edge.metadata) ++ valuesOf key rest := by
        simp [valuesOf]
      rw [all, List.foldl_cons]
      exact inductionHypothesis
        (fun other among => scalar other (List.mem_cons_of_mem edge among)) step

theorem dedupeEdges_merges {edges : List GraphEdge}
    (dictionaries : ∀ edge ∈ edges, (edge.metadata.map Prod.fst).Nodup)
    (scalar : ∀ edge ∈ edges, ∀ entry ∈ edge.metadata, entry.2.Scalar) {merged : GraphEdge}
    (among : merged ∈ dedupeEdges edges) (key : Text) :
    Merges (valuesOf key (edges.filter fun edge => edge.key = merged.key))
      (Keyed.get? merged.metadata key) := by
  obtain ⟨head, rest, shape, folded⟩ := Keyed.mem_mergeWins mergeEdge_key among
  have original : ∀ edge ∈ head :: rest, edge ∈ edges := by
    intro edge edgeIn
    rw [← shape] at edgeIn
    exact List.mem_of_mem_filter edgeIn
  have headIn := original head List.mem_cons_self
  have start := @merges_start key head.metadata (dictionaries head headIn) (scalar head headIn)
  have run := @foldl_mergeEdge_merges key _ head rest
    (fun edge edgeIn => scalar edge (original edge (List.mem_cons_of_mem head edgeIn))) start
  rw [shape, folded]
  simpa [valuesOf] using run

/-- Deduplication keeps one edge for every triple, in order of first occurrence, and every
non-blank scalar of the metadata of an edge. -/
theorem dedupeEdges_keeps (edges : List GraphEdge)
    (dictionaries : ∀ edge ∈ edges, (edge.metadata.map Prod.fst).Nodup)
    (scalar : ∀ edge ∈ edges, ∀ entry ∈ edge.metadata, entry.2.Scalar) :
    ((dedupeEdges edges).map GraphEdge.key).Nodup ∧
      (dedupeEdges edges).map GraphEdge.key =
        (Keyed.firstWins GraphEdge.key edges).map GraphEdge.key ∧
      ∀ edge ∈ edges, ∀ entry ∈ edge.metadata, entry.2.blank = false →
        ∃ merged ∈ dedupeEdges edges, merged.key = edge.key ∧
          ∃ stored, Keyed.get? merged.metadata entry.1 = some stored ∧
            (stored.same entry.2 = true ∨
              ∃ items, stored = Value.list items ∧ entry.2.isIn items = true ∧
                items.Pairwise (fun first second => first.same second = false) ∧
                (items.filter fun item => !item.blank) =
                  Value.distinct
                    (valuesOf entry.1 (edges.filter fun other => other.key = edge.key))) := by
  refine ⟨Keyed.nodup_map_mergeWins mergeEdge_key edges,
    Keyed.map_key_mergeWins mergeEdge_key edges, ?_⟩
  intro edge edgeIn entry entryIn present
  have kept : edge.key ∈ (dedupeEdges edges).map GraphEdge.key :=
    (Keyed.mem_map_mergeWins_iff mergeEdge_key).mpr (List.mem_map_of_mem edgeIn)
  obtain ⟨merged, mergedIn, sameKey⟩ := List.mem_map.mp kept
  refine ⟨merged, mergedIn, sameKey, ?_⟩
  have merges := dedupeEdges_merges dictionaries scalar mergedIn entry.1
  rw [sameKey] at merges
  have value : entry.2 ∈
      valuesOf entry.1 (edges.filter fun other => other.key = edge.key) := by
    refine List.mem_flatMap.mpr ⟨edge, List.mem_filter.mpr ⟨edgeIn, by simp⟩, ?_⟩
    refine List.mem_flatMap.mpr ⟨entry, List.mem_filter.mpr ⟨entryIn, by simp⟩, ?_⟩
    simp [nonBlank, present]
  obtain ⟨first, firstIn, same⟩ :=
    Value.exists_same_distinct (scalar edge edgeIn entry entryIn) value
  cases found : Keyed.get? merged.metadata entry.1 with
  | none =>
      rw [found] at merges
      cases merges with
      | absent none_ =>
          rw [none_] at value
          cases value
  | some stored =>
      rw [found] at merges
      refine ⟨stored, rfl, ?_⟩
      cases merges with
      | blank _ _ none_ =>
          rw [none_] at value
          cases value
      | one _ _ _ one =>
          rw [one] at firstIn
          exact .inl (List.mem_singleton.mp firstIn ▸ same)
      | list items apart listed =>
          refine .inr ⟨items, rfl, Value.isIn_iff.mpr ⟨first, ?_, same⟩, apart, listed⟩
          rw [← listed] at firstIn
          exact List.mem_of_mem_filter firstIn

/-- `float("nan")`, which is one object for all documents of a decoder. -/
def notANumber : Value :=
  .float (.ofNan 0)

def twinKey : Text × Text × Text := ("page:a", "page:b", "cites")

/-- Two edges of one triple from different files, with another one between them. -/
def twinEdges : List GraphEdge :=
  [⟨"page:a", "page:b", "cites", [("path", .str "first.json"), ("confidence", notANumber)]⟩,
    ⟨"page:b", "page:a", "cites", []⟩,
    ⟨"page:a", "page:b", "cites", [("path", .str "second.json"), ("confidence", notANumber)]⟩]

/-- The paths become a list of two, the NaN a list of one. -/
example : (dedupeEdges twinEdges).map GraphEdge.metadata =
    ([[(("path" : Text), .list [.str "first.json", .str "second.json"]),
      (("confidence" : Text), .list [notANumber])], []] : List Metadata) := rfl

theorem dedupeEdges_keeps_twins :
    ((dedupeEdges twinEdges).map GraphEdge.key).Nodup ∧
      (dedupeEdges twinEdges).map GraphEdge.key =
        (Keyed.firstWins GraphEdge.key twinEdges).map GraphEdge.key ∧
      ∃ merged ∈ dedupeEdges twinEdges, merged.key = twinKey ∧
        ∃ stored, Keyed.get? merged.metadata "confidence" = some stored ∧
          (stored.same notANumber = true ∨
            ∃ items, stored = Value.list items ∧ notANumber.isIn items = true ∧
              items.Pairwise (fun first second => first.same second = false) ∧
              (items.filter fun item => !item.blank) =
                Value.distinct
                  (valuesOf "confidence"
                    (twinEdges.filter fun other => other.key = twinKey))) := by
  obtain ⟨distinct, firsts, kept⟩ := dedupeEdges_keeps twinEdges (by decide) (by decide)
  exact ⟨distinct, firsts, kept _ List.mem_cons_self ("confidence", notANumber)
    (List.mem_cons_of_mem _ List.mem_cons_self) rfl⟩

end LlmWikiServe
