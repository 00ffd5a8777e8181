import LlmWikiServe.Foundation.Backtracking

/-!
# Groups of a match

A pattern only moves forward, so a group at the start of a sequence is a word at the start of the
text, and it stays recorded unless a later group has its number.
-/

namespace LlmWikiServe.Pattern

theorem suffix_repeatGreedy {body : Cursor → List Cursor}
    (each : ∀ cursor, ∀ next ∈ body cursor, next.after <:+ cursor.after) (rounds : Nat) :
    ∀ cursor, ∀ next ∈ repeatGreedy body rounds cursor, next.after <:+ cursor.after := by
  induction rounds with
  | zero =>
      intro cursor next among
      rw [List.mem_singleton.mp among]
  | succ rounds inductionHypothesis =>
      intro cursor next among
      rcases List.mem_append.mp among with further | here
      · obtain ⟨middle, middleIn, further⟩ := List.mem_flatMap.mp further
        exact (inductionHypothesis middle next further).trans
          (each cursor middle (List.mem_filter.mp middleIn).1)
      · rw [List.mem_singleton.mp here]

theorem suffix_repeatLazy {body : Cursor → List Cursor}
    (each : ∀ cursor, ∀ next ∈ body cursor, next.after <:+ cursor.after) (rounds : Nat) :
    ∀ cursor, ∀ next ∈ repeatLazy body rounds cursor, next.after <:+ cursor.after := by
  induction rounds with
  | zero =>
      intro cursor next among
      rw [List.mem_singleton.mp among]
  | succ rounds inductionHypothesis =>
      intro cursor next among
      rcases List.mem_cons.mp among with here | further
      · rw [here]
      · obtain ⟨middle, middleIn, further⟩ := List.mem_flatMap.mp further
        exact (inductionHypothesis middle next further).trans
          (each cursor middle (List.mem_filter.mp middleIn).1)

/-- What follows an end of a pattern follows its start, too. -/
theorem suffix_run (pattern : Pattern) :
    ∀ cursor, ∀ next ∈ run pattern cursor, next.after <:+ cursor.after := by
  induction pattern with
  | empty =>
      intro cursor next among
      rw [run, List.mem_singleton] at among
      rw [among]
  | one accepts =>
      intro cursor next among
      rw [run] at among
      split at among
      next => cases among
      next char rest shape =>
        split at among
        next =>
          rw [List.mem_singleton.mp among, shape]
          exact List.suffix_cons char rest
        next => cases among
  | seq first second firstHypothesis secondHypothesis =>
      intro cursor next among
      rw [run] at among
      obtain ⟨middle, middleIn, further⟩ := List.mem_flatMap.mp among
      exact (secondHypothesis middle next further).trans (firstHypothesis cursor middle middleIn)
  | alt first second firstHypothesis secondHypothesis =>
      intro cursor next among
      rw [run] at among
      rcases List.mem_append.mp among with left | right
      · exact firstHypothesis cursor next left
      · exact secondHypothesis cursor next right
  | star body inductionHypothesis =>
      intro cursor next among
      rw [run] at among
      exact suffix_repeatGreedy inductionHypothesis _ cursor next among
  | lazyStar body inductionHypothesis =>
      intro cursor next among
      rw [run] at among
      exact suffix_repeatLazy inductionHypothesis _ cursor next among
  | group index body inductionHypothesis =>
      intro cursor next among
      rw [run] at among
      obtain ⟨inner, innerIn, rfl⟩ := List.mem_map.mp among
      exact inductionHypothesis cursor inner innerIn
  | guard test =>
      intro cursor next among
      rw [run] at among
      split at among
      next => rw [List.mem_singleton.mp among]
      next => cases among

/-- A group at the start of a sequence takes the text in front of what is left, and is recorded
before anything behind it. -/
theorem exists_group {index : Nat} {body back : Pattern} {cursor stop : Cursor}
    (plain : names body = [])
    (among : stop ∈ run (.seq (.group index body) back) cursor) :
    ∃ value middle, stop ∈ run back middle ∧ cursor.after = value ++ middle.after ∧
      middle.groups = (index, value) :: cursor.groups := by
  rw [run, run] at among
  obtain ⟨middle, middleIn, further⟩ := List.mem_flatMap.mp among
  obtain ⟨inner, innerIn, rfl⟩ := List.mem_map.mp middleIn
  obtain ⟨new, groups, named⟩ := (reaches_run body cursor inner innerIn).recorded
  have nothing : new = [] := by
    rw [plain] at named
    apply List.eq_nil_iff_forall_not_mem.mpr
    intro entry entryIn
    exact List.not_mem_nil (named entry entryIn)
  obtain ⟨value, shape⟩ := suffix_run body cursor inner innerIn
  have taken : cursor.after.take (cursor.after.length - inner.after.length) = value := by
    rw [← shape, List.length_append, Nat.add_sub_cancel, List.take_left]
  refine ⟨value, _, further, shape.symm, ?_⟩
  rw [taken, groups, nothing, List.nil_append]

/-- A group of one character takes that character. -/
theorem exists_group_one {index : Nat} {accepts : Char → Bool} {back : Pattern}
    {cursor stop : Cursor} (among : stop ∈ run (.seq (.group index (.one accepts)) back) cursor) :
    ∃ char middle, accepts char = true ∧ stop ∈ run back middle ∧
      middle.groups = (index, [char]) :: cursor.groups := by
  rw [run, run] at among
  obtain ⟨middle, middleIn, further⟩ := List.mem_flatMap.mp among
  obtain ⟨inner, innerIn, rfl⟩ := List.mem_map.mp middleIn
  rw [run] at innerIn
  split at innerIn
  next => cases innerIn
  next char rest shape =>
    split at innerIn
    next accepted =>
      rw [List.mem_singleton.mp innerIn] at further
      refine ⟨char, _, accepted, further, ?_⟩
      have taken : cursor.after.take (cursor.after.length - rest.length) = [char] := by
        rw [shape, List.length_cons, Nat.add_sub_cancel_left]
        rfl
      dsimp only
      rw [taken]
    next => cases innerIn

/-- A test at the start of a sequence is passed without taking anything. -/
theorem mem_run_guard {test : Text → Text → Bool} {back : Pattern} {cursor stop : Cursor}
    (among : stop ∈ run (.seq (.guard test) back) cursor) : stop ∈ run back cursor := by
  rw [run, run] at among
  split at among
  next => simpa using among
  next => simp at among

theorem find?_recorded {index : Nat} {value : Text} {back : Pattern} {middle stop : Cursor}
    {earlier : List (Nat × Text)} (fresh : index ∉ names back)
    (among : stop ∈ run back middle) (recorded : middle.groups = (index, value) :: earlier) :
    (stop.groups.find? fun entry => entry.1 = index) = some (index, value) := by
  obtain ⟨new, groups, named⟩ := (reaches_run back middle stop among).recorded
  have skipped : new.find? (fun entry => entry.1 = index) = none := by
    apply List.find?_eq_none.mpr
    intro entry entryIn
    simp only [decide_eq_true_eq]
    rintro rfl
    exact fresh (named entry entryIn)
  rw [groups, List.find?_append, skipped, Option.none_or, recorded, List.find?_cons_of_pos]
  simp

end LlmWikiServe.Pattern
