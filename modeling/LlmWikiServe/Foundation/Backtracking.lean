import LlmWikiServe.Foundation.Pattern

/-!
# Matching by continuations

A match is the first end of its pattern, so a sequence tries the rest of the pattern from every
end of its first part, in order.
-/

namespace LlmWikiServe.Pattern

def Cursor.at (text : Text) (index : Nat) : Cursor := ⟨(text.take index).reverse, text.drop index, []⟩

def firstEnd {α : Type} (pattern : Pattern) (rest : Cursor → Option α) (cursor : Cursor) :
    Option α :=
  (run pattern cursor).findSome? rest

variable {α : Type} {rest : Cursor → Option α} {text : Text} {index : Nat}

theorem findSome?_flatMap {Start : Type} (ends : Start → List Cursor) (starts : List Start) :
    (starts.flatMap ends).findSome? rest = starts.findSome? fun start => (ends start).findSome? rest := by
  induction starts with
  | nil => rfl
  | cons start others inductionHypothesis =>
      rw [List.flatMap_cons, List.findSome?_append, inductionHypothesis, List.findSome?_cons]
      cases (ends start).findSome? rest <;> rfl

theorem firstEnd_seq (first second : Pattern) (cursor : Cursor) :
    firstEnd (.seq first second) rest cursor = firstEnd first (firstEnd second rest) cursor := by
  unfold firstEnd
  rw [run, findSome?_flatMap]

theorem firstEnd_alt (first second : Pattern) (cursor : Cursor) :
    firstEnd (.alt first second) rest cursor =
      (firstEnd first rest cursor).or (firstEnd second rest cursor) := by
  unfold firstEnd
  rw [run, List.findSome?_append]

@[simp]
theorem firstEnd_empty (cursor : Cursor) : firstEnd .empty rest cursor = rest cursor := by
  simp [firstEnd, run]

theorem firstEnd_guard (test : Text → Text → Bool) (cursor : Cursor) :
    firstEnd (.guard test) rest cursor =
      if test cursor.before cursor.after then rest cursor else none := by
  unfold firstEnd
  rw [run]
  split <;> simp

theorem run_one_at (accepts : Char → Bool) (text : Text) (index : Nat) :
    run (.one accepts) (.at text index) =
      if text[index]?.any accepts then [.at text (index + 1)] else [] := by
  rw [run]
  rcases Nat.lt_or_ge index text.length with inside | outside
  · simp only [Cursor.at, List.drop_eq_getElem_cons inside, List.getElem?_eq_getElem inside,
      Option.any_some, List.take_succ_eq_append_getElem inside, List.reverse_append,
      List.reverse_singleton, List.singleton_append]
  · simp [Cursor.at, List.drop_eq_nil_of_le outside, List.getElem?_eq_none outside]

theorem firstEnd_one_at (accepts : Char → Bool) (text : Text) (index : Nat) :
    firstEnd (.one accepts) rest (.at text index) =
      if text[index]?.any accepts then rest (.at text (index + 1)) else none := by
  unfold firstEnd
  rw [run_one_at]
  split <;> simp

theorem length_after_at (text : Text) (index : Nat) :
    (Cursor.at text index).after.length = text.length - index := List.length_drop

/-! ## Repetition -/

theorem length_repeatGreedy {body : Cursor → List Cursor} {rounds : Nat} {cursor next : Cursor}
    (among : next ∈ repeatGreedy body rounds cursor) :
    next.after.length ≤ cursor.after.length := by
  induction rounds generalizing cursor with
  | zero => rw [List.mem_singleton.mp among]
  | succ rounds inductionHypothesis =>
      rcases List.mem_append.mp among with further | here
      · obtain ⟨middle, middleIn, further⟩ := List.mem_flatMap.mp further
        have shorter := (List.mem_filter.mp middleIn).2
        have later := inductionHypothesis further
        simp only [decide_eq_true_eq] at shorter
        omega
      · rw [List.mem_singleton.mp here]

/-- A pattern that takes at least one character. -/
def Consumes (pattern : Pattern) : Prop :=
  ∀ cursor, ∀ next ∈ run pattern cursor, next.after.length < cursor.after.length

theorem consumes_one (accepts : Char → Bool) : Consumes (.one accepts) := by
  intro cursor next among
  rw [run] at among
  split at among
  next => cases among
  next char others shape =>
    split at among
    next =>
      rw [List.mem_singleton.mp among, shape]
      exact Nat.lt_succ_self _
    next => cases among

theorem Consumes.seq {first second : Pattern} (consumes : Consumes first)
    (stays : ∀ cursor, ∀ next ∈ run second cursor, next.after.length ≤ cursor.after.length) :
    Consumes (.seq first second) := by
  intro cursor next among
  rw [run] at among
  obtain ⟨middle, middleIn, further⟩ := List.mem_flatMap.mp among
  exact lt_of_le_of_lt (stays middle next further) (consumes cursor middle middleIn)

theorem length_run_star (body : Pattern) (cursor : Cursor) :
    ∀ next ∈ run (.star body) cursor, next.after.length ≤ cursor.after.length := by
  intro next among
  rw [run] at among
  exact length_repeatGreedy among

theorem Consumes.plus {body : Pattern} (consumes : Consumes body) : Consumes (plus body) :=
  consumes.seq (length_run_star body)

/-! ## Groups -/

def names : Pattern → List Nat
  | empty => []
  | one _ => []
  | seq first second => names first ++ names second
  | alt first second => names first ++ names second
  | star body => names body
  | lazyStar body => names body
  | group index body => index :: names body
  | guard _ => []

/-- A later position, with more groups recorded, all of them among some names. -/
structure Reaches (names : List Nat) (cursor next : Cursor) : Prop where
  shorter : next.after.length ≤ cursor.after.length
  recorded : ∃ new, next.groups = new ++ cursor.groups ∧ ∀ entry ∈ new, entry.1 ∈ names

namespace Reaches

variable {names others : List Nat} {cursor middle next : Cursor}

theorem refl (names : List Nat) (cursor : Cursor) : Reaches names cursor cursor :=
  ⟨le_rfl, [], rfl, by simp⟩

theorem trans (first : Reaches names cursor middle) (second : Reaches names middle next) :
    Reaches names cursor next := by
  obtain ⟨early, earlyGroups, earlyNames⟩ := first.recorded
  obtain ⟨late, lateGroups, lateNames⟩ := second.recorded
  refine ⟨second.shorter.trans first.shorter, late ++ early, ?_, fun entry entryIn => ?_⟩
  · rw [lateGroups, earlyGroups, List.append_assoc]
  · rcases List.mem_append.mp entryIn with later | earlier
    · exact lateNames entry later
    · exact earlyNames entry earlier

theorem mono (reaches : Reaches names cursor next) (more : names ⊆ others) :
    Reaches others cursor next := by
  obtain ⟨new, groups, named⟩ := reaches.recorded
  exact ⟨reaches.shorter, new, groups, fun entry entryIn => more (named entry entryIn)⟩

end Reaches

theorem reaches_repeatGreedy {body : Cursor → List Cursor} {names : List Nat}
    (each : ∀ cursor, ∀ next ∈ body cursor, Reaches names cursor next) (rounds : Nat) :
    ∀ cursor, ∀ next ∈ repeatGreedy body rounds cursor, Reaches names cursor next := by
  induction rounds with
  | zero =>
      intro cursor next among
      rw [List.mem_singleton.mp among]
      exact .refl names cursor
  | succ rounds inductionHypothesis =>
      intro cursor next among
      rcases List.mem_append.mp among with further | here
      · obtain ⟨middle, middleIn, further⟩ := List.mem_flatMap.mp further
        exact (each cursor middle (List.mem_filter.mp middleIn).1).trans
          (inductionHypothesis middle next further)
      · rw [List.mem_singleton.mp here]
        exact .refl names cursor

theorem reaches_repeatLazy {body : Cursor → List Cursor} {names : List Nat}
    (each : ∀ cursor, ∀ next ∈ body cursor, Reaches names cursor next) (rounds : Nat) :
    ∀ cursor, ∀ next ∈ repeatLazy body rounds cursor, Reaches names cursor next := by
  induction rounds with
  | zero =>
      intro cursor next among
      rw [List.mem_singleton.mp among]
      exact .refl names cursor
  | succ rounds inductionHypothesis =>
      intro cursor next among
      rcases List.mem_cons.mp among with here | further
      · rw [here]
        exact .refl names cursor
      · obtain ⟨middle, middleIn, further⟩ := List.mem_flatMap.mp further
        exact (each cursor middle (List.mem_filter.mp middleIn).1).trans
          (inductionHypothesis middle next further)

theorem reaches_run (pattern : Pattern) :
    ∀ cursor, ∀ next ∈ run pattern cursor, Reaches (names pattern) cursor next := by
  induction pattern with
  | empty =>
      intro cursor next among
      rw [run, List.mem_singleton] at among
      rw [among]
      exact .refl _ cursor
  | one accepts =>
      intro cursor next among
      have shorter := consumes_one accepts cursor next among
      rw [run] at among
      split at among
      next => cases among
      next =>
        split at among
        next =>
          rw [List.mem_singleton.mp among] at shorter ⊢
          exact ⟨shorter.le, [], rfl, by simp⟩
        next => cases among
  | seq first second firstHypothesis secondHypothesis =>
      intro cursor next among
      rw [run] at among
      obtain ⟨middle, middleIn, further⟩ := List.mem_flatMap.mp among
      exact ((firstHypothesis cursor middle middleIn).mono (List.subset_append_left _ _)).trans
        ((secondHypothesis middle next further).mono (List.subset_append_right _ _))
  | alt first second firstHypothesis secondHypothesis =>
      intro cursor next among
      rw [run] at among
      rcases List.mem_append.mp among with left | right
      · exact (firstHypothesis cursor next left).mono (List.subset_append_left _ _)
      · exact (secondHypothesis cursor next right).mono (List.subset_append_right _ _)
  | star body inductionHypothesis =>
      intro cursor next among
      rw [run] at among
      exact reaches_repeatGreedy inductionHypothesis _ cursor next among
  | lazyStar body inductionHypothesis =>
      intro cursor next among
      rw [run] at among
      exact reaches_repeatLazy inductionHypothesis _ cursor next among
  | group index body inductionHypothesis =>
      intro cursor next among
      rw [run] at among
      obtain ⟨inner, innerIn, rfl⟩ := List.mem_map.mp among
      have reached := inductionHypothesis cursor inner innerIn
      obtain ⟨new, groups, named⟩ := reached.recorded
      refine ⟨reached.shorter, (index, _) :: new, by rw [groups, List.cons_append], ?_⟩
      intro entry entryIn
      rcases List.mem_cons.mp entryIn with rfl | later
      · exact List.mem_cons_self
      · exact List.mem_cons_of_mem _ (named entry later)
  | guard test =>
      intro cursor next among
      rw [run] at among
      split at among
      next =>
        rw [List.mem_singleton.mp among]
        exact .refl _ cursor
      next => cases among

/-- A group that takes a character is recorded with a text that is not empty. -/
theorem group?_ne_nil {front body back : Pattern} {index : Nat} {text : Text} {found : Match}
    (consumes : Consumes body) (fresh : index ∉ names back)
    (matched : matchStart (.seq front (.seq (.group index body) back)) text = some found) :
    ∃ value, found.group? index = some value ∧ value ≠ [] := by
  obtain ⟨stop, stopIn, rfl⟩ := Option.map_eq_some_iff.mp matched
  have among := List.mem_of_head? stopIn
  rw [run] at among
  obtain ⟨first, -, further⟩ := List.mem_flatMap.mp among
  rw [run, run] at further
  obtain ⟨middle, middleIn, further⟩ := List.mem_flatMap.mp further
  obtain ⟨inner, innerIn, rfl⟩ := List.mem_map.mp middleIn
  obtain ⟨new, groups, named⟩ := (reaches_run back _ stop further).recorded
  have shorter := consumes first inner innerIn
  refine ⟨first.after.take (first.after.length - inner.after.length), ?_, ?_⟩
  · -- The groups recorded later have other names.
    have skipped : new.find? (fun entry => entry.1 = index) = none := by
      apply List.find?_eq_none.mpr
      intro entry entryIn
      simp only [decide_eq_true_eq]
      rintro rfl
      exact fresh (named entry entryIn)
    rw [Match.group?, groups, List.find?_append, skipped, Option.none_or, List.find?_cons_of_pos]
    · rfl
    · simp
  · apply List.ne_nil_of_length_pos
    rw [List.length_take]
    omega

/-- A greedy repetition tries one more round before it goes on. -/
theorem findSome_repeatGreedy {body : Pattern} (consumes : Consumes body) (rounds : Nat)
    (cursor : Cursor) :
    (repeatGreedy (run body) (rounds + 1) cursor).findSome? rest =
      (firstEnd body (fun next => (repeatGreedy (run body) rounds next).findSome? rest)
        cursor).or (rest cursor) := by
  have all : (run body cursor).filter (fun next => next.after.length < cursor.after.length) =
      run body cursor := by
    apply List.filter_eq_self.mpr
    intro next among
    exact decide_eq_true (consumes cursor next among)
  rw [repeatGreedy, all, List.findSome?_append, findSome?_flatMap]
  simp [firstEnd]

/-- A greedy repetition of one character. -/
theorem firstEnd_star_one (accepts : Char → Bool) (text : Text) (index : Nat) :
    firstEnd (.star (.one accepts)) rest (.at text index) =
      if text[index]?.any accepts then
        (firstEnd (.star (.one accepts)) rest (.at text (index + 1))).or (rest (.at text index))
      else rest (.at text index) := by
  unfold firstEnd
  rw [run, run, length_after_at, length_after_at]
  rcases Nat.lt_or_ge index text.length with inside | outside
  · obtain ⟨rounds, shape⟩ : ∃ rounds, text.length - index = rounds + 1 :=
      ⟨text.length - index - 1, by omega⟩
    have fewer : text.length - (index + 1) = rounds := by omega
    rw [shape, fewer, findSome_repeatGreedy (consumes_one accepts), firstEnd_one_at]
    split <;> simp
  · simp [List.getElem?_eq_none outside, Nat.sub_eq_zero_of_le outside, repeatGreedy]

/-- What goes on at no accepted character goes on behind all of them. -/
theorem firstEnd_star_one_of_stuck {accepts : Char → Bool}
    (stuck : ∀ index, text[index]?.any accepts = true → rest (.at text index) = none)
    (count : Nat) (run_ : ∀ offset < count, text[index + offset]?.any accepts = true)
    (stops : text[index + count]?.any accepts = false) :
    firstEnd (.star (.one accepts)) rest (.at text index) = rest (.at text (index + count)) := by
  induction count generalizing index with
  | zero =>
      rw [firstEnd_star_one]
      simp only [Nat.add_zero] at stops ⊢
      rw [stops]
      rfl
  | succ count inductionHypothesis =>
      have here : text[index]?.any accepts = true := run_ 0 (Nat.succ_pos count)
      rw [firstEnd_star_one, if_pos here, stuck index here, Option.or_none]
      have shift : ∀ offset, index + 1 + offset = index + (offset + 1) := by omega
      rw [inductionHypothesis, shift]
      · intro offset within
        rw [shift]
        exact run_ (offset + 1) (Nat.succ_lt_succ within)
      · rwa [shift]

theorem firstEnd_star_one_of_goes {accepts : Char → Bool} {result : α} (count : Nat)
    (run_ : ∀ offset < count, text[index + offset]?.any accepts = true)
    (stops : text[index + count]?.any accepts = false)
    (goes : rest (.at text (index + count)) = some result) :
    firstEnd (.star (.one accepts)) rest (.at text index) = some result := by
  induction count generalizing index with
  | zero =>
      rw [firstEnd_star_one]
      simp only [Nat.add_zero] at stops goes
      simp [stops, goes]
  | succ count inductionHypothesis =>
      have here : text[index]?.any accepts = true := run_ 0 (Nat.succ_pos count)
      have shift : ∀ offset, index + 1 + offset = index + (offset + 1) := by omega
      rw [firstEnd_star_one, if_pos here, inductionHypothesis, Option.some_or]
      · intro offset within
        rw [shift]
        exact run_ (offset + 1) (Nat.succ_lt_succ within)
      · rwa [shift]
      · rwa [shift]

/-! ## Leftmost matches -/

theorem matchFrom_at (pattern : Pattern) (text : Text) (index : Nat) :
    matchFrom pattern (text.take index).reverse (text.drop index) =
      (firstEnd pattern some (.at text index)).map fun stop =>
        ⟨text.take index, (text.drop index).take ((text.drop index).length - stop.after.length),
          stop.groups, stop.after⟩ := by
  have head : (run pattern (.at text index)).head? =
      firstEnd pattern some (.at text index) := by
    unfold firstEnd
    cases run pattern (.at text index) <;> rfl
  rw [matchFrom, ← head, List.reverse_reverse]
  rfl

/-- Nothing is found where no match starts. -/
theorem findFrom_skip (pattern : Pattern) (text : Text) (count : Nat) :
    (∀ offset < count, matchFrom pattern (text.take (index + offset)).reverse
      (text.drop (index + offset)) = none) →
    findFrom pattern 0 (text.take index).reverse (text.drop index) =
      findFrom pattern 0 (text.take (index + count)).reverse (text.drop (index + count)) := by
  induction count generalizing index with
  | zero => exact fun _ => rfl
  | succ count inductionHypothesis =>
      intro missing
      rcases Nat.lt_or_ge index text.length with inside | outside
      · have here := missing 0 (Nat.succ_pos count)
        have shift : ∀ offset, index + 1 + offset = index + (offset + 1) := by omega
        rw [← shift, ← inductionHypothesis]
        · simp only [Nat.add_zero, List.drop_eq_getElem_cons inside] at here
          rw [List.drop_eq_getElem_cons inside, findFrom, here,
            List.take_succ_eq_append_getElem inside, List.reverse_append]
          rfl
        · intro offset within
          rw [shift]
          exact missing (offset + 1) (Nat.succ_lt_succ within)
      · rw [List.drop_eq_nil_of_le outside, List.drop_eq_nil_of_le (by omega)]
        simp [findFrom]

/-- The characters of a match are passed over. -/
theorem findFrom_pending (pattern : Pattern) (text : Text) (pending : Nat) :
    findFrom pattern pending (text.take index).reverse (text.drop index) =
      findFrom pattern 0 (text.take (index + pending)).reverse (text.drop (index + pending)) := by
  induction pending generalizing index with
  | zero => rfl
  | succ pending inductionHypothesis =>
      rcases Nat.lt_or_ge index text.length with inside | outside
      · have shift : index + 1 + pending = index + (pending + 1) := by omega
        rw [List.drop_eq_getElem_cons inside, findFrom, ← shift, ← inductionHypothesis,
          List.take_succ_eq_append_getElem inside, List.reverse_append]
        rfl
      · rw [List.drop_eq_nil_of_le outside, List.drop_eq_nil_of_le (by omega)]
        simp [findFrom]

/-- The search goes on behind a match. -/
theorem findFrom_match {pattern : Pattern} {found : Match} (inside : index < text.length)
    (matched : matchFrom pattern (text.take index).reverse (text.drop index) = some found)
    (nonempty : found.text ≠ []) :
    findFrom pattern 0 (text.take index).reverse (text.drop index) =
      found :: findFrom pattern 0 (text.take (index + found.text.length)).reverse
        (text.drop (index + found.text.length)) := by
  have next : index + 1 + (found.text.length - 1) = index + found.text.length := by
    have positive := List.length_pos_of_ne_nil nonempty
    omega
  rw [List.drop_eq_getElem_cons inside] at matched
  rw [← next, ← findFrom_pending, List.drop_eq_getElem_cons inside, findFrom, matched,
    List.take_succ_eq_append_getElem inside, List.reverse_append]
  rfl

end LlmWikiServe.Pattern
