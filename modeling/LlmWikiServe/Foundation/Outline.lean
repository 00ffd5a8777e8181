import Mathlib

/-!
# Numbers of an outline

The items of an outline are given by their levels alone.  Each is numbered below the nearest item
before it of a smaller level, counting on from the last number given there.  A number is a prefix
of a later one exactly when no item after it, up to the later one, gets back to its level.
-/

namespace LlmWikiServe.Outline

/-- An item that later ones may be numbered below. -/
structure Entry (Level : Type*) where
  level : Level
  number : List Nat

variable {Level : Type*} [LinearOrder Level]

/-- The number of the innermost open item. -/
def parent (stack : List (Entry Level)) : List Nat := (stack.head?.map Entry.number).getD []

/-- The numbers given from a stack of open items, innermost first, and the last numbers given. -/
def numbersFrom (stack : List (Entry Level)) (counts : List Nat → Nat) :
    List Level → List (List Nat)
  | [] => []
  | level :: rest =>
      let opened := stack.dropWhile fun entry => level ≤ entry.level
      let number := parent opened ++ [counts (parent opened) + 1]
      number ::
        numbersFrom (⟨level, number⟩ :: opened)
          (Function.update counts (parent opened) (counts (parent opened) + 1)) rest

def numbers (levels : List Level) : List (List Nat) := numbersFrom [] (fun _ => 0) levels

/-! ## The invariant of the open items -/

def Used (counts : List Nat → Nat) (number : List Nat) : Prop :=
  ∃ above last, number = above ++ [last] ∧ last ≤ counts above

/-- The first of two open items lies in the second. -/
def Below (upper lower : Entry Level) : Prop :=
  lower.level < upper.level ∧ lower.number <+: upper.number ∧ lower.number ≠ upper.number

/-- The open items lie in each other, and what their numbers begin with was given before. -/
structure Open (stack : List (Entry Level)) (counts : List Nat → Nat) : Prop where
  nested : stack.Pairwise Below
  given : ∀ entry ∈ stack, ∀ number, number ≠ [] → number <+: entry.number → Used counts number

theorem Open.nil : Open ([] : List (Entry Level)) fun _ => 0 := ⟨.nil, by simp⟩

theorem Used.ne_nil {counts : List Nat → Nat} {number : List Nat} (used : Used counts number) :
    number ≠ [] := by
  obtain ⟨above, last, rfl, -⟩ := used
  simp

theorem le_update (counts : List Nat → Nat) (above number : List Nat) :
    counts number ≤ Function.update counts above (counts above + 1) number := by
  rw [Function.update_apply]
  split
  next same =>
    subst same
    omega
  next => exact le_rfl

theorem Used.update {counts : List Nat → Nat} {number : List Nat} (used : Used counts number)
    (above : List Nat) : Used (Function.update counts above (counts above + 1)) number := by
  obtain ⟨front, last, rfl, bounded⟩ := used
  exact ⟨front, last, rfl, bounded.trans (le_update counts above front)⟩

/-- The number given next was not given before, and is then. -/
theorem not_used_next (counts : List Nat → Nat) (above : List Nat) :
    ¬ Used counts (above ++ [counts above + 1]) := by
  rintro ⟨front, last, same, bounded⟩
  obtain ⟨rfl, lasts⟩ := List.append_inj' same rfl
  obtain rfl := List.singleton_injective lasts
  omega

theorem used_next (counts : List Nat → Nat) (above : List Nat) :
    Used (Function.update counts above (counts above + 1)) (above ++ [counts above + 1]) :=
  ⟨above, counts above + 1, rfl, by simp⟩

/-- Closing what has at least a level leaves the items of smaller levels. -/
theorem mem_opened {stack : List (Entry Level)} (nested : stack.Pairwise Below) {level : Level}
    {entry : Entry Level} :
    entry ∈ stack.dropWhile (fun entry => level ≤ entry.level) ↔
      entry ∈ stack ∧ entry.level < level := by
  induction stack with
  | nil => simp
  | cons head rest inductionHypothesis =>
      obtain ⟨below, nested⟩ := List.pairwise_cons.mp nested
      by_cases closes : level ≤ head.level
      · rw [List.dropWhile_cons_of_pos (by simpa using closes), inductionHypothesis nested,
          List.mem_cons]
        constructor
        · rintro ⟨member, smaller⟩
          exact ⟨Or.inr member, smaller⟩
        · rintro ⟨rfl | member, smaller⟩
          · exact absurd smaller (not_lt.mpr closes)
          · exact ⟨member, smaller⟩
      · rw [List.dropWhile_cons_of_neg (by simpa using closes)]
        refine ⟨fun member => ⟨member, ?_⟩, And.left⟩
        rw [not_le] at closes
        rcases List.mem_cons.mp member with rfl | member
        · exact closes
        · exact (below entry member).1.trans closes

theorem prefix_parent {stack : List (Entry Level)} (nested : stack.Pairwise Below)
    {entry : Entry Level} (member : entry ∈ stack) : entry.number <+: parent stack := by
  cases stack with
  | nil => cases member
  | cons head rest =>
      rcases List.mem_cons.mp member with rfl | member
      · exact List.prefix_refl _
      · exact ((List.pairwise_cons.mp nested).1 entry member).2.1

omit [LinearOrder Level] in
theorem parent_eq (stack : List (Entry Level)) :
    parent stack = [] ∨ ∃ entry ∈ stack, entry.number = parent stack := by
  cases stack with
  | nil => exact Or.inl rfl
  | cons head rest => exact Or.inr ⟨head, List.mem_cons_self, rfl⟩

section Step

variable {stack : List (Entry Level)} {counts : List Nat → Nat} {level : Level}

abbrev opened (stack : List (Entry Level)) (level : Level) : List (Entry Level) :=
  stack.dropWhile fun entry => level ≤ entry.level

/-- The step that numbers one item keeps the invariant. -/
theorem Open.step (invariant : Open stack counts) (level : Level) :
    Open (⟨level, parent (opened stack level) ++ [counts (parent (opened stack level)) + 1]⟩ ::
        opened stack level)
      (Function.update counts (parent (opened stack level))
        (counts (parent (opened stack level)) + 1)) := by
  have nested : (opened stack level).Pairwise Below :=
    invariant.nested.sublist (List.dropWhile_sublist _)
  have inside : ∀ entry ∈ opened stack level, entry ∈ stack := fun entry member =>
    ((mem_opened invariant.nested).mp member).1
  constructor
  · rw [List.pairwise_cons]
    refine ⟨fun entry member => ⟨((mem_opened invariant.nested).mp member).2, ?_, ?_⟩, nested⟩
    · exact (prefix_parent nested member).trans (List.prefix_append _ _)
    · intro same
      have shorter := (prefix_parent nested member).length_le
      rw [same] at shorter
      simp at shorter
  · rw [List.forall_mem_cons]
    constructor
    · intro number nonempty starts
      rcases List.prefix_concat_iff.mp starts with rfl | starts
      · exact used_next counts _
      · rcases parent_eq (opened stack level) with top | ⟨entry, member, same⟩
        · rw [top, List.prefix_nil] at starts
          exact absurd starts nonempty
        · rw [← same] at starts
          exact (invariant.given entry (inside entry member) number nonempty starts).update _
    · intro entry member number nonempty starts
      exact (invariant.given entry (inside entry member) number nonempty starts).update _

end Step

/-! ## Runs -/

theorem not_used_of_mem {stack : List (Entry Level)} {counts : List Nat → Nat}
    {levels : List Level} {number : List Nat} (given : number ∈ numbersFrom stack counts levels) :
    ¬ Used counts number := by
  induction levels generalizing stack counts with
  | nil => cases given
  | cons level rest inductionHypothesis =>
      rw [numbersFrom] at given
      rcases List.mem_cons.mp given with rfl | given
      · exact not_used_next counts _
      · exact fun used => inductionHypothesis given (used.update _)

omit [LinearOrder Level] in
theorem closed_next {stack : List (Entry Level)} {counts : List Nat → Nat} {number : List Nat}
    (used : Used counts number) (closed : ∀ entry ∈ stack, ¬ number <+: entry.number) :
    ¬ number <+: parent stack ++ [counts (parent stack) + 1] := by
  intro starts
  rcases List.prefix_concat_iff.mp starts with rfl | starts
  · exact not_used_next counts _ used
  · rcases parent_eq stack with top | ⟨entry, member, same⟩
    · rw [top, List.prefix_nil] at starts
      exact used.ne_nil starts
    · rw [← same] at starts
      exact closed entry member starts

theorem closed_run {stack : List (Entry Level)} {counts : List Nat → Nat} {number : List Nat}
    (used : Used counts number) {levels : List Level}
    (closed : ∀ level ∈ levels.head?, ∀ entry ∈ opened stack level, ¬ number <+: entry.number)
    {later : List Nat} (given : later ∈ numbersFrom stack counts levels) :
    ¬ number <+: later := by
  induction levels generalizing stack counts with
  | nil => cases given
  | cons level rest inductionHypothesis =>
      have inside := closed level rfl
      rw [numbersFrom] at given
      rcases List.mem_cons.mp given with rfl | given
      · exact closed_next used inside
      · refine inductionHypothesis (used.update _) (fun next _ entry member => ?_) given
        rcases List.mem_cons.mp ((List.dropWhile_sublist _).subset member) with rfl | member
        · exact closed_next used inside
        · exact inside entry member

/-- Of two open items one lies in the other. -/
theorem Open.related {stack : List (Entry Level)} {counts : List Nat → Nat}
    (invariant : Open stack counts) {first second : Entry Level} (firstIn : first ∈ stack)
    (secondIn : second ∈ stack) : first = second ∨ Below first second ∨ Below second first := by
  by_cases same : first = second
  · exact Or.inl same
  · have either : stack.Pairwise fun upper lower => Below upper lower ∨ Below lower upper :=
      invariant.nested.imp Or.inl
    have symmetric : Std.Symm fun upper lower : Entry Level =>
        Below upper lower ∨ Below lower upper := ⟨fun _ _ => Or.symm⟩
    exact Or.inr (either.forall firstIn secondIn same)

theorem open_run {stack : List (Entry Level)} {counts : List Nat → Nat}
    (invariant : Open stack counts) {entry : Entry Level} (member : entry ∈ stack)
    (nonempty : entry.number ≠ []) {levels : List Level} {position : Nat} {later : List Nat}
    (given : (numbersFrom stack counts levels)[position]? = some later) :
    entry.number <+: later ↔ ∀ level ∈ levels.take (position + 1), entry.level < level := by
  induction levels generalizing stack counts position with
  | nil => simp [numbersFrom] at given
  | cons level rest inductionHypothesis =>
      rw [List.take_succ_cons, List.forall_mem_cons]
      by_cases stays : entry.level < level
      · have nested : (opened stack level).Pairwise Below :=
          invariant.nested.sublist (List.dropWhile_sublist _)
        have kept : entry ∈ opened stack level := (mem_opened invariant.nested).mpr ⟨member, stays⟩
        rw [numbersFrom] at given
        cases position with
        | zero =>
            obtain rfl := Option.some.inj given
            refine iff_of_true ?_ ⟨stays, by simp⟩
            exact (prefix_parent nested kept).trans (List.prefix_append _ _)
        | succ position =>
            rw [inductionHypothesis (invariant.step level) (List.mem_cons_of_mem _ kept) given]
            exact (and_iff_right stays).symm
      · refine iff_of_false ?_ fun all => stays all.1
        have used : Used counts entry.number :=
          invariant.given entry member _ nonempty (List.prefix_refl _)
        refine closed_run used (fun next isNext other otherIn starts => ?_)
          (List.mem_of_getElem? given)
        obtain rfl := Option.some.inj isNext
        -- What begins with the number lies in the item, and is closed with it.
        obtain ⟨otherIn, smaller⟩ := (mem_opened invariant.nested).mp otherIn
        rcases invariant.related member otherIn with rfl | ⟨-, shorter, differs⟩ | ⟨less, -, -⟩
        · exact stays smaller
        · exact differs (shorter.eq_of_length_le starts.length_le)
        · exact stays (less.trans smaller)

/-! ## The outline -/

theorem nodup_numbersFrom (stack : List (Entry Level)) (counts : List Nat → Nat)
    (levels : List Level) : (numbersFrom stack counts levels).Nodup := by
  induction levels generalizing stack counts with
  | nil => exact List.nodup_nil
  | cons level rest inductionHypothesis =>
      rw [numbersFrom, List.nodup_cons]
      exact ⟨fun again => not_used_of_mem again (used_next counts _), inductionHypothesis _ _⟩

theorem exists_of_mem_numbersFrom {stack : List (Entry Level)} {counts : List Nat → Nat}
    {levels : List Level} {number : List Nat} (given : number ∈ numbersFrom stack counts levels) :
    ∃ above last, number = above ++ [last + 1] := by
  induction levels generalizing stack counts with
  | nil => cases given
  | cons level rest inductionHypothesis =>
      rw [numbersFrom] at given
      rcases List.mem_cons.mp given with rfl | given
      · exact ⟨_, _, rfl⟩
      · exact inductionHypothesis given

/-- The levels of the items after the first position, up to the second. -/
def between (levels : List Level) (first second : Nat) : List Level :=
  (levels.take (second + 1)).drop (first + 1)

theorem prefixFrom_iff {stack : List (Entry Level)} {counts : List Nat → Nat}
    (invariant : Open stack counts) {levels : List Level} {first second : Nat} {level : Level}
    {earlier later : List Nat} (firstLevel : levels[first]? = some level)
    (firstGiven : (numbersFrom stack counts levels)[first]? = some earlier)
    (secondGiven : (numbersFrom stack counts levels)[second]? = some later) :
    earlier <+: later ∧ earlier ≠ later ↔
      first < second ∧ ∀ other ∈ between levels first second, level < other := by
  induction levels generalizing stack counts first second with
  | nil => simp at firstLevel
  | cons head rest inductionHypothesis =>
      have kept := invariant.step head
      rw [numbersFrom] at firstGiven secondGiven
      cases first with
      | zero =>
          obtain rfl := Option.some.inj firstLevel
          obtain rfl := Option.some.inj firstGiven
          cases second with
          | zero =>
              obtain rfl := Option.some.inj secondGiven
              simp
          | succ second =>
              have fresh := not_used_of_mem (List.mem_of_getElem? secondGiven)
              have differs : parent (opened stack head) ++
                  [counts (parent (opened stack head)) + 1] ≠ later := by
                rintro rfl
                exact fresh (used_next counts _)
              rw [and_iff_left differs]
              refine (open_run kept List.mem_cons_self (by simp) secondGiven).trans ?_
              simp [between]
      | succ first =>
          have fresh := not_used_of_mem (List.mem_of_getElem? firstGiven)
          cases second with
          | zero =>
              obtain rfl := Option.some.inj secondGiven
              refine iff_of_false (fun starts => ?_) (by simp)
              obtain ⟨above, last, shape⟩ :=
                exists_of_mem_numbersFrom (List.mem_of_getElem? firstGiven)
              exact fresh (kept.given _ List.mem_cons_self earlier (by simp [shape]) starts.1)
          | succ second =>
              have step := inductionHypothesis kept firstLevel firstGiven secondGiven
              rw [step, Nat.add_lt_add_iff_right]
              simp [between]

variable {levels : List Level}

theorem nodup_numbers : (numbers levels).Nodup := nodup_numbersFrom _ _ _

/-- A number begins another exactly when the item comes before the other and no item after it, up
to the other, has its level or a smaller one. -/
theorem prefix_iff {first second : Nat} {level : Level} {earlier later : List Nat}
    (firstLevel : levels[first]? = some level)
    (firstGiven : (numbers levels)[first]? = some earlier)
    (secondGiven : (numbers levels)[second]? = some later) :
    earlier <+: later ∧ earlier ≠ later ↔
      first < second ∧ ∀ other ∈ between levels first second, level < other :=
  prefixFrom_iff .nil firstLevel firstGiven secondGiven

end LlmWikiServe.Outline
