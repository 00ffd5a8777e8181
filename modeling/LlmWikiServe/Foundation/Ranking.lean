import Mathlib.Data.List.Sort

/-!
# Ranks

The front of a sorted list holds the values before which few others come.
-/

namespace LlmWikiServe.Ranking

universe u v

variable {α : Type u} {Key : Type v} [LinearOrder Key] {key : α → Key}

/-- The number of values that come before a value. -/
def rank (key : α → Key) (values : List α) (value : α) : Nat :=
  values.countP fun other => key other < key value

theorem rank_perm {first second : List α} (same : first.Perm second) (value : α) :
    rank key first value = rank key second value := same.countP_eq _

theorem rank_cons (head : α) (tail : List α) (value : α) :
    rank key (head :: tail) value =
      rank key tail value + if key head < key value then 1 else 0 := by
  simp only [rank, List.countP_cons, decide_eq_true_eq]

theorem take_eq_filter_rank {values : List α}
    (sorted : values.Pairwise fun first second => key first < key second) (limit : Nat) :
    values.take limit = values.filter fun value => rank key values value < limit := by
  induction sorted generalizing limit with
  | nil => simp
  | @cons head tail above _ inductionHypothesis =>
      have first : rank key (head :: tail) head = 0 := by
        rw [rank, List.countP_eq_zero]
        intro other among
        rcases List.mem_cons.mp among with rfl | later
        · simp
        · simpa using (above other later).le
      cases limit with
      | zero => simp
      | succ limit =>
          rw [List.take_succ_cons, List.filter_cons_of_pos (by simp [first]), inductionHypothesis]
          congr 1
          apply List.filter_congr
          intro value among
          rw [rank_cons, if_pos (above value among)]
          simp

theorem take_perm_filter_rank {values sorted : List α} (same : sorted.Perm values)
    (ordered : sorted.Pairwise fun first second => key first < key second) (limit : Nat) :
    (sorted.take limit).Perm (values.filter fun value => rank key values value < limit) := by
  rw [take_eq_filter_rank ordered]
  simp only [rank_perm same]
  exact same.filter _

theorem le_of_mem_take {sorted : List α}
    (ordered : sorted.Pairwise fun first second => key first ≤ key second) {limit : Nat}
    {taken left : α} (isTaken : taken ∈ sorted.take limit) (among : left ∈ sorted)
    (isLeft : left ∉ sorted.take limit) : key taken ≤ key left := by
  rw [← List.take_append_drop limit sorted, List.pairwise_append] at ordered
  rw [← List.take_append_drop limit sorted, List.mem_append] at among
  exact ordered.2.2 taken isTaken left (among.resolve_left isLeft)

end LlmWikiServe.Ranking
