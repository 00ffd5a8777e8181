import Mathlib

/-!
# Searching a chain

Every node has one successor at most.  A search follows the successors to a node it wants, and
gives up at the end of the chain or where the chain meets itself.
-/

namespace LlmWikiServe.Chain

universe u

variable {Node : Type u}

abbrev Follows (next : Node → Option Node) : Node → Node → Prop :=
  Relation.TransGen fun node after => next node = some after

variable {next : Node → Option Node} {wanted : Node → Bool} {current after : Node}

theorem follows_iff (step : next current = some after) {node : Node} :
    Follows next current node ↔ node = after ∨ Follows next after node := by
  constructor
  · intro follows
    rcases Relation.TransGen.head'_iff.mp follows with ⟨first, stepped, rest⟩
    obtain rfl := Option.some.inj (step.symm.trans stepped)
    rcases Relation.reflTransGen_iff_eq_or_transGen.mp rest with same | later
    · exact .inl same
    · exact .inr later
  · rintro (rfl | later)
    · exact .single step
    · exact .head step later

/-- Nodes that lead to each other only are never left. -/
theorem mem_of_follows {nodes : List Node} (closed : ∀ node ∈ nodes, ∃ after ∈ nodes,
    next node = some after ∧ wanted after = false) {start node : Node} (among : start ∈ nodes)
    (follows : Follows next start node) : node ∈ nodes ∧ wanted node = false := by
  induction follows with
  | single step =>
      obtain ⟨after, afterIn, stepped, unwanted⟩ := closed _ among
      obtain rfl := Option.some.inj (step.symm.trans stepped)
      exact ⟨afterIn, unwanted⟩
  | tail _ step inductionHypothesis =>
      obtain ⟨after, afterIn, stepped, unwanted⟩ := closed _ inductionHypothesis.1
      obtain rfl := Option.some.inj (step.symm.trans stepped)
      exact ⟨afterIn, unwanted⟩

variable [DecidableEq Node]

/-- Whether a wanted node follows, with the nodes that were left so far and an upper bound of the
steps. -/
def search (next : Node → Option Node) (wanted : Node → Bool) : Nat → List Node → Node → Bool
  | 0, _, _ => false
  | fuel + 1, seen, current =>
      if current ∈ seen then false
      else
        match next current with
        | none => false
        | some after =>
            if wanted after then true else search next wanted fuel (current :: seen) after

theorem search_iff {domain : List Node}
    (support : ∀ node, (next node).isSome = true → node ∈ domain) {fuel : Nat} {seen : List Node}
    (enough : domain.length < fuel + seen.length) (distinct : seen.Nodup)
    (left_ : ∀ node ∈ seen, ∃ after, (after ∈ seen ∨ after = current) ∧
      next node = some after ∧ wanted after = false) :
    search next wanted fuel seen current = true ↔
      ∃ node, Follows next current node ∧ wanted node = true := by
  induction fuel generalizing seen current with
  | zero =>
      have inside : seen ⊆ domain := by
        intro node among
        obtain ⟨after, -, step, -⟩ := left_ node among
        exact support node (by rw [step]; rfl)
      have few := (List.subperm_of_subset distinct inside).length_le
      omega
  | succ fuel inductionHypothesis =>
      rw [search]
      split_ifs with met
      · -- The chain meets itself: nothing wanted was seen, and nothing else follows.
        simp only [false_iff, not_exists, not_and]
        intro node follows
        have closed : ∀ node ∈ seen, ∃ after ∈ seen,
            next node = some after ∧ wanted after = false := by
          intro node among
          obtain ⟨after, kept | rfl, step, unwanted⟩ := left_ node among
          · exact ⟨after, kept, step, unwanted⟩
          · exact ⟨after, met, step, unwanted⟩
        rw [(mem_of_follows closed met follows).2]
        decide
      · split
        next ends =>
          simp only [Bool.false_eq_true, false_iff, not_exists, not_and]
          intro node follows
          obtain ⟨first, stepped, -⟩ := Relation.TransGen.head'_iff.mp follows
          rw [ends] at stepped
          cases stepped
        next after step =>
          simp only [follows_iff step]
          by_cases found : wanted after = true
          · rw [if_pos found]
            exact ⟨fun _ => ⟨after, .inl rfl, found⟩, fun _ => rfl⟩
          · rw [if_neg found]
            have more : domain.length < fuel + (current :: seen).length := by
              rw [List.length_cons]
              omega
            rw [inductionHypothesis more (List.nodup_cons.mpr ⟨met, distinct⟩)]
            · constructor
              · rintro ⟨node, follows, isWanted⟩
                exact ⟨node, .inr follows, isWanted⟩
              · rintro ⟨node, rfl | follows, isWanted⟩
                · exact absurd isWanted found
                · exact ⟨node, follows, isWanted⟩
            · intro node among
              rcases List.mem_cons.mp among with rfl | earlier
              · exact ⟨after, .inr rfl, step, Bool.eq_false_of_not_eq_true found⟩
              · obtain ⟨other, kept | rfl, stepped, unwanted⟩ := left_ node earlier
                · exact ⟨other, .inl (List.mem_cons_of_mem _ kept), stepped, unwanted⟩
                · exact ⟨other, .inl List.mem_cons_self, stepped, unwanted⟩

/-- A search with enough steps finds what the chain leads to. -/
theorem search_eq_true_iff {domain : List Node}
    (support : ∀ node, (next node).isSome = true → node ∈ domain) :
    search next wanted (domain.length + 1) [] current = true ↔
      ∃ node, Follows next current node ∧ wanted node = true :=
  search_iff support (by simp) List.nodup_nil nofun

end LlmWikiServe.Chain
