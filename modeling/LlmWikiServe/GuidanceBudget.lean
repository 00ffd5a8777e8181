import LlmWikiServe.Guidance

/-!
# The budget of a guidance

Trimming removes the last items of the first list that has any, until the dump fits the budget the
guidance declares.
-/

namespace LlmWikiServe

namespace RetrievalGuidance

def emptied (guidance : RetrievalGuidance) : RetrievalGuidance :=
  { guidance with pageCards := [], folderCards := [], suggestedTerms := [], exactIdentifiers := [] }

end RetrievalGuidance

theorem trimGuidanceFor_fits {characterBudget : Nat} {guidance : RetrievalGuidance}
    (fits : (guidance.jsonFor characterBudget).length ≤ characterBudget) :
    trimGuidanceFor characterBudget guidance = guidance := by
  rw [trimGuidanceFor, if_pos fits]

theorem trimGuidanceFor_stuck {characterBudget : Nat} {guidance : RetrievalGuidance}
    (stuck : guidance.trimOnce = none) : trimGuidanceFor characterBudget guidance = guidance := by
  by_cases fits : (guidance.jsonFor characterBudget).length ≤ characterBudget
  · exact trimGuidanceFor_fits fits
  · rw [trimGuidanceFor, if_neg fits]
    split
    next => rfl
    next trimmed step => simp [stuck] at step

theorem trimGuidanceFor_step {characterBudget : Nat} {guidance trimmed : RetrievalGuidance}
    (tooLong : ¬(guidance.jsonFor characterBudget).length ≤ characterBudget)
    (step : guidance.trimOnce = some trimmed) :
    trimGuidanceFor characterBudget guidance = trimGuidanceFor characterBudget trimmed := by
  rw [trimGuidanceFor, if_neg tooLong]
  split
  next stuck => simp [stuck] at step
  next other otherStep =>
    obtain rfl := Option.some.inj (step.symm.trans otherStep)
    rfl

/-- The guidances of contexts declare the budget of four thousand characters. -/
theorem trimGuidanceFor_default (guidance : RetrievalGuidance) :
    trimGuidanceFor guidanceCharacterBudget guidance = trimGuidanceToBudget guidance := rfl

/-! ## What trimming keeps -/

/-- A guidance cut down to beginnings of its lists, a list only where those trimmed before it are
empty. -/
structure RetrievalGuidance.CutFrom (trimmed guidance : RetrievalGuidance) : Prop where
  orientationSource : trimmed.orientationSource = guidance.orientationSource
  fallbackModes : trimmed.fallbackModes = guidance.fallbackModes
  pageCards : trimmed.pageCards <+: guidance.pageCards
  folderCards : trimmed.folderCards <+: guidance.folderCards
  suggestedTerms : trimmed.suggestedTerms <+: guidance.suggestedTerms
  exactIdentifiers : trimmed.exactIdentifiers <+: guidance.exactIdentifiers
  beforeFolders : trimmed.folderCards ≠ guidance.folderCards → trimmed.pageCards = []
  beforeTerms : trimmed.suggestedTerms ≠ guidance.suggestedTerms →
    trimmed.pageCards = [] ∧ trimmed.folderCards = []
  beforeIdentifiers : trimmed.exactIdentifiers ≠ guidance.exactIdentifiers →
    trimmed.pageCards = [] ∧ trimmed.folderCards = [] ∧ trimmed.suggestedTerms = []

/-- The trimmed guidance with the last item that was removed, which is one of the last list that
is shorter than before. -/
def RetrievalGuidance.restoreLast (guidance trimmed : RetrievalGuidance) : RetrievalGuidance :=
  if trimmed.exactIdentifiers.length < guidance.exactIdentifiers.length then
    { trimmed with
      exactIdentifiers := guidance.exactIdentifiers.take (trimmed.exactIdentifiers.length + 1) }
  else if trimmed.suggestedTerms.length < guidance.suggestedTerms.length then
    { trimmed with
      suggestedTerms := guidance.suggestedTerms.take (trimmed.suggestedTerms.length + 1) }
  else if trimmed.folderCards.length < guidance.folderCards.length then
    { trimmed with folderCards := guidance.folderCards.take (trimmed.folderCards.length + 1) }
  else { trimmed with pageCards := guidance.pageCards.take (trimmed.pageCards.length + 1) }

namespace RetrievalGuidance

variable {guidance current trimmed : RetrievalGuidance}

theorem CutFrom.refl (guidance : RetrievalGuidance) : guidance.CutFrom guidance where
  orientationSource := rfl
  fallbackModes := rfl
  pageCards := List.prefix_rfl
  folderCards := List.prefix_rfl
  suggestedTerms := List.prefix_rfl
  exactIdentifiers := List.prefix_rfl
  beforeFolders differ := absurd rfl differ
  beforeTerms differ := absurd rfl differ
  beforeIdentifiers differ := absurd rfl differ

theorem take_dropLast {Item : Type} {items original : List Item} (kept : items <+: original)
    (nonempty : items ≠ []) : original.take (items.dropLast.length + 1) = items := by
  have positive := List.length_pos_of_ne_nil nonempty
  rw [List.length_dropLast, Nat.sub_add_cancel positive]
  exact (List.prefix_iff_eq_take.mp kept).symm

theorem length_dropLast_lt {Item : Type} {items original : List Item} (kept : items <+: original)
    (nonempty : items ≠ []) : items.dropLast.length < original.length := by
  have positive := List.length_pos_of_ne_nil nonempty
  have bounded := kept.length_le
  rw [List.length_dropLast]
  omega

theorem CutFrom.trimOnce (cut : current.CutFrom guidance)
    (step : current.trimOnce = some trimmed) :
    trimmed.CutFrom guidance ∧ guidance.restoreLast trimmed = current := by
  unfold RetrievalGuidance.trimOnce at step
  split_ifs at step with cards folders terms identifiers <;>
    obtain rfl := Option.some.inj step
  · have folders : current.folderCards = guidance.folderCards := by
      by_contra differ
      exact cards (cut.beforeFolders differ)
    have terms : current.suggestedTerms = guidance.suggestedTerms := by
      by_contra differ
      exact cards (cut.beforeTerms differ).1
    have identifiers : current.exactIdentifiers = guidance.exactIdentifiers := by
      by_contra differ
      exact cards (cut.beforeIdentifiers differ).1
    constructor
    · exact { cut with
        pageCards := (List.dropLast_prefix _).trans cut.pageCards
        beforeFolders := fun differ => absurd folders differ
        beforeTerms := fun differ => absurd terms differ
        beforeIdentifiers := fun differ => absurd identifiers differ }
    · simp only [restoreLast, folders, terms, identifiers, lt_irrefl, if_false,
        take_dropLast cut.pageCards cards]
      rw [← folders, ← terms, ← identifiers]
  · rw [not_not] at cards
    have terms : current.suggestedTerms = guidance.suggestedTerms := by
      by_contra differ
      exact folders (cut.beforeTerms differ).2
    have identifiers : current.exactIdentifiers = guidance.exactIdentifiers := by
      by_contra differ
      exact folders (cut.beforeIdentifiers differ).2.1
    constructor
    · exact { cut with
        folderCards := (List.dropLast_prefix _).trans cut.folderCards
        beforeFolders := fun _ => cards
        beforeTerms := fun differ => absurd terms differ
        beforeIdentifiers := fun differ => absurd identifiers differ }
    · simp only [restoreLast, terms, identifiers, lt_irrefl, if_false,
        length_dropLast_lt cut.folderCards folders, if_true,
        take_dropLast cut.folderCards folders]
      rw [← terms, ← identifiers]
  · rw [not_not] at cards folders
    have identifiers : current.exactIdentifiers = guidance.exactIdentifiers := by
      by_contra differ
      exact terms (cut.beforeIdentifiers differ).2.2
    constructor
    · exact { cut with
        suggestedTerms := (List.dropLast_prefix _).trans cut.suggestedTerms
        beforeTerms := fun _ => ⟨cards, folders⟩
        beforeIdentifiers := fun differ => absurd identifiers differ }
    · simp only [restoreLast, identifiers, lt_irrefl, if_false,
        length_dropLast_lt cut.suggestedTerms terms, if_true,
        take_dropLast cut.suggestedTerms terms]
      rw [← identifiers]
  · rw [not_not] at cards folders terms
    constructor
    · exact { cut with
        exactIdentifiers := (List.dropLast_prefix _).trans cut.exactIdentifiers
        beforeIdentifiers := fun _ => ⟨cards, folders, terms⟩ }
    · simp only [restoreLast, length_dropLast_lt cut.exactIdentifiers identifiers, if_true,
        take_dropLast cut.exactIdentifiers identifiers]

end RetrievalGuidance

/-- A run of trimming from a guidance that is cut already, and too long with its last removed
item. -/
theorem trimGuidanceFor_run {characterBudget : Nat} {guidance current : RetrievalGuidance}
    (cut : current.CutFrom guidance)
    (removed : current ≠ guidance →
      characterBudget < ((guidance.restoreLast current).jsonFor characterBudget).length) :
    (trimGuidanceFor characterBudget current).CutFrom guidance ∧
      (trimGuidanceFor characterBudget current ≠ guidance →
        characterBudget < ((guidance.restoreLast
          (trimGuidanceFor characterBudget current)).jsonFor characterBudget).length) := by
  induction current using trimGuidanceFor.induct characterBudget with
  | case1 current fits =>
      rw [trimGuidanceFor_fits fits]
      exact ⟨cut, removed⟩
  | case2 current tooLong stuck =>
      rw [trimGuidanceFor_stuck stuck]
      exact ⟨cut, removed⟩
  | case3 current tooLong trimmed step inductionHypothesis =>
      rw [trimGuidanceFor_step tooLong step]
      obtain ⟨trimmedCut, restored⟩ := cut.trimOnce step
      apply inductionHypothesis trimmedCut
      intro _
      rw [restored]
      exact Nat.lt_of_not_le tooLong

/-- Trimming stops at a guidance that fits or has its lists empty. -/
theorem trimGuidanceFor_stops (characterBudget : Nat) (guidance : RetrievalGuidance) :
    ((trimGuidanceFor characterBudget guidance).jsonFor characterBudget).length ≤ characterBudget ∨
      (trimGuidanceFor characterBudget guidance).trimOnce = none := by
  induction guidance using trimGuidanceFor.induct characterBudget with
  | case1 guidance fits =>
      rw [trimGuidanceFor_fits fits]
      exact Or.inl fits
  | case2 guidance tooLong stuck =>
      rw [trimGuidanceFor_stuck stuck]
      exact Or.inr stuck
  | case3 guidance tooLong trimmed step inductionHypothesis =>
      rw [trimGuidanceFor_step tooLong step]
      exact inductionHypothesis

theorem RetrievalGuidance.emptied_of_trimOnce {trimmed guidance : RetrievalGuidance}
    (cut : trimmed.CutFrom guidance) (stuck : trimmed.trimOnce = none) :
    trimmed = guidance.emptied := by
  unfold RetrievalGuidance.trimOnce at stuck
  split_ifs at stuck with cards folders terms identifiers
  rw [not_not] at cards folders terms identifiers
  obtain ⟨source, folderCards, pageCards, suggestedTerms, exactIdentifiers, modes⟩ := trimmed
  have sources := cut.orientationSource
  have kept := cut.fallbackModes
  simp_all [emptied]

/-- A guidance that fits when it is emptied is trimmed to one that fits: the lists are cut at
their ends, a list only where those before it are empty, and with the last removed item the dump
would not fit. -/
theorem trimGuidanceFor_cuts (characterBudget : Nat) (guidance : RetrievalGuidance)
    (fits : (guidance.emptied.jsonFor characterBudget).length ≤ characterBudget) :
    ((trimGuidanceFor characterBudget guidance).jsonFor characterBudget).length ≤ characterBudget ∧
      (trimGuidanceFor characterBudget guidance).CutFrom guidance ∧
      (trimGuidanceFor characterBudget guidance ≠ guidance →
        characterBudget < ((guidance.restoreLast
          (trimGuidanceFor characterBudget guidance)).jsonFor characterBudget).length) := by
  obtain ⟨cut, removed⟩ := trimGuidanceFor_run
    (RetrievalGuidance.CutFrom.refl guidance) (fun differ => absurd rfl differ)
  refine ⟨?_, cut, removed⟩
  rcases trimGuidanceFor_stops characterBudget guidance with short | stuck
  · exact short
  · rw [RetrievalGuidance.emptied_of_trimOnce cut stuck]
    exact fits

def termGuidance : RetrievalGuidance where
  orientationSource := .authored
  suggestedTerms := ["first", "second"]
  fallbackModes := [.literal]

theorem trimGuidanceFor_cuts_terms :
    ((trimGuidanceFor 290 termGuidance).jsonFor 290).length ≤ 290 ∧
      (trimGuidanceFor 290 termGuidance).CutFrom termGuidance ∧
      (trimGuidanceFor 290 termGuidance ≠ termGuidance →
        290 < ((termGuidance.restoreLast (trimGuidanceFor 290 termGuidance)).jsonFor 290).length) :=
  trimGuidanceFor_cuts 290 termGuidance (by decide +kernel)

end LlmWikiServe
