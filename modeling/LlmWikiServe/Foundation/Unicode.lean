import LlmWikiServe.Foundation.Text

/-!
# Case and classification of characters

The Unicode character database an interpreter ships with is a parameter, since its
version differs between interpreters.  The laws are the ones every version keeps:
the ASCII rows, and white space being neither cased nor produced by a case mapping.
-/

namespace LlmWikiServe

/-- A Unicode character database, as `str` and `re` consult it. -/
class Unicode where
  /-- Full lowercase mapping of a character outside any context. -/
  lowerChar : Char → Text
  /-- Full case folding of a character. -/
  foldChar : Char → Text
  cased : Char → Bool
  caseIgnorable : Char → Bool
  /-- `str.isalpha` of one character. -/
  alphabetic : Char → Bool
  /-- `str.isalnum` of one character. -/
  alphanumeric : Char → Bool
  /-- `str.isdecimal` of one character. -/
  decimal : Char → Bool
  /-- `str.isdigit` of one character. -/
  digit : Char → Bool
  /-- `unicodedata.normalize("NFC", text)`. -/
  normalizeNfc : Text → Text
  lowerChar_ascii : ∀ char, char.toNat < 128 → lowerChar char = [char.toLower]
  lowerChar_space : ∀ char, Text.isSpace char = true → lowerChar char = [char]
  lowerChar_solid : ∀ char, Text.isSpace char = false →
    lowerChar char ≠ [] ∧ ∀ lowered ∈ lowerChar char, Text.isSpace lowered = false
  foldChar_nonempty : ∀ char, foldChar char ≠ []
  foldChar_ascii : ∀ char, char.toNat < 128 → foldChar char = [char.toLower]
  cased_space : ∀ char, Text.isSpace char = true → cased char = false
  caseIgnorable_space : ∀ char, Text.isSpace char = true → caseIgnorable char = false

namespace Text

open Unicode

theorem ne_sigma_of_space {char : Char} (blank : isSpace char = true) : char ≠ 'Σ' := by
  rintro rfl
  exact absurd blank (by decide)

variable [Unicode]

/-- The nearest character that is not case ignorable is cased. -/
def nextCased (context : Text) : Bool :=
  (context.dropWhile caseIgnorable).head?.any cased

/-- The `Final_Sigma` condition, the text before the position given in reverse. -/
def finalSigma (before after : Text) : Bool := nextCased before && !nextCased after

/-- Lowercase of the character between two contexts. -/
def lowerAt (before after : Text) (char : Char) : Text :=
  if char = 'Σ' then (if finalSigma before after then ['ς'] else ['σ']) else lowerChar char

/-- Lowercase of a text that follows the given context. -/
def lowerFrom : Text → Text → Text
  | _, [] => []
  | before, char :: rest => lowerAt before rest char ++ lowerFrom (char :: before) rest

/-- `str.lower()`. -/
def lower (text : Text) : Text := lowerFrom [] text

/-- `str.casefold()`. -/
def casefold (text : Text) : Text := text.flatMap foldChar

/-- `\w` of a Unicode pattern. -/
def isWord (char : Char) : Bool := alphanumeric char || char = '_'

/-! ## Lowercase and words -/

theorem nextCased_append_space (context others : Text) {char : Char}
    (blank : isSpace char = true) :
    nextCased (context ++ char :: others) = nextCased context := by
  induction context with
  | nil => simp [nextCased, caseIgnorable_space char blank, cased_space char blank]
  | cons head tail inductionHypothesis =>
      by_cases ignored : caseIgnorable head = true
      · simpa [nextCased, ignored] using inductionHypothesis
      · simp [nextCased, ignored]

theorem lowerAt_congr {before before' after after' : Text}
    (sameBefore : nextCased before = nextCased before')
    (sameAfter : nextCased after = nextCased after') (char : Char) :
    lowerAt before after char = lowerAt before' after' char := by
  unfold lowerAt finalSigma
  rw [sameBefore, sameAfter]

theorem lowerFrom_append_space (before others text : Text) {char : Char}
    (blank : isSpace char = true) :
    lowerFrom (before ++ char :: others) text = lowerFrom before text := by
  induction text generalizing before with
  | nil => rfl
  | cons head tail inductionHypothesis =>
      have context := inductionHypothesis (head :: before)
      rw [List.cons_append] at context
      simp only [lowerFrom, context]
      rw [lowerAt_congr (nextCased_append_space before others blank) rfl]

/-- Lowercase treats the two sides of a blank independently. -/
theorem lowerFrom_word_space (before word rest : Text) {char : Char}
    (blank : isSpace char = true) :
    lowerFrom before (word ++ char :: rest) = lowerFrom before word ++ char :: lower rest := by
  induction word generalizing before with
  | nil =>
      have hidden := lowerFrom_append_space [] before rest blank
      simp only [List.nil_append] at hidden ⊢
      simp [lowerFrom, lowerAt, ne_sigma_of_space blank, lowerChar_space char blank, hidden, lower]
  | cons head tail inductionHypothesis =>
      simp only [List.cons_append, lowerFrom, inductionHypothesis, List.append_assoc]
      rw [lowerAt_congr rfl (nextCased_append_space tail rest blank)]

theorem lowerAt_solid (before after : Text) {char : Char} (solid : isSpace char = false) :
    lowerAt before after char ≠ [] ∧
      ∀ lowered ∈ lowerAt before after char, isSpace lowered = false := by
  unfold lowerAt
  split
  · split <;> exact ⟨by simp, by simp; decide⟩
  · exact lowerChar_solid char solid

theorem lowerFrom_solid (before word : Text) (solid : ∀ char ∈ word, isSpace char = false) :
    ∀ lowered ∈ lowerFrom before word, isSpace lowered = false := by
  induction word generalizing before with
  | nil => simp [lowerFrom]
  | cons head tail inductionHypothesis =>
      intro lowered membership
      rcases List.mem_append.mp membership with inHead | inTail
      · exact (lowerAt_solid before tail (solid head (by simp))).2 lowered inHead
      · exact inductionHypothesis (head :: before)
          (fun char charIn => solid char (by simp [charIn])) lowered inTail

theorem lower_ne_nil {word : Text} (nonempty : word ≠ [])
    (solid : ∀ char ∈ word, isSpace char = false) : lower word ≠ [] := by
  cases word with
  | nil => exact absurd rfl nonempty
  | cons head tail =>
      have headSolid := (lowerAt_solid [] tail (solid head (by simp))).1
      intro empty
      exact headSolid (List.append_eq_nil_iff.mp empty).1

/-- The words of a lowercased text are the lowercased words. -/
theorem split_lower (text : Text) : split (lower text) = (split text).map lower := by
  induction size : text.length using Nat.strong_induction_on generalizing text with
  | _ size inductionHypothesis =>
      subst size
      rcases wordCases text with solid | ⟨word, char, rest, shape, blank, solid⟩
      · by_cases empty : text = []
        · subst empty
          rfl
        · have whole := @splitBy_word isSpace text empty solid
          have lowered := @splitBy_word isSpace (lower text) (lower_ne_nil empty solid)
            (lowerFrom_solid [] text solid)
          simp only [split, whole, lowered, List.map_cons, List.map_nil]
      · subst shape
        have shorter : rest.length < (word ++ char :: rest).length := by simp; omega
        have loweredSolid := lowerFrom_solid [] word solid
        rw [lower, lowerFrom_word_space [] word rest blank,
          split_append_space _ _ blank loweredSolid, split_append_space _ _ blank solid,
          inductionHypothesis _ shorter rest rfl]
        by_cases empty : word = []
        · subst empty
          simp [closeWord, lowerFrom]
        · have loweredNonempty := lower_ne_nil empty solid
          rw [lower] at loweredNonempty
          simp [closeWord, empty, loweredNonempty, lower]

/-- Lowercase keeps an ASCII character that is no capital. -/
theorem mem_lowerFrom {before text : Text} {char : Char} (charIn : char ∈ text)
    (small : char.toNat < 128) (lowered : char.toLower = char) : char ∈ lowerFrom before text := by
  induction text generalizing before with
  | nil => simp at charIn
  | cons head tail inductionHypothesis =>
      rcases List.mem_cons.mp charIn with rfl | later
      · have noSigma : char ≠ 'Σ' := by
          rintro rfl
          exact absurd small (by decide)
        simp [lowerFrom, lowerAt, noSigma, lowerChar_ascii char small, lowered]
      · exact List.mem_append_right _ (inductionHypothesis later)

theorem lowerFrom_ascii {before text : Text} (small : ∀ char ∈ text, char.toNat < 128) :
    lowerFrom before text = text.map Char.toLower := by
  induction text generalizing before with
  | nil => rfl
  | cons head tail inductionHypothesis =>
      have headSmall := small head List.mem_cons_self
      have noSigma : head ≠ 'Σ' := by
        rintro rfl
        exact absurd headSmall (by decide)
      rw [lowerFrom, inductionHypothesis fun char charIn =>
        small char (List.mem_cons_of_mem _ charIn)]
      simp [lowerAt, noSigma, lowerChar_ascii head headSmall]

theorem lower_ascii {text : Text} (small : ∀ char ∈ text, char.toNat < 128) :
    lower text = text.map Char.toLower := lowerFrom_ascii small

end Text

/-! ## The ASCII rows -/

theorem toLower_of_space {char : Char} (blank : Text.isSpace char = true) :
    char.toLower = char := by
  unfold Char.toLower
  split
  next capital =>
    exfalso
    have low : 65 ≤ char.toNat := capital.1
    have high : char.toNat ≤ 90 := capital.2
    simp only [Text.isSpace, Bool.or_eq_true, Bool.and_eq_true, decide_eq_true_eq] at blank
    omega
  next => rfl

theorem toLower_solid {char : Char} (solid : Text.isSpace char = false) :
    Text.isSpace char.toLower = false := by
  unfold Char.toLower
  split
  next capital =>
    have low : 65 ≤ char.toNat := capital.1
    have high : char.toNat ≤ 90 := capital.2
    have code : ∀ valid, (Char.mk (char.val + ('a'.val - 'A'.val)) valid).toNat =
        char.toNat + 32 := by
      intro valid
      change (char.val + 32).toNat = char.val.toNat + 32
      have small : char.val.toNat ≤ 90 := high
      have step : (32 : UInt32).toNat = 32 := rfl
      rw [UInt32.toNat_add, step, Nat.mod_eq_of_lt (by omega)]
    simp only [Text.isSpace, code]
    simp
    omega
  next => exact solid

/-- The database restricted to ASCII, other characters being left alone and unclassified. -/
@[reducible]
def Unicode.ascii : Unicode where
  lowerChar char := if char.toNat < 128 then [char.toLower] else [char]
  foldChar char := if char.toNat < 128 then [char.toLower] else [char]
  cased char := ('a' ≤ char && char ≤ 'z') || ('A' ≤ char && char ≤ 'Z')
  caseIgnorable char := char ∈ ['\'', '.', ':', '^', '\x60']
  alphabetic char := ('a' ≤ char && char ≤ 'z') || ('A' ≤ char && char ≤ 'Z')
  alphanumeric char :=
    ('a' ≤ char && char ≤ 'z') || ('A' ≤ char && char ≤ 'Z') || ('0' ≤ char && char ≤ '9')
  decimal char := '0' ≤ char && char ≤ '9'
  digit char := '0' ≤ char && char ≤ '9'
  normalizeNfc text := text
  lowerChar_ascii := by
    intro char small
    simp [small]
  lowerChar_space := by
    intro char blank
    simp [toLower_of_space blank]
  lowerChar_solid := by
    intro char solid
    split
    · simpa using toLower_solid solid
    · simpa using solid
  foldChar_nonempty := by
    intro char
    split <;> simp
  foldChar_ascii := by
    intro char small
    simp [small]
  cased_space := by
    intro char blank
    by_contra letter
    simp only [Bool.not_eq_false, Bool.or_eq_true, Bool.and_eq_true, decide_eq_true_eq] at letter
    have bounds : 65 ≤ char.toNat ∧ char.toNat ≤ 122 := by
      rcases letter with ⟨low, high⟩ | ⟨low, high⟩
      · have low : 97 ≤ char.toNat := low
        have high : char.toNat ≤ 122 := high
        omega
      · have low : 65 ≤ char.toNat := low
        have high : char.toNat ≤ 90 := high
        omega
    simp only [Text.isSpace, Bool.or_eq_true, Bool.and_eq_true, decide_eq_true_eq] at blank
    omega
  caseIgnorable_space := by
    intro char blank
    by_contra ignored
    simp only [List.mem_cons, List.not_mem_nil, or_false, Bool.not_eq_false,
      decide_eq_true_eq] at ignored
    rcases ignored with rfl | rfl | rfl | rfl | rfl <;> exact absurd blank (by decide)

end LlmWikiServe
