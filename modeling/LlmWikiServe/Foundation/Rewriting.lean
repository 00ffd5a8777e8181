import LlmWikiServe.Foundation.Pattern

/-!
# Rewritten texts

A rewriting goes over a text once, keeps characters and puts marks in the place of what it finds.
A word of the result was kept, or takes in some of a mark.  Over several rewritings a word is left
at the end when one of them built it and all later ones kept it.
-/

namespace LlmWikiServe.Rewriting

/-- A character that was kept, or what was put in the place of a match. -/
inductive Piece where
  | kept (char : Char)
  | mark (text : Text)

def render : List Piece → Text
  | [] => []
  | .kept char :: rest => char :: render rest
  | .mark text :: rest => text ++ render rest

/-- The length of the match at a position, and what it is replaced by; the text before the
position is given in reverse. -/
abbrev Finder : Type := Text → Text → Option (Nat × Text)

/-- The pieces from a position on, skipping `pending` characters of the last match. -/
def piecesFrom (find : Finder) : Nat → Text → Text → List Piece
  | _, _, [] => []
  | pending + 1, before, char :: rest => piecesFrom find pending (char :: before) rest
  | 0, before, char :: rest =>
      match find before (char :: rest) with
      | none => .kept char :: piecesFrom find 0 (char :: before) rest
      | some (length, text) => .mark text :: piecesFrom find (length - 1) (char :: before) rest

def pieces (find : Finder) (text : Text) : List Piece := piecesFrom find 0 [] text

def rewrite (find : Finder) (text : Text) : Text := render (pieces find text)

/-! ## Replacements of words and of matches -/

/-- `text.replace(old, new)` -/
def replacing (old new : Text) : Finder := fun _ after =>
  if old.isPrefixOf after then some (old.length, new) else none

/-- `re.sub(pattern, replacement, text)` -/
def substituting (pattern : Pattern) (replacement : Pattern.Match → Text) : Finder :=
  fun before after =>
    (Pattern.matchFrom pattern before after).map fun found =>
      (found.text.length, replacement found)

theorem render_piecesFrom_replacing (old new : Text) (pending : Nat) (before text : Text) :
    render (piecesFrom (replacing old new) pending before text) =
      Text.replaceFrom old new pending text := by
  induction text generalizing pending before with
  | nil => cases pending <;> rfl
  | cons char rest inductionHypothesis =>
      cases pending with
      | succ pending =>
          rw [piecesFrom, Text.replaceFrom]
          exact inductionHypothesis pending _
      | zero =>
          rw [piecesFrom, Text.replaceFrom, replacing]
          split_ifs with here
          · rw [← inductionHypothesis (old.length - 1) (char :: before)]
            rfl
          · rw [← inductionHypothesis 0 (char :: before)]
            rfl

theorem rewrite_replacing (old new text : Text) :
    rewrite (replacing old new) text = Text.replace old new text :=
  render_piecesFrom_replacing old new 0 [] text

theorem render_piecesFrom_substituting (pattern : Pattern)
    (replacement : Pattern.Match → Text) (pending : Nat) (before text : Text) :
    render (piecesFrom (substituting pattern replacement) pending before text) =
      Pattern.subFrom pattern replacement pending before text := by
  induction text generalizing pending before with
  | nil => cases pending <;> rfl
  | cons char rest inductionHypothesis =>
      cases pending with
      | succ pending =>
          rw [piecesFrom, Pattern.subFrom]
          exact inductionHypothesis pending _
      | zero =>
          rw [piecesFrom, Pattern.subFrom, substituting]
          cases Pattern.matchFrom pattern before (char :: rest) with
          | none =>
              dsimp only [Option.map_none]
              rw [← inductionHypothesis 0 (char :: before)]
              rfl
          | some found =>
              dsimp only [Option.map_some]
              rw [← inductionHypothesis (found.text.length - 1) (char :: before)]
              rfl

theorem rewrite_substituting (pattern : Pattern) (replacement : Pattern.Match → Text)
    (text : Text) :
    rewrite (substituting pattern replacement) text = Pattern.sub pattern replacement text :=
  render_piecesFrom_substituting pattern replacement 0 [] text

/-! ## Words of a rewritten text -/

def Kept (word : Text) (pieces : List Piece) : Prop := word.map .kept <:+: pieces

/-- A word takes in some of a mark: it begins at a character that is kept and does not end
before a mark, or it begins inside of a mark. -/
def Built (word : Text) : List Piece → Prop
  | [] => False
  | .kept char :: rest =>
      (word <+: render (.kept char :: rest) ∧ ¬word.map .kept <+: .kept char :: rest) ∨
        Built word rest
  | .mark text :: rest =>
      (∃ tail, tail <:+ text ∧ tail ≠ [] ∧ word <+: tail ++ render rest) ∨ Built word rest

theorem prefix_render {word : Text} {pieces : List Piece}
    (kept : word.map .kept <+: pieces) : word <+: render pieces := by
  induction word generalizing pieces with
  | nil => exact List.nil_prefix
  | cons char rest inductionHypothesis =>
      obtain ⟨after, rfl⟩ := kept
      rw [List.map_cons, List.cons_append, render]
      exact (List.prefix_cons_inj char).mpr (inductionHypothesis (List.prefix_append _ _))

theorem infix_append_left_iff {word front back : Text} :
    word <:+: front ++ back ↔
      (∃ tail, tail <:+ front ∧ tail ≠ [] ∧ word <+: tail ++ back) ∨ word <:+: back := by
  induction front with
  | nil =>
      simp only [List.nil_append, List.suffix_nil]
      constructor
      · intro found
        exact Or.inr found
      · rintro (⟨tail, rfl, other, -⟩ | found)
        · exact absurd rfl other
        · exact found
  | cons char front inductionHypothesis =>
      rw [List.cons_append, List.infix_cons_iff, inductionHypothesis]
      constructor
      · rintro (here | ⟨tail, ends, some_, found⟩ | later)
        · exact .inl ⟨char :: front, List.suffix_rfl, List.cons_ne_nil _ _, here⟩
        · exact .inl ⟨tail, ends.trans (List.suffix_cons _ _), some_, found⟩
        · exact .inr later
      · rintro (⟨tail, ends, some_, found⟩ | later)
        · rcases List.suffix_cons_iff.mp ends with rfl | ends
          · exact .inl found
          · exact .inr (.inl ⟨tail, ends, some_, found⟩)
        · exact .inr (.inr later)

theorem infix_render_iff {word : Text} (nonempty : word ≠ []) {pieces : List Piece} :
    word <:+: render pieces ↔ Kept word pieces ∨ Built word pieces := by
  have letters : word.map Piece.kept ≠ [] := fun empty => nonempty (List.map_eq_nil_iff.mp empty)
  induction pieces with
  | nil => simp [render, Built, Kept, List.infix_nil, nonempty]
  | cons piece rest inductionHypothesis =>
      cases piece with
      | kept char =>
          have whole := @prefix_render word (.kept char :: rest)
          rw [render] at whole
          rw [Kept] at inductionHypothesis ⊢
          rw [render, Built, render, List.infix_cons_iff, List.infix_cons_iff]
          tauto
      | mark text =>
          have other : ¬word.map Piece.kept <+: .mark text :: rest := by
            rintro ⟨after, shape⟩
            obtain ⟨char, more, rfl⟩ := List.exists_cons_of_ne_nil nonempty
            cases shape
          rw [Kept] at inductionHypothesis ⊢
          rw [render, Built, infix_append_left_iff, List.infix_cons_iff]
          generalize (∃ tail, tail <:+ text ∧ tail ≠ [] ∧ word <+: tail ++ render rest) = begins
          have step : word <:+: render rest ↔ (word.map Piece.kept <:+: rest ∨ Built word rest) :=
            inductionHypothesis
          rw [step, or_iff_right other, or_left_comm]

theorem prefix_of_kept {find : Finder} {word before text : Text}
    (kept : word.map .kept <+: piecesFrom find 0 before text) : word <+: text := by
  induction word generalizing before text with
  | nil => exact List.nil_prefix
  | cons char rest inductionHypothesis =>
      cases text with
      | nil =>
          obtain ⟨after, shape⟩ := kept
          cases shape
      | cons first others =>
          rw [piecesFrom] at kept
          split at kept
          next =>
            rw [List.map_cons] at kept
            obtain ⟨same, later⟩ := List.cons_prefix_cons.mp kept
            obtain rfl := Piece.kept.inj same
            exact (List.prefix_cons_inj char).mpr (inductionHypothesis later)
          next =>
            obtain ⟨after, shape⟩ := kept
            cases shape

theorem infix_of_kept {find : Finder} {word text before : Text} {pending : Nat}
    (nonempty : word ≠ []) (kept : Kept word (piecesFrom find pending before text)) :
    word <:+: text := by
  induction text generalizing pending before with
  | nil =>
      have nothing : piecesFrom find pending before [] = [] := by cases pending <;> rfl
      rw [Kept, nothing, List.infix_nil] at kept
      exact absurd (List.map_eq_nil_iff.mp kept) nonempty
  | cons char rest inductionHypothesis =>
      cases pending with
      | succ pending => exact List.infix_cons (inductionHypothesis kept)
      | zero =>
          rw [Kept, piecesFrom] at kept
          split at kept
          next missing =>
            rcases List.infix_cons_iff.mp kept with here | later
            · apply List.IsPrefix.isInfix
              apply @prefix_of_kept find word before
              rw [piecesFrom, missing]
              exact here
            · exact List.infix_cons (inductionHypothesis later)
          next =>
            rcases List.infix_cons_iff.mp kept with ⟨after, shape⟩ | later
            · obtain ⟨first, more, rfl⟩ := List.exists_cons_of_ne_nil nonempty
              cases shape
            · exact List.infix_cons (inductionHypothesis later)

theorem not_kept_replacing {word new text before : Text} {pending : Nat}
    (nonempty : word ≠ []) :
    ¬Kept word (piecesFrom (replacing word new) pending before text) := by
  induction text generalizing pending before with
  | nil =>
      have nothing : piecesFrom (replacing word new) pending before [] = [] := by
        cases pending <;> rfl
      rw [Kept, nothing, List.infix_nil]
      exact fun empty => nonempty (List.map_eq_nil_iff.mp empty)
  | cons char rest inductionHypothesis =>
      cases pending with
      | succ pending => exact inductionHypothesis
      | zero =>
          intro kept
          rw [Kept, piecesFrom] at kept
          split at kept
          next missing =>
            rcases List.infix_cons_iff.mp kept with here | later
            · have found : word <+: char :: rest := by
                apply @prefix_of_kept (replacing word new) word before
                rw [piecesFrom, missing]
                exact here
              rw [replacing, if_pos (List.isPrefixOf_iff_prefix.mpr found)] at missing
              cases missing
            · exact inductionHypothesis later
          next =>
            rcases List.infix_cons_iff.mp kept with ⟨after, shape⟩ | later
            · obtain ⟨first, more, rfl⟩ := List.exists_cons_of_ne_nil nonempty
              cases shape
            · exact inductionHypothesis later

/-! ## Several rewritings -/

def rewriteAll (finders : List Finder) (text : Text) : Text :=
  finders.foldl (fun text find => rewrite find text) text

/-- Every rewriting keeps the word. -/
def KeptThrough (word : Text) : List Finder → Text → Prop
  | [], _ => True
  | find :: rest, text => Kept word (pieces find text) ∧ KeptThrough word rest (rewrite find text)

/-- Some rewriting builds the word, and all later ones keep it. -/
def BuiltThrough (word : Text) : List Finder → Text → Prop
  | [], _ => False
  | find :: rest, text =>
      (Built word (pieces find text) ∧ KeptThrough word rest (rewrite find text)) ∨
        BuiltThrough word rest (rewrite find text)

/-- A word is left at the end where it was there and kept, or was built on the way. -/
theorem infix_rewriteAll_iff {word : Text} (nonempty : word ≠ []) (finders : List Finder)
    (text : Text) :
    word <:+: rewriteAll finders text ↔
      (word <:+: text ∧ KeptThrough word finders text) ∨ BuiltThrough word finders text := by
  induction finders generalizing text with
  | nil => simp [rewriteAll, KeptThrough, BuiltThrough]
  | cons find rest inductionHypothesis =>
      have step := @infix_render_iff word nonempty (pieces find text)
      have before := @infix_of_kept find word text [] 0 nonempty
      have later := inductionHypothesis (rewrite find text)
      rw [rewriteAll, List.foldl_cons, ← rewriteAll, later, KeptThrough, BuiltThrough, rewrite,
        step, ← rewrite]
      have same : piecesFrom find 0 [] text = pieces find text := rfl
      rw [same] at before
      tauto

theorem not_keptThrough_of_replaced {word new : Text} (nonempty : word ≠ [])
    {finders : List Finder} (among : replacing word new ∈ finders) (text : Text) :
    ¬KeptThrough word finders text := by
  induction finders generalizing text with
  | nil => cases among
  | cons find rest inductionHypothesis =>
      rintro ⟨here, later⟩
      rcases List.mem_cons.mp among with rfl | among
      · exact not_kept_replacing nonempty here
      · exact inductionHypothesis among _ later

/-- What is replaced is left at the end only where it was built on the way. -/
theorem infix_rewriteAll_replaced_iff {word new : Text} (nonempty : word ≠ [])
    {finders : List Finder} (among : replacing word new ∈ finders) (text : Text) :
    word <:+: rewriteAll finders text ↔ BuiltThrough word finders text := by
  rw [infix_rewriteAll_iff nonempty]
  have lost := not_keptThrough_of_replaced nonempty among text
  tauto

/-! ## Rewritings that build nothing -/

def Meets (marks : List Text) (word : Text) : Prop :=
  ∃ back ∈ word.tails, back ≠ [] ∧ ∃ mark ∈ marks, back <+: mark ∨ mark <+: back

instance (marks : List Text) (word : Text) : Decidable (Meets marks word) :=
  inferInstanceAs
    (Decidable (∃ back ∈ word.tails, back ≠ [] ∧ ∃ mark ∈ marks, back <+: mark ∨ mark <+: back))

/-- What a match is replaced by copies the start of the match, if anything, and goes on with a
mark; no word starts behind the copy. -/
def Copies (marks : List Text) (find : Finder) : Prop :=
  ∀ before after length text, find before after = some (length, text) →
    ∃ copied mark more, text = copied ++ (mark ++ more) ∧ copied <+: after ∧ mark ∈ marks ∧
      '/' ∉ mark ++ more

theorem not_meets_tail {marks : List Text} {char : Char} {word : Text}
    (apart : ¬Meets marks (char :: word)) : ¬Meets marks word := by
  rintro ⟨back, ends, met⟩
  exact apart ⟨back, List.mem_cons_of_mem _ ends, met⟩

theorem prefix_copied {marks : List Text} {word copied mark rest : Text} (among : mark ∈ marks)
    (apart : ¬Meets marks word) (found : word <+: copied ++ (mark ++ rest)) :
    word <+: copied := by
  rcases List.prefix_or_prefix_of_prefix found (List.prefix_append copied _) with
    inside | ⟨back, rfl⟩
  · exact inside
  · have within : back <+: mark ++ rest := (List.prefix_append_right_inj copied).mp found
    by_cases empty : back = []
    · rw [empty, List.append_nil]
    · have ends : back ∈ (copied ++ back).tails := (List.mem_tails _ _).mpr (List.suffix_append _ _)
      have met := List.prefix_or_prefix_of_prefix within (List.prefix_append mark rest)
      exact absurd ⟨back, ends, empty, mark, among, met⟩ apart

theorem prefix_of_copies {marks : List Text} {find : Finder} (copies : Copies marks find)
    {word before text : Text} (apart : ¬Meets marks word)
    (found : word <+: render (piecesFrom find 0 before text)) : word <+: text := by
  induction word generalizing before text with
  | nil => exact List.nil_prefix
  | cons char word inductionHypothesis =>
      cases text with
      | nil => cases List.prefix_nil.mp found
      | cons first others =>
          rw [piecesFrom] at found
          split at found
          next =>
            obtain ⟨rfl, later⟩ := List.cons_prefix_cons.mp found
            exact (List.prefix_cons_inj char).mpr
              (inductionHypothesis (not_meets_tail apart) later)
          next length text matched =>
            obtain ⟨copied, mark, more, rfl, start, known, -⟩ := copies _ _ _ _ matched
            rw [render, List.append_assoc, List.append_assoc] at found
            exact (prefix_copied known apart found).trans start

/-- Such a rewriting builds no word that starts at a slash and meets no mark. -/
theorem infix_of_copies {marks : List Text} {find : Finder} (copies : Copies marks find)
    {word before text : Text} {pending : Nat} (apart : ¬Meets marks word)
    (begins : word.head? = some '/')
    (found : word <:+: render (piecesFrom find pending before text)) : word <:+: text := by
  have nonempty : word ≠ [] := by
    rintro rfl
    cases begins
  induction text generalizing pending before with
  | nil =>
      have nothing : piecesFrom find pending before [] = [] := by cases pending <;> rfl
      rw [nothing, render, List.infix_nil] at found
      exact absurd found nonempty
  | cons char others inductionHypothesis =>
      cases pending with
      | succ pending => exact List.infix_cons (inductionHypothesis found)
      | zero =>
          have here := @prefix_of_copies marks find copies word before (char :: others) apart
          rw [piecesFrom] at found here
          split at found
          next missing =>
            rw [missing] at here
            rcases List.infix_cons_iff.mp found with first | later
            · exact (here first).isInfix
            · exact List.infix_cons (inductionHypothesis later)
          next length text matched =>
            obtain ⟨copied, mark, more, rfl, start, known, slash⟩ := copies _ _ _ _ matched
            rw [render] at found
            rcases infix_append_left_iff.mp found with ⟨tail, ends, some_, within⟩ | later
            · have added : mark ++ more <:+ copied ++ (mark ++ more) := List.suffix_append _ _
              rcases List.suffix_or_suffix_of_suffix ends added with behind | ⟨front, rfl⟩
              · -- The word would begin inside of what is not copied.
                obtain ⟨first, behind_, rfl⟩ := List.exists_cons_of_ne_nil some_
                obtain ⟨letter, others_, rfl⟩ := List.exists_cons_of_ne_nil nonempty
                obtain ⟨rfl, -⟩ := List.cons_prefix_cons.mp within
                obtain rfl : letter = '/' := Option.some.inj begins
                exact absurd (behind.subset List.mem_cons_self) slash
              · rw [List.append_assoc, List.append_assoc] at within
                have inside := ((List.suffix_append_inj_of_length_eq rfl).mp ends).1
                exact (prefix_copied known apart within).isInfix.trans
                  (inside.isInfix.trans start.isInfix)
            · exact List.infix_cons (inductionHypothesis later)

theorem not_infix_replacing {marks : List Text} {word new : Text}
    (copies : Copies marks (replacing word new)) (apart : ¬Meets marks word)
    (begins : word.head? = some '/') (slash : '/' ∉ new) {before text : Text} {pending : Nat} :
    ¬word <:+: render (piecesFrom (replacing word new) pending before text) := by
  have nonempty : word ≠ [] := by
    rintro rfl
    cases begins
  induction text generalizing pending before with
  | nil =>
      have nothing : piecesFrom (replacing word new) pending before [] = [] := by
        cases pending <;> rfl
      rw [nothing, render, List.infix_nil]
      exact nonempty
  | cons char others inductionHypothesis =>
      cases pending with
      | succ pending => exact inductionHypothesis
      | zero =>
          intro found
          have here := @prefix_of_copies marks _ copies word before (char :: others) apart
          rw [piecesFrom] at found here
          split at found
          next missing =>
            rw [missing] at here
            rcases List.infix_cons_iff.mp found with first | later
            · rw [replacing, if_pos (List.isPrefixOf_iff_prefix.mpr (here first))] at missing
              cases missing
            · exact inductionHypothesis later
          next length text matched =>
            rw [replacing] at matched
            split_ifs at matched
            obtain ⟨-, rfl⟩ := Prod.mk.inj (Option.some.inj matched)
            rw [render] at found
            rcases infix_append_left_iff.mp found with ⟨tail, ends, some_, within⟩ | later
            · obtain ⟨first, behind_, rfl⟩ := List.exists_cons_of_ne_nil some_
              obtain ⟨letter, others_, rfl⟩ := List.exists_cons_of_ne_nil nonempty
              obtain ⟨rfl, -⟩ := List.cons_prefix_cons.mp within
              obtain rfl : letter = '/' := Option.some.inj begins
              exact slash (ends.subset List.mem_cons_self)
            · exact inductionHypothesis later

theorem infix_of_rewriteAll {marks : List Text} {finders : List Finder}
    (copies : ∀ find ∈ finders, Copies marks find) {word : Text}
    (apart : ¬Meets marks word) (begins : word.head? = some '/') {text : Text}
    (found : word <:+: rewriteAll finders text) : word <:+: text := by
  induction finders generalizing text with
  | nil => exact found
  | cons find rest inductionHypothesis =>
      have later := inductionHypothesis
        (fun other among => copies other (List.mem_cons_of_mem _ among)) found
      exact infix_of_copies (copies find List.mem_cons_self) apart begins later

/-- What is replaced stays away, where all rewritings copy the start of a match at most. -/
theorem not_infix_rewriteAll {marks : List Text} {finders : List Finder}
    (copies : ∀ find ∈ finders, Copies marks find) {word new : Text}
    (apart : ¬Meets marks word) (begins : word.head? = some '/') (slash : '/' ∉ new)
    (among : replacing word new ∈ finders) (text : Text) : ¬word <:+: rewriteAll finders text := by
  induction finders generalizing text with
  | nil => cases among
  | cons find rest inductionHypothesis =>
      have others := fun other among => copies other (List.mem_cons_of_mem find among)
      rcases List.mem_cons.mp among with rfl | among
      · intro found
        exact not_infix_replacing (copies _ List.mem_cons_self) apart begins slash
          (infix_of_rewriteAll others apart begins found)
      · exact inductionHypothesis others among _

end LlmWikiServe.Rewriting
