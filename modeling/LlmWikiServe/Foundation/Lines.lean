import LlmWikiServe.Foundation.Text

/-!
# Texts as lines

A text is a first line and the lines after it, each with the newline before it.  Cutting at the
first line of a kind gives the lines before it, the line and the lines after it.
-/

namespace LlmWikiServe.Text

/-- Lines after a first one, each with the newline before it. -/
def followingLines (lines : List Text) : Text := lines.flatMap fun line => '\n' :: line

theorem join_newline (first : Text) (rest : List Text) :
    Text.join "\n" (first :: rest) = first ++ followingLines rest := by
  induction rest generalizing first with
  | nil => simp [Text.join, followingLines]
  | cons second others inductionHypothesis =>
      have unfolded : Text.join "\n" (first :: second :: others) =
          first ++ '\n' :: Text.join "\n" (second :: others) := by
        simp [Text.join]
      rw [unfolded, inductionHypothesis]
      simp [followingLines]

/-- The lines before the first one that closes, that line and the lines after it. -/
def cutAtLine (closes : Text → Bool) : List Text → Option (List Text × Text × List Text)
  | [] => none
  | line :: rest =>
      if closes line then some ([], line, rest)
      else (cutAtLine closes rest).map fun cut => (line :: cut.1, cut.2)

theorem cutAtLine_eq_some {closes : Text → Bool} {lines before after : List Text} {line : Text}
    (cut : cutAtLine closes lines = some (before, line, after)) :
    lines = before ++ line :: after ∧ closes line = true ∧ ∀ kept ∈ before, closes kept = false := by
  induction lines generalizing before with
  | nil => simp [cutAtLine] at cut
  | cons head tail inductionHypothesis =>
      rw [cutAtLine] at cut
      split at cut
      next closed =>
        obtain ⟨rfl, rfl, rfl⟩ := by simpa using cut
        exact ⟨rfl, closed, by simp⟩
      next kept =>
        obtain ⟨⟨others, found, rest⟩, later, same⟩ := Option.map_eq_some_iff.mp cut
        obtain ⟨rfl, rfl, rfl⟩ := by simpa using same
        obtain ⟨rfl, closed, before⟩ := inductionHypothesis later
        exact ⟨rfl, closed, by simpa [kept] using before⟩

theorem cutAtLine_append {closes : Text → Bool} {before : List Text} {line : Text}
    (kept : ∀ kept ∈ before, closes kept = false) (closed : closes line = true)
    (after : List Text) :
    cutAtLine closes (before ++ line :: after) = some (before, line, after) := by
  induction before with
  | nil => simp [cutAtLine, closed]
  | cons head tail inductionHypothesis =>
      rw [List.forall_mem_cons] at kept
      rw [List.cons_append, cutAtLine, inductionHypothesis kept.2]
      simp [kept.1]

theorem cutAtLine_eq_none {closes : Text → Bool} {lines : List Text} :
    cutAtLine closes lines = none ↔ ∀ line ∈ lines, closes line = false := by
  induction lines with
  | nil => simp [cutAtLine]
  | cons head tail inductionHypothesis =>
      rw [cutAtLine, List.forall_mem_cons, ← inductionHypothesis]
      cases closes head <;> simp

theorem find?_eq_cutAtLine (closes : Text → Bool) (lines : List Text) :
    lines.find? closes = (cutAtLine closes lines).map fun cut => cut.2.1 := by
  induction lines with
  | nil => rfl
  | cons line rest inductionHypothesis =>
      rw [cutAtLine, List.find?_cons, inductionHypothesis]
      cases closes line with
      | true => rfl
      | false => simp [Function.comp_def]

theorem find?_skip {needle word : Text} (free : '\n' ∉ word) (text : Text) :
    Text.find? ('\n' :: needle) (word ++ text) =
      (Text.find? ('\n' :: needle) text).map (· + word.length) := by
  induction word with
  | nil => simp
  | cons char rest inductionHypothesis =>
      rw [List.mem_cons, not_or] at free
      have differs : ('\n' == char) = false := by simpa using free.1
      rw [List.cons_append, Text.find?, inductionHypothesis free.2]
      simp [List.isPrefixOf, differs, Function.comp_def, Nat.add_assoc]

theorem splitOn_newline (raw : Text) : ∃ first rest, Text.splitOn '\n' raw = first :: rest ∧
    raw = first ++ followingLines rest ∧ ∀ line ∈ first :: rest, '\n' ∉ line := by
  induction raw with
  | nil => exact ⟨[], [], rfl, rfl, by simp⟩
  | cons char others inductionHypothesis =>
      obtain ⟨first, rest, split, whole, free⟩ := inductionHypothesis
      rw [Text.splitOn] at split
      rw [Text.splitOn, List.splitOn_cons_eq_if_modifyHead, split]
      by_cases newline : char = '\n'
      · subst newline
        refine ⟨[], first :: rest, by simp, ?_, ?_⟩
        · rw [whole]
          rfl
        · rw [List.forall_mem_cons]
          exact ⟨by simp, free⟩
      · have differs : (char == '\n') = false := beq_eq_false_iff_ne.mpr newline
        refine ⟨char :: first, rest, by simp [differs], ?_, ?_⟩
        · rw [whole]
          rfl
        · rw [List.forall_mem_cons] at free ⊢
          refine ⟨?_, free.2⟩
          rw [List.mem_cons, not_or]
          exact ⟨Ne.symm newline, free.1⟩

/-- Texts that start alike, with as many newlines, before the end of a line. -/
theorem append_line_cancel {first second firstTail secondTail : Text}
    (counts : first.count '\n' = second.count '\n')
    (firstEnds : ∀ char ∈ firstTail.head?, char = '\n')
    (secondEnds : ∀ char ∈ secondTail.head?, char = '\n')
    (same : first ++ firstTail = second ++ secondTail) :
    first = second ∧ firstTail = secondTail := by
  obtain ⟨middle, rfl, rfl⟩ | ⟨middle, rfl, rfl⟩ := List.append_eq_append_iff.mp same
  · cases middle with
    | nil => simp
    | cons char rest =>
        obtain rfl : char = '\n' := firstEnds char rfl
        simp at counts
  · cases middle with
    | nil => simp
    | cons char rest =>
        obtain rfl : char = '\n' := secondEnds char rfl
        simp at counts

theorem join_newline_injective {first second : List Text}
    (counts : first.map (List.count '\n') = second.map (List.count '\n'))
    (same : join "\n" first = join "\n" second) : first = second := by
  have ends : ∀ lines : List Text, ∀ char ∈ (followingLines lines).head?, char = '\n' := by
    intro lines char
    cases lines <;> simp [followingLines, eq_comm]
  induction first generalizing second with
  | nil => exact (List.map_eq_nil_iff.mp counts.symm).symm
  | cons line rest inductionHypothesis =>
      cases second with
      | nil => simp at counts
      | cons other others =>
          obtain ⟨lineCount, restCounts⟩ := List.cons.inj counts
          rw [join_newline, join_newline] at same
          obtain ⟨rfl, tails⟩ := append_line_cancel lineCount (ends _) (ends _) same
          have joined : join "\n" rest = join "\n" others := by
            cases rest with
            | nil =>
                rw [List.map_eq_nil_iff.mp restCounts.symm]
            | cons next rest =>
                cases others with
                | nil => simp at restCounts
                | cons next' others =>
                    rw [join_newline, join_newline]
                    exact (List.cons.inj tails).2
          rw [inductionHypothesis restCounts joined]

end LlmWikiServe.Text
