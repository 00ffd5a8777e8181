import LlmWikiServe.Foundation.Lines
import LlmWikiServe.Okf

/-!
# Lines of the frontmatter

Both readers look for the end of the frontmatter as a text that starts with a newline and three
dashes.  It is the line the format asks for unless a longer line of dashes comes first or the
block is empty.
-/

namespace LlmWikiServe

open Text (followingLines cutAtLine find?_skip splitOn_newline find?_eq_cutAtLine
  cutAtLine_eq_some cutAtLine_append cutAtLine_eq_none join_newline)

/-! ## What the readers cut -/

/-- The block handed to the YAML reader and the body, if the text has frontmatter. -/
def frontmatterParts (raw : Text) : Option (Text × Text) :=
  if !Text.startsWith raw "---\n" then none
  else (Text.find? "\n---" (raw.drop 4)).map fun stop =>
    ((raw.drop 4).take stop, raw.drop (4 + stop + 4))

section Readers

variable [Documents]

/-- What `split_frontmatter` makes of a block and a body. -/
def readParts (raw : Text) (parts : Option (Text × Text)) :
    Except LoadError (List (Value × Value) × Text) :=
  parts.elim (.ok ([], raw)) fun parts =>
    match Documents.safeLoad parts.1 with
    | .error .syntax_ => .ok ([], raw)
    | .error (.raised message) => .error (.document message)
    | .ok (.dict entries) => .ok (entries, parts.2)
    | .ok _ => .ok ([], parts.2)

theorem splitFrontmatter_eq (raw : Text) :
    splitFrontmatter raw = readParts raw (frontmatterParts raw) := by
  unfold splitFrontmatter readParts frontmatterParts
  split
  · rfl
  · cases Text.find? "\n---" (raw.drop 4) <;> rfl

/-- What `split_okf_frontmatter` makes of the parts. -/
theorem splitOkfFrontmatter_eq (rel raw : Text) : splitOkfFrontmatter rel raw =
    (frontmatterParts raw).elim
      (if Text.startsWith raw "---\n" then
        okfError (("OKF frontmatter is not closed in " : Text) ++ rel)
      else .ok ([], raw)) fun parts =>
      match Documents.safeLoad parts.1 with
      | .error .syntax_ => okfError (("OKF frontmatter is invalid in " : Text) ++ rel)
      | .error (.raised message) => .error (.document message)
      | .ok (.dict entries) => .ok (entries, parts.2)
      | .ok value =>
          if value.truthy then okfError (("OKF frontmatter must be a mapping in " : Text) ++ rel)
          else .ok ([], parts.2) := by
  unfold splitOkfFrontmatter frontmatterParts
  cases starts : Text.startsWith raw "---\n" with
  | false => rfl
  | true => cases Text.find? "\n---" (raw.drop 4) <;> rfl

end Readers

/-- The block and the body of a text whose first line is `---` and is followed by a line `---`:
the lines strictly between the two and what follows the second. -/
def delimitedParts (raw : Text) : Option (Text × Text) :=
  match Text.splitOn '\n' raw with
  | [] => none
  | first :: rest =>
      if first = ("---" : Text) then
        (cutAtLine (· = ("---" : Text)) rest).map fun cut =>
          (Text.join "\n" cut.1, followingLines cut.2.2)
      else none

/-- The line after the first is no `---`, and no longer line that starts so comes before the first
`---` among the lines after it. -/
def CleanlyDelimited (raw : Text) : Prop :=
  ∀ second rest, Text.splitOn '\n' raw = ("---" : Text) :: second :: rest →
    second ≠ ("---" : Text) ∧
      ∀ line ∈ rest.find? fun line => Text.startsWith line "---", line = ("---" : Text)

/-! ## The search by lines -/

/-- The dashes are those of the line, the next character being a newline. -/
theorem startsWith_followed (line : Text) (others : List Text) :
    Text.startsWith (line ++ followingLines others) "---" = Text.startsWith line "---" := by
  have tail : ∀ dashes : Text, '\n' ∉ dashes → ∀ line : Text,
      dashes.isPrefixOf (line ++ followingLines others) = dashes.isPrefixOf line := by
    intro dashes
    induction dashes with
    | nil => simp
    | cons dash rest inductionHypothesis =>
        intro free line
        rw [List.mem_cons, not_or] at free
        cases line with
        | nil =>
            cases others with
            | nil => rfl
            | cons next more =>
                have differs : (dash == '\n') = false :=
                  beq_eq_false_iff_ne.mpr (Ne.symm free.1)
                simp [followingLines, List.isPrefixOf, differs]
        | cons char line => simp [List.isPrefixOf, inductionHypothesis free.2]
  exact tail "---" (by decide) line

theorem find?_followingLines {lines : List Text} (free : ∀ line ∈ lines, '\n' ∉ line) :
    Text.find? "\n---" (followingLines lines) =
      (cutAtLine (fun line => Text.startsWith line "---") lines).map fun cut =>
        (followingLines cut.1).length := by
  induction lines with
  | nil => rfl
  | cons line rest inductionHypothesis =>
      rw [List.forall_mem_cons] at free
      have unfolded : followingLines (line :: rest) = '\n' :: (line ++ followingLines rest) := rfl
      have needle : ("\n---" : Text) = '\n' :: ("---" : Text) := rfl
      have found : ('\n' :: ("---" : Text)).isPrefixOf ('\n' :: (line ++ followingLines rest)) =
          Text.startsWith line "---" := by
        rw [← startsWith_followed line rest]
        rfl
      rw [unfolded, needle, Text.find?, found, cutAtLine]
      cases Text.startsWith line "---" with
      | true => rfl
      | false =>
          rw [find?_skip free.1, ← needle, inductionHypothesis free.2]
          simp only [Bool.false_eq_true, if_false, Option.map_map]
          congr 1
          funext cut
          simp [followingLines]
          omega

/-- The readers close the block at the first line that starts with three dashes, but never at the
line after the first. -/
theorem frontmatterParts_eq {raw second : Text} {rest : List Text}
    (lines : Text.splitOn '\n' raw = ("---" : Text) :: second :: rest) :
    frontmatterParts raw =
      (cutAtLine (fun line => Text.startsWith line "---") rest).map fun cut =>
        (Text.join "\n" (second :: cut.1), cut.2.1.drop 3 ++ followingLines cut.2.2) := by
  obtain ⟨first, others, split, whole, free⟩ := splitOn_newline raw
  obtain ⟨rfl, rfl⟩ := List.cons.inj (lines.symm.trans split)
  rw [List.forall_mem_cons, List.forall_mem_cons] at free
  obtain ⟨-, secondFree, restFree⟩ := free
  have below : raw.drop 4 = second ++ followingLines rest := by
    rw [whole]
    rfl
  have starts : Text.startsWith raw "---\n" = true := by
    rw [whole]
    rfl
  have needle : ("\n---" : Text) = '\n' :: ("---" : Text) := rfl
  rw [frontmatterParts, starts, below, needle, find?_skip secondFree, ← needle,
    find?_followingLines restFree, Option.map_map, Option.map_map]
  cases cut : cutAtLine (fun line => Text.startsWith line "---") rest with
  | none => rfl
  | some found =>
      obtain ⟨before, line, after⟩ := found
      obtain ⟨rfl, closed, -⟩ := cutAtLine_eq_some cut
      have parts : second ++ followingLines (before ++ line :: after) =
          (second ++ followingLines before) ++ '\n' :: (line ++ followingLines after) := by
        simp [followingLines]
      have position : (followingLines before).length + second.length =
          (second ++ followingLines before).length := by
        rw [List.length_append]
        omega
      have dashes : 3 ≤ line.length := (List.isPrefixOf_iff_prefix.mp closed).length_le
      have body : raw.drop (4 + (second ++ followingLines before).length + 4) =
          line.drop 3 ++ followingLines after := by
        rw [Nat.add_assoc, ← List.drop_drop, below, parts, List.drop_append,
          List.drop_eq_nil_of_le (by omega), Nat.add_sub_cancel_left, List.nil_append,
          List.drop_succ_cons, List.drop_append_of_le_length dashes]
      simp only [Option.map_some, Function.comp_apply, position, parts, List.take_left, body,
        join_newline, Bool.not_true, Bool.false_eq_true, if_false]

theorem frontmatterParts_single {raw first : Text} {rest : List Text}
    (lines : Text.splitOn '\n' raw = first :: rest) (short : first = ("---" : Text) → rest = []) :
    frontmatterParts raw = none := by
  rw [frontmatterParts]
  cases starts : Text.startsWith raw "---\n" with
  | false => rfl
  | true =>
      obtain ⟨tail, rfl⟩ := List.isPrefixOf_iff_prefix.mp starts
      have split : Text.splitOn '\n' (("---\n" : Text) ++ tail) =
          ("---" : Text) :: Text.splitOn '\n' tail :=
        List.splitOn_append_cons_self ("---" : Text) tail
      obtain ⟨rfl, rfl⟩ := List.cons.inj (lines.symm.trans split)
      exact absurd (short rfl) (List.splitOn_ne_nil '\n' tail)

/-! ## The claim of the format -/

theorem delimitedParts_eq {raw second : Text} {rest : List Text}
    (lines : Text.splitOn '\n' raw = ("---" : Text) :: second :: rest) :
    delimitedParts raw = (cutAtLine (· = ("---" : Text)) (second :: rest)).map fun cut =>
      (Text.join "\n" cut.1, followingLines cut.2.2) := by
  simp [delimitedParts, lines]

/-- Where the first line that starts with dashes is the closing one, both cuts are at it. -/
theorem cutAtLine_same {rest : List Text}
    (clean : ∀ line ∈ rest.find? fun line => Text.startsWith line "---", line = ("---" : Text)) :
    cutAtLine (fun line => Text.startsWith line "---") rest =
      cutAtLine (· = ("---" : Text)) rest := by
  have only : ∀ line : Text, Text.startsWith line "---" = false → line ≠ ("---" : Text) := by
    rintro line differs rfl
    exact absurd differs (by decide)
  rw [find?_eq_cutAtLine] at clean
  cases cut : cutAtLine (fun line => Text.startsWith line "---") rest with
  | none =>
      symm
      rw [cutAtLine_eq_none] at cut ⊢
      intro line member
      exact decide_eq_false (only line (cut line member))
  | some found =>
      obtain ⟨before, line, after⟩ := found
      have closing : line = ("---" : Text) := by
        apply clean
        rw [cut]
        rfl
      obtain ⟨rfl, -, kept⟩ := cutAtLine_eq_some cut
      symm
      apply cutAtLine_append
      · intro line member
        exact decide_eq_false (only line (kept line member))
      · exact decide_eq_true closing

theorem closing_of_same {second line : Text} {rest before after : List Text} {closing : Text}
    {block others : List Text}
    (cut : cutAtLine (fun line => Text.startsWith line "---") rest = some (before, line, after))
    (formatCut : cutAtLine (· = ("---" : Text)) rest = some (block, closing, others))
    (same : Text.join "\n" (second :: before) = Text.join "\n" (second :: block)) :
    line = ("---" : Text) := by
  obtain ⟨rfl, -, kept⟩ := cutAtLine_eq_some cut
  obtain ⟨whole, closes, -⟩ := cutAtLine_eq_some formatCut
  have dashes : closing = ("---" : Text) := of_decide_eq_true closes
  subst dashes
  rw [join_newline, join_newline, List.append_cancel_left_eq] at same
  obtain ⟨more, rfl, tail⟩ | ⟨more, rfl, tail⟩ := List.append_eq_append_iff.mp whole
  · cases more with
    | nil => exact (List.cons.inj tail).1
    | cons head more =>
        have lengths := congrArg List.length same
        simp [followingLines] at lengths
  · cases more with
    | nil => exact (List.cons.inj tail).1.symm
    | cons head more =>
        obtain ⟨rfl, -⟩ := List.cons.inj tail
        exact absurd (kept ("---" : Text) (by simp)) (by decide)

/-- The readers cut a text where the format says exactly when it is cleanly delimited. -/
theorem frontmatterParts_eq_delimited_iff (raw : Text) :
    frontmatterParts raw = delimitedParts raw ↔ CleanlyDelimited raw := by
  obtain ⟨first, rest, lines, -⟩ := splitOn_newline raw
  by_cases marked : first = ("---" : Text) ∧ rest ≠ []
  · obtain ⟨rfl, nonempty⟩ := marked
    obtain ⟨second, rest, rfl⟩ := List.exists_cons_of_ne_nil nonempty
    constructor
    · intro same second' rest' lines'
      rw [lines] at lines'
      obtain ⟨-, inner⟩ := List.cons.inj lines'
      obtain ⟨rfl, rfl⟩ := List.cons.inj inner
      rw [frontmatterParts_eq lines, delimitedParts_eq lines] at same
      have unclosed : second ≠ ("---" : Text) := by
        rintro rfl
        have empty : cutAtLine (· = ("---" : Text)) (("---" : Text) :: rest) =
            some ([], ("---" : Text), rest) := rfl
        rw [empty, Option.map_some] at same
        obtain ⟨cut, -, parts⟩ := Option.map_eq_some_iff.mp same
        have block := (Prod.mk.inj parts).1
        rw [join_newline] at block
        exact absurd block (by simp [Text.join])
      refine ⟨unclosed, fun line found => ?_⟩
      rw [find?_eq_cutAtLine] at found
      obtain ⟨⟨before, line, after⟩, cut, rfl⟩ := Option.map_eq_some_iff.mp found
      rw [cut, cutAtLine, if_neg (by simpa using unclosed)] at same
      cases formatCut : cutAtLine (· = ("---" : Text)) rest with
      | none =>
          rw [formatCut] at same
          cases same
      | some cut' =>
          obtain ⟨block, closing, others⟩ := cut'
          rw [formatCut] at same
          exact closing_of_same cut formatCut (Prod.mk.inj (Option.some.inj same)).1
    · intro clean
      obtain ⟨unclosed, closing⟩ := clean second rest lines
      rw [frontmatterParts_eq lines, delimitedParts_eq lines, cutAtLine,
        if_neg (by simpa using unclosed), cutAtLine_same closing]
      cases cut : cutAtLine (· = ("---" : Text)) rest with
      | none => rfl
      | some found =>
          obtain ⟨before, line, after⟩ := found
          obtain ⟨-, closes, -⟩ := cutAtLine_eq_some cut
          obtain rfl : line = ("---" : Text) := of_decide_eq_true closes
          rfl
  · have short : first = ("---" : Text) → rest = [] := by
      intro dashes
      by_contra nonempty
      exact marked ⟨dashes, nonempty⟩
    have undelimited : delimitedParts raw = none := by
      rw [delimitedParts, lines]
      by_cases dashes : first = ("---" : Text)
      · simp [dashes, short dashes, cutAtLine]
      · exact if_neg dashes
    rw [frontmatterParts_single lines short, undelimited]
    refine iff_of_true rfl fun second rest' lines' => ?_
    rw [lines] at lines'
    obtain ⟨dashes, inner⟩ := List.cons.inj lines'
    exact absurd (inner.symm.trans (short dashes)) (List.cons_ne_nil _ _)

/-- A reader that gives the block back. -/
@[reducible]
def Documents.echo : Documents where
  safeLoad block := .ok (.dict [(.str "block", .str block)])
  jsonLoads _ := .error .syntax_

theorem readParts_echo_injective {raw : Text} {parts parts' : Option (Text × Text)}
    (same : @readParts .echo raw parts = @readParts .echo raw parts') : parts = parts' := by
  cases parts with
  | none =>
      cases parts' with
      | none => rfl
      | some parts' => cases same
  | some parts =>
      cases parts' with
      | none => cases same
      | some parts' =>
          have entries : [(Value.str "block", Value.str parts.1)] =
              [(Value.str "block", Value.str parts'.1)] := (Prod.mk.inj (Except.ok.inj same)).1
          have body : parts.2 = parts'.2 := (Prod.mk.inj (Except.ok.inj same)).2
          have block : parts.1 = parts'.1 := by simpa using entries
          rw [Prod.ext block body]

/-- `split_frontmatter` reads the lines between the marks, whatever reads the block, exactly when
the text is cleanly delimited. -/
theorem splitFrontmatter_delimited_iff (raw : Text) :
    (∀ documents : Documents,
      @splitFrontmatter documents raw = @readParts documents raw (delimitedParts raw)) ↔
      CleanlyDelimited raw := by
  rw [← frontmatterParts_eq_delimited_iff]
  constructor
  · intro reads
    apply readParts_echo_injective
    rw [← @splitFrontmatter_eq .echo]
    exact reads .echo
  · intro same documents
    rw [← same]
    exact @splitFrontmatter_eq documents raw

/-- An empty block is read on to the next line of dashes, and a longer line of dashes closes. -/
theorem splitFrontmatter_undelimited :
    @splitFrontmatter .echo "---\n---\ntitle: A\n---\n" =
      .ok ([(.str "block", .str "---\ntitle: A")], "\n") ∧
    @readParts .echo "---\n---\ntitle: A\n---\n"
        (delimitedParts "---\n---\ntitle: A\n---\n") =
      .ok ([(.str "block", .str "")], "\ntitle: A\n---\n") ∧
    @splitFrontmatter .echo "---\na: 1\n----\nb: 2\n---\n" =
      .ok ([(.str "block", .str "a: 1")], "-\nb: 2\n---\n") ∧
    @readParts .echo "---\na: 1\n----\nb: 2\n---\n"
        (delimitedParts "---\na: 1\n----\nb: 2\n---\n") =
      .ok ([(.str "block", .str "a: 1\n----\nb: 2")], "\n") := by
  refine ⟨?_, ?_, ?_, ?_⟩
  · rfl
  · rfl
  · rfl
  · rfl

end LlmWikiServe
