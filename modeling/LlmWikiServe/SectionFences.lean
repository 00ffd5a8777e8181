import LlmWikiServe.SectionNumbers

/-!
# Fenced code and sections

The scanner keeps one flag that every line with a fence marker turns over.  In Markdown a fence is
closed by its own marker only, so the flag is right where the number of lines with the other
marker inside fences is even.
-/

namespace LlmWikiServe

open VectorChunks (keptLines keptLinesFrom)

/-! ## Fences of Markdown -/

def fenceMarker? (line : Text) : Option Text :=
  (Pattern.matchStart fencePattern line).bind fun found => found.group? 1

def fenceStep (opened : Option Text) (line : Text) : Option Text :=
  match fenceMarker? line with
  | none => opened
  | some marker =>
      match opened with
      | none => some marker
      | some opening => if marker = opening then none else some opening

def fenceAfter (lines : List Text) : Option Text := lines.foldl fenceStep none

/-- The lines with a marker inside a fence of the other one. -/
def foreignMarkers (opened : Option Text) : List Text → Nat
  | [] => 0
  | line :: rest =>
      (if (fenceMarker? line).isSome && opened.isSome && fenceMarker? line ≠ opened then 1 else 0) +
        foreignMarkers (fenceStep opened line) rest

def flagStep (inFence : Bool) (line : Text) : Bool := if isFenceLine line then !inFence else inFence

def startsFrom (total : Nat) : List MarkdownSection → List Nat
  | [] => []
  | entry :: rest =>
      (total - ((entry :: rest).map MarkdownSection.text).flatten.length) :: startsFrom total rest

section Lines

variable (text : Text)

def linesBefore (position : Nat) : List Text := (keptLines text).take position

def lineStart (position : Nat) : Nat := (linesBefore text position).flatten.length

def HeadingLine (position : Nat) : Prop :=
  ∃ line ∈ (keptLines text)[position]?, (headingOf? line).isSome = true

def BeginsSection (position : Nat) : Prop :=
  lineStart text position ∈ startsFrom text.length (headedSections text)

/-- The lines written like headings that begin sections are those outside all fences. -/
def FencesRespected : Prop :=
  ∀ position, HeadingLine text position →
    (BeginsSection text position ↔ fenceAfter (linesBefore text position) = none)

end Lines

/-! ## Lines of headings and of fences -/

theorem fenceMarker?_isSome (line : Text) : (fenceMarker? line).isSome = isFenceLine line := by
  unfold fenceMarker? isFenceLine
  cases found : Pattern.matchStart fencePattern line with
  | none => rfl
  | some found' =>
      obtain ⟨stop, ends, rfl⟩ := Option.map_eq_some_iff.mp found
      obtain ⟨opening, -, grouped⟩ := List.mem_flatMap.mp (List.mem_of_mem_head? ends)
      obtain ⟨closing, -, rfl⟩ := List.mem_map.mp grouped
      simp [Pattern.Match.group?]

/-- A heading pattern matches from a `#` on. -/
theorem head?_of_headingOf? {line : Text} (heading : (headingOf? line).isSome = true) :
    line.head? = some '#' := by
  rw [headingOf?, Option.isSome_map] at heading
  have marked : (Text.rstripBy (fun char => char = '\r' || char = '\n') line).head? =
      some '#' := by
    generalize Text.rstripBy _ line = text at heading
    cases text with
    | nil =>
        simp [Pattern.matchStart, Pattern.matchFrom, sectionHeadingPattern, Pattern.all,
          Pattern.run, Pattern.times, Pattern.char] at heading
    | cons char rest =>
        by_cases mark : char = '#'
        · rw [mark]
          rfl
        · simp [Pattern.matchStart, Pattern.matchFrom, sectionHeadingPattern, Pattern.all,
            Pattern.run, Pattern.times, Pattern.char, mark] at heading
  have starts : Text.rstripBy (fun char => char = '\r' || char = '\n') line <+: line :=
    List.rdropWhile_prefix _ _
  obtain ⟨tail, rest⟩ := starts
  rw [← rest, List.head?_append, marked]
  rfl

theorem isFenceLine_of_head? {line : Text} (marked : line.head? = some '#') :
    isFenceLine line = false := by
  cases line with
  | nil => rfl
  | cons char rest =>
      obtain rfl := Option.some.inj marked
      simp [isFenceLine, Pattern.matchStart, Pattern.matchFrom, fencePattern, Pattern.run,
        inlineBlank, Pattern.repeatGreedy, Pattern.any, Pattern.text, Pattern.all, Pattern.char]

/-! ## The flag -/

theorem flag_run (lines : List Text) (opened : Option Text) (wrong : Bool) :
    lines.foldl flagStep (opened.isSome ^^ wrong) =
      ((lines.foldl fenceStep opened).isSome ^^
        (wrong ^^ decide (foreignMarkers opened lines % 2 = 1))) := by
  induction lines generalizing opened wrong with
  | nil => simp [foreignMarkers]
  | cons line rest inductionHypothesis =>
      rw [List.foldl_cons, List.foldl_cons, flagStep, ← fenceMarker?_isSome, foreignMarkers,
        fenceStep]
      cases marked : fenceMarker? line with
      | none =>
          rw [Option.isSome_none, if_neg (by decide), inductionHypothesis]
          simp
      | some marker =>
          rw [Option.isSome_some, if_pos rfl]
          cases opened with
          | none =>
              have turned : (!(Option.isSome (none : Option Text) ^^ wrong)) =
                  ((some marker).isSome ^^ wrong) := by
                cases wrong <;> rfl
              rw [turned, inductionHypothesis]
              simp
          | some opening =>
              by_cases closes : marker = opening
              · have turned : (!((some opening).isSome ^^ wrong)) =
                    (Option.isSome (none : Option Text) ^^ wrong) := by
                  cases wrong <;> rfl
                rw [turned]
                simp only [if_pos closes, inductionHypothesis]
                simp [closes]
              · have turned : (!((some opening).isSome ^^ wrong)) =
                    ((some opening).isSome ^^ !wrong) := by
                  cases wrong <;> rfl
                have counted : ∀ count : Nat, decide ((1 + count) % 2 = 1) =
                    !decide (count % 2 = 1) := by
                  intro count
                  rcases Nat.mod_two_eq_zero_or_one count with even | odd
                  · simp [Nat.add_mod, even]
                  · simp [Nat.add_mod, odd]
                rw [turned]
                simp only [if_neg closes, inductionHypothesis]
                simp [closes, counted]

theorem keptLinesFrom_nonempty (line text : Text) : ∀ kept ∈ keptLinesFrom line text, kept ≠ [] := by
  fun_induction keptLinesFrom line text with
  | case1 => simp
  | case2 line nonempty => simp [nonempty]
  | case3 line rest inductionHypothesis => simpa using inductionHypothesis
  | case4 line char rest other ends inductionHypothesis => simpa using inductionHypothesis
  | case5 line char rest other goesOn inductionHypothesis => exact inductionHypothesis

/-- A section begins with each heading line that the flag lets pass. -/
theorem mem_headsFrom {offset start : Nat} {inFence : Bool} {lines : List Text} :
    start ∈ (headsFrom offset inFence lines).map Head.start ↔
      ∃ position, ∃ line ∈ lines[position]?, (headingOf? line).isSome = true ∧
        (lines.take position).foldl flagStep inFence = false ∧
        start = offset + (lines.take position).flatten.length := by
  induction lines generalizing offset inFence with
  | nil => simp [headsFrom]
  | cons line rest inductionHypothesis =>
      have later : start ∈ (headsFrom (offset + line.length) (flagStep inFence line) rest).map
            Head.start ↔
          ∃ position, ∃ found ∈ (line :: rest)[position + 1]?, (headingOf? found).isSome = true ∧
            ((line :: rest).take (position + 1)).foldl flagStep inFence = false ∧
            start = offset + ((line :: rest).take (position + 1)).flatten.length := by
        rw [inductionHypothesis]
        simp [Nat.add_assoc]
      have split : (∃ position, ∃ found ∈ (line :: rest)[position]?,
            (headingOf? found).isSome = true ∧
              ((line :: rest).take position).foldl flagStep inFence = false ∧
              start = offset + ((line :: rest).take position).flatten.length) ↔
          ((headingOf? line).isSome = true ∧ inFence = false ∧ start = offset) ∨
            start ∈ (headsFrom (offset + line.length) (flagStep inFence line) rest).map
              Head.start := by
        rw [later]
        constructor
        · rintro ⟨position, found⟩
          cases position with
          | zero => exact Or.inl (by simpa using found)
          | succ position => exact Or.inr ⟨position, found⟩
        · rintro (first | ⟨position, found⟩)
          · exact ⟨0, by simpa using first⟩
          · exact ⟨position + 1, found⟩
      rw [split, headsFrom]
      by_cases fence : isFenceLine line = true
      · have plain : (headingOf? line).isSome = false := by
          by_contra heading
          have marked := head?_of_headingOf? (Bool.not_eq_false _ ▸ heading)
          rw [isFenceLine_of_head? marked] at fence
          cases fence
        simp [fence, flagStep, plain]
      · rw [if_neg fence, flagStep, if_neg fence]
        cases inFence with
        | true => simp
        | false =>
            cases heading : headingOf? line with
            | none => simp
            | some found => simp

theorem startsFrom_sectionsFrom {text : Text} {heads : List Head}
    (ordered : heads.Pairwise fun first second => first.start ≤ second.start)
    (inside : ∀ head ∈ heads, head.start ≤ text.length) (stack : List OpenSection)
    (childCounts : List (Text × Nat)) :
    startsFrom text.length (sectionsFrom text stack childCounts heads) =
      heads.map Head.start := by
  induction heads generalizing stack childCounts with
  | nil => rfl
  | cons head rest inductionHypothesis =>
      have texts := texts_sectionsFrom ordered inside stack childCounts
      obtain ⟨headInside, restInside⟩ := List.forall_mem_cons.mp inside
      rw [sectionsFrom] at texts ⊢
      rw [startsFrom, texts, inductionHypothesis (List.pairwise_cons.mp ordered).2 restInside]
      simp [Nat.sub_sub_self headInside]

section Lines

variable (text : Text)

theorem startsFrom_headedSections :
    startsFrom text.length (headedSections text) =
      (headsFrom 0 false (keptLines text)).map Head.start := by
  obtain ⟨ordered, inside⟩ := headsFrom_ordered 0 false (keptLines text)
  rw [VectorChunks.keptLines_flatten] at inside
  exact startsFrom_sectionsFrom ordered (fun head member => by simpa using (inside head member).2)
    [] []

theorem lineStart_lt {first second : Nat} (before : first < second)
    (inside : first < (keptLines text).length) : lineStart text first < lineStart text second := by
  have nonempty : (keptLines text)[first] ≠ [] :=
    keptLinesFrom_nonempty [] text _ (List.getElem_mem inside)
  have longer : linesBefore text (first + 1) <+: linesBefore text second :=
    List.take_prefix_take_left before
  have step : linesBefore text (first + 1) = linesBefore text first ++ [(keptLines text)[first]] :=
    (List.take_append_getElem inside).symm
  calc lineStart text first
      < lineStart text first + (keptLines text)[first].length :=
        Nat.lt_add_of_pos_right (List.length_pos_iff.mpr nonempty)
    _ = (linesBefore text (first + 1)).flatten.length := by
        rw [step]
        simp [lineStart]
    _ ≤ lineStart text second := longer.flatten.length_le

theorem beginsSection_iff {position : Nat} (heading : HeadingLine text position) :
    BeginsSection text position ↔ (linesBefore text position).foldl flagStep false = false := by
  obtain ⟨line, found, isHeading⟩ := heading
  rw [BeginsSection, startsFrom_headedSections, mem_headsFrom]
  constructor
  · rintro ⟨other, otherLine, otherFound, -, passes, same⟩
    have inside := (List.getElem?_eq_some_iff.mp found).1
    have otherInside := (List.getElem?_eq_some_iff.mp otherFound).1
    rw [Nat.zero_add] at same
    rcases Nat.lt_trichotomy position other with less | rfl | more
    · exact absurd same (lineStart_lt text less inside).ne
    · exact passes
    · exact absurd same (lineStart_lt text more otherInside).ne'
  · intro passes
    exact ⟨position, line, found, isHeading, passes, (Nat.zero_add _).symm⟩

/-- Sections begin with the heading lines outside all fences exactly when before each heading line
an even number of markers stands inside a fence of the other marker. -/
theorem fencesRespected_iff_even_foreignMarkers :
    FencesRespected text ↔ ∀ position, HeadingLine text position →
      Even (foreignMarkers none (linesBefore text position)) := by
  refine forall_congr' fun position => forall_congr' fun heading => ?_
  have flag := flag_run (linesBefore text position) none false
  simp only [Option.isSome_none, Bool.xor_self, Bool.false_xor] at flag
  rw [beginsSection_iff text heading, flag, fenceAfter, Nat.even_iff]
  rcases Nat.mod_two_eq_zero_or_one (foreignMarkers none (linesBefore text position)) with
    even | odd
  · simp [even]
  · cases (linesBefore text position).foldl fenceStep none <;> simp [odd]

end Lines

/-- A tilde fence inside a backtick fence lets a comment of the code begin a section. -/
theorem fencesRespected_mixed : ¬ FencesRespected "\x60\x60\x60\n~~~\n# a\n" := by
  intro respected
  have heading : HeadingLine "\x60\x60\x60\n~~~\n# a\n" 2 := ⟨"# a\n", rfl, rfl⟩
  have begins : BeginsSection "\x60\x60\x60\n~~~\n# a\n" 2 := by
    rw [beginsSection_iff _ heading]
    rfl
  have outside := (respected 2 heading).mp begins
  exact absurd outside (by decide)

end LlmWikiServe
