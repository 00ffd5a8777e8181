import LlmWikiServe.Foundation.Outline
import LlmWikiServe.ReadFocus
import LlmWikiServe.SignedFiles

/-!
# Numbers of sections

The index of a section is the number of its heading in the outline of the headings' levels,
written with dots.  So sections are told apart by their indexes, and an index continues another
exactly when the section lies below the other.
-/

namespace LlmWikiServe

open VectorChunks (keptLines)

/-! ## Written numbers -/

def writtenNumber (number : List Nat) : Text := Text.join "." (number.map Text.ofNat)

theorem writtenNumber_append {front back : List Nat} (frontNonempty : front ≠ [])
    (backNonempty : back ≠ []) :
    writtenNumber (front ++ back) = writtenNumber front ++ '.' :: writtenNumber back := by
  have unfolded : ∀ (head : Nat) {tail : List Nat}, tail ≠ [] →
      writtenNumber (head :: tail) = Text.ofNat head ++ '.' :: writtenNumber tail := by
    intro head tail nonempty
    obtain ⟨next, others, rfl⟩ := List.exists_cons_of_ne_nil nonempty
    simp [writtenNumber, Text.join]
  induction front with
  | nil => exact absurd rfl frontNonempty
  | cons head rest inductionHypothesis =>
      by_cases last : rest = []
      · subst last
        rw [List.singleton_append, unfolded head backNonempty]
        simp [writtenNumber, Text.join]
      · have more : rest ++ back ≠ [] := by simp [last]
        rw [List.cons_append, unfolded head more, unfolded head last, inductionHypothesis last,
          List.append_assoc, List.cons_append]

theorem writtenNumber_concat (above : List Nat) (last : Nat) :
    writtenNumber (above ++ [last]) =
      if above = [] then Text.ofNat last else writtenNumber above ++ '.' :: Text.ofNat last := by
  have single : writtenNumber [last] = Text.ofNat last := by simp [writtenNumber, Text.join]
  split
  next empty => rw [empty, List.nil_append, single]
  next nonempty => rw [writtenNumber_append nonempty (List.cons_ne_nil last []), single]

/-- The counts of a written number are read back at its dots. -/
theorem splitOn_writtenNumber {number : List Nat} (nonempty : number ≠ []) :
    List.splitOn '.' (writtenNumber number) = number.map Text.ofNat := by
  apply List.splitOn_intercalate
  · intro part member
    obtain ⟨count, -, rfl⟩ := List.mem_map.mp member
    exact not_mem_ofNat (by decide) count
  · simpa using nonempty

theorem ofNat_ne_nil (number : Nat) : Text.ofNat number ≠ [] := by
  simp [Text.ofNat, Nat.toDigits_ne_nil]

theorem writtenNumber_eq_nil {number : List Nat} : writtenNumber number = [] ↔ number = [] := by
  constructor
  · intro empty
    by_contra nonempty
    have counts := splitOn_writtenNumber nonempty
    rw [empty] at counts
    obtain ⟨head, tail, rfl⟩ := List.exists_cons_of_ne_nil nonempty
    exact ofNat_ne_nil head (List.cons.inj counts).1.symm
  · rintro rfl
    rfl

theorem map_ofNat_injective : Function.Injective (List.map Text.ofNat) :=
  List.map_injective_iff.mpr fun _ _ => Text.ofNat_injective

theorem writtenNumber_injective : Function.Injective writtenNumber := by
  intro first second same
  by_cases empty : first = []
  · subst empty
    exact (writtenNumber_eq_nil.mp same.symm).symm
  · have nonempty : second ≠ [] := by
      rintro rfl
      exact empty (writtenNumber_eq_nil.mp same)
    apply map_ofNat_injective
    rw [← splitOn_writtenNumber empty, ← splitOn_writtenNumber nonempty, same]

/-- One written number continues another behind a dot exactly where the numbers do. -/
theorem continues_iff {first second : List Nat} (nonempty : first ≠ []) :
    writtenNumber first ++ ("." : Text) <+: writtenNumber second ↔
      first <+: second ∧ first ≠ second := by
  constructor
  · rintro ⟨rest, whole⟩
    have dotted : writtenNumber second = writtenNumber first ++ '.' :: rest := by
      rw [← whole, List.append_assoc]
      rfl
    have secondNonempty : second ≠ [] := by
      rintro rfl
      simp [writtenNumber, Text.join] at dotted
    have counts : second.map Text.ofNat = first.map Text.ofNat ++ List.splitOn '.' rest := by
      rw [← splitOn_writtenNumber nonempty, ← splitOn_writtenNumber secondNonempty, dotted]
      exact List.splitOn_append_cons_self _ _
    have starts : first.map Text.ofNat <+: second.map Text.ofNat :=
      counts ▸ List.prefix_append _ _
    refine ⟨(List.prefix_map_iff_of_injective fun _ _ => Text.ofNat_injective).mp starts, ?_⟩
    rintro rfl
    rw [List.self_eq_append_right] at counts
    exact List.splitOn_ne_nil '.' rest counts
  · rintro ⟨⟨rest, rfl⟩, differs⟩
    have more : rest ≠ [] := by
      rintro rfl
      simp at differs
    rw [writtenNumber_append nonempty more]
    exact ⟨writtenNumber rest, by simp⟩

/-! ## Sections and the outline of their levels -/

structure Tracks (stack : List OpenSection) (childCounts : List (Text × Nat))
    (entries : List (Outline.Entry Nat)) (counts : List Nat → Nat) : Prop where
  opened : stack.map (fun opened => (opened.level, opened.index)) =
    entries.map fun entry => (entry.level, writtenNumber entry.number)
  counted : ∀ number, (Keyed.get? childCounts (writtenNumber number)).getD 0 = counts number

theorem Tracks.nil : Tracks [] [] [] fun _ => 0 := ⟨rfl, fun _ => rfl⟩

/-- Closing sections of at least a level closes the items of at least that level. -/
theorem Tracks.dropWhile {stack : List OpenSection} {childCounts : List (Text × Nat)}
    {entries : List (Outline.Entry Nat)} {counts : List Nat → Nat}
    (tracks : Tracks stack childCounts entries counts) (level : Nat) :
    Tracks (stack.dropWhile fun opened => level ≤ opened.level) childCounts
      (Outline.opened entries level) counts := by
  refine ⟨?_, tracks.counted⟩
  have both := congrArg (List.dropWhile fun open_ : Nat × Text => level ≤ open_.1) tracks.opened
  simpa only [List.dropWhile_map, Function.comp_def] using both

theorem Tracks.parent {stack : List OpenSection} {childCounts : List (Text × Nat)}
    {entries : List (Outline.Entry Nat)} {counts : List Nat → Nat}
    (tracks : Tracks stack childCounts entries counts) :
    (stack.head?.map OpenSection.index).getD [] = writtenNumber (Outline.parent entries) := by
  have tops := congrArg (fun items => (items.head?.map Prod.snd).getD []) tracks.opened
  simp only [List.head?_map, Option.map_map] at tops
  cases entries with
  | nil => simpa [Outline.parent, writtenNumber, Text.join, Function.comp_def] using tops
  | cons entry others => simpa [Outline.parent, Function.comp_def] using tops

theorem indexes_sectionsFrom (text : Text) {stack : List OpenSection}
    {childCounts : List (Text × Nat)} {entries : List (Outline.Entry Nat)}
    {counts : List Nat → Nat} (tracks : Tracks stack childCounts entries counts)
    (heads : List Head) :
    (sectionsFrom text stack childCounts heads).map MarkdownSection.index =
      (Outline.numbersFrom entries counts (heads.map Head.level)).map writtenNumber := by
  induction heads generalizing stack childCounts entries counts with
  | nil => rfl
  | cons head rest inductionHypothesis =>
      have closed := tracks.dropWhile head.level
      have parentIndex := closed.parent
      have count := closed.counted (Outline.parent (Outline.opened entries head.level))
      have index : ∀ parent : List Nat, ∀ count : Nat,
          (if writtenNumber parent = [] then Text.ofNat count
            else writtenNumber parent ++ '.' :: Text.ofNat count) =
            writtenNumber (parent ++ [count]) := by
        intro parent count
        simp only [writtenNumber_eq_nil, writtenNumber_concat]
      rw [sectionsFrom, List.map_cons, List.map_cons, Outline.numbersFrom, List.map_cons]
      simp only [parentIndex, count, index]
      congr 1
      apply inductionHypothesis
      constructor
      · rw [List.map_cons, List.map_cons, closed.opened]
      · intro number
        rw [Keyed.get?_set, Function.update_apply]
        by_cases same : number = Outline.parent (Outline.opened entries head.level)
        · simp [same]
        · have other : Outline.parent (Outline.opened entries head.level) ≠ number := Ne.symm same
          simp [same, other, writtenNumber_injective.eq_iff, tracks.counted]

theorem levels_sectionsFrom (text : Text) (stack : List OpenSection)
    (childCounts : List (Text × Nat)) (heads : List Head) :
    (sectionsFrom text stack childCounts heads).map MarkdownSection.level =
      heads.map Head.level := by
  induction heads generalizing stack childCounts with
  | nil => rfl
  | cons head rest inductionHypothesis =>
      rw [sectionsFrom, List.map_cons, List.map_cons, inductionHypothesis]

/-! ## Texts of sections -/

/-- Headings come in order and lie in the lines they are read from. -/
theorem headsFrom_ordered (offset : Nat) (inFence : Bool) (lines : List Text) :
    (headsFrom offset inFence lines).Pairwise (fun first second => first.start ≤ second.start) ∧
      ∀ head ∈ headsFrom offset inFence lines,
        offset ≤ head.start ∧ head.start ≤ offset + lines.flatten.length := by
  induction lines generalizing offset inFence with
  | nil => simp [headsFrom]
  | cons line rest inductionHypothesis =>
      have later := fun inFence => inductionHypothesis (offset + line.length) inFence
      have within : ∀ inFence, ∀ head ∈ headsFrom (offset + line.length) inFence rest,
          offset ≤ head.start ∧ head.start ≤ offset + (line :: rest).flatten.length := by
        intro inFence head member
        obtain ⟨low, high⟩ := (later inFence).2 head member
        rw [List.flatten_cons, List.length_append]
        omega
      rw [headsFrom]
      split
      · exact ⟨(later _).1, within _⟩
      split
      · exact ⟨(later _).1, within _⟩
      split
      · rw [List.pairwise_cons, List.forall_mem_cons]
        refine ⟨⟨fun head member => ?_, (later _).1⟩, ⟨le_rfl, by simp⟩, within _⟩
        have low := ((later _).2 head member).1
        simp only
        omega
      · exact ⟨(later _).1, within _⟩

theorem texts_sectionsFrom {text : Text} {heads : List Head}
    (ordered : heads.Pairwise fun first second => first.start ≤ second.start)
    (inside : ∀ head ∈ heads, head.start ≤ text.length) (stack : List OpenSection)
    (childCounts : List (Text × Nat)) :
    ((sectionsFrom text stack childCounts heads).map MarkdownSection.text).flatten =
      text.drop ((heads.head?.map Head.start).getD text.length) := by
  induction heads generalizing stack childCounts with
  | nil => simp [sectionsFrom]
  | cons head rest inductionHypothesis =>
      obtain ⟨first, ordered⟩ := List.pairwise_cons.mp ordered
      obtain ⟨headInside, inside⟩ := List.forall_mem_cons.mp inside
      rw [sectionsFrom, List.map_cons, List.flatten_cons, inductionHypothesis ordered inside]
      cases rest with
      | nil => simp
      | cons next others =>
          have before : head.start ≤ (text.take next.start).length := by
            rw [List.length_take]
            exact le_min (first next List.mem_cons_self) headInside
          have cut : text.drop head.start =
              (text.take next.start ++ text.drop next.start).drop head.start := by
            rw [List.take_append_drop]
          simp only [List.head?_cons, Option.map_some, Option.getD_some]
          rw [cut, List.drop_append_of_le_length before]

/-! ## The sections of a text -/

section Sections

variable (text : Text)

def headedSections : List MarkdownSection :=
  sectionsFrom text [] [] (headsFrom 0 false (keptLines text))

def headingLevels : List Nat := (headsFrom 0 false (keptLines text)).map Head.level

theorem splitMarkdownSections_eq :
    splitMarkdownSections text = preambleSection text ++ headedSections text := rfl

theorem indexes_headedSections : (headedSections text).map MarkdownSection.index =
    (Outline.numbers (headingLevels text)).map writtenNumber :=
  indexes_sectionsFrom text .nil _

theorem levels_headedSections :
    (headedSections text).map MarkdownSection.level = headingLevels text :=
  levels_sectionsFrom text [] [] _

/-- The sections make up the text, but for a blank beginning. -/
theorem texts_splitMarkdownSections :
    ((splitMarkdownSections text).map MarkdownSection.text).flatten =
      if Text.strip (text.take (firstStart text)) = [] then text.drop (firstStart text)
      else text := by
  obtain ⟨ordered, inside⟩ := headsFrom_ordered 0 false (keptLines text)
  rw [VectorChunks.keptLines_flatten] at inside
  have headed : ((headedSections text).map MarkdownSection.text).flatten =
      text.drop (firstStart text) :=
    texts_sectionsFrom ordered (fun head member => by simpa using (inside head member).2) [] []
  rw [splitMarkdownSections_eq, List.map_append, List.flatten_append, headed, preambleSection]
  split
  · rfl
  · simp

variable {text}

theorem getElem?_splitMarkdownSections {position : Nat} {entry : MarkdownSection}
    (found : (splitMarkdownSections text)[position]? = some entry) :
    (position < (preambleSection text).length ∧ entry ∈ preambleSection text) ∨
      ∃ later, position = (preambleSection text).length + later ∧
        (headedSections text)[later]? = some entry := by
  rw [splitMarkdownSections_eq] at found
  by_cases early : position < (preambleSection text).length
  · rw [List.getElem?_append_left early] at found
    exact Or.inl ⟨early, List.mem_of_getElem? found⟩
  · rw [List.getElem?_append_right (not_lt.mp early)] at found
    exact Or.inr ⟨_, (Nat.add_sub_of_le (not_lt.mp early)).symm, found⟩

theorem preamble_index {entry : MarkdownSection} (member : entry ∈ preambleSection text) :
    entry.index = preambleIndex := by
  unfold preambleSection at member
  split at member
  · cases member
  · rw [List.mem_singleton.mp member]

theorem preambleIndex_eq : preambleIndex = writtenNumber [0] := by
  simp [preambleIndex, writtenNumber, Text.join, Text.ofNat]

theorem number_of_headed {position : Nat} {entry : MarkdownSection}
    (found : (headedSections text)[position]? = some entry) :
    ∃ number, entry.index = writtenNumber number ∧
      (Outline.numbers (headingLevels text))[position]? = some number := by
  have index : ((headedSections text).map MarkdownSection.index)[position]? =
      some entry.index := by
    rw [List.getElem?_map, found, Option.map_some]
  rw [indexes_headedSections, List.getElem?_map] at index
  obtain ⟨number, given, written⟩ := Option.map_eq_some_iff.mp index
  exact ⟨number, written.symm, given⟩

theorem level_of_headed {position : Nat} {entry : MarkdownSection}
    (found : (headedSections text)[position]? = some entry) :
    (headingLevels text)[position]? = some entry.level := by
  rw [← levels_headedSections, List.getElem?_map, found, Option.map_some]

theorem number_shape {position : Nat} {number : List Nat}
    (given : (Outline.numbers (headingLevels text))[position]? = some number) :
    number ≠ [] ∧ number ≠ [0] := by
  obtain ⟨above, last, rfl⟩ :=
    Outline.exists_of_mem_numbersFrom (List.mem_of_getElem? given)
  refine ⟨by simp, fun same => ?_⟩
  have single : above ++ [last + 1] = [] ++ [0] := same
  obtain ⟨-, lasts⟩ := List.append_inj' single rfl
  simp at lasts

variable (text) in
theorem indexes_nodup : ((splitMarkdownSections text).map MarkdownSection.index).Nodup := by
  rw [splitMarkdownSections_eq, List.map_append, List.nodup_append]
  refine ⟨?_, ?_, ?_⟩
  · rw [preambleSection]
    split
    · exact List.nodup_nil
    · exact List.nodup_singleton _
  · rw [indexes_headedSections]
    exact Outline.nodup_numbers.map writtenNumber_injective
  · intro first firstIn second secondIn same
    obtain ⟨opening, openingIn, rfl⟩ := List.mem_map.mp firstIn
    obtain ⟨entry, entryIn, rfl⟩ := List.mem_map.mp secondIn
    obtain ⟨position, found⟩ := List.mem_iff_getElem?.mp entryIn
    obtain ⟨number, index, given⟩ := number_of_headed found
    rw [preamble_index openingIn, index, preambleIndex_eq] at same
    exact (number_shape given).2 (writtenNumber_injective same).symm

theorem between_headed (first second : Nat) :
    Outline.between (headingLevels text) first second =
      ((((splitMarkdownSections text).take ((preambleSection text).length + second + 1)).drop
        ((preambleSection text).length + first + 1)).map MarkdownSection.level) := by
  rw [Outline.between, ← levels_headedSections, splitMarkdownSections_eq, Nat.add_assoc,
    Nat.add_assoc, List.take_length_add_append, List.drop_length_add_append, List.map_drop,
    List.map_take]

theorem isDescendantOf_headed {first second : Nat} {above below : MarkdownSection}
    (firstFound : (headedSections text)[first]? = some above)
    (secondFound : (headedSections text)[second]? = some below) :
    below.isDescendantOf above = true ↔ first < second ∧
      ∀ level ∈ Outline.between (headingLevels text) first second, above.level < level := by
  obtain ⟨number, index, given⟩ := number_of_headed firstFound
  obtain ⟨other, otherIndex, otherGiven⟩ := number_of_headed secondFound
  obtain ⟨nonempty, notPreamble⟩ := number_shape given
  have headed : above.index ≠ preambleIndex := by
    rw [index, preambleIndex_eq]
    exact writtenNumber_injective.ne notPreamble
  rw [← Outline.prefix_iff (level_of_headed firstFound) given otherGiven,
    ← continues_iff nonempty, MarkdownSection.isDescendantOf, index, otherIndex]
  rw [index] at headed
  simp only [headed, ne_eq, not_false_eq_true, decide_true, Bool.true_and]
  exact List.isPrefixOf_iff_prefix

/-- A section lies below another exactly when it comes after it and no section after that one, up
to it, has the other's level or a smaller one. -/
theorem isDescendantOf_iff {first second : Nat} {above below : MarkdownSection}
    (firstFound : (splitMarkdownSections text)[first]? = some above)
    (secondFound : (splitMarkdownSections text)[second]? = some below) :
    below.isDescendantOf above = true ↔ above ∉ preambleSection text ∧ first < second ∧
      ∀ other ∈ ((splitMarkdownSections text).take (second + 1)).drop (first + 1),
        above.level < other.level := by
  rcases getElem?_splitMarkdownSections firstFound with ⟨-, opening⟩ | ⟨first, rfl, firstHeaded⟩
  · refine iff_of_false ?_ fun outside => outside.1 opening
    simp [MarkdownSection.isDescendantOf, preamble_index opening]
  obtain ⟨number, index, given⟩ := number_of_headed firstHeaded
  obtain ⟨nonempty, notPreamble⟩ := number_shape given
  have outside : above ∉ preambleSection text := by
    intro opening
    have same := preamble_index opening
    rw [index, preambleIndex_eq] at same
    exact notPreamble (writtenNumber_injective same)
  rw [and_iff_right outside]
  rcases getElem?_splitMarkdownSections secondFound with
    ⟨early, opening⟩ | ⟨second, rfl, secondHeaded⟩
  · refine iff_of_false (fun continues => ?_) fun after => by omega
    rw [MarkdownSection.isDescendantOf, Bool.and_eq_true] at continues
    have starts := List.isPrefixOf_iff_prefix.mp continues.2
    rw [preamble_index opening, preambleIndex_eq, index, continues_iff nonempty] at starts
    obtain ⟨begins, differs⟩ := starts
    have single : number <+: [] ++ [0] := begins
    rcases List.prefix_concat_iff.mp single with same | begins
    · exact differs same
    · exact nonempty (List.prefix_nil.mp begins)
  · rw [isDescendantOf_headed firstHeaded secondHeaded, Nat.add_lt_add_iff_left, between_headed]
    simp only [List.forall_mem_map]

variable (text) in
/-- Splitting is a partition whose numbers tell the sections apart and say what lies below what. -/
theorem splitMarkdownSections_partition :
    ((splitMarkdownSections text).map MarkdownSection.text).flatten =
        (if Text.strip (text.take (firstStart text)) = [] then text.drop (firstStart text)
          else text) ∧
      ((splitMarkdownSections text).map MarkdownSection.index).Nodup ∧
      (∀ (first second : Nat) (above below : MarkdownSection),
        (splitMarkdownSections text)[first]? = some above →
        (splitMarkdownSections text)[second]? = some below →
        (below.isDescendantOf above = true ↔ above ∉ preambleSection text ∧ first < second ∧
          ∀ other ∈ ((splitMarkdownSections text).take (second + 1)).drop (first + 1),
            above.level < other.level)) ∧
      ∀ (first middle second : Nat) (above between below : MarkdownSection),
        (splitMarkdownSections text)[first]? = some above →
        (splitMarkdownSections text)[middle]? = some between →
        (splitMarkdownSections text)[second]? = some below → first < middle → middle ≤ second →
        below.isDescendantOf above = true → between.isDescendantOf above = true := by
  refine ⟨texts_splitMarkdownSections text, indexes_nodup text, ?_, ?_⟩
  · intro first second above below firstFound secondFound
    exact isDescendantOf_iff firstFound secondFound
  · intro first middle second above between below firstFound middleFound secondFound after before
      continues
    obtain ⟨headed, -, deeper⟩ := (isDescendantOf_iff firstFound secondFound).mp continues
    rw [isDescendantOf_iff firstFound middleFound]
    refine ⟨headed, after, fun other member => deeper other ?_⟩
    have shorter := (List.take_prefix_take_left (l := splitMarkdownSections text)
      (Nat.add_le_add_right before 1)).drop (first + 1)
    exact shorter.subset member

end Sections

end LlmWikiServe
