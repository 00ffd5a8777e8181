import LlmWikiServe.SectionNumbers

/-!
# Requested sections

A request for a section is read as a number or as the name of a heading by its shape.  Every
section is found under its number; under its heading it is found unless the heading reads as
something else.
-/

namespace LlmWikiServe

open VectorChunks (keptLines)

/-! ## What is chosen -/

def WithinSection (entry root : MarkdownSection) : Prop :=
  entry = root ∨ entry.isDescendantOf root = true

instance (entry root : MarkdownSection) : Decidable (WithinSection entry root) :=
  inferInstanceAs (Decidable (_ ∨ _))

theorem MarkdownSection.isDescendantOf_trans {lower middle upper : MarkdownSection}
    (first : lower.isDescendantOf middle = true) (second : middle.isDescendantOf upper = true) :
    lower.isDescendantOf upper = true := by
  rw [isDescendantOf, Bool.and_eq_true] at first second ⊢
  have shorter : upper.index ++ ("." : Text) <+: middle.index :=
    List.isPrefixOf_iff_prefix.mp second.2
  have longer : middle.index ++ ("." : Text) <+: lower.index :=
    List.isPrefixOf_iff_prefix.mp first.2
  exact ⟨second.1, List.isPrefixOf_iff_prefix.mpr
    (shorter.trans ((List.prefix_append _ _).trans longer))⟩

theorem WithinSection.below {lower entry root : MarkdownSection}
    (below : lower.isDescendantOf entry = true) (within : WithinSection entry root) :
    WithinSection lower root := by
  rcases within with rfl | inside
  · exact Or.inr below
  · exact Or.inr (MarkdownSection.isDescendantOf_trans below inside)

theorem mem_chooseBelow {sections chosen : List MarkdownSection} {root entry : MarkdownSection} :
    entry ∈ chooseBelow sections chosen root ↔
      entry ∈ chosen ∨ (entry ∈ sections ∧ WithinSection entry root) := by
  unfold chooseBelow
  induction sections generalizing chosen with
  | nil => simp
  | cons head rest inductionHypothesis =>
      rw [List.foldl_cons, inductionHypothesis]
      by_cases takes : WithinSection head root
      · by_cases already : head ∈ chosen
        · rw [if_neg (by simp [already])]
          constructor
          · rintro (kept | ⟨member, within⟩)
            · exact Or.inl kept
            · exact Or.inr ⟨List.mem_cons_of_mem _ member, within⟩
          · rintro (kept | ⟨member, within⟩)
            · exact Or.inl kept
            · rcases List.mem_cons.mp member with rfl | member
              · exact Or.inl already
              · exact Or.inr ⟨member, within⟩
        · have added : ((head = root || head.isDescendantOf root) && head ∉ chosen) = true := by
            simpa [already, WithinSection] using takes
          rw [if_pos added, List.mem_append, List.mem_singleton]
          constructor
          · rintro ((kept | rfl) | ⟨member, within⟩)
            · exact Or.inl kept
            · exact Or.inr ⟨List.mem_cons_self, takes⟩
            · exact Or.inr ⟨List.mem_cons_of_mem _ member, within⟩
          · rintro (kept | ⟨member, within⟩)
            · exact Or.inl (Or.inl kept)
            · rcases List.mem_cons.mp member with rfl | member
              · exact Or.inl (Or.inr rfl)
              · exact Or.inr ⟨member, within⟩
      · have passed : ¬ ((head = root || head.isDescendantOf root) && head ∉ chosen) = true := by
          intro added
          rw [Bool.and_eq_true] at added
          exact takes (by simpa [WithinSection] using added.1)
        rw [if_neg passed]
        constructor
        · rintro (kept | ⟨member, within⟩)
          · exact Or.inl kept
          · exact Or.inr ⟨List.mem_cons_of_mem _ member, within⟩
        · rintro (kept | ⟨member, within⟩)
          · exact Or.inl kept
          · rcases List.mem_cons.mp member with rfl | member
            · exact absurd within takes
            · exact Or.inr ⟨member, within⟩

theorem mem_foldl_chooseBelow {sections roots chosen : List MarkdownSection}
    {entry : MarkdownSection} :
    entry ∈ roots.foldl (chooseBelow sections) chosen ↔
      entry ∈ chosen ∨ (entry ∈ sections ∧ ∃ root ∈ roots, WithinSection entry root) := by
  induction roots generalizing chosen with
  | nil => simp
  | cons root others inductionHypothesis =>
      rw [List.foldl_cons, inductionHypothesis, mem_chooseBelow]
      simp only [List.mem_cons, exists_eq_or_imp]
      tauto

section Requests

variable [Unicode] [Compatibility]

/-- The request finds the section with what lies below it, and is not reported unmatched. -/
def Requestable (sections : List MarkdownSection) (entry : MarkdownSection) (spec : Text) : Prop :=
  let answer := matchRequestedSections sections [spec]
  answer.2 = [] ∧ ∀ found ∈ sections, WithinSection found entry → found ∈ answer.1

theorem requestable_iff {sections : List MarkdownSection} {entry : MarkdownSection} {spec : Text}
    (member : entry ∈ sections) (asked : wantedOf spec ≠ []) :
    Requestable sections entry spec ↔
      ∃ root ∈ requestedRoots sections (wantedOf spec), WithinSection entry root := by
  unfold Requestable matchRequestedSections
  simp only [List.foldl_cons, List.foldl_nil, if_neg asked]
  by_cases none_ : requestedRoots sections (wantedOf spec) = []
  · simp [none_]
  · simp only [if_neg none_, true_and, mem_foldl_chooseBelow, List.not_mem_nil, false_or]
    constructor
    · intro found
      exact (found entry member (Or.inl rfl)).2
    · rintro ⟨root, rootIn, within⟩ found foundIn inside
      refine ⟨foundIn, root, rootIn, ?_⟩
      rcases inside with rfl | below
      · exact within
      · exact within.below below

/-! ## Numbers -/

omit [Unicode] [Compatibility] in
theorem writtenNumber_cons (first : Nat) (rest : List Nat) :
    writtenNumber (first :: rest) =
      Text.ofNat first ++ rest.flatMap fun count => '.' :: Text.ofNat count := by
  induction rest generalizing first with
  | nil => simp [writtenNumber, Text.join]
  | cons next others inductionHypothesis =>
      have single : writtenNumber [first] = Text.ofNat first := by simp [writtenNumber, Text.join]
      have joined := writtenNumber_append (List.cons_ne_nil first []) (List.cons_ne_nil next others)
      rw [List.singleton_append, single, inductionHypothesis] at joined
      rw [joined]
      simp

omit [Unicode] [Compatibility] in
theorem mem_repeatGreedy_self (body : Pattern.Cursor → List Pattern.Cursor) (rounds : Nat)
    (cursor : Pattern.Cursor) : cursor ∈ Pattern.repeatGreedy body rounds cursor := by
  cases rounds <;> simp [Pattern.repeatGreedy]

omit [Unicode] [Compatibility] in
theorem mem_repeatGreedy_step {body : Pattern.Cursor → List Pattern.Cursor} {rounds : Nat}
    {cursor next last : Pattern.Cursor} (one : next ∈ body cursor)
    (advances : next.after.length < cursor.after.length)
    (others : last ∈ Pattern.repeatGreedy body rounds next) :
    last ∈ Pattern.repeatGreedy body (rounds + 1) cursor := by
  rw [Pattern.repeatGreedy, List.mem_append, List.mem_flatMap]
  exact Or.inl ⟨next, List.mem_filter.mpr ⟨one, decide_eq_true advances⟩, others⟩

omit [Unicode] [Compatibility] in
theorem mem_repeat_word {accepts : Char → Bool} {word : Text}
    (accepted : ∀ char ∈ word, accepts char = true) (before rest : Text)
    {rounds : Nat} (enough : word.length ≤ rounds) :
    ∃ last ∈ Pattern.repeatGreedy (Pattern.run (.one accepts)) rounds ⟨before, word ++ rest, []⟩,
      last.after = rest ∧ last.groups = [] := by
  induction word generalizing before rounds with
  | nil => exact ⟨_, mem_repeatGreedy_self _ _ _, rfl, rfl⟩
  | cons char others inductionHypothesis =>
      rw [List.forall_mem_cons] at accepted
      obtain ⟨rounds, rfl⟩ := Nat.exists_eq_add_of_le' enough
      have fewer : others.length ≤ rounds + others.length := Nat.le_add_left _ _
      obtain ⟨last, reached, ends⟩ := inductionHypothesis accepted.2 (char :: before) fewer
      refine ⟨last, mem_repeatGreedy_step ?_ ?_ reached, ends⟩
      · simp [Pattern.run, accepted.1]
      · simp

omit [Unicode] [Compatibility] in
/-- `\d+` reads a word of decimal characters. -/
theorem mem_run_plus {accepts : Char → Bool} {word : Text} (nonempty : word ≠ [])
    (accepted : ∀ char ∈ word, accepts char = true) (before rest : Text) :
    ∃ last ∈ Pattern.run (.plus (.one accepts)) ⟨before, word ++ rest, []⟩,
      last.after = rest ∧ last.groups = [] := by
  obtain ⟨char, others, rfl⟩ := List.exists_cons_of_ne_nil nonempty
  rw [List.forall_mem_cons] at accepted
  have enough : others.length ≤ (others ++ rest).length := by simp
  obtain ⟨last, reached, ends⟩ := mem_repeat_word accepted.2 (char :: before) rest enough
  refine ⟨last, List.mem_flatMap.mpr ⟨⟨char :: before, others ++ rest, []⟩, ?_, reached⟩, ends⟩
  simp [Pattern.run, accepted.1]

omit [Compatibility] in
/-- `(?:\.\d+)*` reads the rest of a written number. -/
theorem mem_repeat_counts {counts : List Text}
    (decimal : ∀ count ∈ counts, count ≠ [] ∧ ∀ char ∈ count, Unicode.decimal char = true)
    (before : Text) {rounds : Nat} (enough : counts.length ≤ rounds) :
    ∃ last ∈ Pattern.repeatGreedy
        (Pattern.run (.seq (.char '.') (.plus (.one Unicode.decimal)))) rounds
        ⟨before, counts.flatMap fun count => '.' :: count, []⟩, last.after = [] := by
  induction counts generalizing before rounds with
  | nil => exact ⟨_, mem_repeatGreedy_self _ _ _, rfl⟩
  | cons count others inductionHypothesis =>
      rw [List.forall_mem_cons] at decimal
      obtain ⟨⟨nonempty, digits⟩, decimal⟩ := decimal
      obtain ⟨rounds, rfl⟩ := Nat.exists_eq_add_of_le' enough
      obtain ⟨next, read, after, groups⟩ := mem_run_plus nonempty digits ('.' :: before)
        (others.flatMap fun count => '.' :: count)
      have fewer : others.length ≤ rounds + others.length := Nat.le_add_left _ _
      obtain ⟨last, reached, ends⟩ := inductionHypothesis decimal next.before fewer
      have cursor : next = ⟨next.before, others.flatMap fun count => '.' :: count, []⟩ := by
        rw [← after, ← groups]
      rw [← cursor] at reached
      refine ⟨last, mem_repeatGreedy_step ?_ ?_ reached, ends⟩
      · rw [Pattern.run, List.mem_flatMap]
        refine ⟨⟨'.' :: before, count ++ others.flatMap fun count => '.' :: count, []⟩, ?_, read⟩
        simp [Pattern.char, Pattern.run]
      · rw [after]
        simp only [List.flatMap_cons, List.cons_append, List.length_cons, List.length_append]
        omega

theorem ofNat_decimal (number : Nat) :
    Text.ofNat number ≠ [] ∧ ∀ char ∈ Text.ofNat number, Unicode.decimal char = true := by
  refine ⟨ofNat_ne_nil number, fun char member => Compatibility.decimal_digit char ?_⟩
  exact Nat.isDigit_of_mem_toDigits (by decide) (by decide) member

theorem isSectionNumber_writtenNumber {number : List Nat} (nonempty : number ≠ []) :
    isSectionNumber (writtenNumber number) = true := by
  obtain ⟨first, rest, rfl⟩ := List.exists_cons_of_ne_nil nonempty
  have counts : (rest.flatMap fun count => '.' :: Text.ofNat count) =
      (rest.map Text.ofNat).flatMap fun count => '.' :: count := by
    rw [List.flatMap_map]
  obtain ⟨digits, digitsDecimal⟩ := ofNat_decimal first
  obtain ⟨next, read, after, groups⟩ := mem_run_plus digits digitsDecimal []
    ((rest.map Text.ofNat).flatMap fun count => '.' :: count)
  have decimal : ∀ count ∈ rest.map Text.ofNat,
      count ≠ [] ∧ ∀ char ∈ count, Unicode.decimal char = true := by
    intro count member
    obtain ⟨number, -, rfl⟩ := List.mem_map.mp member
    exact ofNat_decimal number
  have enough : (rest.map Text.ofNat).length ≤ next.after.length := by
    rw [after]
    generalize rest.map Text.ofNat = counts
    induction counts with
    | nil => simp
    | cons count others inductionHypothesis =>
        simp only [List.flatMap_cons, List.cons_append, List.length_cons, List.length_append]
        omega
  obtain ⟨last, reached, ends⟩ := mem_repeat_counts decimal next.before enough
  have cursor : next =
      ⟨next.before, (rest.map Text.ofNat).flatMap fun count => '.' :: count, []⟩ := by
    rw [← after, ← groups]
  rw [← cursor] at reached
  have matched : last ∈ Pattern.run sectionNumberPattern
      ⟨[], writtenNumber (first :: rest), []⟩ := by
    rw [writtenNumber_cons, counts]
    refine List.mem_flatMap.mpr ⟨next, read, List.mem_flatMap.mpr ⟨last, reached, ?_⟩⟩
    simp [Pattern.run, ends]
  rw [isSectionNumber, Pattern.matchStart, Pattern.matchFrom, Option.isSome_map,
    List.isSome_head?]
  simpa [List.isEmpty_iff] using List.ne_nil_of_mem matched

omit [Unicode] [Compatibility] in
theorem code_of_written {number : List Nat} {char : Char} (member : char ∈ writtenNumber number) :
    46 ≤ char.toNat ∧ char.toNat ≤ 57 := by
  rcases Text.of_mem_join member with dot | ⟨count, countIn, digit⟩
  · rw [List.mem_singleton.mp dot]
    decide
  · obtain ⟨number, -, rfl⟩ := List.mem_map.mp countIn
    obtain ⟨low, high⟩ := Char.isDigit_iff_toNat.mp
      (Nat.isDigit_of_mem_toDigits (by decide) (by decide) digit)
    exact ⟨le_trans (by decide) low, high⟩

omit [Compatibility] in
theorem casefold_of_fixed {text : Text} (fixed : ∀ char ∈ text, Unicode.foldChar char = [char]) :
    Text.casefold text = text := by
  rw [Text.casefold, List.flatMap_congr fixed]
  simp

/-- A section's number asks for itself. -/
theorem wantedOf_writtenNumber (number : List Nat) :
    wantedOf (writtenNumber number) = writtenNumber number := by
  have solid : ∀ char ∈ writtenNumber number, Text.isSpace char = false := by
    intro char member
    have code := code_of_written member
    simp only [Text.isSpace, Bool.or_eq_false_iff, Bool.and_eq_false_iff, decide_eq_false_iff_not]
    omega
  have unmarked : Text.lstripBy (· = '#') (writtenNumber number) = writtenNumber number := by
    apply List.dropWhile_eq_self_iff.mpr
    intro nonempty marked
    have code := code_of_written (List.getElem_mem nonempty)
    rw [of_decide_eq_true marked] at code
    exact absurd code (by decide)
  have folded : ∀ char ∈ writtenNumber number, Unicode.foldChar char = [char] := by
    intro char member
    have code := code_of_written member
    rw [Unicode.foldChar_ascii char (by omega), Char.toLower, dif_neg]
    intro capital
    have low : 65 ≤ char.toNat := capital.1
    omega
  have ascii : ∀ char ∈ writtenNumber number, char.toNat < 128 := fun char member =>
    (code_of_written member).2.trans_lt (by decide)
  have stripped : Text.strip (writtenNumber number) = writtenNumber number :=
    Text.stripBy_of_solid solid
  rw [wantedOf, stripped, unmarked, stripped, normalizeText,
    Compatibility.normalizeNfkc_ascii _ ascii, casefold_of_fixed folded]

/-- Every section can be requested under its number. -/
theorem requestable_index {text : Text} {entry : MarkdownSection}
    (member : entry ∈ headedSections text) :
    Requestable (splitMarkdownSections text) entry entry.index := by
  obtain ⟨position, found⟩ := List.mem_iff_getElem?.mp member
  obtain ⟨number, index, given⟩ := number_of_headed found
  obtain ⟨nonempty, -⟩ := number_shape given
  have memberOfAll : entry ∈ splitMarkdownSections text := List.mem_append_right _ member
  have wanted : wantedOf entry.index = entry.index := by
    rw [index, wantedOf_writtenNumber]
  have asked : wantedOf entry.index ≠ [] := by
    rw [wanted, index]
    exact fun empty => nonempty (writtenNumber_eq_nil.mp empty)
  rw [requestable_iff memberOfAll asked, wanted, requestedRoots, index,
    if_pos (isSectionNumber_writtenNumber nonempty), ← index]
  exact ⟨entry, List.mem_filter.mpr ⟨memberOfAll, decide_eq_true rfl⟩, Or.inl rfl⟩

/-! ## Headings -/

omit [Unicode] [Compatibility] in
theorem strip_heading {text : Text} {entry : MarkdownSection}
    (member : entry ∈ headedSections text) : Text.strip entry.heading = entry.heading := by
  have heads : ∀ (offset : Nat) (inFence : Bool) (lines : List Text),
      ∀ head ∈ headsFrom offset inFence lines, Text.strip head.heading = head.heading := by
    intro offset inFence lines
    induction lines generalizing offset inFence with
    | nil => simp [headsFrom]
    | cons line rest inductionHypothesis =>
        rw [headsFrom]
        split
        · exact inductionHypothesis _ _
        split
        · exact inductionHypothesis _ _
        split
        next level heading found =>
          rw [List.forall_mem_cons]
          refine ⟨?_, inductionHypothesis _ _⟩
          obtain ⟨match_, -, same⟩ := Option.map_eq_some_iff.mp found
          obtain ⟨-, rfl⟩ := Prod.mk.inj same
          exact Text.strip_strip _
        next => exact inductionHypothesis _ _
  have sections : ∀ (text : Text) (stack : List OpenSection) (childCounts : List (Text × Nat))
      (heads : List Head), (∀ head ∈ heads, Text.strip head.heading = head.heading) →
      ∀ entry ∈ sectionsFrom text stack childCounts heads,
        Text.strip entry.heading = entry.heading := by
    intro text stack childCounts heads stripped
    induction heads generalizing stack childCounts with
    | nil => simp [sectionsFrom]
    | cons head rest inductionHypothesis =>
        rw [List.forall_mem_cons] at stripped
        rw [sectionsFrom, List.forall_mem_cons]
        exact ⟨stripped.1, inductionHypothesis _ _ stripped.2⟩
  exact sections text [] [] _ (heads 0 false _) entry member

/-- A heading asks for itself unless it begins with a `#`. -/
theorem wantedOf_heading {heading : Text} (stripped : Text.strip heading = heading)
    (unmarked : heading.head? ≠ some '#') : wantedOf heading = normalizeText heading := by
  have kept : Text.lstripBy (· = '#') heading = heading := by
    cases heading with
    | nil => rfl
    | cons char rest => exact List.dropWhile_cons_of_neg (by simpa using unmarked)
  rw [wantedOf, stripped, kept, stripped]

theorem wantedOf_ne_nil {heading : Text}
    (named : ∃ char ∈ heading, char ≠ '#' ∧ Text.isSpace char = false) : wantedOf heading ≠ [] := by
  obtain ⟨char, member, unmarked, solid⟩ := named
  have kept : char ∈ Text.lstripBy (· = '#') (Text.strip heading) := by
    have inside : char ∈ Text.strip heading := Text.mem_stripBy member solid
    rw [← List.takeWhile_append_dropWhile (p := (· = '#')) (l := Text.strip heading),
      List.mem_append] at inside
    rcases inside with removed | stays
    · have mark := List.mem_takeWhile_imp removed
      exact absurd (of_decide_eq_true mark) unmarked
    · exact stays
  have visible := List.ne_nil_of_mem (Text.mem_stripBy kept solid)
  have normal := Compatibility.normalizeNfkc_nonempty _ visible
  obtain ⟨first, rest, shape⟩ := List.exists_cons_of_ne_nil normal
  have asked : wantedOf heading = Text.casefold (first :: rest) := congrArg Text.casefold shape
  rw [asked, Text.casefold, List.flatMap_cons]
  simp [Unicode.foldChar_nonempty]

/-- The heading, asked for, names the section or one it lies below: as a number of one of them, or,
where it does not read as a number, because it begins with no `#`, because it is the whole heading
of one of them without its marks, or a part of one and nobody's whole heading. -/
def NamedByHeading (sections : List MarkdownSection) (entry : MarkdownSection) : Prop :=
  let wanted := wantedOf entry.heading
  if isSectionNumber wanted then
    ∃ root ∈ sections, WithinSection entry root ∧ root.index = wanted
  else
    entry.heading.head? ≠ some '#' ∨
      (∃ root ∈ sections, WithinSection entry root ∧ normalizeText root.heading = wanted) ∨
      ((∀ other ∈ sections, normalizeText other.heading ≠ wanted) ∧
        ∃ root ∈ sections, WithinSection entry root ∧
          Text.contains wanted (normalizeText root.heading) = true)

/-- Every section can be requested under its number, and under its heading exactly when the
heading names it. -/
theorem requestable_iff_namedByHeading {text : Text} {entry : MarkdownSection}
    (member : entry ∈ headedSections text)
    (named : ∃ char ∈ entry.heading, char ≠ '#' ∧ Text.isSpace char = false) :
    Requestable (splitMarkdownSections text) entry entry.heading ∧
        Requestable (splitMarkdownSections text) entry entry.index ↔
      NamedByHeading (splitMarkdownSections text) entry := by
  have memberOfAll : entry ∈ splitMarkdownSections text := List.mem_append_right _ member
  rw [and_iff_left (requestable_index member),
    requestable_iff memberOfAll (wantedOf_ne_nil named), requestedRoots, NamedByHeading]
  simp only
  by_cases number : isSectionNumber (wantedOf entry.heading) = true
  · rw [if_pos number, if_pos number]
    simp only [List.mem_filter, decide_eq_true_eq]
    constructor
    · rintro ⟨root, ⟨rootIn, index⟩, within⟩
      exact ⟨root, rootIn, within, index⟩
    · rintro ⟨root, rootIn, within, index⟩
      exact ⟨root, ⟨rootIn, index⟩, within⟩
  · rw [if_neg number, if_neg number]
    have self : entry.heading.head? ≠ some '#' →
        normalizeText entry.heading = wantedOf entry.heading := fun unmarked =>
      (wantedOf_heading (strip_heading member) unmarked).symm
    by_cases exact_ : (splitMarkdownSections text).filter
        (fun other => normalizeText other.heading = wantedOf entry.heading) = []
    · rw [if_pos exact_]
      simp only [List.filter_eq_nil_iff, decide_eq_true_eq] at exact_
      simp only [List.mem_filter]
      constructor
      · rintro ⟨root, ⟨rootIn, part⟩, within⟩
        exact Or.inr (Or.inr ⟨exact_, root, rootIn, within, part⟩)
      · rintro (unmarked | ⟨root, rootIn, -, whole⟩ | ⟨-, root, rootIn, within, part⟩)
        · exact absurd (self unmarked) (exact_ entry memberOfAll)
        · exact absurd whole (exact_ root rootIn)
        · exact ⟨root, ⟨rootIn, part⟩, within⟩
    · rw [if_neg exact_]
      simp only [List.mem_filter, decide_eq_true_eq]
      constructor
      · rintro ⟨root, ⟨rootIn, whole⟩, within⟩
        exact Or.inr (Or.inl ⟨root, rootIn, within, whole⟩)
      · rintro (unmarked | ⟨root, rootIn, within, whole⟩ | ⟨none_, -⟩)
        · exact ⟨entry, ⟨memberOfAll, self unmarked⟩, Or.inl rfl⟩
        · exact ⟨root, ⟨rootIn, whole⟩, within⟩
        · exact absurd (by simpa [List.filter_eq_nil_iff] using none_) exact_

end Requests

/-! ## Headings that read as numbers -/

attribute [local instance] Unicode.ascii

@[reducible]
def Compatibility.ascii : Compatibility where
  normalizeNfkc text := text
  normalizeNfkc_ascii _ _ := rfl
  normalizeNfkc_nonempty _ nonempty := nonempty
  decimal_digit := by
    intro char digit
    obtain ⟨low, high⟩ := Char.isDigit_iff_toNat.mp digit
    exact Bool.and_eq_true_iff.mpr ⟨decide_eq_true low, decide_eq_true high⟩

attribute [local instance] Compatibility.ascii

def onlySection (heading : Text) : MarkdownSection :=
  ⟨"1", 1, heading, [heading], ("# " : Text) ++ heading⟩

theorem requestable_iff_namedByHeading_plan :
    Requestable (splitMarkdownSections "# Plan") (onlySection "Plan") "Plan" ∧
      Requestable (splitMarkdownSections "# Plan") (onlySection "Plan") "1" := by
  refine (@requestable_iff_namedByHeading _ _ "# Plan" (onlySection "Plan")
    (by decide) ⟨'P', by decide, by decide, by decide⟩).mpr ?_
  have unnumbered : isSectionNumber (wantedOf (onlySection "Plan").heading) = false := by decide
  rw [NamedByHeading, unnumbered]
  exact Or.inl (by decide)

/-- A year as a heading is looked for among the numbers. -/
theorem matchRequestedSections_year :
    splitMarkdownSections "# 2024" = [onlySection "2024"] ∧
      matchRequestedSections [onlySection "2024"] [("2024" : Text)] = ([], [("2024" : Text)]) ∧
      ¬ Requestable (splitMarkdownSections "# 2024") (onlySection "2024") "2024" := by
  have sections : splitMarkdownSections "# 2024" = [onlySection "2024"] := by rfl
  have answer : matchRequestedSections [onlySection "2024"] [("2024" : Text)] =
      ([], [("2024" : Text)]) := by rfl
  refine ⟨sections, answer, fun found => ?_⟩
  rw [sections] at found
  have matched := found.1
  rw [answer] at matched
  cases matched

end LlmWikiServe
