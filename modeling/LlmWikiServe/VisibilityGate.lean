import LlmWikiServe.Okf

/-!
# The visibility gate over frontmatter

Which spellings of the visibility markers keep a page from being served.  The status is
compared word by word and so in any spelling; a review state has to be spelled with its
underscore, and the boolean markers must not be YAML integers.
-/

namespace LlmWikiServe

/-- A value that holds no others. -/
def Value.isScalar : Value → Bool
  | .sequence _ _ => false
  | .dict _ => false
  | _ => true

section Gate

variable [Unicode] [Interpreter]

/-- The word a value is compared as, whatever its type. -/
def gateWord (value : Value) : Text := visibilityStatus value.toText

/-- The value is spelled like one of some words, case and surrounding blanks aside. -/
def spelled (spellings : List Text) (value : Value) : Prop :=
  Text.lower (Text.strip value.toText) ∈ spellings

def pendingReviews : List Text := ["draft", "proposed", "needs_review"]

/-- The markers of both page formats, in any spelling. -/
def Marked (frontmatter : Metadata) : Prop :=
  gateWord (frontmatter.getD "status") ∈ nonServingStatuses ∨
    spelled trueSpellings (frontmatter.getD "draft") ∨
    spelled falseSpellings (frontmatter.getD "published") ∨
    spelled falseSpellings (frontmatter.getD "publish")

/-- The review marker, in any spelling. -/
def ReviewMarked (frontmatter : Metadata) : Prop :=
  gateWord ((frontmatter.getD "review_state").orElse (frontmatter.getD "state")) ∈ pendingReviews

/-- A marker of both page formats in a form the gate compares. -/
def Recognized (frontmatter : Metadata) : Prop :=
  gateWord (frontmatter.getD "status") ∈ nonServingStatuses ∨
    frontmatterBool (frontmatter.getD "draft") = some true ∨
    frontmatterBool (frontmatter.getD "published") = some false ∨
    frontmatterBool (frontmatter.getD "publish") = some false

/-- The review marker, spelled with its underscore. -/
def ReviewRecognized (frontmatter : Metadata) : Prop :=
  Text.lower (cleanField frontmatter "review_state" "state") ∈ pendingReviews

/-- A boolean marker written as a YAML integer. -/
def IntegerMarked (frontmatter : Metadata) : Prop :=
  frontmatter.getD "draft" = .int 1 ∨ frontmatter.getD "published" = .int 0 ∨
    frontmatter.getD "publish" = .int 0

def mappingEntries (frontmatter : Metadata) : List (Value × Value) :=
  frontmatter.map fun entry => (.str entry.1, entry.2)

omit [Unicode] [Interpreter] in
theorem plainKeys_mappingEntries (frontmatter : Metadata) :
    plainKeys? (mappingEntries frontmatter) = some frontmatter := by
  induction frontmatter with
  | nil => rfl
  | cons entry rest inductionHypothesis =>
      have tail : plainKeys? (rest.map fun entry => (Value.str entry.1, entry.2)) = some rest :=
        inductionHypothesis
      simp [mappingEntries, plainKeys?, tail]

/-! ## Characters no marker has -/

omit [Interpreter] in
/-- The gate's words keep the digits of a value. -/
theorem mem_visibilityStatus {value : Text} {char : Char} (charIn : char ∈ value)
    (digit : char.isDigit = true) : char ∈ visibilityStatus value := by
  have bounds : 48 ≤ char.toNat ∧ char.toNat ≤ 57 := by
    simpa [Char.isDigit, UInt32.le_iff_toNat_le] using digit
  have solid : Text.isSpace char = false := by
    simp [Text.isSpace]
    omega
  have small : char.toNat < 128 := by omega
  have lowered : char.toLower = char := by
    unfold Char.toLower
    split
    next capital =>
      have low : 65 ≤ char.toNat := capital.1
      omega
    next => rfl
  have noDash : char ≠ '-' := by
    rintro rfl
    exact absurd digit (by decide)
  have inLower : char ∈ Text.lower (Text.strip value) :=
    Text.mem_lowerFrom (Text.mem_stripBy charIn solid) small lowered
  have inReplaced : char ∈ Text.replaceChar '-' ' ' (Text.lower (Text.strip value)) :=
    List.mem_map.mpr ⟨char, inLower, if_neg noDash⟩
  rcases Text.mem_split inReplaced solid with ⟨part, partIn, inPart⟩
  exact Text.mem_join partIn inPart

omit [Interpreter] in
theorem not_gate_of_digit {value : Text} (digits : ∃ char ∈ value, char.isDigit = true) :
    visibilityStatus value ∉ nonServingStatuses ∧ visibilityStatus value ∉ pendingReviews := by
  rcases digits with ⟨char, charIn, digit⟩
  have kept := mem_visibilityStatus charIn digit
  have letters : ∀ status ∈ nonServingStatuses ++ pendingReviews, ∀ char ∈ status,
      char.isDigit = false := by decide
  constructor <;> intro listed
  · exact absurd digit (by simp [letters _ (List.mem_append_left _ listed) char kept])
  · exact absurd digit (by simp [letters _ (List.mem_append_right _ listed) char kept])

omit [Interpreter] in
/-- Stripping and lowercasing keep the marks that no spelling has. -/
theorem not_spelled_of_mark {value : Text}
    (mark : ∃ char ∈ value, char ∈ (".+-:'\"" : Text)) :
    Text.lower (Text.strip value) ∉ trueSpellings ++ falseSpellings := by
  rcases mark with ⟨char, charIn, marked⟩
  have marks : ∀ char ∈ (".+-:'\"" : Text),
      Text.isSpace char = false ∧ char.toNat < 128 ∧ char.toLower = char := by decide
  have facts := marks char marked
  have kept : char ∈ Text.lower (Text.strip value) :=
    Text.mem_lowerFrom (Text.mem_stripBy charIn facts.1) facts.2.1 facts.2.2
  have unmarked : ∀ spelling ∈ trueSpellings ++ falseSpellings, ∀ char ∈ spelling,
      char ∉ (".+-:'\"" : Text) := by decide
  intro listed
  exact unmarked _ listed char kept marked

/-! ## Values of each type -/

omit [Interpreter] in
theorem not_spelled_of_closed {value : Text} (small : ∀ char ∈ value, char.toNat < 128)
    (solid : ∀ char ∈ value, Text.isSpace char = false)
    {spellings : List Text} (absent : value.map Char.toLower ∉ spellings) :
    Text.lower (Text.strip value) ∉ spellings := by
  rwa [Text.strip, Text.stripBy_of_solid solid, Text.lower_ascii small]

/-- An integer is spelled like a boolean word when it is written as that digit. -/
theorem spelled_int {number : Int} {spellings : List Text} {digit : Nat}
    (only : ∀ spelling ∈ spellings, (∀ char ∈ spelling, char.isDigit = true ∨ char = '-') →
      spelling = Text.ofNat digit)
    (present : Text.ofNat digit ∈ spellings) :
    spelled spellings (.int number) ↔ number = digit := by
  have plain : ∀ char ∈ Text.ofInt number,
      Text.isSpace char = false ∧ char.toNat < 128 ∧ char.toLower = char := by
    intro char charIn
    rcases Text.mem_ofInt charIn with isDigit | rfl
    · have bounds : 48 ≤ char.toNat ∧ char.toNat ≤ 57 := by
        simpa [Char.isDigit, UInt32.le_iff_toNat_le] using isDigit
      refine ⟨?_, by omega, ?_⟩
      · simp [Text.isSpace]
        omega
      · unfold Char.toLower
        split
        next capital =>
          have low : 65 ≤ char.toNat := capital.1
          omega
        next => rfl
    · decide
  have unchanged : Text.lower (Text.strip (Text.ofInt number)) = Text.ofInt number := by
    rw [Text.strip, Text.stripBy_of_solid fun char charIn => (plain char charIn).1,
      Text.lower_ascii fun char charIn => (plain char charIn).2.1]
    exact (List.map_congr_left fun char charIn => (plain char charIn).2.2).trans (List.map_id _)
  unfold spelled
  rw [Value.toText, unchanged]
  constructor
  · intro listed
    have same := only _ listed fun char charIn => Text.mem_ofInt charIn
    cases number with
    | ofNat size => exact congrArg Int.ofNat (Text.ofNat_injective same)
    | negSucc size =>
        have sign : '-' ∈ Text.ofNat digit := same ▸ List.mem_cons_self
        have isDigit := Nat.isDigit_of_mem_toDigits (by decide) (by decide) sign
        exact absurd isDigit (by decide)
  · rintro rfl
    exact present

omit [Unicode] in
/-- The values whose text holds a mark no spelling has. -/
theorem toText_marked {value : Value} (kind : (∃ octets, value = .bytes octets) ∨
    (∃ day, value = .date day) ∨ ∃ moment, value = .datetime moment) :
    ∃ char ∈ value.toText, char ∈ (".+-:'\"" : Text) := by
  rcases kind with ⟨octets, rfl⟩ | ⟨day, rfl⟩ | ⟨moment, rfl⟩
  · simp only [Value.toText, Value.bytesRepr]
    split
    · exact ⟨'"', by simp, by decide⟩
    · exact ⟨'\'', by simp, by decide⟩
  · exact ⟨'-', by simp [Value.toText, Date.isoformat], by decide⟩
  · exact ⟨'-', by simp [Value.toText, DateTime.isoformatWith, Date.isoformat], by decide⟩

theorem not_spelled_float (value : FloatValue) :
    ¬ spelled (trueSpellings ++ falseSpellings) (.float value) := by
  have closed : ∀ text ∈ [("inf" : Text), "nan"],
      Text.lower (Text.strip text) ∉ trueSpellings ++ falseSpellings := by
    intro text textIn
    apply not_spelled_of_closed <;> revert text <;> decide
  rcases value.marked with mark | mark | mark | whole | whole
  · exact not_spelled_of_mark ⟨'.', mark, by decide⟩
  · exact not_spelled_of_mark ⟨'+', mark, by decide⟩
  · exact not_spelled_of_mark ⟨'-', mark, by decide⟩
  · exact closed _ (by simp [Value.toText, whole])
  · exact closed _ (by simp [Value.toText, whole])

/-- The words read as a truth value. -/
def spellingsOf (word : Bool) : List Text := if word then trueSpellings else falseSpellings

omit [Unicode] [Interpreter] in
theorem mem_spellings {text : Text} {word : Bool} (listed : text ∈ spellingsOf word) :
    text ∈ trueSpellings ++ falseSpellings := by
  cases word with
  | true => exact List.mem_append_left _ listed
  | false => exact List.mem_append_right _ listed

theorem spelled_bool (value word : Bool) :
    spelled (spellingsOf word) (.bool value) ↔ value = word := by
  have closed : ∀ (value word : Bool) (text : Text), (text = if value then "True" else "False") →
      (Text.lower (Text.strip text) ∈ spellingsOf word ↔ value = word) := by
    intro value word text same
    subst same
    rw [Text.strip, Text.stripBy_of_solid (by cases value <;> decide),
      Text.lower_ascii (by cases value <;> decide)]
    cases value <;> cases word <;> decide
  exact closed value word _ (by cases value <;> rfl)

/-- A scalar is spelled like a truth value when it is read as it, or is its integer. -/
theorem spelled_iff {value : Value} (scalar : value.isScalar = true) (word : Bool) :
    spelled (spellingsOf word) value ↔
      frontmatterBool value = some word ∨ value = .int word.toNat := by
  have unspelled : ¬ spelled (trueSpellings ++ falseSpellings) value →
      ¬ spelled (spellingsOf word) value := fun absent listed => absent (mem_spellings listed)
  cases value with
  | none =>
      have absent := unspelled
        (@not_spelled_of_closed _ "None" (by decide) (by decide) _ (by decide))
      simp [absent, frontmatterBool]
  | bool value =>
      rw [spelled_bool]
      simp [frontmatterBool]
  | int number =>
      rw [@spelled_int _ _ number _ word.toNat (by cases word <;> decide)
        (by cases word <;> decide)]
      simp [frontmatterBool]
  | float value =>
      have absent := unspelled (not_spelled_float value)
      simp [absent, frontmatterBool]
  | str text =>
      have apart : ∀ spelling ∈ trueSpellings, spelling ∉ falseSpellings := by decide
      simp only [spelled, Value.toText, frontmatterBool, reduceCtorEq, or_false]
      cases word with
      | true =>
          simp only [spellingsOf, if_true]
          split
          next listed => simp [listed]
          next absent => simp [absent]
      | false =>
          simp only [spellingsOf, Bool.false_eq_true, if_false]
          split
          next listed => simp [apart _ listed]
          next absent => simp
  | bytes octets =>
      have absent := unspelled (not_spelled_of_mark (toText_marked (Or.inl ⟨octets, rfl⟩)))
      simp [absent, frontmatterBool]
  | date day =>
      have absent :=
        unspelled (not_spelled_of_mark (toText_marked (Or.inr (Or.inl ⟨day, rfl⟩))))
      simp [absent, frontmatterBool]
  | datetime moment =>
      have absent :=
        unspelled (not_spelled_of_mark (toText_marked (Or.inr (Or.inr ⟨moment, rfl⟩))))
      simp [absent, frontmatterBool]
  | sequence kind items => simp [Value.isScalar] at scalar
  | dict entries => simp [Value.isScalar] at scalar

/-! ## The status -/

omit [Interpreter] in
theorem visibilityStatus_cleanText (value : Text) :
    visibilityStatus (cleanText value) = visibilityStatus value := by
  have words : Text.split (cleanText value) = Text.split value :=
    Text.splitBy_join_words (by decide) _ (Text.splitBy_words value)
  rw [visibilityStatus_words, visibilityStatus_words, words]

omit [Interpreter] in
theorem not_gate_of_closed {value : Text} (small : ∀ char ∈ value, char.toNat < 128)
    (solid : ∀ char ∈ value, Text.isSpace char = false)
    (absent : Text.join "_" (Text.split (Text.replaceChar '-' ' ' (value.map Char.toLower))) ∉
      nonServingStatuses) : visibilityStatus value ∉ nonServingStatuses := by
  rwa [visibilityStatus, Text.strip, Text.stripBy_of_solid solid, Text.lower_ascii small]

/-- No falsy scalar reads as a status that withholds a page. -/
theorem gateWord_of_falsy {value : Value} (scalar : value.isScalar = true)
    (falsy : value.truthy = false) : gateWord value ∉ nonServingStatuses := by
  cases value with
  | none =>
      exact @not_gate_of_closed _ "None" (by decide) (by decide) (by decide)
  | bool value =>
      cases value with
      | true => simp [Value.truthy] at falsy
      | false =>
          exact @not_gate_of_closed _ "False" (by decide) (by decide) (by decide)
  | int number =>
      have zero : number = 0 := by simpa [Value.truthy] using falsy
      subst zero
      exact (not_gate_of_digit ⟨'0', List.mem_cons_self, by decide⟩).1
  | float value =>
      have zero : value.number = some 0 := by simpa [Value.truthy] using falsy
      exact (not_gate_of_digit (value.printed (by simp [zero]))).1
  | str text =>
      have empty : text = [] := by simpa [Value.truthy] using falsy
      subst empty
      exact @not_gate_of_closed _ [] (by decide) (by decide) (by decide)
  | bytes octets =>
      have empty : octets = [] := by simpa [Value.truthy] using falsy
      subst empty
      exact @not_gate_of_closed _ "b''" (by decide) (by decide) (by decide)
  | date day => simp [Value.truthy] at falsy
  | datetime moment => simp [Value.truthy] at falsy
  | sequence kind items => simp [Value.isScalar] at scalar
  | dict entries => simp [Value.isScalar] at scalar

/-- The status of a Markdown page withholds it exactly when its value reads so. -/
theorem markdownStatus_gate {value : Value} (scalar : value.isScalar = true) :
    visibilityStatus (cleanText (value.orElse (.str [])).toText) ∈ nonServingStatuses ↔
      gateWord value ∈ nonServingStatuses := by
  rw [visibilityStatus_cleanText, Value.orElse]
  split
  next => rfl
  next falsy =>
    have absent := gateWord_of_falsy scalar (by simpa using falsy)
    have empty := @gateWord_of_falsy _ _ (.str []) rfl rfl
    exact ⟨fun listed => absurd listed empty, fun listed => absurd listed absent⟩

omit [Unicode] [Interpreter] in
theorem date_characters (day : Date) :
    '+' ∉ day.isoformat ∧ ∃ char ∈ day.isoformat, char.isDigit = true := by
  have digits : ∀ width number, ∀ char ∈ Text.padded width number, char.isDigit = true := by
    intro width number char charIn
    rcases List.mem_append.mp charIn with filler | inNumber
    · rw [List.eq_of_mem_replicate filler]
      decide
    · exact Nat.isDigit_of_mem_toDigits (by decide) (by decide) inNumber
  constructor
  · intro plusIn
    simp only [Date.isoformat, List.mem_append, List.mem_cons] at plusIn
    have noDigit : ¬ ('+' : Char).isDigit = true := by decide
    rcases plusIn with (inYear | sign | inMonth) | sign | inDay
    · exact noDigit (digits _ _ _ inYear)
    · exact absurd sign (by decide)
    · exact noDigit (digits _ _ _ inMonth)
    · exact absurd sign (by decide)
    · exact noDigit (digits _ _ _ inDay)
  · rcases List.exists_mem_of_ne_nil _ (Nat.toDigits_ne_nil (n := day.day) (b := 10)) with
      ⟨char, charIn⟩
    refine ⟨char, ?_, Nat.isDigit_of_mem_toDigits (by decide) (by decide) charIn⟩
    have inDay : char ∈ Text.padded 2 day.day := List.mem_append_right _ charIn
    simp [Date.isoformat, inDay]

/-- A moment reads as no status that withholds a page, in either of its texts. -/
theorem moment_gate (moment : DateTime) :
    gateWord (.datetime moment) ∉ nonServingStatuses ∧
      visibilityStatus (scalarText (.datetime moment)) ∉ nonServingStatuses ∧
      scalarText (.datetime moment) ≠ [] := by
  rcases date_characters moment.date with ⟨noPlus, char, charIn, digit⟩
  have inText : char ∈ (Value.datetime moment).toText := by
    simp [Value.toText, DateTime.isoformatWith, charIn]
  have inScalar : char ∈ scalarText (.datetime moment) := by
    have front : moment.date.isoformat <+: moment.isoformatWith 'T' := by
      simp only [DateTime.isoformatWith, List.append_assoc]
      exact List.prefix_append _ _
    rcases front with ⟨rest, shape⟩
    have kept : scalarText (.datetime moment) =
        moment.date.isoformat ++ Text.replace "+00:00" "Z" rest := by
      rw [scalarText, ← shape]
      exact Text.replace_append noPlus
    rw [kept]
    exact List.mem_append_left _ charIn
  exact ⟨(not_gate_of_digit ⟨char, inText, digit⟩).1, (not_gate_of_digit ⟨char, inScalar, digit⟩).1,
    List.ne_nil_of_mem inScalar⟩

/-- The status of an OKF page withholds it exactly when its value reads so. -/
theorem okfStatus_gate (value : Value) :
    visibilityStatus (okfStatus value) ∈ nonServingStatuses ↔
      gateWord value ∈ nonServingStatuses := by
  have stable : visibilityStatus "stable" ∉ nonServingStatuses :=
    not_gate_of_closed (by decide) (by decide) (by decide)
  have cleaned : ∀ value : Value, scalarText value = cleanText value.toText →
      (visibilityStatus (okfStatus value) ∈ nonServingStatuses ↔
        gateWord value ∈ nonServingStatuses) := by
    intro value cleanly
    unfold okfStatus
    have same : visibilityStatus (scalarText value) = gateWord value := by
      rw [cleanly, visibilityStatus_cleanText, gateWord]
    split
    next empty =>
      have absent : gateWord value ∉ nonServingStatuses := by
        rw [← same, empty]
        exact @not_gate_of_closed _ [] (by decide) (by decide) (by decide)
      exact ⟨fun listed => absurd listed stable, fun listed => absurd listed absent⟩
    next => rw [same]
  cases value with
  | none =>
      have absent := @gateWord_of_falsy _ _ .none rfl rfl
      exact ⟨fun listed => absurd listed stable, fun listed => absurd listed absent⟩
  | datetime moment =>
      rcases moment_gate moment with ⟨absent, absentScalar, nonempty⟩
      rw [okfStatus, if_neg nonempty]
      exact ⟨fun listed => absurd listed absentScalar, fun listed => absurd listed absent⟩
  | date day =>
      rcases date_characters day with ⟨_, char, charIn, _⟩
      have nonempty : scalarText (.date day) ≠ [] := List.ne_nil_of_mem charIn
      rw [okfStatus, if_neg nonempty]
      rfl
  | bool value => exact cleaned _ rfl
  | int number => exact cleaned _ rfl
  | float value => exact cleaned _ rfl
  | str text => exact cleaned _ rfl
  | bytes octets => exact cleaned _ rfl
  | sequence kind items => exact cleaned _ rfl
  | dict entries => exact cleaned _ rfl

/-! ## The gate -/

omit [Unicode] [Interpreter] in
theorem getD_isScalar {frontmatter : Metadata}
    (scalars : ∀ entry ∈ frontmatter, entry.2.isScalar = true) (key : Text) :
    (frontmatter.getD key).isScalar = true := by
  unfold Metadata.getD
  cases found : Keyed.get? frontmatter key with
  | none => rfl
  | some value => exact scalars (key, value) (Keyed.mem_of_get? found)

omit [Interpreter] in
/-- When a page is withheld, in terms of its data. -/
theorem approvedForServing_eq_false_iff (page : WikiPage) :
    page.approvedForServing = false ↔
      (visibilityStatus page.status ∈ nonServingStatuses ∨
        frontmatterBool (page.frontmatter.getD "draft") = some true ∨
        frontmatterBool (page.frontmatter.getD "published") = some false ∨
        frontmatterBool (page.frontmatter.getD "publish") = some false) ∨
      page.reviewState ∈ [ReviewState.draft, .proposed, .needsReview] := by
  unfold WikiPage.approvedForServing
  generalize frontmatterBool (page.frontmatter.getD "draft") = draft
  generalize frontmatterBool (page.frontmatter.getD "published") = published
  generalize frontmatterBool (page.frontmatter.getD "publish") = publish
  generalize visibilityStatus page.status = status
  generalize nonServingStatuses = withheld
  by_cases isDraft : draft = some true
  · simp [isDraft]
  by_cases unpublished : published = some false
  · simp [isDraft, unpublished]
  by_cases hidden : publish = some false
  · simp [isDraft, unpublished, hidden]
  by_cases pending : page.reviewState ∈ [ReviewState.draft, .proposed, .needsReview]
  · simp [isDraft, unpublished, hidden, pending]
  · simp [isDraft, unpublished, hidden, pending]

theorem normalizeReviewState_pending (frontmatter : Metadata) :
    normalizeReviewState frontmatter ∈ [ReviewState.draft, .proposed, .needsReview] ↔
      ReviewRecognized frontmatter := by
  unfold normalizeReviewState ReviewRecognized
  simp only []
  generalize Text.lower (cleanField frontmatter "review_state" "state") = value
  by_cases known : value ∈ reviewStates.map Prod.fst
  · have each : ∀ value ∈ reviewStates.map Prod.fst,
        ((Keyed.get? reviewStates value).getD .unknown ∈
          [ReviewState.draft, .proposed, .needsReview] ↔ value ∈ pendingReviews) := by decide
    exact each value known
  · have missing : Keyed.get? reviewStates value = none := by
      exact Keyed.get?_eq_none_iff.mpr known
    have listed : pendingReviews ⊆ reviewStates.map Prod.fst := by decide
    rw [missing]
    exact ⟨fun unknown => absurd unknown (by decide), fun pending => absurd (listed pending) known⟩

theorem marked_iff {frontmatter : Metadata}
    (scalars : ∀ entry ∈ frontmatter, entry.2.isScalar = true) :
    Marked frontmatter ↔ Recognized frontmatter ∨ IntegerMarked frontmatter := by
  have readsTrue : ∀ value : Value, value.isScalar = true →
      (spelled trueSpellings value ↔ frontmatterBool value = some true ∨ value = .int 1) :=
    fun value scalar => spelled_iff scalar true
  have readsFalse : ∀ value : Value, value.isScalar = true →
      (spelled falseSpellings value ↔ frontmatterBool value = some false ∨ value = .int 0) :=
    fun value scalar => spelled_iff scalar false
  unfold Marked Recognized IntegerMarked
  rw [readsTrue _ (getD_isScalar scalars _), readsFalse _ (getD_isScalar scalars _),
    readsFalse _ (getD_isScalar scalars _)]
  generalize (gateWord (frontmatter.getD "status") ∈ nonServingStatuses) = status
  generalize frontmatter.getD "draft" = draft
  generalize frontmatter.getD "published" = published
  generalize frontmatter.getD "publish" = publish
  tauto

theorem markdownPage_withheld_iff (options : PageOptions) (path : RelPath) (body : Text)
    {frontmatter : Metadata} (scalars : ∀ entry ∈ frontmatter, entry.2.isScalar = true) :
    (markdownPage options path frontmatter body).approvedForServing = false ↔
      Recognized frontmatter ∨ ReviewRecognized frontmatter := by
  rw [approvedForServing_eq_false_iff]
  simp only [markdownPage, normalizeReviewState_pending,
    markdownStatus_gate (getD_isScalar scalars "status")]
  rfl

theorem normalizeOkfMetadata_status {role : OkfDocumentRole} {conceptType : Text}
    {entries : List (Value × Value)} {okf : OkfMetadata}
    (normalized : normalizeOkfMetadata role conceptType entries = .ok okf) :
    okf.status = okfStatus (getKey entries "status") := by
  simp only [normalizeOkfMetadata, bind_eq_ok] at normalized
  rcases normalized with ⟨_, _, _, _, _, _, _, _, _, _, _, _, _, _, _, _, _, _, built⟩
  rw [← Except.ok.inj built]

theorem okfPage_withheld_iff (role : OkfDocumentRole) (path : RelPath) (body : Text)
    {frontmatter : Metadata} {okf : OkfMetadata}
    (status : okf.status = okfStatus (frontmatter.getD "status")) :
    (okfPage role path frontmatter body okf).approvedForServing = false ↔
      Recognized frontmatter := by
  rw [approvedForServing_eq_false_iff]
  simp only [okfPage, status, okfStatus_gate]
  simp only [List.mem_cons, reduceCtorEq, List.not_mem_nil, or_false]
  rfl

omit [Unicode] [Interpreter] in
theorem markGate_iff (recognized integer : Prop) :
    (recognized ∨ integer → recognized) ↔ recognized ∨ ¬integer := by
  tauto

omit [Unicode] [Interpreter] in
theorem gate_iff (recognized reviewRecognized integer review : Prop) :
    ((recognized ∨ integer) ∨ review → recognized ∨ reviewRecognized) ↔
      (recognized ∨ reviewRecognized) ∨ ¬(integer ∨ review) := by
  tauto

variable [Documents]

/-- A page whose frontmatter carries a marker is withheld unless its only markers are ones the
gate does not compare: a review state that is not spelled with its underscore, or a boolean
marker that is a YAML integer. -/
theorem visibilityGate_iff {frontmatter : Metadata}
    (scalars : ∀ entry ∈ frontmatter, entry.2.isScalar = true) :
    (∀ options path content raw body page, content.readText = .ok raw →
        splitFrontmatter raw = .ok (mappingEntries frontmatter, body) →
        parsePage options path content = .ok page →
        ((Marked frontmatter ∨ ReviewMarked frontmatter → page.approvedForServing = false) ↔
          (Recognized frontmatter ∨ ReviewRecognized frontmatter) ∨
            ¬ (IntegerMarked frontmatter ∨ ReviewMarked frontmatter))) ∧
      ∀ role path content raw body page, content.readText = .ok raw →
        splitOkfFrontmatter (RelPath.asPosix path) raw =
          .ok (mappingEntries frontmatter, body) →
        parseOkfV02Page role path content = .ok page →
        ((Marked frontmatter → page.approvedForServing = false) ↔
          Recognized frontmatter ∨ ¬ IntegerMarked frontmatter) := by
  have marked := marked_iff scalars
  have plain := plainKeys_mappingEntries frontmatter
  have valid := stringKeys_of_plain plain
  have same := textKeys_of_plain plain
  constructor
  · intro options path content raw body page read parts parsed
    simp only [parsePage, bind_eq_ok, read, parts, stringKeys_eq_ok, valid, Except.ok.injEq,
      Option.some.injEq, exists_eq_left'] at parsed
    rw [same] at parsed
    obtain rfl : markdownPage options path frontmatter body = page := Except.ok.inj parsed
    rw [markdownPage_withheld_iff options path body scalars, marked]
    exact gate_iff _ _ _ _
  · intro role path content raw body page read parts parsed
    simp only [parseOkfV02Page, bind_eq_ok, read, parts, stringKeys_eq_ok, valid, Except.ok.injEq,
      Option.some.injEq, exists_eq_left'] at parsed
    rcases parsed with ⟨_, _, conceptType, _, okf, normalized, built⟩
    have status := normalizeOkfMetadata_status normalized
    rw [getKey_of_plain plain] at status
    rw [same] at built
    obtain rfl : okfPage role path frontmatter body okf = page := Except.ok.inj built
    rw [okfPage_withheld_iff role path body status, marked]
    exact markGate_iff _ _

end Gate

section Sample

attribute [local instance] Unicode.ascii Value.plainInterpreter Documents.lines

def reviewedFrontmatter (state : Text) : Metadata := [("review_state", .str state)]

def reviewedText (state : Text) : Text :=
  ("---\nreview_state: " : Text) ++ state ++ ("\n---\n" : Text)

def reviewedPage (state : Text) : WikiPage :=
  markdownPage {} ["a.md"] (reviewedFrontmatter state) "\n"

theorem reviewed_scalars (state : Text) :
    ∀ entry ∈ reviewedFrontmatter state, entry.2.isScalar = true := by
  intro entry entryIn
  rw [List.mem_singleton.mp entryIn]
  rfl

theorem visibilityGate_iff_underscored :
    (reviewedPage "needs_review").approvedForServing = false := by
  have parts : splitFrontmatter (reviewedText "needs_review") =
      .ok (mappingEntries (reviewedFrontmatter "needs_review"), "\n") := rfl
  have parsed : parsePage {} ["a.md"] (.text (reviewedText "needs_review")) =
      .ok (reviewedPage "needs_review") := rfl
  refine ((visibilityGate_iff (reviewed_scalars "needs_review")).1 {} ["a.md"]
    (.text (reviewedText "needs_review")) _ _ _ rfl parts parsed).mpr (.inl (.inr ?_)) (.inr ?_)
  · unfold ReviewRecognized
    decide
  · unfold ReviewMarked
    decide

/-- A page that needs review is served when its review state is spelled with a hyphen. -/
theorem hyphenatedReview_served :
    ¬ ∀ frontmatter : Metadata, (∀ entry ∈ frontmatter, entry.2.isScalar = true) →
      ∀ options path content raw body page, content.readText = .ok raw →
        splitFrontmatter raw = .ok (mappingEntries frontmatter, body) →
        parsePage options path content = .ok page →
        Marked frontmatter ∨ ReviewMarked frontmatter → page.approvedForServing = false := by
  intro claimed
  have parts : splitFrontmatter (reviewedText "needs-review") =
      .ok (mappingEntries (reviewedFrontmatter "needs-review"), "\n") := rfl
  have parsed : parsePage {} ["a.md"] (.text (reviewedText "needs-review")) =
      .ok (reviewedPage "needs-review") := rfl
  have reviewMarked : ReviewMarked (reviewedFrontmatter "needs-review") := by
    unfold ReviewMarked
    decide
  have withheld := claimed (reviewedFrontmatter "needs-review") (reviewed_scalars "needs-review") {}
    ["a.md"] (.text (reviewedText "needs-review")) _ _ _ rfl parts parsed (Or.inr reviewMarked)
  exact absurd withheld (by decide)

end Sample

end LlmWikiServe
