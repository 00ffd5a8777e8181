import LlmWikiServe.Foundation.Spans
import LlmWikiServe.GuidanceFilter
import LlmWikiServe.Parser

/-!
# Cards and their checks

A card is made by one set of rules and checked by another.  What the first promises the second, and
the two places where it promises too little: texts with one spelling for the check and two for the
rules, and folders that end in a blank.
-/

namespace LlmWikiServe

open Text (squeeze isSpace)

theorem mapM_eq_ok {ε α β : Type} {action : α → Except ε β} {image : α → β} {Accepts : α → Prop}
    {inputs : List α} {outputs : List β}
    (decides : ∀ input ∈ inputs, ∀ output,
      action input = .ok output ↔ output = image input ∧ Accepts input) :
    inputs.mapM action = .ok outputs ↔
      outputs = inputs.map image ∧ ∀ input ∈ inputs, Accepts input := by
  induction inputs generalizing outputs with
  | nil => simp [List.mapM_nil, pure, Except.pure, eq_comm]
  | cons head tail inductionHypothesis =>
      have later : ∀ others, tail.mapM action = .ok others ↔
          others = tail.map image ∧ ∀ input ∈ tail, Accepts input := fun others =>
        inductionHypothesis fun input among => decides input (List.mem_cons_of_mem _ among)
      rw [List.mapM_cons, bind_eq_ok]
      constructor
      · rintro ⟨first, headDone, succeeded⟩
        obtain ⟨others, tailDone, made⟩ := bind_eq_ok.mp succeeded
        obtain rfl : first :: others = outputs := Except.ok.inj made
        obtain ⟨rfl, accepted⟩ := (decides head List.mem_cons_self first).mp headDone
        obtain ⟨rfl, restAccepted⟩ := (later others).mp tailDone
        exact ⟨rfl, List.forall_mem_cons.mpr ⟨accepted, restAccepted⟩⟩
      · rintro ⟨rfl, accepted⟩
        obtain ⟨headAccepted, tailAccepted⟩ := List.forall_mem_cons.mp accepted
        have headDone := (decides head List.mem_cons_self _).mpr ⟨rfl, headAccepted⟩
        refine ⟨image head, headDone, bind_eq_ok.mpr ⟨tail.map image, ?_, rfl⟩⟩
        exact (later _).mpr ⟨rfl, tailAccepted⟩

/-! ## Texts of a field -/

structure Listed (most : Nat) (text : Text) : Prop where
  trimmed : Text.strip text = text
  present : text ≠ []
  short : text.length ≤ most

theorem cleanInline_cases {most : Nat} (wide : 3 < most) (text : Text) :
    ∃ source : Text,
      (cleanInline text most = squeeze source ∧ (squeeze source).length ≤ most) ∨
        cleanInline text most =
          Text.rstrip ((squeeze source).take (most - 3)) ++ ("..." : Text) := by
  refine ⟨Text.replaceChar '\x00' ' ' text, ?_⟩
  by_cases fits : (squeeze (Text.replaceChar '\x00' ' ' text)).length ≤ most
  · exact Or.inl ⟨if_pos fits, fits⟩
  · exact Or.inr ((if_neg fits).trans (if_neg (by omega)))

/-- What is cut ends in dots, so that it is trimmed as well. -/
theorem strip_cleanInline {most : Nat} (wide : 3 < most) (text : Text) :
    Text.strip (cleanInline text most) = cleanInline text most := by
  obtain ⟨source, ⟨whole, -⟩ | cut⟩ := cleanInline_cases wide text
  · rw [whole]
    apply Text.strip_of_ends
    · intro char rest shape
      exact Text.head_squeeze_solid shape
    · intro front char shape
      exact @Text.getLast_squeeze_solid source char (by rw [shape]; simp)
  · rw [cut]
    apply Text.strip_of_ends
    · intro char rest shape
      have inFront : Text.rstrip ((squeeze source).take (most - 3)) <+: squeeze source :=
        (List.rdropWhile_prefix _ _).trans (List.take_prefix _ _)
      cases front : Text.rstrip ((squeeze source).take (most - 3)) with
      | nil =>
          rw [front] at shape
          rw [← (List.cons.inj shape).1]
          decide
      | cons head tail =>
          rw [front] at shape inFront
          obtain ⟨back, whole⟩ := inFront
          rw [← (List.cons.inj shape).1]
          exact Text.head_squeeze_solid whole.symm
    · intro front char shape
      have last := congrArg List.getLast? shape
      simp only [List.getLast?_append, List.getLast?_singleton, Option.some_or] at last
      obtain rfl : '.' = char := by simpa using last
      decide

theorem length_cleanInline_le {most : Nat} (wide : 3 < most) (text : Text) :
    (cleanInline text most).length ≤ most := by
  obtain ⟨source, ⟨whole, fits⟩ | cut⟩ := cleanInline_cases wide text
  · rwa [whole]
  · have shorter : (Text.rstrip ((squeeze source).take (most - 3))).length ≤ most - 3 :=
      (List.rdropWhile_prefix _ _).length_le.trans (List.length_take_le _ _)
    rw [cut, List.length_append]
    have dots : ("..." : Text).length = 3 := rfl
    omega

theorem listed_cleanInline {most : Nat} (wide : 3 < most) {text : Text}
    (present : cleanInline text most ≠ []) : Listed most (cleanInline text most) where
  trimmed := strip_cleanInline wide text
  present := present
  short := length_cleanInline_le wide text

section Fields

variable [Unicode]

/-- The check of a list refuses nothing but a second spelling. -/
theorem trimmedUniqueFrom_eq_ok {fieldName : Text} {most : Nat} {values : List Text}
    (listed : ∀ text ∈ values, Listed most text) {seen result : List Text} :
    trimmedUniqueFrom fieldName most seen values = .ok result ↔
      result = values ∧ (values.map Text.casefold).Nodup ∧
        ∀ text ∈ values, Text.casefold text ∉ seen := by
  induction values generalizing seen result with
  | nil => simp [trimmedUniqueFrom, eq_comm]
  | cons value rest inductionHypothesis =>
      have own := listed value List.mem_cons_self
      have others := fun text among => listed text (List.mem_cons_of_mem _ among)
      rw [trimmedUniqueFrom]
      simp only [own.trimmed, if_neg own.present, if_neg (Nat.not_lt.mpr own.short)]
      by_cases repeated : Text.casefold value ∈ seen
      · rw [if_pos repeated]
        constructor
        · intro refused
          cases refused
        · rintro ⟨-, -, apart⟩
          exact absurd repeated (apart value List.mem_cons_self)
      · rw [if_neg repeated, bind_eq_ok]
        constructor
        · rintro ⟨later, done, made⟩
          obtain ⟨rfl, distinct, apart⟩ := (inductionHypothesis others).mp done
          obtain rfl : value :: later = result := Except.ok.inj made
          refine ⟨rfl, List.nodup_cons.mpr ⟨?_, distinct⟩, ?_⟩
          · intro among
            obtain ⟨text, textIn, same⟩ := List.mem_map.mp among
            exact apart text textIn (same ▸ List.mem_cons_self)
          · intro text textIn among
            rcases List.mem_cons.mp textIn with rfl | after
            · exact repeated among
            · exact apart text after (List.mem_cons_of_mem _ among)
        · rintro ⟨rfl, distinct, apart⟩
          obtain ⟨fresh, distinct⟩ := List.nodup_cons.mp distinct
          refine ⟨rest, (inductionHypothesis others).mpr ⟨rfl, distinct, ?_⟩, rfl⟩
          intro text textIn among
          rcases List.mem_cons.mp among with same | early
          · exact fresh (same ▸ List.mem_map_of_mem textIn)
          · exact apart text (List.mem_cons_of_mem _ textIn) early

theorem trimmedUniqueStrings_eq_ok {fieldName : Text} {maxItems most : Nat} {values : List Text}
    (few : values.length ≤ maxItems) (listed : ∀ text ∈ values, Listed most text)
    {result : List Text} :
    trimmedUniqueStrings fieldName maxItems most values = .ok result ↔
      result = values ∧ (values.map Text.casefold).Nodup := by
  have counted : checkItems fieldName maxItems values = .ok () := if_pos few
  rw [trimmedUniqueStrings, counted]
  exact (trimmedUniqueFrom_eq_ok listed).trans (by simp)

/-- Texts that the check takes for one are one for the rules. -/
def KeysAgree (texts : List Text) : Prop :=
  ∀ first ∈ texts, ∀ second ∈ texts,
    Text.casefold first = Text.casefold second → normalKey first = normalKey second

instance (texts : List Text) : Decidable (KeysAgree texts) :=
  inferInstanceAs (Decidable (∀ first ∈ texts, ∀ second ∈ texts, _ → _))

/-- The texts of a field, as the rules choose them. -/
structure ListField (maxItems most : Nat) (texts : List Text) : Prop where
  listed : ∀ text ∈ texts, Listed most text
  few : texts.length ≤ maxItems
  keys : (texts.map normalKey).Nodup

namespace ListField

variable {maxItems most : Nat} {texts : List Text}

theorem nodup_casefold_iff (field : ListField maxItems most texts) :
    (texts.map Text.casefold).Nodup ↔ KeysAgree texts := by
  constructor
  · intro distinct first firstIn second secondIn same
    rw [List.inj_on_of_nodup_map distinct firstIn secondIn same]
  · intro agree
    apply List.Nodup.map_on
    · intro first firstIn second secondIn same
      exact List.inj_on_of_nodup_map field.keys firstIn secondIn
        (agree first firstIn second secondIn same)
    · exact List.Nodup.of_map _ field.keys

theorem check_eq_ok (field : ListField maxItems most texts) {fieldName : Text}
    {result : List Text} :
    trimmedUniqueStrings fieldName maxItems most texts = .ok result ↔
      result = texts ∧ KeysAgree texts := by
  rw [trimmedUniqueStrings_eq_ok field.few field.listed, field.nodup_casefold_iff]

theorem take (field : ListField maxItems most texts) (count : Nat) :
    ListField maxItems most (texts.take count) where
  listed text textIn := field.listed text (List.mem_of_mem_take textIn)
  few := (List.length_take_le' _ _).trans field.few
  keys := field.keys.sublist ((List.take_sublist count texts).map normalKey)

end ListField

section Rules

variable {sensitive : Text → Bool}

theorem mem_uniquePreservingFromBy {maxChars room : Nat} {seen values : List Text} {text : Text}
    (member : text ∈ uniquePreservingFromBy sensitive maxChars room seen values) :
    text ≠ [] ∧ sensitive text = false ∧ normalKey text ∉ seen ∧
      ∃ value ∈ values, text = cleanInline value maxChars := by
  fun_induction uniquePreservingFromBy sensitive maxChars room seen values with
  | case1 => cases member
  | case2 => cases member
  | case3 room seen value rest clean skipped inductionHypothesis =>
      obtain ⟨present, safe, fresh, source, sourceIn, made⟩ := inductionHypothesis member
      exact ⟨present, safe, fresh, source, List.mem_cons_of_mem _ sourceIn, made⟩
  | case4 room seen value rest clean kept inductionHypothesis =>
      rcases List.mem_cons.mp member with rfl | later
      · simp only [Bool.or_eq_true, decide_eq_true_eq, not_or, Bool.not_eq_true] at kept
        exact ⟨kept.1.1, kept.1.2, kept.2, value, List.mem_cons_self, rfl⟩
      · obtain ⟨present, safe, fresh, source, sourceIn, made⟩ := inductionHypothesis later
        refine ⟨present, safe, ?_, source, List.mem_cons_of_mem _ sourceIn, made⟩
        exact fun among => fresh (List.mem_cons_of_mem _ among)

theorem length_uniquePreservingFromBy_le {maxChars room : Nat} {seen values : List Text} :
    (uniquePreservingFromBy sensitive maxChars room seen values).length ≤ room := by
  fun_induction uniquePreservingFromBy sensitive maxChars room seen values with
  | case1 => exact Nat.zero_le _
  | case2 => exact Nat.zero_le _
  | case3 room seen value rest clean skipped inductionHypothesis => exact inductionHypothesis
  | case4 room seen value rest clean kept inductionHypothesis =>
      exact Nat.succ_le_succ inductionHypothesis

theorem nodup_uniquePreservingFromBy {maxChars room : Nat} {seen values : List Text} :
    ((uniquePreservingFromBy sensitive maxChars room seen values).map normalKey).Nodup := by
  fun_induction uniquePreservingFromBy sensitive maxChars room seen values with
  | case1 => exact List.nodup_nil
  | case2 => exact List.nodup_nil
  | case3 room seen value rest clean skipped inductionHypothesis => exact inductionHypothesis
  | case4 room seen value rest clean kept inductionHypothesis =>
      refine List.nodup_cons.mpr ⟨?_, inductionHypothesis⟩
      intro among
      obtain ⟨text, textIn, same⟩ := List.mem_map.mp among
      exact (mem_uniquePreservingFromBy textIn).2.2.1 (same ▸ List.mem_cons_self)

theorem listField_unique {maxItems maxChars : Nat} (wide : 3 < maxChars) (values : List Text) :
    ListField maxItems maxChars (uniquePreservingOrderBy sensitive values maxItems maxChars) where
  listed text textIn := by
    obtain ⟨present, -, -, source, -, rfl⟩ := mem_uniquePreservingFromBy textIn
    exact listed_cleanInline wide present
  few := length_uniquePreservingFromBy_le
  keys := nodup_uniquePreservingFromBy

/-- No text is chosen that the filter finds. -/
theorem unique_passes {values : List Text} {maxItems maxChars : Nat} {text : Text}
    (member : text ∈ uniquePreservingOrderBy sensitive values maxItems maxChars) :
    sensitive text = false :=
  (mem_uniquePreservingFromBy member).2.1

end Rules

end Fields

/-! ## Paths -/

structure SafePath (path : Text) : Prop where
  present : path ≠ []
  short : path.length ≤ 1024
  noBackslash : '\\' ∉ path
  relative : Text.startsWith path "/" = false
  noScheme : Text.contains "://" path = false
  parts : ∀ part ∈ Text.splitOn '/' path, part ≠ [] ∧ part ≠ ("..": Text)
  noDrive : hasDrive (Text.splitOn '/' path) = false

theorem refuses_no_part {parts : List Text} {refused : Text → Bool}
    (passed : ¬parts.any refused = true) {part : Text} (partIn : part ∈ parts) :
    refused part = false := by
  rw [Bool.not_eq_true, List.any_eq_false] at passed
  simpa using passed part partIn

theorem safeRelativePath_eq_ok {fieldName value result : Text} :
    safeRelativePath fieldName value = .ok result ↔
      result = Text.strip value ∧ SafePath (Text.strip value) := by
  unfold safeRelativePath
  dsimp only
  split_ifs with empty long formed parts drive
  · exact ⟨nofun, fun both => absurd empty both.2.present⟩
  · exact ⟨nofun, fun both => absurd both.2.short (Nat.not_le.mpr long)⟩
  · refine ⟨nofun, ?_⟩
    rintro ⟨-, safe⟩
    rw [safe.relative, safe.noScheme, decide_eq_false safe.noBackslash] at formed
    cases formed
  · refine ⟨nofun, ?_⟩
    rintro ⟨-, safe⟩
    obtain ⟨part, partIn, bad⟩ := List.any_eq_true.mp parts
    rw [decide_eq_false (safe.parts part partIn).1, decide_eq_false (safe.parts part partIn).2]
      at bad
    cases bad
  · refine ⟨nofun, ?_⟩
    rintro ⟨-, safe⟩
    simp [safe.noDrive] at drive
  · simp only [Bool.or_eq_true, decide_eq_true_eq, not_or, Bool.not_eq_true] at formed
    have each : ∀ part ∈ Text.splitOn '/' (Text.strip value),
        part ≠ [] ∧ part ≠ ("..": Text) := by
      intro part partIn
      simpa using refuses_no_part parts partIn
    have safe : SafePath (Text.strip value) :=
      ⟨empty, Nat.not_lt.mp long, formed.1.1, formed.1.2, formed.2, each,
        Bool.not_eq_true _ ▸ drive⟩
    exact ⟨fun done => ⟨(Except.ok.inj done).symm, safe⟩, fun both => congrArg _ both.1.symm⟩

theorem replaceChar_solid {char : Char} (solid : isSpace char = false) :
    isSpace (if char = '\\' then '/' else char) = false := by
  split
  · decide
  · exact solid

theorem strip_slashed (path : Text) :
    Text.strip (Text.replaceChar '\\' '/' (Text.strip path)) =
      Text.replaceChar '\\' '/' (Text.strip path) := by
  apply Text.strip_of_ends
  · intro char rest shape
    obtain ⟨head, tail, whole, rfl, -⟩ := List.map_eq_cons_iff.mp shape
    exact replaceChar_solid (Text.head_of_strip (Text.strip_strip path) whole)
  · intro front char shape
    obtain ⟨before, last, whole, -, ends⟩ := List.map_eq_append_iff.mp shape
    obtain ⟨head, tail, rfl, rfl, empty⟩ := List.map_eq_cons_iff.mp ends
    obtain rfl := List.map_eq_nil_iff.mp empty
    exact replaceChar_solid (Text.last_of_strip (Text.strip_strip path) whole)

section Projected

variable [Unicode] {sensitive : Text → Bool}

theorem safeProjectedPathBy_spec {path safe : Text}
    (found : safeProjectedPathBy sensitive path = some safe) :
    Text.strip safe = safe ∧ SafePath safe ∧ sensitive safe = false := by
  unfold safeProjectedPathBy at found
  dsimp only at found
  split_ifs at found with bad control formed parts drive stems
  obtain rfl := Option.some.inj found
  simp only [Bool.or_eq_true, decide_eq_true_eq, not_or, Bool.not_eq_true, not_lt] at bad formed
  refine ⟨strip_slashed path, ?_, bad.2⟩
  refine ⟨bad.1.1, bad.1.2, ?_, formed.1, formed.2, ?_, Bool.not_eq_true _ ▸ drive⟩
  · intro among
    obtain ⟨char, -, same⟩ := List.mem_map.mp among
    split at same
    next => exact absurd same (by decide)
    next other => exact other same
  · intro part partIn
    have kept := refuses_no_part parts partIn
    simp only [decide_eq_false_iff_not, List.mem_cons, List.not_mem_nil, or_false, not_or] at kept
    exact ⟨kept.1, kept.2.2⟩

/-- No part of a folder is empty or leads upwards, and it is no drive, once it is trimmed. -/
def FolderStands (folder : Text) : Prop :=
  (∀ part ∈ Text.splitOn '/' (Text.strip folder), part ≠ [] ∧ part ≠ ("..": Text)) ∧
    hasDrive (Text.splitOn '/' (Text.strip folder)) = false

omit [Unicode] in
theorem beforeLast_isPrefix (separator : Char) (text : Text) :
    Text.beforeLast separator text <+: text := by
  unfold Text.beforeLast
  split
  · have back : (text.reverse.dropWhile fun char => char ≠ separator).tail <:+ text.reverse :=
      (List.tail_suffix _).trans (List.dropWhile_suffix _)
    have front := List.reverse_prefix.mpr back
    rwa [List.reverse_reverse] at front
  · exact List.prefix_rfl

omit [Unicode] in
theorem strip_isInfix (text : Text) : Text.strip text <:+: text :=
  (List.rdropWhile_prefix _ _).isInfix.trans (List.dropWhile_suffix _).isInfix

omit [Unicode] in
theorem parts_of_empty : ([] : Text) ∈ Text.splitOn '/' [] := by decide

omit [Unicode] in
theorem parts_of_rooted (rest : Text) : ([] : Text) ∈ Text.splitOn '/' ('/' :: rest) := by
  rw [Text.splitOn, List.splitOn, List.splitOnP_cons_eq_if_modifyHead]
  simp

theorem parentFolderBy_cases {path folder : Text}
    (found : parentFolderBy sensitive path = some folder) :
    folder = ("." : Text) ∨
      ∃ safe, safeProjectedPathBy sensitive path = some safe ∧ folder <+: safe := by
  obtain ⟨safe, projected, placed⟩ := Option.map_eq_some_iff.mp found
  split_ifs at placed with inside empty
  · exact Or.inl placed.symm
  · exact Or.inr ⟨safe, projected, placed ▸ beforeLast_isPrefix _ _⟩
  · exact Or.inl placed.symm

/-- The trimmed folder of a page that is projected is a path that the cards accept, or it does not
stand. -/
theorem safePath_folder_iff {path folder : Text}
    (found : parentFolderBy sensitive path = some folder) :
    SafePath (Text.strip folder) ↔ FolderStands folder := by
  refine ⟨fun safe => ⟨safe.parts, safe.noDrive⟩, ?_⟩
  rintro ⟨parts, drive⟩
  rcases parentFolderBy_cases found with rfl | ⟨whole, projected, inFront⟩
  · exact ⟨by decide, by decide, by decide, by decide, by decide, parts, drive⟩
  · obtain ⟨-, safe, -⟩ := safeProjectedPathBy_spec projected
    have inside : Text.strip folder <:+: whole := (strip_isInfix folder).trans inFront.isInfix
    refine ⟨?_, inside.length_le.trans safe.short, fun among => safe.noBackslash
      (inside.subset among), ?_, ?_, parts, drive⟩
    · intro empty
      rw [empty] at parts
      exact (parts [] parts_of_empty).1 rfl
    · by_contra rooted
      rw [Bool.not_eq_false] at rooted
      obtain ⟨rest, shape⟩ := List.isPrefixOf_iff_prefix.mp rooted
      rw [← shape] at parts
      exact (parts [] (parts_of_rooted rest)).1 rfl
    · by_contra scheme
      rw [Bool.not_eq_false, Text.contains_iff_infix] at scheme
      have wrong := (Text.contains_iff_infix _ _).mpr (scheme.trans inside)
      rw [safe.noScheme] at wrong
      cases wrong

end Projected

/-! ## Page cards -/

def PageCard.texts (card : PageCard) : List Text :=
  [card.pageId, card.title, card.path] ++ card.headings ++ card.terms ++ card.exactIdentifiers ++
    [card.excerpt]

section PageCards

variable [Unicode] {sensitive : Text → Bool}

structure PageCard.KeysAgree (card : PageCard) : Prop where
  headings : LlmWikiServe.KeysAgree card.headings
  terms : LlmWikiServe.KeysAgree card.terms
  exactIdentifiers : LlmWikiServe.KeysAgree card.exactIdentifiers

structure PageCard.Sound (sensitive : Text → Bool) (card : PageCard) : Prop where
  pageId : Listed 512 card.pageId
  title : Listed 240 card.title
  trimmed : Text.strip card.path = card.path
  path : SafePath card.path
  headings : ListField 8 160 card.headings
  terms : ListField 12 120 card.terms
  exactIdentifiers : ListField 8 240 card.exactIdentifiers
  excerpt : Listed 240 card.excerpt
  passes : ∀ text ∈ card.texts, sensitive text = false

omit [Unicode] in
theorem trimRequiredText_listed {most : Nat} {text : Text} (listed : Listed most text)
    (field : Text) : trimRequiredText field most text = .ok text := by
  have counted : checkCharacters field most text = .ok () :=
    (if_neg listed.present).trans (if_pos listed.short)
  rw [trimRequiredText, counted]
  simp only [listed.trimmed]
  exact if_neg listed.present

/-- The checks of a card made by the rules accept it as it is, or find a second spelling. -/
theorem PageCard.validate_eq_ok {card other : PageCard} (sound : card.Sound sensitive) :
    card.validate = .ok other ↔ other = card ∧ card.KeysAgree := by
  have path : safeRelativePath "path" card.path = .ok card.path :=
    safeRelativePath_eq_ok.mpr ⟨sound.trimmed.symm, sound.trimmed.symm ▸ sound.path⟩
  rw [PageCard.validate, trimRequiredText_listed sound.pageId,
    trimRequiredText_listed sound.title, path]
  constructor
  · intro succeeded
    obtain ⟨_, ⟨⟩, succeeded⟩ := bind_eq_ok.mp succeeded
    obtain ⟨_, ⟨⟩, succeeded⟩ := bind_eq_ok.mp succeeded
    obtain ⟨_, ⟨⟩, succeeded⟩ := bind_eq_ok.mp succeeded
    obtain ⟨headings, headingsDone, succeeded⟩ := bind_eq_ok.mp succeeded
    obtain ⟨terms, termsDone, succeeded⟩ := bind_eq_ok.mp succeeded
    obtain ⟨identifiers, identifiersDone, succeeded⟩ := bind_eq_ok.mp succeeded
    rw [trimRequiredText_listed sound.excerpt] at succeeded
    obtain ⟨rfl, headingsAgree⟩ := sound.headings.check_eq_ok.mp headingsDone
    obtain ⟨rfl, termsAgree⟩ := sound.terms.check_eq_ok.mp termsDone
    obtain ⟨rfl, identifiersAgree⟩ := sound.exactIdentifiers.check_eq_ok.mp identifiersDone
    exact ⟨(Except.ok.inj succeeded).symm, headingsAgree, termsAgree, identifiersAgree⟩
  · rintro ⟨rfl, agree⟩
    refine bind_eq_ok.mpr ⟨_, rfl, bind_eq_ok.mpr ⟨_, rfl, bind_eq_ok.mpr ⟨_, rfl, ?_⟩⟩⟩
    refine bind_eq_ok.mpr ⟨_, sound.headings.check_eq_ok.mpr ⟨rfl, agree.headings⟩, ?_⟩
    refine bind_eq_ok.mpr ⟨_, sound.terms.check_eq_ok.mpr ⟨rfl, agree.terms⟩, ?_⟩
    refine bind_eq_ok.mpr
      ⟨_, sound.exactIdentifiers.check_eq_ok.mpr ⟨rfl, agree.exactIdentifiers⟩, ?_⟩
    rw [trimRequiredText_listed sound.excerpt]
    rfl

def plainPageCardBy (sensitive : Text → Bool) (page : WikiPage) : Option PageCard :=
  (safeProjectedPathBy sensitive page.path).bind fun path =>
    let excerpt := safeExcerptBy sensitive page
    let pageId := cleanInline page.id 512
    let title := cleanInline (if page.title = [] then page.id else page.title) 240
    if excerpt = [] then none
    else if pageId = [] || sensitive pageId then none
    else if title = [] || sensitive title then none
    else
      some
        { pageId, title, path
          headings := uniquePreservingOrderBy sensitive page.headings 8 160
          terms := (pageTermsForGuidanceBy sensitive page).take 12
          exactIdentifiers := (pageExactIdentifiersBy sensitive page excerpt).take 8
          excerpt }

omit [Unicode] in
theorem exists_cleanMarkdownInline (text : Text) (most : Nat) :
    ∃ source, cleanMarkdownInline text most = cleanInline source most := ⟨_, rfl⟩

theorem safeExcerptBy_spec {page : WikiPage} (present : safeExcerptBy sensitive page ≠ []) :
    Listed 240 (safeExcerptBy sensitive page) ∧
      sensitive (safeExcerptBy sensitive page) = false := by
  unfold safeExcerptBy at present ⊢
  cases chosen : ((page.summary :: paragraphs page.text).map fun candidate =>
      cleanMarkdownInline candidate 240).find? fun text =>
        text ≠ [] && !boilerplateText text && !sensitive text with
  | none => exact absurd (by rw [chosen]; rfl) present
  | some excerpt =>
      have passes := List.find?_some chosen
      obtain ⟨candidate, -, made⟩ := List.mem_map.mp (List.mem_of_find?_eq_some chosen)
      simp only [Bool.and_eq_true, Bool.not_eq_true', decide_eq_true_eq] at passes
      obtain ⟨source, cleaned⟩ := exists_cleanMarkdownInline candidate 240
      obtain rfl : cleanInline source 240 = excerpt := cleaned.symm.trans made
      exact ⟨listed_cleanInline (by decide) passes.1.1, passes.2⟩

theorem pageTerms_field (page : WikiPage) :
    ListField 12 120 (pageTermsForGuidanceBy sensitive page) :=
  listField_unique (by decide) _

theorem plainPageCardBy_sound {page : WikiPage} {card : PageCard}
    (made : plainPageCardBy sensitive page = some card) : card.Sound sensitive := by
  obtain ⟨path, projected, made⟩ := Option.bind_eq_some_iff.mp made
  obtain ⟨trimmed, safe, pathPasses⟩ := safeProjectedPathBy_spec projected
  dsimp only at made
  generalize (if page.title = [] then page.id else page.title) = title at made
  split_ifs at made with noExcerpt badId badTitle
  obtain rfl := Option.some.inj made
  simp only [Bool.or_eq_true, decide_eq_true_eq, not_or, Bool.not_eq_true] at badId badTitle
  obtain ⟨excerpt, excerptPasses⟩ := safeExcerptBy_spec noExcerpt
  have identifiers := @listField_unique _ sensitive 8 240 (by decide)
  refine ⟨listed_cleanInline (by decide) badId.1, listed_cleanInline (by decide) badTitle.1,
    trimmed, safe, listField_unique (by decide) _, (pageTerms_field page).take 12,
    (identifiers _).take 8, excerpt, ?_⟩
  intro text shown
  simp only [PageCard.texts, List.mem_append, List.mem_cons, List.not_mem_nil, or_false] at shown
  rcases shown with ((((rfl | rfl | rfl) | heading) | term) | identifier) | rfl
  · exact badId.2
  · exact badTitle.2
  · exact pathPasses
  · exact unique_passes heading
  · exact unique_passes (List.mem_of_mem_take term)
  · exact unique_passes (List.mem_of_mem_take identifier)
  · exact excerptPasses

theorem pageCardBy_eq (page : WikiPage) :
    pageCardBy sensitive page =
      (plainPageCardBy sensitive page).elim (.ok none) fun card => card.validate.map some := by
  unfold pageCardBy plainPageCardBy
  cases safeProjectedPathBy sensitive page.path with
  | none => rfl
  | some path =>
      simp only [Option.bind_some]
      split_ifs <;> rfl

/-- A page has its card as the rules make it, unless the checks find a second spelling. -/
theorem pageCardBy_eq_ok {page : WikiPage} {result : Option PageCard} :
    pageCardBy sensitive page = .ok result ↔
      result = plainPageCardBy sensitive page ∧
        ∀ card, plainPageCardBy sensitive page = some card → card.KeysAgree := by
  rw [pageCardBy_eq]
  cases made : plainPageCardBy sensitive page with
  | none => simp [eq_comm]
  | some card =>
      have checked := fun other => @PageCard.validate_eq_ok _ sensitive card other
        (plainPageCardBy_sound made)
      simp only [Option.elim_some, Option.some.injEq, forall_eq']
      cases outcome : card.validate with
      | error error =>
          refine ⟨nofun, ?_⟩
          rintro ⟨-, agree⟩
          rw [(checked card).mpr ⟨rfl, agree⟩] at outcome
          cases outcome
      | ok other =>
          obtain ⟨rfl, agree⟩ := (checked other).mp outcome
          constructor
          · intro same
            exact ⟨(Except.ok.inj same).symm, agree⟩
          · rintro ⟨rfl, -⟩
            rfl

end PageCards

/-! ## Folder cards -/

section FolderCards

variable [Unicode] {sensitive : Text → Bool}

omit [Unicode] in
theorem nodup_map_filterMap {Key α Value : Type} {entries : List (Key × Value)}
    {pick : Key × Value → Option α} {key : α → Key}
    (distinct : (entries.map Prod.fst).Nodup)
    (keyed : ∀ entry ∈ entries, ∀ item, pick entry = some item → key item = entry.1) :
    ((entries.filterMap pick).map key).Nodup := by
  induction entries with
  | nil => exact List.nodup_nil
  | cons entry rest inductionHypothesis =>
      obtain ⟨fresh, distinct⟩ := List.nodup_cons.mp distinct
      have later := inductionHypothesis distinct fun other among =>
        keyed other (List.mem_cons_of_mem _ among)
      rw [List.filterMap_cons]
      split
      · exact later
      next item picked =>
        refine List.nodup_cons.mpr ⟨?_, later⟩
        intro among
        obtain ⟨twin, twinIn, same⟩ := List.mem_map.mp among
        obtain ⟨other, otherIn, pickedToo⟩ := List.mem_filterMap.mp twinIn
        rw [keyed other (List.mem_cons_of_mem _ otherIn) twin pickedToo,
          keyed entry List.mem_cons_self item picked] at same
        exact fresh (same ▸ List.mem_map_of_mem otherIn)

omit [Unicode] in
theorem head_of_group {Key Item : Type} [DecidableEq Key] {key : Item → Key} {items : List Item}
    {entry : Key × List Item} (member : entry ∈ Keyed.group key items) {item : Item}
    (first : entry.2.head? = some item) : item ∈ items ∧ key item = entry.1 := by
  have among := List.mem_of_mem_head? first
  rw [Keyed.eq_filter_of_mem_group member] at among
  simpa using among

theorem mem_folderTermsBy {pages : List WikiPage} {text : Text}
    (member : text ∈ folderTermsBy sensitive pages) :
    ∃ page ∈ pages, text ∈ pageTermsForGuidanceBy sensitive page := by
  obtain ⟨entry, entryIn, first⟩ := List.mem_filterMap.mp member
  have among := head_of_group (mem_sortBy.mp entryIn) first
  exact List.mem_flatMap.mp among.1

theorem nodup_folderTermsBy (pages : List WikiPage) :
    ((folderTermsBy sensitive pages).map Text.casefold).Nodup := by
  apply nodup_map_filterMap
  · exact (((sortBy_perm _ _).map Prod.fst).nodup_iff).mpr (Keyed.nodup_map_fst_group _ _)
  · intro entry entryIn item first
    exact (head_of_group (mem_sortBy.mp entryIn) first).2

theorem FolderCard.validate_eq_ok {card other : FolderCard} (few : card.terms.length ≤ 8)
    (listed : ∀ text ∈ card.terms, Listed 120 text)
    (distinct : (card.terms.map Text.casefold).Nodup) :
    card.validate = .ok other ↔
      other = { card with path := Text.strip card.path } ∧ SafePath (Text.strip card.path) := by
  have terms : trimmedUniqueStrings "terms" 8 120 card.terms = .ok card.terms :=
    (trimmedUniqueStrings_eq_ok few listed).mpr ⟨rfl, distinct⟩
  rw [FolderCard.validate, bind_eq_ok, terms]
  constructor
  · rintro ⟨path, checked, made⟩
    obtain ⟨rfl, safe⟩ := safeRelativePath_eq_ok.mp checked
    exact ⟨(Except.ok.inj made).symm, safe⟩
  · rintro ⟨rfl, safe⟩
    exact ⟨_, safeRelativePath_eq_ok.mpr ⟨rfl, safe⟩, rfl⟩

def placedPagesBy (sensitive : Text → Bool) (pages : List WikiPage) : List (Text × WikiPage) :=
  pages.filterMap fun page =>
    (parentFolderBy sensitive page.path).map fun folder => (folder, page)

def plainFolderCardBy (sensitive : Text → Bool) (folder : Text × List (Text × WikiPage)) :
    FolderCard where
  path := Text.strip folder.1
  pageCount := folder.2.length
  terms := (folderTermsBy sensitive (folder.2.map Prod.snd)).take 8

def plainFolderCardsBy (sensitive : Text → Bool) (pages : List WikiPage) (query : Text) :
    List FolderCard :=
  sortBy (folderCardLe (termsFromTextBy sensitive query))
    ((Keyed.group Prod.fst (placedPagesBy sensitive pages)).map (plainFolderCardBy sensitive))

theorem exists_folder_iff {pages : List WikiPage} {folder : Text} :
    folder ∈ (Keyed.group Prod.fst (placedPagesBy sensitive pages)).map Prod.fst ↔
      ∃ page ∈ pages, parentFolderBy sensitive page.path = some folder := by
  rw [Keyed.mem_map_fst_group]
  constructor
  · rintro ⟨placed, among, rfl⟩
    obtain ⟨page, pageIn, located⟩ := List.mem_filterMap.mp among
    obtain ⟨folder, found, rfl⟩ := Option.map_eq_some_iff.mp located
    exact ⟨page, pageIn, found⟩
  · rintro ⟨page, pageIn, found⟩
    exact ⟨(folder, page), List.mem_filterMap.mpr ⟨page, pageIn, by rw [found]; rfl⟩, rfl⟩

theorem mem_plainFolderCardsBy {pages : List WikiPage} {query : Text} {card : FolderCard} :
    card ∈ plainFolderCardsBy sensitive pages query ↔
      ∃ folder ∈ Keyed.group Prod.fst (placedPagesBy sensitive pages),
        plainFolderCardBy sensitive folder = card :=
  mem_sortBy.trans List.mem_map

theorem folderTerms_listed {pages : List WikiPage} {text : Text}
    (member : text ∈ folderTermsBy sensitive pages) :
    Listed 120 text ∧ sensitive text = false := by
  obtain ⟨page, -, among⟩ := mem_folderTermsBy member
  exact ⟨(pageTerms_field page).listed text among, unique_passes among⟩

theorem folderCardsFromPagesBy_eq_ok {pages : List WikiPage} {query : Text}
    {cards : List FolderCard} :
    folderCardsFromPagesBy sensitive pages query = .ok cards ↔
      cards = plainFolderCardsBy sensitive pages query ∧
        ∀ page ∈ pages, ∀ folder, parentFolderBy sensitive page.path = some folder →
          FolderStands folder := by
  have each : ∀ folder ∈ Keyed.group Prod.fst (placedPagesBy sensitive pages),
      ∀ card, FolderCard.validate
          { path := folder.1
            pageCount := folder.2.length
            terms := (folderTermsBy sensitive (folder.2.map Prod.snd)).take 8 } = .ok card ↔
        card = plainFolderCardBy sensitive folder ∧ FolderStands folder.1 := by
    intro folder folderIn card
    obtain ⟨page, -, found⟩ := exists_folder_iff.mp (List.mem_map_of_mem folderIn)
    rw [← safePath_folder_iff found]
    apply FolderCard.validate_eq_ok
    · exact List.length_take_le _ _
    · intro text among
      exact (folderTerms_listed (List.mem_of_mem_take among)).1
    · exact (nodup_folderTermsBy _).sublist ((List.take_sublist _ _).map _)
  have stand : (∀ folder ∈ Keyed.group Prod.fst (placedPagesBy sensitive pages),
      FolderStands folder.1) ↔ ∀ page ∈ pages, ∀ folder,
        parentFolderBy sensitive page.path = some folder → FolderStands folder := by
    constructor
    · intro all page pageIn folder found
      obtain ⟨entry, entryIn, rfl⟩ := List.mem_map.mp (exists_folder_iff.mpr ⟨page, pageIn, found⟩)
      exact all entry entryIn
    · intro all entry entryIn
      obtain ⟨page, pageIn, found⟩ := exists_folder_iff.mp (List.mem_map_of_mem entryIn)
      exact all page pageIn _ found
  rw [folderCardsFromPagesBy, bind_eq_ok]
  constructor
  · rintro ⟨checked, succeeded, made⟩
    obtain ⟨rfl, all⟩ := (mapM_eq_ok each).mp succeeded
    exact ⟨(Except.ok.inj made).symm, stand.mp all⟩
  · rintro ⟨rfl, all⟩
    exact ⟨_, (mapM_eq_ok each).mpr ⟨rfl, stand.mpr all⟩, rfl⟩

end FolderCards

end LlmWikiServe
