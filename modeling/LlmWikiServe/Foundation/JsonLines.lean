import LlmWikiServe.Foundation.Json

/-!
# JSON lines

A layout without line breaks writes a value on one line, since line breaks in strings are escaped.
A file with one value on each line is read back line by line.
-/

namespace LlmWikiServe.Json

universe u

variable {F : Type u} [FloatRepr F]

structure Layout.OneLine (layout : Layout) : Prop where
  escaping : ∀ char, '\n' ∉ layout.escaping.write char
  opening : ∀ depth, '\n' ∉ layout.opening depth
  separating : ∀ depth, '\n' ∉ layout.separating depth
  colon : '\n' ∉ layout.colon
  closing : ∀ depth, '\n' ∉ layout.closing depth

theorem hexDigit_ne_newline {digit : Nat} (small : digit < 16) : '\n' ≠ hexDigit digit := by
  intro same
  have value := hexValue_hexDigit small
  rw [← same] at value
  cases value

theorem newline_not_mem_escape (char : Char) : '\n' ∉ escape char := by
  unfold escape
  split
  · decide
  split
  · decide
  split
  · decide
  next slash newline =>
    split
    · decide
    split
    · decide
    split
    · decide
    split
    · decide
    split
    next control =>
      have high := hexDigit_ne_newline (show char.toNat / 16 < 16 by omega)
      have low := hexDigit_ne_newline (Nat.mod_lt char.toNat (show 0 < 16 by decide))
      simp [high, low]
    next =>
      rw [List.mem_singleton]
      exact Ne.symm newline

theorem Layout.spaced_oneLine : Layout.spaced.OneLine where
  escaping := newline_not_mem_escape
  opening _ := List.not_mem_nil
  separating _ := (by decide : '\n' ∉ [' '])
  colon := by decide
  closing _ := List.not_mem_nil

theorem newline_not_mem_token {token : Text} (chars : token.all isTokenChar = true) :
    '\n' ∉ token := by
  intro among
  exact absurd (List.all_eq_true.mp chars _ among) (by decide)

section Print

variable {layout : Layout}

omit [FloatRepr F] in
theorem newline_not_mem_printString (flat : layout.OneLine) (text : Text) : '\n' ∉ printString layout text := by
  simp [printString, flat.escaping]

mutual

theorem newline_not_mem_print (flat : layout.OneLine) (depth : Nat) (value : Json F) :
    '\n' ∉ print layout depth value := by
  match value with
  | .null => exact (by decide : '\n' ∉ ("null" : Text))
  | .bool true => exact (by decide : '\n' ∉ ("true" : Text))
  | .bool false => exact (by decide : '\n' ∉ ("false" : Text))
  | .int value => exact newline_not_mem_token (intToken_all value)
  | .float value => exact newline_not_mem_token (isFloatToken_all (FloatRepr.isToken value))
  | .string text => exact newline_not_mem_printString flat text
  | .array [] => exact (by decide : '\n' ∉ ['[', ']'])
  | .array (item :: items) =>
      have first := newline_not_mem_print flat (depth + 1) item
      have others := newline_not_mem_printItems flat (depth + 1) items
      simp [print, flat.opening, flat.closing, first, others]
  | .object [] => exact (by decide : '\n' ∉ ['\x7b', '\x7d'])
  | .object (member :: members) =>
      have first := newline_not_mem_printMember flat (depth + 1) member
      have others := newline_not_mem_printMembers flat (depth + 1) members
      simp [print, flat.opening, flat.closing, first, others]
termination_by sizeOf value

theorem newline_not_mem_printItems (flat : layout.OneLine) (depth : Nat) (items : List (Json F)) :
    '\n' ∉ printItems layout depth items := by
  match items with
  | [] => exact List.not_mem_nil
  | item :: items =>
      have first := newline_not_mem_print flat depth item
      have others := newline_not_mem_printItems flat depth items
      simp [printItems, flat.separating, first, others]
termination_by sizeOf items

theorem newline_not_mem_printMember (flat : layout.OneLine) (depth : Nat) (member : Text × Json F) :
    '\n' ∉ printMember layout depth member := by
  match member with
  | (name, value) =>
      have name_ := newline_not_mem_printString flat name
      have value_ := newline_not_mem_print flat depth value
      simp [printMember, flat.colon, name_, value_]
termination_by sizeOf member

theorem newline_not_mem_printMembers (flat : layout.OneLine) (depth : Nat) (members : List (Text × Json F)) :
    '\n' ∉ printMembers layout depth members := by
  match members with
  | [] => exact List.not_mem_nil
  | member :: members =>
      have first := newline_not_mem_printMember flat depth member
      have others := newline_not_mem_printMembers flat depth members
      simp [printMembers, flat.separating, first, others]
termination_by sizeOf members

end

end Print

/-! ## Names of what is read -/

structure ReadsDistinct (F : Type u) [FloatRepr F] (fuel : Nat) : Prop where
  value : ∀ {text rest : Text} {value : Json F},
    readValue fuel text = some (value, rest) → value.Distinct
  items : ∀ {text rest : Text} {items : List (Json F)},
    readItems fuel text = some (items, rest) → DistinctItems items
  member : ∀ {text rest : Text} {member : Text × Json F},
    readMember fuel text = some (member, rest) → DistinctMember member
  members : ∀ {text rest : Text} {members : List (Text × Json F)},
    readMembers fuel text = some (members, rest) → DistinctMembers members

omit [FloatRepr F] in
theorem distinct_update {members : List (Text × Json F)} (distinct : DistinctMembers members) :
    (Json.object (Keyed.update [] members)).Distinct := by
  rw [Distinct, distinctMembers_iff]
  refine ⟨Keyed.nodup_map_fst_update List.nodup_nil, fun member among => ?_⟩
  rcases Keyed.mem_update among with old | added
  · exact absurd old List.not_mem_nil
  · exact distinctMembers_iff.mp distinct member added

theorem distinct_readToken {token : Text} {value : Json F} (read : readToken token = some value) :
    value.Distinct := by
  unfold readToken at read
  split_ifs at read
  · cases read
    trivial
  · cases read
    trivial
  · cases read
    trivial
  · obtain ⟨float, _, rfl⟩ := Option.map_eq_some_iff.mp read
    trivial
  · obtain ⟨int, _, rfl⟩ := Option.map_eq_some_iff.mp read
    trivial

theorem readsDistinct (fuel : Nat) : ReadsDistinct F fuel := by
  induction fuel with
  | zero => constructor <;> intros <;> contradiction
  | succ fuel inductionHypothesis =>
      obtain ⟨values, items, member, members⟩ := inductionHypothesis
      constructor
      case value =>
        intro text rest value read
        unfold readValue at read
        split at read
        · contradiction
        · obtain ⟨_, _, same⟩ := Option.map_eq_some_iff.mp read
          cases same
          trivial
        · split at read
          · cases read
            trivial
          · obtain ⟨⟨item, middle⟩, first, read⟩ := Option.bind_eq_some_iff.mp read
            obtain ⟨⟨later, rest⟩, others, same⟩ := Option.map_eq_some_iff.mp read
            cases same
            subst_eqs
            exact ⟨values first, items others⟩
        · split at read
          · cases read
            exact ⟨List.nodup_nil, trivial⟩
          · obtain ⟨⟨first, middle⟩, head, read⟩ := Option.bind_eq_some_iff.mp read
            obtain ⟨⟨later, rest⟩, others, same⟩ := Option.map_eq_some_iff.mp read
            cases same
            subst_eqs
            exact distinct_update ⟨member head, members others⟩
        · obtain ⟨token, known, same⟩ := Option.map_eq_some_iff.mp read
          cases same
          exact distinct_readToken known
      case items =>
        intro text rest found read
        unfold readItems at read
        split at read
        · cases read
          trivial
        · obtain ⟨⟨item, middle⟩, first, read⟩ := Option.bind_eq_some_iff.mp read
          obtain ⟨⟨later, rest⟩, others, same⟩ := Option.map_eq_some_iff.mp read
          cases same
          exact ⟨values first, items others⟩
        · contradiction
      case member =>
        intro text rest found read
        unfold readMember at read
        split at read
        · contradiction
        · obtain ⟨⟨name, middle⟩, _, read⟩ := Option.bind_eq_some_iff.mp read
          dsimp only at read
          split at read
          · obtain ⟨⟨value, rest⟩, first, same⟩ := Option.map_eq_some_iff.mp read
            cases same
            subst_eqs
            exact values first
          · contradiction
        · contradiction
      case members =>
        intro text rest found read
        unfold readMembers at read
        split at read
        · cases read
          trivial
        · obtain ⟨⟨first, middle⟩, head, read⟩ := Option.bind_eq_some_iff.mp read
          obtain ⟨⟨later, rest⟩, others, same⟩ := Option.map_eq_some_iff.mp read
          cases same
          exact ⟨member head, members others⟩
        · contradiction

theorem distinct_loads {text : Text} {value : Json F} (read : loads text = some value) :
    value.Distinct := by
  unfold loads at read
  split at read
  next found rest known =>
    split_ifs at read
    cases read
    exact (readsDistinct _).value known
  next => contradiction

/-! ## Files -/

/-- A file with a value on each line. -/
def writeLines (layout : Layout) (values : List (Json F)) : Text :=
  values.flatMap fun value => dumps layout value ++ ['\n']

theorem writeLines_append (layout : Layout) (front back : List (Json F)) :
    writeLines layout (front ++ back) = writeLines layout front ++ writeLines layout back :=
  List.flatMap_append

/-- The lines of a file, without what follows the last line break. -/
def fileLines (text : Text) : List Text := (Text.splitOn '\n' text).dropLast

theorem splitOn_writeLines {layout : Layout} (flat : layout.OneLine) (values : List (Json F)) :
    Text.splitOn '\n' (writeLines layout values) = values.map (dumps layout) ++ [[]] := by
  induction values with
  | nil => rfl
  | cons value values inductionHypothesis =>
      have free : ∀ char ∈ dumps layout value, (char == '\n') = false := by
        intro char among
        rw [beq_eq_false_iff_ne]
        rintro rfl
        exact newline_not_mem_print flat 0 _ among
      have shape : writeLines layout (value :: values) =
          dumps layout value ++ '\n' :: writeLines layout values := by
        simp [writeLines]
      rw [shape, Text.splitOn, List.splitOn, List.splitOnP_append_cons_of_forall_mem free _ rfl]
      exact congrArg (dumps layout value :: ·) inductionHypothesis

/-- A file of values is read back line by line, up to the order of members. -/
theorem loads_fileLines {layout : Layout} (flat : layout.OneLine) {values : List (Json F)}
    (distinct : ∀ value ∈ values, value.Distinct) :
    (fileLines (writeLines layout values)).map loads =
      values.map fun value => some value.sortKeys := by
  rw [fileLines, splitOn_writeLines flat, List.dropLast_concat, List.map_map]
  apply List.map_congr_left
  intro value among
  exact loads_dumps layout (distinct value among)

end LlmWikiServe.Json
