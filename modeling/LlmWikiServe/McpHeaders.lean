import LlmWikiServe.Foundation.Encodings
import LlmWikiServe.Foundation.PyJson

/-!
# Values of mirrored headers

A method or a name is sent in a header as it is where its characters allow it, and wrapped in
base64 otherwise.  Only the marks around it tell a wrapped value from a plain one.
-/

namespace LlmWikiServe

/-- `invalid_plain_header_value(value)` -/
def invalidPlainHeaderValue (value : Text) : Bool :=
  value.any fun char => (decide (char.toNat < 32) && char ≠ '\t') || decide (126 < char.toNat)

def encodedOpening : Text := "=?base64?"

def encodedClosing : Text := "?="

/-- `decode_mcp_header_value(value)` -/
def decodeMcpHeaderValue (value : Text) : Option Text :=
  if invalidPlainHeaderValue value then none
  else if Text.startsWith value encodedOpening && Text.endsWith value encodedClosing then
    let encoded := (value.take (value.length - 2)).drop encodedOpening.length
    (Base64.decode encoded).bind Utf8.decode
  else some value

/-- `encode_mcp_header_value(value)`, of a string without surrogates. -/
def encodeHeaderText (value : Text) : Text :=
  if invalidPlainHeaderValue value then
    encodedOpening ++ Base64.encode (Utf8.encode value) ++ encodedClosing
  else value

/-- `encode_mcp_header_value(value)`; a surrogate has no bytes. -/
def encodeMcpHeaderValue (value : PyText) : Option (List UInt8) :=
  (PyText.text? value).map fun text => asciiBytes (encodeHeaderText text)

/-- A plain value that has the marks of a wrapped one. -/
def looksEncoded (value : Text) : Bool :=
  !invalidPlainHeaderValue value && Text.startsWith value encodedOpening &&
    Text.endsWith value encodedClosing

theorem invalidPlainHeaderValue_eq_false {value : Text} :
    invalidPlainHeaderValue value = false ↔
      ∀ char ∈ value, (32 ≤ char.toNat ∨ char = '\t') ∧ char.toNat ≤ 126 := by
  simp only [invalidPlainHeaderValue, List.any_eq_false, Bool.or_eq_true, Bool.and_eq_true,
    decide_eq_true_eq, not_or, not_and_or, not_lt, ne_eq, not_not]

theorem invalidPlainHeaderValue_encodeHeaderText (value : Text) :
    invalidPlainHeaderValue (encodeHeaderText value) = false := by
  unfold encodeHeaderText
  split_ifs with invalid
  · rw [invalidPlainHeaderValue_eq_false]
    intro char member
    have marks : ∀ char ∈ encodedOpening ++ encodedClosing,
        (32 ≤ char.toNat ∨ char = '\t') ∧ char.toNat ≤ 126 := by decide
    rcases List.mem_append.mp member with member | closing
    · rcases List.mem_append.mp member with opening | inside
      · exact marks char (List.mem_append_left _ opening)
      · have plain := Base64.encode_plain _ char inside
        omega
    · exact marks char (List.mem_append_right _ closing)
  · exact Bool.eq_false_iff.mpr invalid

/-- What the receiver sees of an encoded value. -/
theorem latin1_encodeHeaderText (value : Text) :
    latin1 (asciiBytes (encodeHeaderText value)) = encodeHeaderText value := by
  apply latin1_asciiBytes
  intro char member
  have plain := invalidPlainHeaderValue_eq_false.mp
    (invalidPlainHeaderValue_encodeHeaderText value) char member
  omega

theorem decodeMcpHeaderValue_wrapped (value : Text)
    (invalid : invalidPlainHeaderValue value = true) :
    decodeMcpHeaderValue (encodeHeaderText value) = some value := by
  have plain := invalidPlainHeaderValue_encodeHeaderText value
  rw [encodeHeaderText, if_pos invalid] at plain ⊢
  have opens : Text.startsWith
      (encodedOpening ++ Base64.encode (Utf8.encode value) ++ encodedClosing) encodedOpening =
        true := by
    rw [Text.startsWith, List.isPrefixOf_iff_prefix, List.append_assoc]
    exact List.prefix_append _ _
  have closes : Text.endsWith
      (encodedOpening ++ Base64.encode (Utf8.encode value) ++ encodedClosing) encodedClosing =
        true := by
    rw [Text.endsWith, List.isSuffixOf_iff_suffix]
    exact List.suffix_append _ _
  have inside : ((encodedOpening ++ Base64.encode (Utf8.encode value) ++ encodedClosing).take
      ((encodedOpening ++ Base64.encode (Utf8.encode value) ++ encodedClosing).length - 2)).drop
        encodedOpening.length = Base64.encode (Utf8.encode value) := by
    have front : ∀ text : Text, (text ++ encodedClosing).length - 2 = text.length := by
      intro text
      rw [List.length_append]
      rfl
    rw [front, List.take_left, List.drop_left]
  rw [decodeMcpHeaderValue, plain, opens, closes]
  simp only [Bool.false_eq_true, if_false, Bool.and_self, if_true, inside]
  rw [Base64.decode_encode, Option.bind_some, Utf8.decode_encode]

/-- A plain value with the marks of a wrapped one is taken for something shorter. -/
theorem decodeMcpHeaderValue_looksEncoded {value : Text} (looks : looksEncoded value = true) :
    decodeMcpHeaderValue value ≠ some value := by
  simp only [looksEncoded, Bool.and_eq_true, Bool.not_eq_true'] at looks
  obtain ⟨⟨plain, opens⟩, closes⟩ := looks
  rw [decodeMcpHeaderValue, plain, opens, closes]
  intro decoded
  obtain ⟨bytes, unwrapped, spelled⟩ := Option.bind_eq_some_iff.mp decoded
  have long : encodedOpening.length ≤ value.length := by
    rw [Text.startsWith, List.isPrefixOf_iff_prefix] at opens
    exact opens.length_le
  have fromBytes := Utf8.length_decode_le spelled
  have fromText := Base64.length_decode_le unwrapped
  have mark : encodedOpening.length = 9 := rfl
  rw [List.length_drop, List.length_take] at fromText
  omega

/-- The values that come back as they were sent. -/
theorem decodeMcpHeaderValue_encodeHeaderText (value : Text) :
    decodeMcpHeaderValue (encodeHeaderText value) = some value ↔ looksEncoded value = false := by
  cases invalid : invalidPlainHeaderValue value with
  | true => simp [decodeMcpHeaderValue_wrapped value invalid, looksEncoded, invalid]
  | false =>
      have same : encodeHeaderText value = value := by
        rw [encodeHeaderText, if_neg (Bool.eq_false_iff.mp invalid)]
      rw [same]
      cases looks : looksEncoded value with
      | true => simpa using decodeMcpHeaderValue_looksEncoded looks
      | false =>
          have unmarked : (Text.startsWith value encodedOpening &&
              Text.endsWith value encodedClosing) = false := by
            simpa [looksEncoded, invalid] using looks
          simp [decodeMcpHeaderValue, invalid, unmarked]

theorem encodeMcpHeaderValue_points (value : Text) :
    encodeMcpHeaderValue value.points = some (asciiBytes (encodeHeaderText value)) := by
  rw [encodeMcpHeaderValue, PyText.text?_points, Option.map_some]

end LlmWikiServe
