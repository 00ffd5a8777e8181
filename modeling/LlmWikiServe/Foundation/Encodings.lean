import LlmWikiServe.Foundation.Text

/-!
# Texts and bytes

UTF-8, Latin-1 and base64 between texts and bytes.  What base64 decodes to is shorter than its
text, and so is the text that those bytes spell.
-/

namespace LlmWikiServe

/-! ## UTF-8 -/

namespace Utf8

/-- `text.encode("utf-8")` -/
def encode (text : Text) : List UInt8 := text.flatMap String.utf8EncodeChar

/-- `bytes.decode("utf-8")` -/
def decode (bytes : List UInt8) : Option Text :=
  (ByteArray.utf8Decode? bytes.toByteArray).map Array.toList

theorem toByteArray_encode (text : Text) : (encode text).toByteArray = text.utf8Encode := rfl

theorem decode_encode (text : Text) : decode (encode text) = some text := by
  rw [decode, toByteArray_encode, List.utf8Decode?_utf8Encode]
  rfl

theorem encode_of_decode {bytes : List UInt8} {text : Text} (decoded : decode bytes = some text) :
    encode text = bytes := by
  obtain ⟨chars, found, rfl⟩ := Option.map_eq_some_iff.mp decoded
  have spelled := @ByteArray.utf8Encode_get_utf8Decode? bytes.toByteArray
    (Option.isSome_of_mem found)
  rw [Option.get_of_mem _ found, ← toByteArray_encode] at spelled
  calc encode chars.toList
      = (encode chars.toList).toByteArray.data.toList := by simp
    _ = bytes := by rw [spelled]; simp

theorem length_le_encode (text : Text) : text.length ≤ (encode text).length := by
  induction text with
  | nil => exact Nat.zero_le _
  | cons char rest inductionHypothesis =>
      have first := List.length_pos_of_ne_nil (@String.utf8EncodeChar_ne_nil char)
      rw [encode, List.flatMap_cons, List.length_append, List.length_cons]
      rw [encode] at inductionHypothesis
      omega

theorem length_decode_le {bytes : List UInt8} {text : Text} (decoded : decode bytes = some text) :
    text.length ≤ bytes.length := by
  rw [← encode_of_decode decoded]
  exact length_le_encode text

end Utf8

/-! ## Latin-1 -/

/-- `bytes.decode("latin-1")` -/
def latin1 (bytes : List UInt8) : Text := bytes.map fun byte => Char.ofNat byte.toNat

/-- `text.encode("ascii")`, of a text of ASCII characters. -/
def asciiBytes (text : Text) : List UInt8 := text.map fun char => UInt8.ofNat char.toNat

theorem latin1_asciiBytes {text : Text} (ascii : ∀ char ∈ text, char.toNat < 128) :
    latin1 (asciiBytes text) = text := by
  induction text with
  | nil => rfl
  | cons char rest inductionHypothesis =>
      have small := ascii char List.mem_cons_self
      have later := inductionHypothesis fun other member =>
        ascii other (List.mem_cons_of_mem _ member)
      simp only [latin1, asciiBytes, List.map_cons] at later ⊢
      rw [later]
      congr 1
      have unit : (UInt8.ofNat char.toNat).toNat = char.toNat := by
        rw [UInt8.toNat_ofNat']
        exact Nat.mod_eq_of_lt (by omega)
      rw [unit, Char.ofNat_toNat]

/-! ## Base64 -/

namespace Base64

def alphabet : Text := "ABCDEFGHIJKLMNOPQRSTUVWXYZabcdefghijklmnopqrstuvwxyz0123456789+/"

def digit (value : Nat) : Char := alphabet.getD value '='

def digitValue (char : Char) : Option Nat := alphabet.idxOf? char

/-- `base64.b64encode(bytes)` -/
def encode : List UInt8 → Text
  | [] => []
  | [first] =>
      let bits := first.toNat * 16
      [digit (bits / 64), digit (bits % 64), '=', '=']
  | [first, second] =>
      let bits := (first.toNat * 256 + second.toNat) * 4
      [digit (bits / 4096), digit (bits / 64 % 64), digit (bits % 64), '=']
  | first :: second :: third :: rest =>
      let bits := (first.toNat * 256 + second.toNat) * 256 + third.toNat
      digit (bits / 262144) :: digit (bits / 4096 % 64) :: digit (bits / 64 % 64) ::
        digit (bits % 64) :: encode rest

/-- `base64.b64decode(text, validate=True)` -/
def decode : Text → Option (List UInt8)
  | [] => some []
  | [a, b, '=', '='] => do
      let a ← digitValue a
      let b ← digitValue b
      return [UInt8.ofNat ((a * 64 + b) / 16)]
  | [a, b, c, '='] => do
      let a ← digitValue a
      let b ← digitValue b
      let c ← digitValue c
      let bits := ((a * 64 + b) * 64 + c) / 4
      return [UInt8.ofNat (bits / 256), UInt8.ofNat bits]
  | a :: b :: c :: d :: rest => do
      let a ← digitValue a
      let b ← digitValue b
      let c ← digitValue c
      let d ← digitValue d
      let bits := ((a * 64 + b) * 64 + c) * 64 + d
      let rest ← decode rest
      return UInt8.ofNat (bits / 65536) :: UInt8.ofNat (bits / 256) :: UInt8.ofNat bits :: rest
  | _ => none

theorem digitValue_digit {value : Nat} (small : value < 64) :
    digitValue (digit value) = some value := by
  have checked : ∀ value : Fin 64, digitValue (digit value) = some value.1 := by
    decide +kernel
  exact checked ⟨value, small⟩

theorem digit_ne_pad {value : Nat} (small : value < 64) : digit value ≠ '=' := by
  have checked : ∀ value : Fin 64, digit value ≠ '=' := by
    decide +kernel
  exact checked ⟨value, small⟩

theorem digit_plain {value : Nat} (small : value < 64) :
    32 < (digit value).toNat ∧ (digit value).toNat < 127 := by
  have checked : ∀ value : Fin 64, 32 < (digit value).toNat ∧ (digit value).toNat < 127 := by
    decide +kernel
  exact checked ⟨value, small⟩

theorem decode_group {a b c d : Char} {rest : Text} (last : d ≠ '=') :
    decode (a :: b :: c :: d :: rest) = do
      let a ← digitValue a
      let b ← digitValue b
      let c ← digitValue c
      let d ← digitValue d
      let bits := ((a * 64 + b) * 64 + c) * 64 + d
      let rest ← decode rest
      return UInt8.ofNat (bits / 65536) :: UInt8.ofNat (bits / 256) :: UInt8.ofNat bits :: rest := by
  rw [decode]
  · rintro - rfl
    exact absurd rfl last
  · rintro rfl
    exact absurd rfl last

theorem decode_pair {a b c : Char} (middle : c ≠ '=') :
    decode [a, b, c, '='] = do
      let a ← digitValue a
      let b ← digitValue b
      let c ← digitValue c
      let bits := ((a * 64 + b) * 64 + c) / 4
      return [UInt8.ofNat (bits / 256), UInt8.ofNat bits] := by
  rw [decode]
  exact middle

theorem ofNat_eq {number : Nat} {byte : UInt8} (low : number % 256 = byte.toNat) :
    UInt8.ofNat number = byte := by
  apply UInt8.toNat_inj.mp
  rw [UInt8.toNat_ofNat']
  exact low

theorem decode_encode (bytes : List UInt8) : decode (encode bytes) = some bytes := by
  fun_induction encode bytes with
  | case1 => rfl
  | case2 first bits =>
      have bound := first.toNat_lt
      have restored : (bits / 64 * 64 + bits % 64) / 16 = first.toNat := by omega
      rw [decode, digitValue_digit (by omega), digitValue_digit (by omega)]
      simp [restored]
  | case3 first second bits =>
      have bound := first.toNat_lt
      have bound' := second.toNat_lt
      have restored : ((bits / 4096 * 64 + bits / 64 % 64) * 64 + bits % 64) / 4 =
          first.toNat * 256 + second.toNat := by omega
      have high : UInt8.ofNat ((first.toNat * 256 + second.toNat) / 256) = first :=
        ofNat_eq (by omega)
      have low : UInt8.ofNat (first.toNat * 256 + second.toNat) = second := ofNat_eq (by omega)
      rw [decode_pair (digit_ne_pad (by omega)), digitValue_digit (by omega),
        digitValue_digit (by omega), digitValue_digit (by omega)]
      simp only [Option.bind_eq_bind, Option.bind_some, Option.pure_def, restored, high, low]
  | case4 first second third rest bits inductionHypothesis =>
      have bound := first.toNat_lt
      have bound' := second.toNat_lt
      have bound'' := third.toNat_lt
      have restored : ((bits / 262144 * 64 + bits / 4096 % 64) * 64 + bits / 64 % 64) * 64 +
          bits % 64 = bits := by omega
      have high : UInt8.ofNat (bits / 65536) = first := ofNat_eq (by omega)
      have middle : UInt8.ofNat (bits / 256) = second := ofNat_eq (by omega)
      have low : UInt8.ofNat bits = third := ofNat_eq (by omega)
      rw [decode_group (digit_ne_pad (by omega)), digitValue_digit (by omega),
        digitValue_digit (by omega), digitValue_digit (by omega), digitValue_digit (by omega)]
      simp only [Option.bind_eq_bind, Option.bind_some, Option.pure_def, restored, high, middle,
        low, inductionHypothesis]

/-- Three bytes are decoded from four digits. -/
theorem length_decode_le {text : Text} {bytes : List UInt8} (decoded : decode text = some bytes) :
    bytes.length ≤ text.length := by
  fun_induction decode text generalizing bytes with
  | case1 => simp_all
  | case2 a b =>
      simp only [Option.bind_eq_bind, Option.bind_eq_some_iff, Option.pure_def,
        Option.some.injEq] at decoded
      obtain ⟨_, _, _, _, rfl⟩ := decoded
      simp
  | case3 a b c =>
      simp only [Option.bind_eq_bind, Option.bind_eq_some_iff, Option.pure_def,
        Option.some.injEq] at decoded
      obtain ⟨_, _, _, _, _, _, rfl⟩ := decoded
      simp
  | case4 a b c d rest _ _ inductionHypothesis =>
      simp only [Option.bind_eq_bind, Option.bind_eq_some_iff, Option.pure_def,
        Option.some.injEq] at decoded
      obtain ⟨_, _, _, _, _, _, _, _, later, found, rfl⟩ := decoded
      have bound := inductionHypothesis found
      simp only [List.length_cons]
      omega
  | case5 => cases decoded

theorem encode_plain (bytes : List UInt8) :
    ∀ char ∈ encode bytes, 32 < char.toNat ∧ char.toNat < 127 := by
  have pad : 32 < '='.toNat ∧ '='.toNat < 127 := by decide
  fun_induction encode bytes with
  | case1 => simp
  | case2 first bits =>
      have bound := first.toNat_lt
      simp only [List.forall_mem_cons, pad, and_true, true_and]
      exact ⟨digit_plain (by omega), digit_plain (by omega), by simp⟩
  | case3 first second bits =>
      have bound := first.toNat_lt
      have bound' := second.toNat_lt
      simp only [List.forall_mem_cons, pad, and_true, true_and]
      exact ⟨digit_plain (by omega), digit_plain (by omega), digit_plain (by omega), by simp⟩
  | case4 first second third rest bits inductionHypothesis =>
      have bound := first.toNat_lt
      have bound' := second.toNat_lt
      have bound'' := third.toNat_lt
      simp only [List.forall_mem_cons]
      exact ⟨digit_plain (by omega), digit_plain (by omega), digit_plain (by omega),
        digit_plain (by omega), inductionHypothesis⟩

end Base64

end LlmWikiServe
