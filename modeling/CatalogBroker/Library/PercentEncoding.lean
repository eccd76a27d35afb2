import Mathlib

/-! Percent-encoding of text over the bytes of its UTF-8 encoding.

Unreserved characters stand for themselves and every other byte is written as
`%` and two hexadecimal digits, so decoding undoes encoding for any text.
-/

set_option autoImplicit false

namespace Library.PercentEncoding

def hexDigit (n : Nat) : Char :=
  if n < 10 then Char.ofNat ('0'.toNat + n) else Char.ofNat ('A'.toNat + (n - 10))

def hexValue (c : Char) : Option Nat :=
  if c.isDigit then some (c.toNat - '0'.toNat)
  else if 'A'.toNat ≤ c.toNat ∧ c.toNat ≤ 'F'.toNat then some (c.toNat - 'A'.toNat + 10)
  else if 'a'.toNat ≤ c.toNat ∧ c.toNat ≤ 'f'.toNat then some (c.toNat - 'a'.toNat + 10)
  else none

/-- Bytes of ASCII letters, digits and the marks `-`, `.`, `_` and `~`. -/
def unreserved (byte : UInt8) : Bool :=
  let c := Char.ofNat byte.toNat
  byte.toNat < 128 ∧ (c.isAlphanum ∨ c = '-' ∨ c = '.' ∨ c = '_' ∨ c = '~')

def encodeByte (byte : UInt8) : List Char :=
  if unreserved byte then [Char.ofNat byte.toNat]
  else ['%', hexDigit (byte.toNat / 16), hexDigit (byte.toNat % 16)]

def encode (text : String) : String :=
  String.ofList (text.toUTF8.data.toList.flatMap encodeByte)

/-- The bytes some characters stand for. A `%` before anything else than two digits is kept. -/
def decodeBytes : List Char → List UInt8
  | [] => []
  | '%' :: high :: low :: rest => match hexValue high, hexValue low with
    | some first, some second => UInt8.ofNat (first * 16 + second) :: decodeBytes rest
    | _, _ => String.utf8EncodeChar '%' ++ decodeBytes (high :: low :: rest)
  | c :: rest => String.utf8EncodeChar c ++ decodeBytes rest

def decode (text : String) : Except String String :=
  match String.fromUTF8? ⟨(decodeBytes text.toList).toArray⟩ with
  | some decoded => .ok decoded
  | none => .error "invalid utf-8 sequence"

theorem hexValue_hexDigit {n : Nat} (bound : n < 16) : hexValue (hexDigit n) = some n := by
  interval_cases n <;> decide

theorem unreserved_single {byte : UInt8} (plain : unreserved byte = true) :
    Char.ofNat byte.toNat ≠ '%' ∧ String.utf8EncodeChar (Char.ofNat byte.toNat) = [byte] := by
  have table : ∀ n < 256, unreserved (UInt8.ofNat n) = true → Char.ofNat (UInt8.ofNat n).toNat ≠ '%' ∧
      String.utf8EncodeChar (Char.ofNat (UInt8.ofNat n).toNat) = [UInt8.ofNat n] := by
    decide +kernel
  have own := table byte.toNat byte.toNat_lt
  rw [UInt8.ofNat_toNat] at own
  exact own plain

theorem decodeBytes_encodeByte (byte : UInt8) (rest : List Char) :
    decodeBytes (encodeByte byte ++ rest) = byte :: decodeBytes rest := by
  have bound : byte.toNat < 256 := byte.toNat_lt
  by_cases plain : unreserved byte = true
  · obtain ⟨notEscape, single⟩ := unreserved_single plain
    rw [encodeByte, if_pos plain, List.singleton_append, decodeBytes, single, List.singleton_append]
    exact fun _ _ _ same _ => notEscape same
  · have high := hexValue_hexDigit (show byte.toNat / 16 < 16 by omega)
    have low := hexValue_hexDigit (show byte.toNat % 16 < 16 by omega)
    have whole : byte.toNat / 16 * 16 + byte.toNat % 16 = byte.toNat := by omega
    simp only [encodeByte, plain, Bool.false_eq_true, ↓reduceIte, List.cons_append, List.nil_append,
      decodeBytes, high, low, whole, UInt8.ofNat_toNat]

theorem decodeBytes_encode (bytes : List UInt8) : decodeBytes (bytes.flatMap encodeByte) = bytes := by
  induction bytes with
  | nil => rfl
  | cons byte bytes ih => rw [List.flatMap_cons, decodeBytes_encodeByte, ih]

theorem decode_encode (text : String) : decode (encode text) = .ok text := by
  have bytes : decodeBytes (encode text).toList = text.toUTF8.data.toList := by
    rw [encode, String.toList_ofList, decodeBytes_encode]
  have same : String.fromUTF8? ⟨(decodeBytes (encode text).toList).toArray⟩ = some text := by
    rw [bytes]
    exact dif_pos text.isValidUTF8
  rw [decode, same]

theorem slash_not_mem_encode (text : String) : '/' ∉ (encode text).toList := by
  have table : ∀ n < 256, '/' ∉ encodeByte (UInt8.ofNat n) := by decide +kernel
  rw [encode, String.toList_ofList, List.mem_flatMap]
  rintro ⟨byte, _, member⟩
  have own := table byte.toNat byte.toNat_lt
  rw [UInt8.ofNat_toNat] at own
  exact own member

end Library.PercentEncoding
