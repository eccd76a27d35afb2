import Mathlib

/-! Base64 with the URL-safe alphabet and no padding. -/

set_option autoImplicit false

namespace Library.Base64Url

def alphabet : List Char := "ABCDEFGHIJKLMNOPQRSTUVWXYZabcdefghijklmnopqrstuvwxyz0123456789-_".toList

def digit (value : Nat) : Char := alphabet.getD value '_'

def value? (char : Char) : Option Nat := alphabet.idxOf? char

/-- The bits of the bytes, six at a time. -/
def sextets : List UInt8 → List Nat
  | [] => []
  | [first] => [first.toNat / 4, first.toNat % 4 * 16]
  | [first, second] => [first.toNat / 4, first.toNat % 4 * 16 + second.toNat / 16, second.toNat % 16 * 4]
  | first :: second :: third :: rest =>
    first.toNat / 4 :: (first.toNat % 4 * 16 + second.toNat / 16) :: (second.toNat % 16 * 4 + third.toNat / 64) ::
      third.toNat % 64 :: sextets rest

/-- Bits left over at the end must be zero. -/
def bytes? : List Nat → Option (List UInt8)
  | [] => some []
  | [_] => none
  | [first, second] => if second % 16 = 0 then some [UInt8.ofNat (first * 4 + second / 16)] else none
  | [first, second, third] =>
    if third % 4 = 0 then
      some [UInt8.ofNat (first * 4 + second / 16), UInt8.ofNat (second % 16 * 16 + third / 4)]
    else none
  | first :: second :: third :: fourth :: rest =>
    (bytes? rest).map fun bytes =>
      UInt8.ofNat (first * 4 + second / 16) :: UInt8.ofNat (second % 16 * 16 + third / 4) ::
        UInt8.ofNat (third % 4 * 64 + fourth) :: bytes

def encode (bytes : List UInt8) : String := String.ofList ((sextets bytes).map digit)

def decode (text : String) : Option (List UInt8) := (text.toList.mapM value?).bind bytes?

theorem value?_digit (value : Nat) (small : value < 64) : value? (digit value) = some value := by
  have each : ∀ value < 64, value? (digit value) = some value := by decide
  exact each value small

theorem digit_ne_dot (value : Nat) : digit value ≠ '.' := by
  have free : '.' ∉ alphabet := by decide
  intro same
  unfold digit at same
  by_cases small : value < alphabet.length
  · rw [List.getD_eq_getElem _ _ small] at same
    exact free (same ▸ List.getElem_mem small)
  · rw [List.getD_eq_default _ _ (not_lt.mp small)] at same
    exact absurd same (by decide)

theorem sextets_lt (bytes : List UInt8) : ∀ value ∈ sextets bytes, value < 64 := by
  induction bytes using sextets.induct with
  | case1 => simp [sextets]
  | case2 first =>
    have := first.toNat_lt
    simp only [sextets, List.forall_mem_cons, List.not_mem_nil, false_implies, implies_true, and_true]
    omega
  | case3 first second =>
    have := first.toNat_lt
    have := second.toNat_lt
    simp only [sextets, List.forall_mem_cons, List.not_mem_nil, false_implies, implies_true, and_true]
    omega
  | case4 first second third rest ih =>
    have := first.toNat_lt
    have := second.toNat_lt
    have := third.toNat_lt
    simp only [sextets, List.forall_mem_cons]
    exact ⟨by omega, by omega, by omega, by omega, ih⟩

theorem bytes?_sextets (bytes : List UInt8) : bytes? (sextets bytes) = some bytes := by
  have byte (found : UInt8) (value : Nat) (same : value = found.toNat) : UInt8.ofNat value = found := by
    rw [same, UInt8.ofNat_toNat]
  induction bytes using sextets.induct with
  | case1 => rfl
  | case2 first =>
    rw [sextets, bytes?, if_pos (by omega)]
    rw [byte first _ (by omega)]
  | case3 first second =>
    have := second.toNat_lt
    rw [sextets, bytes?, if_pos (by omega)]
    rw [byte first _ (by omega), byte second _ (by omega)]
  | case4 first second third rest ih =>
    have := second.toNat_lt
    have := third.toNat_lt
    rw [sextets, bytes?, ih, Option.map_some]
    rw [byte first _ (by omega), byte second _ (by omega), byte third _ (by omega)]

theorem decode_encode (bytes : List UInt8) : decode (encode bytes) = some bytes := by
  have values : ((sextets bytes).map digit).mapM value? = some (sextets bytes) := by
    have small := sextets_lt bytes
    generalize sextets bytes = found at small
    induction found with
    | nil => rfl
    | cons value found ih =>
      obtain ⟨first, rest⟩ := List.forall_mem_cons.mp small
      rw [List.map_cons, List.mapM_cons, value?_digit value first, ih rest]
      rfl
  rw [decode, encode, String.toList_ofList, values, Option.bind_some, bytes?_sextets]

theorem dot_not_mem_encode (bytes : List UInt8) : '.' ∉ (encode bytes).toList := by
  rw [encode, String.toList_ofList]
  intro member
  obtain ⟨value, _, same⟩ := List.mem_map.mp member
  exact digit_ne_dot value same

theorem exists_digit_of_mem_encode {bytes : List UInt8} {char : Char} (member : char ∈ (encode bytes).toList) :
    ∃ value < 64, digit value = char := by
  rw [encode, String.toList_ofList] at member
  obtain ⟨value, listed, same⟩ := List.mem_map.mp member
  exact ⟨value, sextets_lt bytes value listed, same⟩

end Library.Base64Url
