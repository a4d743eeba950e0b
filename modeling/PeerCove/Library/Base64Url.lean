/-
Module: PeerCove.Library.Base64Url
Layer: Library
Purpose: Base64 with the alphabet for URLs and without padding.
Trusted boundary: none
Main exports: Base64Url.encode, Base64Url.decode, Base64Url.decode_encode, Base64Url.encode_alphabet
-/
import Mathlib.Data.List.Basic

namespace Base64Url

def alphabet : List Char :=
  "ABCDEFGHIJKLMNOPQRSTUVWXYZabcdefghijklmnopqrstuvwxyz0123456789-_".toList

/-- The character of a value below 64. -/
def digit (value : Nat) : Char :=
  alphabet.getD value 'A'

/-- The value of a character. -/
def value? (c : Char) : Option Nat :=
  alphabet.idxOf? c

/-- Three bytes in four characters; one or two bytes at the end in two or three. -/
def encodeChars : List UInt8 → List Char
  | [] => []
  | [a] => [digit (a.toNat / 4), digit (a.toNat % 4 * 16)]
  | [a, b] =>
      [digit (a.toNat / 4), digit (a.toNat % 4 * 16 + b.toNat / 16), digit (b.toNat % 16 * 4)]
  | a :: b :: c :: rest =>
      digit (a.toNat / 4) :: digit (a.toNat % 4 * 16 + b.toNat / 16) ::
        digit (b.toNat % 16 * 4 + c.toNat / 64) :: digit (c.toNat % 64) :: encodeChars rest

/-- Bits that no byte has room for have to be zero. -/
def decodeChars : List Char → Option (List UInt8)
  | [] => some []
  | [_] => none
  | [x, y] => do
      let x ← value? x
      let y ← value? y
      if y % 16 = 0 then some [UInt8.ofNat (x * 4 + y / 16)] else none
  | [x, y, z] => do
      let x ← value? x
      let y ← value? y
      let z ← value? z
      if z % 4 = 0 then
        some [UInt8.ofNat (x * 4 + y / 16), UInt8.ofNat (y % 16 * 16 + z / 4)]
      else
        none
  | x :: y :: z :: w :: rest => do
      let x ← value? x
      let y ← value? y
      let z ← value? z
      let w ← value? w
      let rest ← decodeChars rest
      return UInt8.ofNat (x * 4 + y / 16) :: UInt8.ofNat (y % 16 * 16 + z / 4) ::
        UInt8.ofNat (z % 4 * 64 + w) :: rest

def encode (bytes : List UInt8) : String :=
  String.ofList (encodeChars bytes)

def decode (text : String) : Option (List UInt8) :=
  decodeChars text.toList

/-- Every value below 64 is read back from its character. -/
theorem value?_digit {value : Nat} (small : value < 64) : value? (digit value) = some value := by
  have each : ∀ value < 64, value? (digit value) = some value := by decide
  exact each value small

theorem ofNat_of_toNat {byte : UInt8} {value : Nat} (same : value = byte.toNat) :
    UInt8.ofNat value = byte := by
  rw [same, UInt8.ofNat_toNat]

theorem decodeChars_encodeChars (bytes : List UInt8) :
    decodeChars (encodeChars bytes) = some bytes := by
  fun_induction encodeChars bytes with
  | case1 => rfl
  | case2 a =>
      have one := a.toNat_lt
      have first : UInt8.ofNat (a.toNat / 4 * 4 + a.toNat % 4 * 16 / 16) = a :=
        ofNat_of_toNat (by omega)
      have spare : a.toNat % 4 * 16 % 16 = 0 := by omega
      rw [decodeChars, value?_digit (by omega), value?_digit (by omega)]
      simp only [Option.bind_eq_bind, Option.bind_some, if_pos spare, first]
  | case3 a b =>
      have one := a.toNat_lt
      have two := b.toNat_lt
      have first : UInt8.ofNat (a.toNat / 4 * 4 + (a.toNat % 4 * 16 + b.toNat / 16) / 16) = a :=
        ofNat_of_toNat (by omega)
      have second : UInt8.ofNat ((a.toNat % 4 * 16 + b.toNat / 16) % 16 * 16 +
          b.toNat % 16 * 4 / 4) = b :=
        ofNat_of_toNat (by omega)
      have spare : b.toNat % 16 * 4 % 4 = 0 := by omega
      rw [decodeChars, value?_digit (by omega), value?_digit (by omega), value?_digit (by omega)]
      simp only [Option.bind_eq_bind, Option.bind_some, if_pos spare, first, second]
  | case4 a b c rest ih =>
      have one := a.toNat_lt
      have two := b.toNat_lt
      have three := c.toNat_lt
      have first : UInt8.ofNat (a.toNat / 4 * 4 + (a.toNat % 4 * 16 + b.toNat / 16) / 16) = a :=
        ofNat_of_toNat (by omega)
      have second : UInt8.ofNat ((a.toNat % 4 * 16 + b.toNat / 16) % 16 * 16 +
          (b.toNat % 16 * 4 + c.toNat / 64) / 4) = b :=
        ofNat_of_toNat (by omega)
      have third : UInt8.ofNat ((b.toNat % 16 * 4 + c.toNat / 64) % 4 * 64 + c.toNat % 64) = c :=
        ofNat_of_toNat (by omega)
      rw [decodeChars, value?_digit (by omega), value?_digit (by omega), value?_digit (by omega),
        value?_digit (by omega), ih]
      simp only [Option.bind_eq_bind, Option.bind_some, Option.pure_def, first, second, third]

theorem decode_encode (bytes : List UInt8) : decode (encode bytes) = some bytes := by
  unfold decode encode
  rw [String.toList_ofList]
  exact decodeChars_encodeChars bytes

theorem digit_mem (value : Nat) : digit value ∈ alphabet := by
  unfold digit
  rw [List.getD_eq_getElem?_getD]
  cases found : alphabet[value]? with
  | none => exact List.mem_cons_self
  | some c => exact List.mem_of_getElem? found

/-- Only characters of the alphabet are written. -/
theorem encode_alphabet (bytes : List UInt8) : ∀ c ∈ (encode bytes).toList, c ∈ alphabet := by
  unfold encode
  rw [String.toList_ofList]
  fun_induction encodeChars bytes with
  | case1 =>
      intro c member
      cases member
  | case2 a => simp [digit_mem]
  | case3 a b => simp [digit_mem]
  | case4 a b c rest ih =>
      simp only [List.forall_mem_cons, digit_mem, true_and]
      exact ih

end Base64Url
