/-
Module: PeerCove.Library.Utf8
Layer: Library
Purpose: Bytes that are text in UTF-8, what is left of a text when its beginning is taken away, and
  that the end of a line is no part of another character.
Trusted boundary: none
Main exports: Utf8.Valid, Utf8.encode, Utf8.valid_append_iff, Utf8.not_mem_encode
-/
import Mathlib.Data.List.Basic

namespace Utf8

/-- Bytes that encode some text. -/
def Valid (bytes : List UInt8) : Prop :=
  bytes.toByteArray.IsValidUTF8

instance (bytes : List UInt8) : Decidable (Valid bytes) :=
  inferInstanceAs (Decidable bytes.toByteArray.IsValidUTF8)

def encode (text : List Char) : List UInt8 :=
  text.flatMap String.utf8EncodeChar

theorem valid_encode (text : List Char) : Valid (encode text) :=
  ByteArray.isValidUTF8_utf8Encode

theorem valid_nil : Valid [] :=
  valid_encode []

theorem valid_iff {bytes : List UInt8} : Valid bytes ↔ ∃ text, encode text = bytes := by
  constructor
  · intro valid
    obtain ⟨text, same⟩ := valid
    exact ⟨text, List.toByteArray_inj.mp same.symm⟩
  · intro encoded
    obtain ⟨text, rfl⟩ := encoded
    exact valid_encode text

/-- After a text, the rest is a text exactly if the whole is one. -/
theorem valid_append_iff {one two : List UInt8} (valid : Valid one) :
    Valid (one ++ two) ↔ Valid two := by
  obtain ⟨text, rfl⟩ := valid_iff.mp valid
  clear valid
  induction text with
  | nil => exact Iff.rfl
  | cons c rest ih =>
      have first : encode (c :: rest) ++ two = encode [c] ++ (encode rest ++ two) := by
        simp [encode]
      rw [first, ← ih, Valid, List.toByteArray_append]
      exact ByteArray.isValidUTF8_utf8Encode_singleton_append_iff

theorem valid_append {one two : List UInt8} (first : Valid one) (second : Valid two) :
    Valid (one ++ two) :=
  (valid_append_iff first).mpr second

/-- A byte below 128 is in the encoding of the character it stands for only. -/
theorem eq_of_mem_utf8EncodeChar {c : Char} {byte : UInt8} (small : byte.toNat < 128)
    (member : byte ∈ String.utf8EncodeChar c) : c.toNat = byte.toNat := by
  have value : c.val.toNat = c.toNat := rfl
  unfold String.utf8EncodeChar at member
  dsimp only at member
  split at member
  · rw [List.mem_singleton] at member
    rw [member, UInt8.toNat_ofNat']
    omega
  · split at member
    · simp only [List.mem_cons, List.not_mem_nil, or_false] at member
      rcases member with rfl | rfl <;> (rw [UInt8.toNat_ofNat'] at small; omega)
    · split at member
      · simp only [List.mem_cons, List.not_mem_nil, or_false] at member
        rcases member with rfl | rfl | rfl <;> (rw [UInt8.toNat_ofNat'] at small; omega)
      · simp only [List.mem_cons, List.not_mem_nil, or_false] at member
        rcases member with rfl | rfl | rfl | rfl <;> (rw [UInt8.toNat_ofNat'] at small; omega)

/-- A text without a character below 128 has no such byte. -/
theorem not_mem_encode {text : List Char} {c : Char} (small : c.toNat < 128) (absent : c ∉ text) :
    UInt8.ofNat c.toNat ∉ encode text := by
  intro member
  obtain ⟨other, listed, inside⟩ := List.mem_flatMap.mp member
  have size : (UInt8.ofNat c.toNat).toNat = c.toNat := by
    rw [UInt8.toNat_ofNat']
    omega
  have same := eq_of_mem_utf8EncodeChar (by omega) inside
  rw [size] at same
  rw [Char.toNat_inj.mp same] at listed
  exact absent listed

end Utf8
