/-
Module: PeerCove.Library.PaddedDecimal
Layer: Library
Purpose: Decimal numbers padded with zeros to a width, and that texts of one width are ordered as the
  numbers they write.
Trusted boundary: none
Main exports: PaddedDecimal.padded, PaddedDecimal.padded_lt, PaddedDecimal.append_lt_append
-/
import Mathlib.Data.String.Basic

namespace PaddedDecimal

/-- A number in decimal, with zeros in front of it up to a width. -/
def padded (width n : Nat) : List Char :=
  List.leftpad width '0' (Nat.toDigits 10 n)

/-- Padding does not change the number that is written. -/
theorem ofDigitChars_padded (width n : Nat) : Nat.ofDigitChars 10 (padded width n) 0 = n := by
  rw [padded, List.leftpad, Nat.ofDigitChars_append]
  simp

theorem isDigit_padded {width n : Nat} {c : Char} (member : c ∈ padded width n) :
    c.isDigit = true := by
  rw [padded, List.leftpad, List.mem_append] at member
  cases member with
  | inl zero =>
      rw [List.eq_of_mem_replicate zero]
      decide
  | inr digit => exact Nat.isDigit_of_mem_toDigits (by decide) (by decide) digit

/-- A number that fits its width is written with exactly that many digits. -/
theorem length_padded {width n : Nat} (positive : 0 < width) (fits : n < 10 ^ width) :
    (padded width n).length = width := by
  have digits := (Nat.length_toDigits_le_iff (b := 10) (by decide) positive).mpr fits
  rw [padded, List.length_leftpad]
  omega

/-- The number that digits write lies between its leading part and the next one. -/
theorem ofDigitChars_lt {digits : List Char} (areDigits : ∀ c ∈ digits, c.isDigit = true)
    (leading : Nat) :
    Nat.ofDigitChars 10 digits leading < 10 ^ digits.length * (leading + 1) := by
  induction digits generalizing leading with
  | nil => simp
  | cons c rest ih =>
      have digit : 48 ≤ c.toNat ∧ c.toNat ≤ 57 :=
        Char.isDigit_iff_toNat.mp (areDigits c List.mem_cons_self)
      have later := ih (fun d member => areDigits d (List.mem_cons_of_mem _ member))
        (10 * leading + (c.toNat - '0'.toNat))
      have small : c.toNat - '0'.toNat ≤ 9 := by
        simp
        omega
      rw [Nat.ofDigitChars_cons, List.length_cons, Nat.pow_succ, Nat.mul_assoc]
      exact Nat.lt_of_lt_of_le later (Nat.mul_le_mul_left _ (by omega))

/-- Of two texts of digits of one length, the one that writes the smaller number comes first. -/
theorem lt_of_ofDigitChars_lt {one two : List Char} (sameLength : one.length = two.length)
    (oneDigits : ∀ c ∈ one, c.isDigit = true) (twoDigits : ∀ c ∈ two, c.isDigit = true)
    {leading : Nat}
    (smaller : Nat.ofDigitChars 10 one leading < Nat.ofDigitChars 10 two leading) : one < two := by
  induction one generalizing two leading with
  | nil =>
      rw [List.eq_nil_of_length_eq_zero sameLength.symm] at smaller
      exact absurd smaller (Nat.lt_irrefl _)
  | cons c rest ih =>
      cases two with
      | nil => simp at sameLength
      | cons d others =>
          have restDigits : ∀ x ∈ rest, x.isDigit = true :=
            fun x member => oneDigits x (List.mem_cons_of_mem _ member)
          have othersDigits : ∀ x ∈ others, x.isDigit = true :=
            fun x member => twoDigits x (List.mem_cons_of_mem _ member)
          simp only [List.length_cons, Nat.add_right_cancel_iff] at sameLength
          rw [Nat.ofDigitChars_cons, Nat.ofDigitChars_cons] at smaller
          rw [List.cons_lt_cons_iff]
          rcases Nat.lt_trichotomy c.toNat d.toNat with less | same | more
          · exact Or.inl less
          · have equal : c = d := Char.toNat_inj.mp same
            subst equal
            exact Or.inr ⟨rfl, ih sameLength restDigits othersDigits smaller⟩
          · -- the larger first digit makes the larger number, whatever follows
            exfalso
            have digit : 48 ≤ d.toNat ∧ d.toNat ≤ 57 :=
              Char.isDigit_iff_toNat.mp (twoDigits d List.mem_cons_self)
            have above := ofDigitChars_lt othersDigits (10 * leading + (d.toNat - '0'.toNat))
            rw [Nat.ofDigitChars_eq_ofDigitChars_zero] at smaller
            have step : 10 * leading + (d.toNat - '0'.toNat) + 1
                ≤ 10 * leading + (c.toNat - '0'.toNat) := by
              simp
              omega
            have scaled := Nat.mul_le_mul_left (10 ^ others.length) step
            rw [sameLength] at smaller
            omega

/-- Numbers that fit a width are ordered as their texts. -/
theorem padded_lt {width one two : Nat} (positive : 0 < width) (less : one < two)
    (fits : two < 10 ^ width) : padded width one < padded width two := by
  have oneFits : one < 10 ^ width := Nat.lt_trans less fits
  refine lt_of_ofDigitChars_lt ?_ ?_ ?_ (?_ : Nat.ofDigitChars 10 _ 0 < Nat.ofDigitChars 10 _ 0)
  · rw [length_padded positive oneFits, length_padded positive fits]
  · exact fun c member => isDigit_padded member
  · exact fun c member => isDigit_padded member
  · rw [ofDigitChars_padded, ofDigitChars_padded]
    exact less

/-- The order of two texts is decided by their first parts, when these have one length. -/
theorem append_lt_append {one two one' two' : List Char} (sameLength : one.length = two.length)
    (less : one < two) : one ++ one' < two ++ two' := by
  induction one generalizing two with
  | nil =>
      rw [List.eq_nil_of_length_eq_zero sameLength.symm] at less
      exact absurd less (List.lt_irrefl _)
  | cons c rest ih =>
      cases two with
      | nil => simp at sameLength
      | cons d others =>
          rw [List.cons_append, List.cons_append, List.cons_lt_cons_iff]
          cases List.cons_lt_cons_iff.mp less with
          | inl first => exact Or.inl first
          | inr later =>
              exact Or.inr ⟨later.1, ih (by simpa using sameLength) later.2⟩

end PaddedDecimal
