/-
Module: PeerCove.Library.PeriodicWindows
Layer: Library
Purpose: Two schedules that are open for the first part of each of their periods, and for how long
  both are open at once.
Trusted boundary: none
Main exports: PeriodicWindows.IsOpen, PeriodicWindows.Shared, PeriodicWindows.shared_of_near,
  PeriodicWindows.near_of_shared
-/
import Mathlib.Data.Int.ModEq
import Mathlib.Algebra.Ring.Int.Defs

namespace PeriodicWindows

/-- In each period from `start` on, the first `width` are open. -/
def IsOpen (period width start time : Nat) : Prop :=
  start ≤ time ∧ (time - start) % period < width

/-- Both are open for a length, in the period that begins at `first`. -/
def Shared (one two : Nat → Prop) (period length first : Nat) : Prop :=
  ∃ begins, first ≤ begins ∧ begins + length ≤ first + period ∧
    ∀ time, begins ≤ time → time < begins + length → one time ∧ two time

/-- How long after a period of the first schedule the next one of the second begins. -/
def offset (period one two : Nat) : Nat :=
  (((two : Int) - one) % period).toNat

variable {period width one two first time : Nat}

theorem offset_lt (one two : Nat) (positive : 0 < period) : offset period one two < period := by
  have below : ((two : Int) - one) % period < period :=
    Int.emod_lt_of_pos _ (Int.natCast_pos.mpr positive)
  unfold offset
  omega

/-- From a period of the first schedule, the next of the second one is a period of it. -/
theorem add_offset (positive : 0 < period) {count : Nat} (isFirst : first = one + period * count)
    (begun : two ≤ first) :
    ∃ later, first + offset period one two = two + period * later := by
  have nonneg : 0 ≤ ((two : Int) - one) % period :=
    Int.emod_nonneg _ (Int.natCast_ne_zero.mpr positive.ne')
  have toNat : ((offset period one two : Nat) : Int) = ((two : Int) - one) % period :=
    Int.toNat_of_nonneg nonneg
  have parts := Int.mul_ediv_add_emod ((two : Int) - one) period
  have sum : (first : Int) + offset period one two =
      two + period * (count - ((two : Int) - one) / period) := by
    rw [toNat, isFirst, mul_sub]
    push_cast
    omega
  have sign : 0 ≤ (count : Int) - ((two : Int) - one) / period := by
    by_contra negative
    have less : (period : Int) * (count - ((two : Int) - one) / period) ≤ period * (-1) :=
      Int.mul_le_mul_of_nonneg_left (by omega) (Int.natCast_nonneg _)
    omega
  obtain ⟨later, isLater⟩ := Int.eq_ofNat_of_zero_le sign
  refine ⟨later, ?_⟩
  rw [isLater] at sum
  exact_mod_cast sum

/-- The first schedule, in a period of its own. -/
theorem isOpen_own {count : Nat} (isFirst : first = one + period * count)
    (after : first ≤ time) (before : time < first + period) :
    IsOpen period width one time ↔ time < first + width := by
  have split : time - one = (time - first) + period * count := by omega
  have rest : (time - one) % period = time - first := by
    rw [split, Nat.add_mul_mod_self_left, Nat.mod_eq_of_lt (by omega)]
  unfold IsOpen
  rw [rest]
  omega

/-- The second schedule, in a period of the first: the end of one of its periods and the beginning
of the next. -/
theorem isOpen_other (positive : 0 < period) {count : Nat}
    (isFirst : first = one + period * count) (begun : two ≤ first) (after : first ≤ time)
    (before : time < first + period) :
    IsOpen period width two time ↔
      (first + offset period one two ≤ time ∧ time < first + offset period one two + width) ∨
        (time < first + offset period one two ∧
          time + period < first + offset period one two + width) := by
  obtain ⟨later, next⟩ := add_offset positive isFirst begun
  have small := offset_lt one two positive
  by_cases reached : first + offset period one two ≤ time
  · rw [isOpen_own next reached (by omega)]
    omega
  · cases later with
    | zero => omega
    | succ later =>
        rw [Nat.mul_succ] at next
        have own : IsOpen period width two time ↔ time < two + period * later + width :=
          isOpen_own rfl (by omega) (by omega)
        rw [own]
        omega

/-- Schedules that begin near each other are open at once for long. -/
theorem shared_of_near {length : Nat} (positive : 0 < period) (narrow : width ≤ period)
    (long : length ≤ width) {count : Nat} (isFirst : first = one + period * count)
    (begun : two ≤ first)
    (near : offset period one two + length ≤ width ∨
      period + length ≤ offset period one two + width) :
    Shared (IsOpen period width one) (IsOpen period width two) period length first := by
  rcases near with soon | late
  · refine ⟨first + offset period one two, by omega, by omega, fun time after before => ?_⟩
    rw [isOpen_own isFirst (by omega) (by omega),
      isOpen_other positive isFirst begun (by omega) (by omega)]
    omega
  · have small := offset_lt one two positive
    refine ⟨first, le_rfl, by omega, fun time after before => ?_⟩
    rw [isOpen_own isFirst after (by omega),
      isOpen_other positive isFirst begun after (by omega)]
    omega

/-- And only those, when the second schedule is not open twice in the window of the first. -/
theorem near_of_shared {length : Nat} (positive : 0 < period)
    (some_ : 0 < length) (apart : width + width < period + length) {count : Nat}
    (isFirst : first = one + period * count) (begun : two ≤ first)
    (shared : Shared (IsOpen period width one) (IsOpen period width two) period length first) :
    offset period one two + length ≤ width ∨
      period + length ≤ offset period one two + width := by
  obtain ⟨begins, after, before, both⟩ := shared
  have small := offset_lt one two positive
  have open_ (time : Nat) (from_ : begins ≤ time) (until_ : time < begins + length) :=
    And.intro
      ((isOpen_own isFirst (after.trans from_) (by omega)).mp (both time from_ until_).1)
      ((isOpen_other positive isFirst begun (after.trans from_) (by omega)).mp
        (both time from_ until_).2)
  have atBegin := open_ begins le_rfl (by omega)
  have atEnd := open_ (begins + length - 1) (by omega) (by omega)
  have atNext := open_ (first + offset period one two - 1)
  omega

end PeriodicWindows
