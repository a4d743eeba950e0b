/-
Module: PeerCove.Library.Wire
Layer: Library
Purpose: Readers of binary formats: when a reader accepts exactly the bytes of a value, whatever
  follows them, and no shorter part of them.
Trusted boundary: none
Main exports: Wire.Reader, Wire.Exact, Wire.exact_bind, Wire.exact_times, Wire.bigEndian,
  Wire.bigValue_bigEndian
-/
import Mathlib.Algebra.Ring.Nat
import Mathlib.Data.List.Infix
import Mathlib.Tactic.Ring

namespace Wire

variable {ε α β : Type}

/-- A reader takes bytes from the front of its input and leaves the rest. -/
abbrev Reader (ε α : Type) := StateT (List UInt8) (Except ε) α

/-- The next `count` bytes. -/
def take (error : ε) (count : Nat) : Reader ε (List UInt8) := fun input =>
  if count ≤ input.length then .ok (input.take count, input.drop count) else .error error

/-- Go on with a result that may be an error. -/
def check (result : Except ε α) : Reader ε α := fun input =>
  match result with
  | .ok value => .ok (value, input)
  | .error error => .error error

/-- The results of a reader that runs a number of times. -/
def times : Nat → Reader ε α → Reader ε (List α)
  | 0, _ => pure []
  | count + 1, reader => do
      let value ← reader
      let rest ← times count reader
      return value :: rest

/-! ### Exact readers -/

/-- The reader takes these bytes for this value, leaves what follows them, and fails on every part
of them that is not all of them. -/
structure Exact (reader : Reader ε α) (bytes : List UInt8) (value : α) : Prop where
  reads : ∀ rest, reader (bytes ++ rest) = .ok (value, rest)
  truncated : ∀ part, part <+: bytes → part ≠ bytes → ∃ error, reader part = .error error

theorem exact_pure (value : α) : Exact (pure value : Reader ε α) [] value where
  reads := fun _ => rfl
  truncated := by
    intro part front other
    exact absurd (List.prefix_nil.mp front) other

theorem exact_check {result : Except ε α} {value : α} (fine : result = .ok value) :
    Exact (check result) [] value where
  reads := by
    intro rest
    rw [fine]
    rfl
  truncated := by
    intro part front other
    exact absurd (List.prefix_nil.mp front) other

theorem exact_take (error : ε) {count : Nat} {bytes : List UInt8} (length : bytes.length = count) :
    Exact (take error count) bytes bytes where
  reads := by
    intro rest
    have enough : count ≤ (bytes ++ rest).length := by
      rw [List.length_append]
      omega
    unfold take
    rw [if_pos enough, List.take_left' length, List.drop_left' length]
  truncated := by
    intro part front other
    refine ⟨error, ?_⟩
    have short : part.length < bytes.length := by
      apply Nat.lt_of_le_of_ne front.length_le
      intro same
      exact other (front.eq_of_length same)
    unfold take
    rw [if_neg (by omega)]

/-- A part of two strings of bytes ends in the first or in the second. -/
theorem prefix_append_cases {part one two : List UInt8} (front : part <+: one ++ two)
    (other : part ≠ one ++ two) :
    (part <+: one ∧ part ≠ one) ∨ ∃ tail, part = one ++ tail ∧ tail <+: two ∧ tail ≠ two := by
  rcases Nat.lt_or_ge part.length one.length with short | long
  · left
    refine ⟨List.prefix_of_prefix_length_le front (List.prefix_append one two) short.le, ?_⟩
    rintro rfl
    exact Nat.lt_irrefl _ short
  · right
    rcases List.prefix_of_prefix_length_le (List.prefix_append one two) front long with ⟨tail, rfl⟩
    refine ⟨tail, rfl, (List.prefix_append_right_inj one).mp front, ?_⟩
    intro same
    exact other (by rw [same])

theorem exact_bind {reader : Reader ε α} {next : α → Reader ε β} {one two : List UInt8} {value : α}
    {result : β} (first : Exact reader one value) (second : Exact (next value) two result) :
    Exact (reader >>= next) (one ++ two) result where
  reads := by
    intro rest
    change (reader (one ++ two ++ rest) >>= fun entry => next entry.1 entry.2) = _
    rw [List.append_assoc, first.reads]
    exact second.reads rest
  truncated := by
    intro part front other
    change ∃ error, (reader part >>= fun entry => next entry.1 entry.2) = .error error
    rcases prefix_append_cases front other with ⟨short, less⟩ | ⟨tail, rfl, inside, less⟩
    · rcases first.truncated part short less with ⟨error, failed⟩
      exact ⟨error, by rw [failed]; rfl⟩
    · rcases second.truncated tail inside less with ⟨error, failed⟩
      refine ⟨error, ?_⟩
      rw [first.reads]
      exact failed

/-- A step that takes no bytes. -/
theorem exact_then {reader : Reader ε α} {next : α → Reader ε β} {bytes : List UInt8} {value : α}
    {result : β} (first : Exact reader [] value) (second : Exact (next value) bytes result) :
    Exact (reader >>= next) bytes result := by
  have both := exact_bind first second
  rwa [List.nil_append] at both

/-- A last step that takes no bytes. -/
theorem exact_last {reader : Reader ε α} {next : α → Reader ε β} {bytes : List UInt8} {value : α}
    {result : β} (first : Exact reader bytes value) (second : Exact (next value) [] result) :
    Exact (reader >>= next) bytes result := by
  have both := exact_bind first second
  rwa [List.append_nil] at both

/-- A reader whose result is only rewritten. -/
theorem exact_map {reader : Reader ε α} {bytes : List UInt8} {value : α} (change : α → β)
    (exact : Exact reader bytes value) :
    Exact (do return change (← reader)) bytes (change value) :=
  exact_last exact (exact_pure (change value))

theorem exact_times {reader : Reader ε α} {image : α → List UInt8} (values : List α)
    (each : ∀ value ∈ values, Exact reader (image value) value) :
    Exact (times values.length reader) (values.flatMap image) values := by
  induction values with
  | nil => exact exact_pure []
  | cons value rest ih =>
      have here := each value List.mem_cons_self
      have there := ih (fun other member => each other (List.mem_cons_of_mem _ member))
      rw [List.flatMap_cons]
      apply exact_bind here
      exact exact_map (value :: ·) there

/-! ### A whole input -/

/-- The reader and then the end of the input. -/
def finish (error : ε) (reader : Reader ε α) (input : List UInt8) : Except ε α :=
  match reader input with
  | .ok (value, rest) => if rest = [] then .ok value else .error error
  | .error failure => .error failure

section Finish

variable {reader : Reader ε α} {bytes : List UInt8} {value : α} (error : ε)

theorem Exact.finish_ok (exact : Exact reader bytes value) :
    finish error reader bytes = .ok value := by
  have all := exact.reads []
  rw [List.append_nil] at all
  unfold finish
  rw [all]
  rfl

/-- Nothing shorter and nothing longer is accepted. -/
theorem Exact.finish_error (exact : Exact reader bytes value) {input : List UInt8}
    (near : input <+: bytes ∨ bytes <+: input) (other : input ≠ bytes) :
    ∃ failure, finish error reader input = .error failure := by
  rcases near with shorter | ⟨extra, rfl⟩
  · rcases exact.truncated input shorter other with ⟨failure, failed⟩
    refine ⟨failure, ?_⟩
    unfold finish
    rw [failed]
  · refine ⟨error, ?_⟩
    have more : extra ≠ [] := by
      rintro rfl
      exact other (List.append_nil bytes)
    unfold finish
    rw [exact.reads extra]
    exact if_neg more

end Finish

/-! ### Numbers in network byte order -/

/-- The last `count` bytes of a number, most significant first. -/
def bigEndian : Nat → Nat → List UInt8
  | 0, _ => []
  | count + 1, value => bigEndian count (value / 256) ++ [UInt8.ofNat value]

/-- The number that bytes stand for, most significant first. -/
def bigValue (bytes : List UInt8) : Nat :=
  bytes.foldl (fun value byte => value * 256 + byte.toNat) 0

@[simp] theorem bigEndian_length (count value : Nat) : (bigEndian count value).length = count := by
  induction count generalizing value with
  | zero => rfl
  | succ count ih => rw [bigEndian, List.length_append, ih, List.length_singleton]

theorem bigValue_bigEndian {count value : Nat} (small : value < 256 ^ count) :
    bigValue (bigEndian count value) = value := by
  induction count generalizing value with
  | zero =>
      have zero : value = 0 := by
        rw [Nat.pow_zero] at small
        omega
      rw [zero]
      rfl
  | succ count ih =>
      have smaller : value / 256 < 256 ^ count := by
        apply Nat.div_lt_of_lt_mul
        calc value < 256 ^ (count + 1) := small
          _ = 256 * 256 ^ count := by ring
      have last : (UInt8.ofNat value).toNat = value % 256 := UInt8.toNat_ofNat'
      have before := ih smaller
      unfold bigValue at before
      rw [bigEndian, bigValue, List.foldl_append, before, List.foldl_cons, List.foldl_nil, last]
      omega

theorem bigEndian_bigValue (bytes : List UInt8) : bigEndian bytes.length (bigValue bytes) = bytes := by
  induction bytes using List.reverseRecOn with
  | nil => rfl
  | append_singleton bytes byte ih =>
      have small : byte.toNat < 256 := byte.toNat_lt
      have value : bigValue (bytes ++ [byte]) = bigValue bytes * 256 + byte.toNat := by
        simp only [bigValue, List.foldl_append, List.foldl_cons, List.foldl_nil]
      have quotient : (bigValue bytes * 256 + byte.toNat) / 256 = bigValue bytes := by omega
      have last : UInt8.ofNat (bigValue bytes * 256 + byte.toNat) = byte := by
        apply UInt8.toNat_inj.mp
        rw [UInt8.toNat_ofNat']
        omega
      rw [value, List.length_append, List.length_singleton, bigEndian, quotient, ih, last]

end Wire
