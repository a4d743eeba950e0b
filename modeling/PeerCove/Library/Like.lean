/-
Module: PeerCove.Library.Like
Layer: Library
Purpose: `LIKE` patterns with an escape character: what a pattern matches, and that an escaped text
  between two wildcards is found exactly where the text itself occurs.
Trusted boundary: none
Main exports: Like.Token, Like.fits, Like.parse, Like.fits_infix, Like.parse_lits
-/
import Mathlib.Data.List.Infix

namespace Like

variable {α : Type}

/-- A pattern read from left to right. -/
inductive Token (α : Type) where
  /-- Any number of characters, `%`. -/
  | many
  /-- Any one character, `_`. -/
  | one
  | lit (c : α)

/-- Characters are compared after folding, as `LIKE` does with letters of either case. -/
def fits [DecidableEq α] (fold : α → α) : List (Token α) → List α → Bool
  | [], text => text.isEmpty
  | .many :: pattern, text => text.tails.any (fits fold pattern)
  | .one :: _, [] => false
  | .one :: pattern, _ :: text => fits fold pattern text
  | .lit _ :: _, [] => false
  | .lit c :: pattern, d :: text => decide (fold c = fold d) && fits fold pattern text

/-- The special characters of a pattern. -/
structure Specials (α : Type) where
  escape : α
  many : α
  one : α

/-- A character that nothing escapes. -/
def bare [DecidableEq α] (specials : Specials α) (c : α) : Token α :=
  if c = specials.many then .many else if c = specials.one then .one else .lit c

/-- Read a pattern; one that ends with the escape character matches nothing. -/
def parse [DecidableEq α] (specials : Specials α) : List α → Option (List (Token α))
  | [] => some []
  | [c] => if c = specials.escape then none else some [bare specials c]
  | c :: d :: rest =>
      if c = specials.escape then (parse specials rest).map (.lit d :: ·)
      else (parse specials (d :: rest)).map (bare specials c :: ·)

/-- `text LIKE pattern ESCAPE escape`. -/
def like [DecidableEq α] (fold : α → α) (specials : Specials α) (pattern text : List α) : Bool :=
  match parse specials pattern with
  | none => false
  | some tokens => fits fold tokens text

/-- Put the escape character before every special character. -/
def escaped [DecidableEq α] (specials : Specials α) (text : List α) : List α :=
  text.flatMap (fun c =>
    if c = specials.escape ∨ c = specials.many ∨ c = specials.one then [specials.escape, c]
    else [c])

variable [DecidableEq α] {fold : α → α} {specials : Specials α}

/-! ### Matching -/

/-- Plain characters match their like at the start of the text. -/
theorem fits_lits (needle : List α) (pattern : List (Token α)) (text : List α) :
    fits fold (needle.map .lit ++ pattern) text = true ↔
      ∃ front back, text = front ++ back ∧ front.map fold = needle.map fold ∧
        fits fold pattern back = true := by
  induction needle generalizing text with
  | nil =>
      constructor
      · exact fun rest => ⟨[], text, rfl, rfl, rest⟩
      · rintro ⟨front, back, rfl, same, rest⟩
        rw [List.map_eq_nil_iff.mp same]
        exact rest
  | cons c needle ih =>
      cases text with
      | nil =>
          constructor
          · intro impossible
            cases impossible
          · rintro ⟨front, back, parts, same, rest⟩
            obtain ⟨rfl, rfl⟩ := List.nil_eq_append_iff.mp parts
            cases same
      | cons d text =>
          rw [List.map_cons, List.cons_append, fits, Bool.and_eq_true, decide_eq_true_iff, ih]
          constructor
          · rintro ⟨same, front, back, rfl, alike, rest⟩
            refine ⟨d :: front, back, rfl, ?_, rest⟩
            rw [List.map_cons, List.map_cons, same, alike]
          · rintro ⟨front, back, parts, same, rest⟩
            cases front with
            | nil => cases same
            | cons e front =>
                obtain ⟨rfl, rfl⟩ := List.cons.inj parts
                obtain ⟨first, alike⟩ := List.cons.inj same
                exact ⟨first.symm, front, back, rfl, alike, rest⟩

/-- Everything fits behind the last wildcard. -/
theorem fits_many (text : List α) : fits fold [.many] text = true := by
  rw [fits, List.any_eq_true]
  refine ⟨[], (List.mem_tails _ _).mpr (List.nil_suffix), rfl⟩

/-- Plain characters between two wildcards match where they occur up to folding. -/
theorem fits_infix (needle text : List α) :
    fits fold (.many :: needle.map .lit ++ [.many]) text = true ↔
      needle.map fold <:+: text.map fold := by
  rw [List.cons_append, fits, List.any_eq_true]
  constructor
  · rintro ⟨rest, listed, fitting⟩
    obtain ⟨before, rfl⟩ := (List.mem_tails _ _).mp listed
    obtain ⟨front, back, rfl, same, -⟩ := (fits_lits needle [.many] rest).mp fitting
    refine ⟨before.map fold, back.map fold, ?_⟩
    rw [← same, List.map_append, List.map_append, List.append_assoc]
  · rintro ⟨before, after, same⟩
    obtain ⟨front, rest, rfl, first, second⟩ := List.map_eq_append_iff.mp same.symm
    obtain ⟨start, middle, rfl, starts, needleFolded⟩ := List.map_eq_append_iff.mp first
    refine ⟨middle ++ rest, (List.mem_tails _ _).mpr ⟨start, (List.append_assoc ..).symm⟩, ?_⟩
    exact (fits_lits needle [.many] _).mpr ⟨middle, rest, rfl, needleFolded, fits_many rest⟩

/-! ### Escaping -/

theorem parse_cons {c : α} (notEscape : c ≠ specials.escape) (rest : List α) :
    parse specials (c :: rest) = (parse specials rest).map (bare specials c :: ·) := by
  cases rest with
  | nil =>
      have single : parse specials [c] = some [bare specials c] := by
        rw [parse, if_neg notEscape]
      rw [single, parse]
      rfl
  | cons d rest => rw [parse, if_neg notEscape]

/-- An escaped text is read as its plain characters. -/
theorem parse_escaped (text rest : List α) :
    parse specials (escaped specials text ++ rest) =
      (parse specials rest).map (text.map Token.lit ++ ·) := by
  induction text with
  | nil =>
      cases same : parse specials rest with
      | none => rw [escaped, List.flatMap_nil, List.nil_append, same]; rfl
      | some tokens => rw [escaped, List.flatMap_nil, List.nil_append, same]; rfl
  | cons c text ih =>
      have step : escaped specials (c :: text) =
          (if c = specials.escape ∨ c = specials.many ∨ c = specials.one then [specials.escape, c]
            else [c]) ++ escaped specials text := List.flatMap_cons
      rw [step]
      by_cases special : c = specials.escape ∨ c = specials.many ∨ c = specials.one
      · rw [if_pos special, List.cons_append, List.cons_append, List.cons_append, List.cons_append,
          List.nil_append, parse, if_pos rfl, ih, Option.map_map]
        rfl
      · obtain ⟨notEscape, notMany, notOne⟩ := not_or.mp special |>.imp_right not_or.mp
        have plain : bare specials c = .lit c := by
          rw [bare, if_neg notMany, if_neg notOne]
        rw [if_neg special, List.cons_append, List.cons_append, List.nil_append,
          parse_cons notEscape, plain, ih, Option.map_map]
        rfl

end Like
