/-
Module: PeerCove.Library.BasicString
Layer: Library
Purpose: Texts between double quotes: as a formatter for debugging writes them, and as a reader of
  basic strings reads them; which texts are read as what they were written for.
Trusted boundary: which characters the formatter writes by their number is a parameter
Main exports: BasicString.debugText, BasicString.read, BasicString.read_debugText
-/
import Mathlib.Data.List.Basic

namespace BasicString

/-! ### Writing -/

/-- A character by its number: `\u`, and the number between braces. -/
def hexEscape (c : Char) : List Char :=
  '\\' :: 'u' :: '{' :: (Nat.toDigits 16 c.toNat ++ ['}'])

/-- One character of a text.  `escaped` are those that are written by their number. -/
def debugChar (escaped : Char → Bool) (c : Char) : List Char :=
  if escaped c then hexEscape c
  else if c.toNat = 0 then ['\\', '0']
  else if c = '\t' then ['\\', 't']
  else if c = '\n' then ['\\', 'n']
  else if c = '\r' then ['\\', 'r']
  else if c = '"' then ['\\', '"']
  else if c = '\\' then ['\\', '\\']
  else [c]

def debugText (escaped : Char → Bool) (text : List Char) : List Char :=
  '"' :: (text.flatMap (debugChar escaped) ++ ['"'])

/-! ### Reading -/

def isHexDigit (c : Char) : Bool :=
  ('0' ≤ c && c ≤ '9') || ('a' ≤ c && c ≤ 'f') || ('A' ≤ c && c ≤ 'F')

def hexValue (c : Char) : Nat :=
  if c ≤ '9' then c.toNat - '0'.toNat
  else if c ≤ 'F' then c.toNat - 'A'.toNat + 10
  else c.toNat - 'a'.toNat + 10

/-- A character by its number, in so many digits. -/
def readHex (count : Nat) (chars : List Char) : Option (Char × List Char) :=
  let digits := chars.take count
  if digits.length = count ∧ digits.all isHexDigit = true then
    let value := digits.foldl (fun value digit => value * 16 + hexValue digit) 0
    if value.isValidChar then some (Char.ofNat value, chars.drop count) else none
  else none

/-- What a backslash and the characters after it stand for. -/
def readEscape : List Char → Option (Char × List Char)
  | [] => none
  | c :: rest =>
      if c = 'b' then some (Char.ofNat 8, rest)
      else if c = 't' then some ('\t', rest)
      else if c = 'n' then some ('\n', rest)
      else if c = 'f' then some (Char.ofNat 12, rest)
      else if c = 'r' then some ('\r', rest)
      else if c = '"' then some ('"', rest)
      else if c = '\\' then some ('\\', rest)
      else if c = 'u' then readHex 4 rest
      else if c = 'U' then readHex 8 rest
      else none

/-- Whether a character may stand for itself: no control character but the tab. -/
def isPlain (c : Char) : Bool :=
  c = '\t' || (0x20 ≤ c.toNat && c ≠ '"' && c ≠ '\\' && c.toNat ≠ 0x7f)

/-- The text up to the closing quote, and what comes after it.  Every round takes a character. -/
def readBody : Nat → List Char → Option (List Char × List Char)
  | 0, _ => none
  | _ + 1, [] => none
  | fuel + 1, c :: rest =>
      if c = '"' then some ([], rest)
      else if c = '\\' then
        (readEscape rest).bind (fun found =>
          (readBody fuel found.2).map (fun later => (found.1 :: later.1, later.2)))
      else if isPlain c then
        (readBody fuel rest).map (fun later => (c :: later.1, later.2))
      else none

def read : List Char → Option (List Char × List Char)
  | [] => none
  | c :: rest => if c = '"' then readBody (rest.length + 1) rest else none

/-! ### What is written is read -/

/-- The characters that are read as what they were written for. -/
def Readable (escaped : Char → Bool) (c : Char) : Prop :=
  escaped c = false ∧ c.toNat ≠ 0 ∧ (isPlain c = true ∨ c = '\n' ∨ c = '\r' ∨ c = '"' ∨ c = '\\')

variable {escaped : Char → Bool} {c : Char}

/-- Braces are no digits. -/
theorem readEscape_hex (rest : List Char) :
    readEscape ('u' :: '{' :: rest) = none := by
  have hex : readHex 4 ('{' :: rest) = none := by
    unfold readHex
    dsimp only
    rw [if_neg]
    rintro ⟨_, digits⟩
    rw [List.take_succ_cons, List.all_cons, Bool.and_eq_true_iff] at digits
    exact absurd digits.1 (by decide)
  exact hex

theorem readBody_escape (fuel : Nat) {rest later : List Char}
    (found : readEscape rest = some (c, later)) :
    readBody (fuel + 1) ('\\' :: rest) =
      (readBody fuel later).map (fun text => (c :: text.1, text.2)) := by
  have step : readBody (fuel + 1) ('\\' :: rest) = (readEscape rest).bind (fun found =>
      (readBody fuel found.2).map (fun later => (found.1 :: later.1, later.2))) := rfl
  rw [step, found, Option.bind_some]

theorem readBody_noEscape (fuel : Nat) {rest : List Char} (none_ : readEscape rest = none) :
    readBody (fuel + 1) ('\\' :: rest) = none := by
  have step : readBody (fuel + 1) ('\\' :: rest) = (readEscape rest).bind (fun found =>
      (readBody fuel found.2).map (fun later => (found.1 :: later.1, later.2))) := rfl
  rw [step, none_, Option.bind_none]

/-- One character of a text that is readable. -/
theorem readBody_readable (readable : Readable escaped c) (fuel : Nat) (rest : List Char) :
    readBody (fuel + 1) (debugChar escaped c ++ rest) =
      (readBody fuel rest).map (fun later => (c :: later.1, later.2)) := by
  obtain ⟨written, some_, kind⟩ := readable
  unfold debugChar
  rw [if_neg (ne_true_of_eq_false written), if_neg some_]
  by_cases tab : c = '\t'
  · subst tab
    exact readBody_escape fuel rfl
  · rw [if_neg tab]
    by_cases line : c = '\n'
    · subst line
      exact readBody_escape fuel rfl
    · rw [if_neg line]
      by_cases carriage : c = '\r'
      · subst carriage
        exact readBody_escape fuel rfl
      · rw [if_neg carriage]
        by_cases quote : c = '"'
        · subst quote
          exact readBody_escape fuel rfl
        · rw [if_neg quote]
          by_cases backslash : c = '\\'
          · subst backslash
            exact readBody_escape fuel rfl
          · rw [if_neg backslash]
            have plain : isPlain c = true := by
              rcases kind with plain | same | same | same | same
              · exact plain
              · exact absurd same line
              · exact absurd same carriage
              · exact absurd same quote
              · exact absurd same backslash
            change readBody (fuel + 1) (c :: rest) = _
            rw [readBody, if_neg quote, if_neg backslash, if_pos plain]

/-- Any other character ends the reading. -/
theorem readBody_unreadable (unreadable : ¬ Readable escaped c) (fuel : Nat) (rest : List Char) :
    readBody fuel (debugChar escaped c ++ rest) = none := by
  cases fuel with
  | zero => rfl
  | succ fuel =>
      unfold debugChar
      by_cases written : escaped c = true
      · rw [if_pos written]
        exact readBody_noEscape fuel (readEscape_hex _)
      · rw [if_neg written]
        by_cases nul : c.toNat = 0
        · rw [if_pos nul]
          exact readBody_noEscape fuel rfl
        · rw [if_neg nul]
          have fine : ∀ kind : isPlain c = true ∨ c = '\n' ∨ c = '\r' ∨ c = '"' ∨ c = '\\',
              False := fun kind =>
            unreadable ⟨Bool.eq_false_iff.mpr written, nul, kind⟩
          obtain ⟨noPlain, noLine, noCarriage, noQuote, noBackslash⟩ :
              isPlain c ≠ true ∧ c ≠ '\n' ∧ c ≠ '\r' ∧ c ≠ '"' ∧ c ≠ '\\' :=
            ⟨fun same => fine (.inl same), fun same => fine (.inr (.inl same)),
              fun same => fine (.inr (.inr (.inl same))),
              fun same => fine (.inr (.inr (.inr (.inl same)))),
              fun same => fine (.inr (.inr (.inr (.inr same))))⟩
          have noTab : c ≠ '\t' := by
            rintro rfl
            exact noPlain rfl
          rw [if_neg noTab, if_neg noLine, if_neg noCarriage, if_neg noQuote, if_neg noBackslash]
          change readBody (fuel + 1) (c :: rest) = none
          rw [readBody, if_neg noQuote, if_neg noBackslash, if_neg noPlain]

/-- The characters in front of the closing quote. -/
theorem readBody_debug (text rest : List Char) {fuel : Nat} (enough : text.length < fuel)
    (found : List Char × List Char) :
    readBody fuel (text.flatMap (debugChar escaped) ++ '"' :: rest) = some found ↔
      (∀ c ∈ text, Readable escaped c) ∧ found = (text, rest) := by
  induction text generalizing fuel found with
  | nil =>
      cases fuel with
      | zero => exact absurd enough (Nat.not_lt_zero _)
      | succ fuel =>
          have step : readBody (fuel + 1) ([].flatMap (debugChar escaped) ++ '"' :: rest) =
              some ([], rest) := rfl
          rw [step, Option.some.injEq, eq_comm]
          exact ⟨fun same => ⟨fun _ listed => absurd listed List.not_mem_nil, same⟩, And.right⟩
  | cons c text ih =>
      cases fuel with
      | zero => exact absurd enough (Nat.not_lt_zero _)
      | succ fuel =>
          rw [List.flatMap_cons, List.append_assoc]
          by_cases readable : Readable escaped c
          · rw [readBody_readable readable, Option.map_eq_some_iff]
            constructor
            · rintro ⟨later, read, rfl⟩
              obtain ⟨all, rfl⟩ := (ih (Nat.lt_of_succ_lt_succ enough) later).mp read
              exact ⟨List.forall_mem_cons.mpr ⟨readable, all⟩, rfl⟩
            · rintro ⟨all, rfl⟩
              exact ⟨(text, rest), (ih (Nat.lt_of_succ_lt_succ enough) _).mpr
                ⟨(List.forall_mem_cons.mp all).2, rfl⟩, rfl⟩
          · rw [readBody_unreadable readable]
            constructor
            · intro impossible
              cases impossible
            · rintro ⟨all, _⟩
              exact absurd (List.forall_mem_cons.mp all).1 readable

theorem length_debugChar (escaped : Char → Bool) (c : Char) :
    1 ≤ (debugChar escaped c).length := by
  unfold debugChar hexEscape
  repeat' split
  all_goals exact Nat.succ_le_succ (Nat.zero_le _)

/-- A text is read as itself when all its characters are readable, and not at all otherwise. -/
theorem read_debugText (escaped : Char → Bool) (text rest : List Char)
    (found : List Char × List Char) :
    read (debugText escaped text ++ rest) = some found ↔
      (∀ c ∈ text, Readable escaped c) ∧ found = (text, rest) := by
  have layout : debugText escaped text ++ rest =
      '"' :: (text.flatMap (debugChar escaped) ++ '"' :: rest) := by
    unfold debugText
    rw [List.cons_append, List.append_assoc]
    rfl
  have longer : ∀ text : List Char, text.length ≤ (text.flatMap (debugChar escaped)).length := by
    intro text
    induction text with
    | nil => exact Nat.le_refl _
    | cons c text ih =>
        have some_ := length_debugChar escaped c
        rw [List.flatMap_cons, List.length_append, List.length_cons]
        omega
  have enough : text.length < (text.flatMap (debugChar escaped) ++ '"' :: rest).length + 1 := by
    have bound := longer text
    rw [List.length_append]
    omega
  rw [layout]
  exact readBody_debug text rest enough found

end BasicString
