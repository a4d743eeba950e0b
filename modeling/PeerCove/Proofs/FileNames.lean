/-
Module: PeerCove.Proofs.FileNames
Layer: Proofs
Purpose: Which names of received files are stored under a safe name.
Trusted boundary: the device names are the documented ones of Windows
Main exports: FileNames.SafeName, FileNames.PlainName, FileNames.sanitizeFileName_safe_iff
-/
import PeerCove.Chat.FileNames
import PeerCove.Library.Trimming

namespace PeerCove.FileNames

open Trimming

/-! ### Safe names -/

/-- Windows takes the superscripts of its code page for digits. -/
def superscripts : List Char :=
  ['¹', '²', '³']

/-- A serial or parallel port with one of the given digits, in any case. -/
def PortStem (digit : Char → Prop) (stem : List Char) : Prop :=
  ∃ c, digit c ∧ (stem.map Text.toAsciiUpper = "COM".toList ++ [c] ∨
    stem.map Text.toAsciiUpper = "LPT".toList ++ [c])

/-- The part of a name before its first dot is a device of Windows. -/
def DeviceStem (stem : List Char) : Prop :=
  stem.map Text.toAsciiUpper ∈ ["CON".toList, "PRN".toList, "AUX".toList, "NUL".toList] ∨
    PortStem (fun c => Text.isAsciiDigit c = true ∨ c ∈ superscripts) stem

def stemOf (chars : List Char) : List Char :=
  chars.takeWhile (· != '.')

/-- A character that may stand anywhere in a name. -/
def Allowed (c : Char) : Prop :=
  isSeparator c = false ∧ Text.isControl c = false ∧ c ∉ windowsChars

/-- What the inbox can store without surprises. -/
structure SafeName (saved : String) : Prop where
  filled : saved ≠ ""
  noDot : saved ≠ "."
  noParent : saved ≠ ".."
  allowed : ∀ c ∈ saved.toList, Allowed c
  front : ∀ c, saved.toList.head? = some c → c ≠ '.' ∧ c ≠ ' '
  back : ∀ c, saved.toList.getLast? = some c → c ≠ '.' ∧ c ≠ ' '
  device : ¬ DeviceStem (stemOf saved.toList)
  /-- The suffixes of partial transfers and of what is kept about them. -/
  suffixes : ∀ suffix ∈ [".part", ".pcvmeta", ".pcvresume"], ¬ suffix.toList <:+ saved.toList

/-! ### The names for which the function is right -/

/-- White space that is not replaced by an underscore before blanks are taken off. -/
def isBlank (c : Char) : Bool :=
  Text.isWhitespace c && !Text.isControl c

def isDot (c : Char) : Bool :=
  c == '.'

/-- A middle part without the three things that slip through. -/
structure PlainMiddle (middle : List Char) : Prop where
  front : middle.head? ≠ some '.'
  back : middle.getLast? ≠ some '.'
  port : ¬ PortStem (· ∈ superscripts) (stemOf middle)
  marker : ¬ ".pcvresume".toList <:+ middle

/-- At each end of the last component there are blanks, then dots, then blanks, each possibly
none; what they surround neither starts nor ends with a further dot or blank, is no port with a
superscript and does not end in the suffix of a resumable transfer. -/
def PlainName (name : String) : Prop :=
  ∃ middle, Layered isBlank isDot (baseName name).toList middle ∧
    (∀ c, middle.head? = some c → isBlank c = false) ∧
      (∀ c, middle.getLast? = some c → isBlank c = false) ∧ PlainMiddle middle

/-! ### Characters -/

theorem forall_mem_of_all {chars : List Char} {good : Char → Prop} [DecidablePred good]
    (all : chars.all (fun c => decide (good c)) = true) : ∀ c ∈ chars, good c := by
  intro c member
  exact of_decide_eq_true (List.all_eq_true.mp all c member)

theorem cleanChar_allowed {c : Char} (inside : isSeparator c = false) : Allowed (cleanChar c) := by
  unfold cleanChar
  split
  · exact ⟨by decide, by decide, by decide⟩
  · next kept =>
      simp only [Bool.or_eq_true, List.contains_iff_mem, not_or, Bool.not_eq_true] at kept
      exact ⟨inside, kept.1, kept.2⟩

/-- Only the underscore is made. -/
theorem cleanChar_eq_iff {c d : Char} (plain : cleanChar d = d) (other : d ≠ '_') :
    cleanChar c = d ↔ c = d := by
  constructor
  · intro made
    unfold cleanChar at made
    split at made
    · exact absurd made.symm other
    · exact made
  · intro same
    rw [same, plain]

theorem cleanChar_isWhitespace (c : Char) : Text.isWhitespace (cleanChar c) = isBlank c := by
  have excluded : ∀ c ∈ windowsChars, Text.isWhitespace c = false :=
    forall_mem_of_all (by decide)
  have underscore : Text.isWhitespace '_' = false := by decide
  unfold cleanChar isBlank
  split
  · next replaced =>
      rw [underscore]
      rcases Bool.or_eq_true _ _ |>.mp replaced with control | reserved
      · rw [control, Bool.not_true, Bool.and_false]
      · rw [excluded c (List.contains_iff_mem.mp reserved), Bool.false_and]
  · next kept =>
      have printed : Text.isControl c = false := by
        cases control : Text.isControl c with
        | false => rfl
        | true => rw [control, Bool.true_or] at kept; exact absurd rfl kept
      rw [printed, Bool.not_false, Bool.and_true]

theorem cleanChar_isDot (c : Char) : isDot (cleanChar c) = isDot c := by
  have dotted : cleanChar c = '.' ↔ c = '.' := cleanChar_eq_iff (by decide) (by decide)
  unfold isDot
  by_cases dot : c = '.'
  · rw [dotted.mpr dot, dot]
  · rw [beq_false_of_ne dot, beq_false_of_ne (fun same => dot (dotted.mp same))]

theorem cleanChar_upper_iff {c d : Char} (plain : cleanChar d = d) (other : d ≠ '_') :
    Text.toAsciiUpper (cleanChar c) = d ↔ Text.toAsciiUpper c = d := by
  have excluded : ∀ c ∈ windowsChars, Text.toAsciiUpper c = c :=
    forall_mem_of_all (by decide)
  have underscore : Text.toAsciiUpper '_' = '_' := by decide
  by_cases same : cleanChar c = c
  · rw [same]
  · have replaced : cleanChar c = '_' := by
      unfold cleanChar at same ⊢
      split at same
      · next bad => rw [if_pos bad]
      · exact absurd rfl same
    have kept : Text.toAsciiUpper c = c := by
      unfold cleanChar at same
      split at same
      · next bad =>
          rcases Bool.or_eq_true _ _ |>.mp bad with control | reserved
          · unfold Text.toAsciiUpper
            rw [if_neg]
            unfold Text.isControl at control
            unfold Text.isAsciiLower
            simp only [Bool.or_eq_true, Bool.and_eq_true, decide_eq_true_eq] at control ⊢
            omega
          · exact excluded c (List.contains_iff_mem.mp reserved)
      · exact absurd rfl same
    rw [replaced, underscore, kept]
    constructor
    · intro made
      exact absurd made.symm other
    · intro made
      rw [made, plain] at replaced
      exact absurd replaced other

/-- A text that two maps make of the same characters is made of the same lists. -/
theorem map_eq_iff_map_eq {one two : Char → Char} {chars text : List Char}
    (agree : ∀ d ∈ text, ∀ c, one c = d ↔ two c = d) :
    chars.map one = text ↔ chars.map two = text := by
  induction text generalizing chars with
  | nil => rw [List.map_eq_nil_iff, List.map_eq_nil_iff]
  | cons d text ih =>
      have later := fun other member => agree other (List.mem_cons_of_mem d member)
      have here := agree d List.mem_cons_self
      cases chars with
      | nil => exact Iff.rfl
      | cons c chars =>
          rw [List.map_cons, List.map_cons, List.cons_eq_cons, List.cons_eq_cons, ih later, here c]

/-- A text of characters that are neither replaced nor made. -/
def Unreplaced (text : List Char) : Prop :=
  ∀ d ∈ text, cleanChar d = d ∧ d ≠ '_'

theorem suffix_cleaned_iff {text chars : List Char} (unreplaced : Unreplaced text) :
    text <:+ chars.map cleanChar ↔ text <:+ chars := by
  have same : ∀ part : List Char, part.map cleanChar = text ↔ part = text := by
    intro part
    have unmapped : part.map cleanChar = text ↔ part.map id = text :=
      map_eq_iff_map_eq (fun d member c =>
        cleanChar_eq_iff (unreplaced d member).1 (unreplaced d member).2)
    rwa [List.map_id] at unmapped
  constructor
  · rintro ⟨front, whole⟩
    obtain ⟨before, after, parts, _, made⟩ := List.map_eq_append_iff.mp whole.symm
    rw [parts, (same after).mp made]
    exact List.suffix_append before text
  · rintro ⟨front, whole⟩
    rw [← whole, List.map_append, (same text).mpr rfl]
    exact List.suffix_append _ text

theorem stemOf_cleaned (chars : List Char) :
    stemOf (chars.map cleanChar) = (stemOf chars).map cleanChar := by
  unfold stemOf
  rw [List.takeWhile_map]
  congr 2
  funext c
  have dotted := cleanChar_isDot c
  unfold isDot at dotted
  simp only [Function.comp_apply, bne, dotted]

theorem portStem_cleaned (stem : List Char) :
    PortStem (· ∈ superscripts) (stem.map cleanChar) ↔ PortStem (· ∈ superscripts) stem := by
  have digits : Unreplaced superscripts := forall_mem_of_all (by decide)
  have ports : Unreplaced ("COM".toList ++ "LPT".toList) := forall_mem_of_all (by decide)
  have same : ∀ c ∈ superscripts, ∀ port, (∀ d ∈ port, d ∈ "COM".toList ++ "LPT".toList) →
      ((stem.map cleanChar).map Text.toAsciiUpper = port ++ [c] ↔
        stem.map Text.toAsciiUpper = port ++ [c]) := by
    intro c digit port letters
    rw [List.map_map]
    apply map_eq_iff_map_eq
    intro d member made
    have plain : cleanChar d = d ∧ d ≠ '_' := by
      rcases List.mem_append.mp member with letter | last
      · exact ports d (letters d letter)
      · rw [List.mem_singleton.mp last]
        exact digits c digit
    exact cleanChar_upper_iff plain.1 plain.2
  have com : ∀ d ∈ "COM".toList, d ∈ "COM".toList ++ "LPT".toList :=
    fun d member => List.mem_append_left _ member
  have lpt : ∀ d ∈ "LPT".toList, d ∈ "COM".toList ++ "LPT".toList :=
    fun d member => List.mem_append_right _ member
  unfold PortStem
  constructor
  · rintro ⟨c, digit, made⟩
    exact ⟨c, digit, made.imp (same c digit _ com).mp (same c digit _ lpt).mp⟩
  · rintro ⟨c, digit, made⟩
    exact ⟨c, digit, made.imp (same c digit _ com).mpr (same c digit _ lpt).mpr⟩

theorem plainMiddle_cleaned (middle : List Char) :
    PlainMiddle (middle.map cleanChar) ↔ PlainMiddle middle := by
  have dotted : ∀ char : Option Char, char.map cleanChar = some '.' ↔ char = some '.' := by
    intro char
    cases char with
    | none => exact Iff.rfl
    | some c =>
        rw [Option.map_some, Option.some_inj, Option.some_inj]
        exact cleanChar_eq_iff (by decide) (by decide)
  have marker : ".pcvresume".toList <:+ middle.map cleanChar ↔ ".pcvresume".toList <:+ middle :=
    suffix_cleaned_iff (forall_mem_of_all (by decide))
  have port := portStem_cleaned (stemOf middle)
  rw [← stemOf_cleaned] at port
  constructor
  · intro plain
    have first := plain.front
    have final := plain.back
    rw [List.head?_map, Ne, dotted] at first
    rw [List.getLast?_map, Ne, dotted] at final
    exact ⟨first, final, fun found => plain.port (port.mpr found),
      fun found => plain.marker (marker.mpr found)⟩
  · intro plain
    have first := plain.front
    have final := plain.back
    rw [Ne, ← dotted, ← List.head?_map] at first
    rw [Ne, ← dotted, ← List.getLast?_map] at final
    exact ⟨first, final, fun found => plain.port (port.mp found),
      fun found => plain.marker (marker.mp found)⟩

/-! ### What the function does on characters -/

theorem split_head (s : String) :
    (Text.split '.' s).headD s = String.ofList (stemOf s.toList) := by
  have parts : ∀ chars, ∃ rest, Text.splitChars '.' chars = stemOf chars :: rest := by
    intro chars
    induction chars with
    | nil => exact ⟨[], rfl⟩
    | cons c chars ih =>
        obtain ⟨rest, made⟩ := ih
        rw [Text.splitChars, made]
        unfold stemOf
        by_cases dot : c = '.'
        · rw [if_pos dot, List.takeWhile_cons_of_neg (by simp [dot])]
          exact ⟨_, rfl⟩
        · rw [if_neg dot, List.takeWhile_cons_of_pos (by simp [dot])]
          exact ⟨rest, rfl⟩
  obtain ⟨rest, made⟩ := parts s.toList
  rw [Text.split, made]
  rfl

/-- What is trimmed, as characters of the last component. -/
def core (name : String) : List Char :=
  (strip isBlank isDot (baseName name).toList).map cleanChar

theorem trimmed_eq_core (name : String) :
    Text.trim (Text.trimMatches (· == '.') (Text.trim
      (String.ofList ((baseName name).toList.map cleanChar)))) = String.ofList (core name) := by
  have blank : (fun c => Text.isWhitespace (cleanChar c)) = isBlank :=
    funext cleanChar_isWhitespace
  have dot : (fun c => (cleanChar c == '.')) = isDot := funext cleanChar_isDot
  have stages : trim Text.isWhitespace (trim (· == '.') (trim Text.isWhitespace
      ((baseName name).toList.map cleanChar))) = core name := by
    rw [trim_map, trim_map, trim_map, blank, dot]
    rfl
  rw [← stages]
  simp only [Text.trim, Text.trimMatches, String.toList_ofList]
  rfl

def suffixed (chars : List Char) : Bool :=
  ".part".toList.isSuffixOf chars || ".pcvmeta".toList.isSuffixOf chars

def marked (chars : List Char) : List Char :=
  if reservedStem (String.ofList (stemOf chars)) then '_' :: chars else chars

/-- The name that is made of what is left after trimming. -/
def kept (chars : List Char) : List Char :=
  if suffixed (marked chars) then marked chars ++ ".file".toList else marked chars

theorem underscored (chars : List Char) :
    "_" ++ String.ofList chars = String.ofList ('_' :: chars) := by
  have split : '_' :: chars = "_".toList ++ chars := rfl
  rw [split, String.ofList_append, String.ofList_toList]

/-- The last step, on any marked name. -/
theorem suffixed_eq (chars : List Char) :
    (if Text.endsWith (String.ofList chars) ".part" || Text.endsWith (String.ofList chars)
        ".pcvmeta" then some (String.ofList chars ++ ".file") else some (String.ofList chars)) =
      some (String.ofList (if suffixed chars then chars ++ ".file".toList else chars)) := by
  have appended : String.ofList chars ++ ".file" = String.ofList (chars ++ ".file".toList) := by
    rw [String.ofList_append, String.ofList_toList]
  have tested : (Text.endsWith (String.ofList chars) ".part" || Text.endsWith
      (String.ofList chars) ".pcvmeta") = suffixed chars := by
    unfold Text.endsWith suffixed
    rw [String.toList_ofList (l := chars)]
  rw [tested, appended]
  cases suffixed chars <;> rfl

theorem sanitizeFileName_eq (name : String) :
    sanitizeFileName name =
      if core name = [] then none else some (String.ofList (kept (core name))) := by
  have filled : String.ofList (core name) = "" ↔ core name = [] := by
    rw [← String.toList_eq_nil_iff, String.toList_ofList]
  unfold sanitizeFileName kept marked
  simp only [trimmed_eq_core, filled, split_head, String.toList_ofList, underscored]
  by_cases empty : core name = []
  · rw [if_pos empty, if_pos empty]
  · rw [if_neg empty, if_neg empty]
    cases reservedStem (String.ofList (stemOf (core name))) with
    | false =>
        simp only [Bool.false_eq_true, if_false]
        rw [suffixed_eq]
    | true =>
        simp only [if_true]
        rw [suffixed_eq]

/-! ### The devices that are looked for -/

theorem isAsciiDigitByte_eq {c : Char} (one : c.utf8Size = 1) :
    (String.utf8EncodeChar c)[0]?.any isAsciiDigitByte = Text.isAsciiDigit c := by
  have small : c.val.toNat ≤ 127 := UInt32.le_iff_toNat_le.mp (Char.utf8Size_eq_one_iff.mp one)
  have byte : c.val.toUInt8.toNat = c.val.toNat := by
    rw [UInt32.toNat_toUInt8, Nat.mod_eq_of_lt (by omega)]
  rw [String.utf8EncodeChar_eq_singleton one]
  change isAsciiDigitByte c.val.toUInt8 = _
  unfold isAsciiDigitByte Text.isAsciiDigit
  rw [byte]
  rfl

theorem length_asciiBytes {chars : List Char} (ascii : ∀ c ∈ chars, c.utf8Size = 1) :
    (chars.flatMap String.utf8EncodeChar).length = chars.length := by
  induction chars with
  | nil => rfl
  | cons c rest ih =>
      have here := ascii c List.mem_cons_self
      rw [List.flatMap_cons, List.length_append, String.length_utf8EncodeChar, here,
        ih (fun other member => ascii other (List.mem_cons_of_mem c member)), List.length_cons]
      exact Nat.add_comm 1 _

/-- One byte more than the port's name is one character more. -/
theorem port_iff (upper : List Char) {port : List Char} (three : port.length = 3)
    (ascii : ∀ c ∈ port, c.utf8Size = 1) :
    (port.isPrefixOf upper = true ∧ Text.len (String.ofList upper) = 4 ∧
      (Text.utf8Bytes (String.ofList upper))[3]?.any isAsciiDigitByte = true) ↔
      ∃ c, Text.isAsciiDigit c = true ∧ upper = port ++ [c] := by
  have front : (port.flatMap String.utf8EncodeChar).length = 3 := by
    rw [length_asciiBytes ascii, three]
  have bytes : ∀ rest, Text.utf8Bytes (String.ofList (port ++ rest)) =
      port.flatMap String.utf8EncodeChar ++ rest.flatMap String.utf8EncodeChar := by
    intro rest
    rw [Text.utf8Bytes, String.toList_ofList, List.flatMap_append]
  have fourth : ∀ c, (Text.utf8Bytes (String.ofList (port ++ [c])))[3]? =
      (String.utf8EncodeChar c)[0]? := by
    intro c
    rw [bytes, List.getElem?_append_right (by rw [front]), front, List.flatMap_singleton]
  rw [← Text.utf8Bytes_length]
  constructor
  · rintro ⟨starts, length, digit⟩
    obtain ⟨rest, rfl⟩ := List.isPrefixOf_iff_prefix.mp starts
    rw [bytes, List.length_append, front] at length
    cases rest with
    | nil => cases length
    | cons c rest =>
        have positive := Char.utf8Size_pos c
        rw [List.flatMap_cons, List.length_append, String.length_utf8EncodeChar] at length
        have nothing : rest = [] := by
          cases rest with
          | nil => rfl
          | cons d rest =>
              have more := Char.utf8Size_pos d
              rw [List.flatMap_cons, List.length_append, String.length_utf8EncodeChar] at length
              omega
        subst nothing
        have one : c.utf8Size = 1 := by
          rw [List.flatMap_nil, List.length_nil] at length
          omega
        rw [fourth, isAsciiDigitByte_eq one] at digit
        exact ⟨c, digit, rfl⟩
  · rintro ⟨c, digit, rfl⟩
    have one : c.utf8Size = 1 := by
      rw [Char.utf8Size_eq_one_iff, UInt32.le_iff_toNat_le]
      unfold Text.isAsciiDigit at digit
      simp only [Bool.and_eq_true, decide_eq_true_eq] at digit
      have upper : c.val.toNat ≤ 57 := digit.2
      change c.val.toNat ≤ 127
      omega
    refine ⟨List.isPrefixOf_iff_prefix.mpr (List.prefix_append port [c]), ?_, ?_⟩
    · rw [bytes, List.length_append, front, List.flatMap_singleton, String.length_utf8EncodeChar,
        one]
    · rw [fourth, isAsciiDigitByte_eq one]
      exact digit

theorem ofList_eq_iff {chars : List Char} {s : String} :
    String.ofList chars = s ↔ chars = s.toList := by
  constructor
  · intro same
    rw [← same, String.toList_ofList]
  · intro same
    rw [same, String.ofList_toList]

theorem reservedStem_iff (stem : List Char) :
    reservedStem (String.ofList stem) = true ↔
      stem.map Text.toAsciiUpper ∈ ["CON".toList, "PRN".toList, "AUX".toList, "NUL".toList] ∨
        PortStem (Text.isAsciiDigit · = true) stem := by
  have upper : Text.toAsciiUppercase (String.ofList stem) =
      String.ofList (stem.map Text.toAsciiUpper) := by
    rw [Text.toAsciiUppercase, String.toList_ofList (l := stem)]
  have com : ("COM".toList.isPrefixOf _ = true ∧ _) ↔ _ :=
    port_iff (stem.map Text.toAsciiUpper) rfl (forall_mem_of_all (by decide))
  have lpt : ("LPT".toList.isPrefixOf _ = true ∧ _) ↔ _ :=
    port_iff (stem.map Text.toAsciiUpper) rfl (forall_mem_of_all (by decide))
  have ports : PortStem (Text.isAsciiDigit · = true) stem ↔
      (∃ c, Text.isAsciiDigit c = true ∧ stem.map Text.toAsciiUpper = "COM".toList ++ [c]) ∨
        ∃ c, Text.isAsciiDigit c = true ∧ stem.map Text.toAsciiUpper = "LPT".toList ++ [c] := by
    unfold PortStem
    rw [← exists_or]
    exact exists_congr (fun c => and_or_left)
  rw [ports, ← com, ← lpt, ← or_and_right]
  unfold reservedStem
  simp only [upper, Text.startsWith, Bool.or_eq_true, Bool.and_eq_true, beq_iff_eq,
    List.contains_iff_mem, List.mem_cons, List.not_mem_nil, ofList_eq_iff, String.toList_ofList, and_assoc]

/-! ### Ends and stems of the result -/

theorem suffixed_iff (chars : List Char) :
    suffixed chars = true ↔ ".part".toList <:+ chars ∨ ".pcvmeta".toList <:+ chars := by
  unfold suffixed
  rw [Bool.or_eq_true, List.isSuffixOf_iff_suffix, List.isSuffixOf_iff_suffix]

/-- A name does not end in two suffixes of which none is the end of the other. -/
theorem suffix_unique {one two chars : List Char} (ends : one <:+ chars)
    (apart : ¬ one <:+ two ∧ ¬ two <:+ one) : ¬ two <:+ chars := by
  intro other
  rcases List.suffix_or_suffix_of_suffix ends other with within | within
  · exact apart.1 within
  · exact apart.2 within

theorem not_suffixed {ending chars : List Char} (ends : ending <:+ chars)
    (part : ¬ ending <:+ ".part".toList ∧ ¬ ".part".toList <:+ ending)
    (meta' : ¬ ending <:+ ".pcvmeta".toList ∧ ¬ ".pcvmeta".toList <:+ ending) :
    suffixed chars = false := by
  rw [← Bool.not_eq_true, suffixed_iff, not_or]
  exact ⟨suffix_unique ends part, suffix_unique ends meta'⟩

theorem suffix_marked {chars : List Char} : chars <:+ marked chars := by
  unfold marked
  split
  · exact List.suffix_cons '_' chars
  · exact List.suffix_refl chars

theorem getLast?_marked {chars : List Char} (filled : chars ≠ []) :
    (marked chars).getLast? = chars.getLast? := by
  obtain ⟨front, whole⟩ := @suffix_marked chars
  rw [← whole, List.getLast?_append_of_ne_nil front filled]

theorem marked_of_not_reserved {chars : List Char}
    (free : ¬ reservedStem (String.ofList (stemOf chars)) = true) : marked chars = chars :=
  if_neg free

theorem head?_kept {chars : List Char} (filled : chars ≠ []) :
    (kept chars).head? = (marked chars).head? := by
  have some : marked chars ≠ [] := fun none => filled (List.suffix_nil.mp (none ▸ suffix_marked))
  unfold kept
  split
  · rw [List.head?_append_of_ne_nil _ some]
  · rfl

/-- A dot of the name itself ends its stem. -/
theorem stemOf_append {chars rest : List Char} (dot : '.' ∈ chars) :
    stemOf (chars ++ rest) = stemOf chars := by
  unfold stemOf
  rw [List.takeWhile_append]
  split
  · next whole =>
      have each := (List.takeWhile_eq_self_iff (p := (· != '.'))).mp
        (List.IsPrefix.eq_of_length (List.takeWhile_prefix _) whole)
      exact absurd (each '.' dot) (by decide)
  · rfl

theorem stemOf_kept (chars : List Char) : stemOf (kept chars) = stemOf (marked chars) := by
  unfold kept
  split
  · next ends =>
      have dot : '.' ∈ marked chars := by
        rcases (suffixed_iff _).mp ends with part | meta'
        · exact part.subset (by decide)
        · exact meta'.subset (by decide)
      exact stemOf_append dot
  · rfl

/-- A device of Windows is caught or is a port with a superscript. -/
theorem deviceStem_iff (stem : List Char) :
    DeviceStem stem ↔
      reservedStem (String.ofList stem) = true ∨ PortStem (· ∈ superscripts) stem := by
  have ports : PortStem (fun c => Text.isAsciiDigit c = true ∨ c ∈ superscripts) stem ↔
      PortStem (Text.isAsciiDigit · = true) stem ∨ PortStem (· ∈ superscripts) stem := by
    unfold PortStem
    rw [← exists_or]
    exact exists_congr (fun c => or_and_right)
  rw [reservedStem_iff, DeviceStem, ports, or_assoc]

/-- A port's name ends with its number. -/
theorem getLast?_port {upper : List Char} {c : Char}
    (port : upper = "COM".toList ++ [c] ∨ upper = "LPT".toList ++ [c]) :
    upper.getLast? = some c := by
  rcases port with com | lpt
  · rw [com]
    exact List.getLast?_concat
  · rw [lpt]
    exact List.getLast?_concat

theorem not_reserved_of_port {stem : List Char} (port : PortStem (· ∈ superscripts) stem) :
    ¬ reservedStem (String.ofList stem) = true := by
  have named : ∀ device ∈ ["CON".toList, "PRN".toList, "AUX".toList, "NUL".toList],
      device.length = 3 := by decide
  have undigit : ∀ c ∈ superscripts, ¬ Text.isAsciiDigit c = true :=
    forall_mem_of_all (by decide)
  obtain ⟨c, superscript, made⟩ := port
  have length : (stem.map Text.toAsciiUpper).length = 4 := by
    rcases made with com | lpt
    · rw [com]; rfl
    · rw [lpt]; rfl
  intro reserved
  rcases (reservedStem_iff stem).mp reserved with device | ⟨d, digit, same⟩
  · rw [named _ device] at length
    cases length
  · have final : some c = some d := (getLast?_port made).symm.trans (getLast?_port same)
    exact undigit c superscript (Option.some.inj final ▸ digit)

theorem not_deviceStem_underscore (stem : List Char) : ¬ DeviceStem ('_' :: stem) := by
  have named : ∀ device ∈ ["CON".toList, "PRN".toList, "AUX".toList, "NUL".toList],
      device.head? ≠ some '_' := by decide
  have head : (('_' :: stem).map Text.toAsciiUpper).head? = some '_' := rfl
  rintro (device | ⟨c, _, com | lpt⟩)
  · exact named _ device head
  · rw [com] at head
    cases Option.some.inj head
  · rw [lpt] at head
    cases Option.some.inj head

/-! ### When the result is safe -/

/-- A name that starts with a dot has no stem and gets no mark. -/
theorem front_of_safe {chars : List Char} (filled : chars ≠ [])
    (safe : SafeName (String.ofList (kept chars))) : chars.head? ≠ some '.' := by
  intro dot
  have stemless : stemOf chars = [] := by
    cases chars with
    | nil => exact absurd rfl filled
    | cons c rest =>
        cases Option.some.inj dot
        rfl
  have unmarked : marked chars = chars := by
    apply marked_of_not_reserved
    rw [stemless]
    decide
  have front := safe.front '.'
  rw [String.toList_ofList, head?_kept filled, unmarked] at front
  exact (front dot).1 rfl

theorem back_of_safe {chars : List Char} (filled : chars ≠ [])
    (safe : SafeName (String.ofList (kept chars))) : chars.getLast? ≠ some '.' := by
  intro dot
  have ends : ['.'] <:+ marked chars := by
    obtain ⟨front, whole⟩ := List.getLast?_eq_some_iff.mp dot
    exact List.IsSuffix.trans ⟨front, whole.symm⟩ suffix_marked
  have plain : suffixed (marked chars) = false := not_suffixed ends (by decide) (by decide)
  have same : kept chars = marked chars := if_neg (by rw [plain]; exact Bool.false_ne_true)
  have back := safe.back '.'
  rw [String.toList_ofList, same, getLast?_marked filled] at back
  exact (back dot).1 rfl

theorem port_of_safe {chars : List Char} (safe : SafeName (String.ofList (kept chars))) :
    ¬ PortStem (· ∈ superscripts) (stemOf chars) := by
  intro port
  have unmarked : marked chars = chars := marked_of_not_reserved (not_reserved_of_port port)
  have free := safe.device
  rw [String.toList_ofList, stemOf_kept, unmarked, deviceStem_iff] at free
  exact free (.inr port)

theorem marker_of_safe {chars : List Char} (safe : SafeName (String.ofList (kept chars))) :
    ¬ ".pcvresume".toList <:+ chars := by
  intro marker
  have ends : ".pcvresume".toList <:+ marked chars := marker.trans suffix_marked
  have plain : suffixed (marked chars) = false := not_suffixed ends (by decide) (by decide)
  have same : kept chars = marked chars := if_neg (by rw [plain]; exact Bool.false_ne_true)
  have free := safe.suffixes ".pcvresume" (by decide)
  rw [String.toList_ofList (l := kept chars), same] at free
  exact free ends

theorem kept_allowed {chars : List Char} (allowed : ∀ c ∈ chars, Allowed c) :
    ∀ c ∈ kept chars, Allowed c := by
  have within : ∀ c ∈ marked chars, Allowed c := by
    unfold marked
    split
    · intro c member
      rcases List.mem_cons.mp member with rfl | member
      · exact ⟨by decide, by decide, by decide⟩
      · exact allowed c member
    · exact allowed
  unfold kept
  split
  · intro c member
    rcases List.mem_append.mp member with member | member
    · exact within c member
    · have each : ∀ c ∈ ".file".toList, isSeparator c = false ∧ Text.isControl c = false ∧
          c ∉ windowsChars := forall_mem_of_all (by decide)
      exact each c member
  · exact within

theorem kept_device {chars : List Char} (port : ¬ PortStem (· ∈ superscripts) (stemOf chars)) :
    ¬ DeviceStem (stemOf (kept chars)) := by
  rw [stemOf_kept]
  by_cases reserved : reservedStem (String.ofList (stemOf chars)) = true
  · have same : marked chars = '_' :: chars := if_pos reserved
    have stem : stemOf ('_' :: chars) = '_' :: stemOf chars :=
      List.takeWhile_cons_of_pos (by decide)
    rw [same, stem]
    exact not_deviceStem_underscore _
  · rw [marked_of_not_reserved reserved, deviceStem_iff]
    exact fun device => device.elim reserved port

theorem kept_suffixes {chars : List Char} (marker : ¬ ".pcvresume".toList <:+ chars) :
    ∀ suffix ∈ [".part", ".pcvmeta", ".pcvresume"], ¬ suffix.toList <:+ kept chars := by
  intro suffix member
  unfold kept
  split
  · have apart : ∀ suffix ∈ [".part", ".pcvmeta", ".pcvresume"],
        ¬ ".file".toList <:+ suffix.toList ∧ ¬ suffix.toList <:+ ".file".toList := by decide
    exact suffix_unique (List.suffix_append (marked chars) ".file".toList) (apart suffix member)
  · next plain =>
      rw [suffixed_iff, not_or] at plain
      simp only [List.mem_cons, List.not_mem_nil, or_false] at member
      rcases member with rfl | rfl | rfl
      · exact plain.1
      · exact plain.2
      · intro ends
        unfold marked at ends
        split at ends
        · rcases List.suffix_cons_iff.mp ends with whole | within
          · cases (List.cons_eq_cons.mp whole).1
          · exact marker within
        · exact marker ends

/-- The name that is stored is safe just if what is left after trimming hides nothing. -/
theorem kept_safe_iff {chars : List Char} (filled : chars ≠ [])
    (allowed : ∀ c ∈ chars, Allowed c) (front : ∀ c, chars.head? = some c → c ≠ ' ')
    (back : ∀ c, chars.getLast? = some c → c ≠ ' ') :
    SafeName (String.ofList (kept chars)) ↔ PlainMiddle chars := by
  constructor
  · intro safe
    exact ⟨front_of_safe filled safe, back_of_safe filled safe, port_of_safe safe,
      marker_of_safe safe⟩
  · intro plain
    have head : ∀ c, (kept chars).head? = some c → c ≠ '.' ∧ c ≠ ' ' := by
      intro c first
      rw [head?_kept filled] at first
      unfold marked at first
      split at first
      · cases Option.some.inj first
        decide
      · exact ⟨fun dot => plain.front (dot ▸ first), front c first⟩
    have last : ∀ c, (kept chars).getLast? = some c → c ≠ '.' ∧ c ≠ ' ' := by
      intro c final
      unfold kept at final
      split at final
      · rw [List.getLast?_append_of_ne_nil _ (by decide)] at final
        cases Option.some.inj final
        decide
      · rw [getLast?_marked filled] at final
        exact ⟨fun dot => plain.back (dot ▸ final), back c final⟩
    have undotted : (kept chars).head? ≠ some '.' := fun dot => (head '.' dot).1 rfl
    have some : kept chars ≠ [] := by
      intro none
      have first := head?_kept filled
      rw [none] at first
      have nothing := List.suffix_nil.mp (List.head?_eq_none_iff.mp first.symm ▸ suffix_marked)
      exact filled nothing
    refine ⟨?_, ?_, ?_, ?_, ?_, ?_, ?_, ?_⟩
    · exact fun empty => some (ofList_eq_iff.mp empty)
    · exact fun dot => undotted (congrArg List.head? (ofList_eq_iff.mp dot))
    · exact fun dots => undotted (congrArg List.head? (ofList_eq_iff.mp dots))
    · rw [String.toList_ofList]
      exact kept_allowed allowed
    · rw [String.toList_ofList]
      exact head
    · rw [String.toList_ofList]
      exact last
    · rw [String.toList_ofList]
      exact kept_device plain.port
    · rw [String.toList_ofList]
      exact kept_suffixes plain.marker

/-! ### Received names -/

theorem isBlank_apart (c : Char) (blank : isBlank c = true) : isDot c = false := by
  unfold isDot
  apply beq_false_of_ne
  rintro rfl
  exact absurd blank (by decide)

theorem baseName_inside {name : String} {c : Char} (member : c ∈ (baseName name).toList) :
    isSeparator c = false := by
  unfold baseName at member
  rw [String.toList_ofList, List.mem_reverse] at member
  have inside := List.mem_takeWhile_imp member
  rwa [Bool.not_eq_true'] at inside

theorem core_allowed (name : String) : ∀ c ∈ core name, Allowed c := by
  intro c member
  obtain ⟨d, inner, rfl⟩ := List.mem_map.mp member
  have layered := strip_layered isBlank isDot (baseName name).toList
  obtain ⟨front₁, front₂, front₃, back₃, back₂, back₁, same, -, -⟩ := layered
  apply cleanChar_allowed
  apply baseName_inside
  rw [same]
  exact List.mem_append_left _ (List.mem_append_right _ inner)

theorem core_ends (name : String) :
    (∀ c, (core name).head? = some c → c ≠ ' ') ∧
      ∀ c, (core name).getLast? = some c → c ≠ ' ' := by
  have kept : ∀ d, isBlank d = false → cleanChar d ≠ ' ' := by
    intro d printed space
    have white := cleanChar_isWhitespace d
    rw [space, printed] at white
    exact absurd white (by decide)
  unfold core
  constructor
  · intro c first
    rw [List.head?_map] at first
    obtain ⟨d, front, rfl⟩ := Option.map_eq_some_iff.mp first
    exact kept d (trim_head front)
  · intro c final
    rw [List.getLast?_map] at final
    obtain ⟨d, back, rfl⟩ := Option.map_eq_some_iff.mp final
    exact kept d (trim_last back)

/-- The middle of a plain name is what is left after trimming. -/
theorem plainName_iff (name : String) :
    PlainName name ↔ PlainMiddle (strip isBlank isDot (baseName name).toList) := by
  constructor
  · rintro ⟨middle, layered, head, last, plain⟩
    have undotted : ∀ c, c ≠ '.' → isDot c = false := fun c other => beq_false_of_ne other
    have found : strip isBlank isDot (baseName name).toList = middle := by
      apply strip_of_layered isBlank_apart layered
      · exact fun c first => ⟨head c first, undotted c (fun dot => plain.front (dot ▸ first))⟩
      · exact fun c final => ⟨last c final, undotted c (fun dot => plain.back (dot ▸ final))⟩
    rw [found]
    exact plain
  · intro plain
    exact ⟨_, strip_layered _ _ _, fun _ first => trim_head first, fun _ final => trim_last final,
      plain⟩

/-- A received name is stored under a safe name, or refused, if and only if it is plain. -/
theorem sanitizeFileName_safe_iff (name : String) :
    (∀ saved, sanitizeFileName name = some saved → SafeName saved) ↔ PlainName name := by
  rw [plainName_iff, ← plainMiddle_cleaned, sanitizeFileName_eq]
  change _ ↔ PlainMiddle (core name)
  by_cases empty : core name = []
  · rw [if_pos empty, empty]
    constructor
    · intro _
      refine ⟨(nomatch ·), (nomatch ·), ?_, by decide⟩
      rintro ⟨c, _, com | lpt⟩
      · cases com
      · cases lpt
    · intro _ saved made
      cases made
  · rw [if_neg empty]
    have ends := core_ends name
    rw [← kept_safe_iff empty (core_allowed name) ends.1 ends.2]
    constructor
    · intro safe
      exact safe _ rfl
    · intro safe saved made
      rw [← Option.some.inj made]
      exact safe

/-- A dot comes to light when blanks are taken off behind it, a port may be numbered by a
superscript, and the suffix of resumable transfers is not looked for. -/
theorem sanitizeFileName_unsafe :
    (sanitizeFileName ". .x" = some ".x" ∧ ¬ SafeName ".x") ∧
      (sanitizeFileName "COM¹.txt" = some "COM¹.txt" ∧ ¬ SafeName "COM¹.txt") ∧
        (sanitizeFileName "a.pcvresume" = some "a.pcvresume" ∧ ¬ SafeName "a.pcvresume") := by
  refine ⟨⟨by decide, fun safe => ?_⟩, ⟨by decide, fun safe => ?_⟩, by decide, fun safe => ?_⟩
  · exact (safe.front '.' (by decide)).1 rfl
  · exact safe.device (.inr ⟨'¹', .inr (by decide), .inl (by decide)⟩)
  · exact safe.suffixes ".pcvresume" (by decide) (by decide)

end PeerCove.FileNames
