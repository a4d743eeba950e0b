/-
Module: PeerCove.Proofs.DnsLookup
Layer: Proofs
Purpose: Which record the resolver answers with, against the rules of names: labels compared without
  case, names before wildcards, one label for a wildcard, addresses before aliases.
Trusted boundary: none
Main exports: Resolves, PlainKey, find_resolves_iff, respond_asks
-/
import Mathlib.Data.List.TakeWhile
import PeerCove.Member.DnsResolver
import PeerCove.Proofs.DnsZone

namespace PeerCove

/-! ### Names of labels -/

/-- A label as it stands in a query. -/
abbrev DnsLabel := List UInt8

/-- A byte without the case of ASCII letters. -/
def foldCase (byte : UInt8) : UInt8 :=
  if 65 ≤ byte.toNat ∧ byte.toNat ≤ 90 then byte + 32 else byte

/-- Names with the same labels, ignoring the case of ASCII letters. -/
def SameName (one two : List DnsLabel) : Prop :=
  one.map (List.map foldCase) = two.map (List.map foldCase)

instance (one two : List DnsLabel) : Decidable (SameName one two) :=
  inferInstanceAs (Decidable (_ = _))

/-- A wildcard has `*` for one label of the name. -/
def CoversName (pattern name : List DnsLabel) : Prop :=
  ∃ first rest suffix, name = first :: rest ∧ pattern = Text.utf8Bytes "*" :: suffix ∧
    SameName suffix rest

/-- The labels of a record. -/
def recordLabels (key : String) : List DnsLabel :=
  (Text.split '.' key).map Text.utf8Bytes

/-- The dotted name that the labels of a question are read as. -/
def dottedName (labels : List DnsLabel) : String :=
  String.ofList (['.'].intercalate (labels.map (List.map nameChar)))

/-- An address or an alias has the name. -/
def DnsTables.Has (zone : DnsTables) (key : String) : Prop :=
  zone.a.get? key ≠ none ∨ zone.cname.get? key ≠ none

/-- What a lookup must find for a name. -/
structure Resolves (zone : DnsTables) (labels : List DnsLabel) (found : Found) : Prop where
  /-- An address of that name, or of a wildcard for it when no record has the name. -/
  address : ∀ key ip, found = .address key ip → zone.a.get? key = some ip ∧
    (SameName (recordLabels key) labels ∨ CoversName (recordLabels key) labels ∧
      ∀ other, zone.Has other → ¬ SameName (recordLabels other) labels)
  /-- Or else an alias, in the same way, that no address has the name of. -/
  cname : ∀ key target, found = .cname key target → zone.cname.get? key = some target ∧
    (SameName (recordLabels key) labels ∨ CoversName (recordLabels key) labels ∧
      ∀ other, zone.Has other → ¬ SameName (recordLabels other) labels) ∧
    ∀ other, zone.a.get? other ≠ none → ¬ SameName (recordLabels other) (recordLabels key)
  nothing : found = .nothing → ∀ key, zone.Has key →
    ¬ SameName (recordLabels key) labels ∧ ¬ CoversName (recordLabels key) labels

/-! ### Plain names -/

/-- A character of a record's name: not an upper-case letter, and one byte. -/
def PlainChar (c : Char) : Prop :=
  Names.labelChar c = c ∨ c = '*'

/-- The name of a record: at least two labels of plain characters. -/
structure PlainKey (key : String) : Prop where
  several : 1 < (Text.splitChars '.' key.toList).length
  plain : ∀ part ∈ Text.splitChars '.' key.toList, ∀ c ∈ part, PlainChar c

theorem PlainChar.bounds {c : Char} (plain : PlainChar c) :
    c.toNat < 128 ∧ ¬ (65 ≤ c.toNat ∧ c.toNat ≤ 90) ∧ c ≠ '.' := by
  rcases plain with mapped | rfl
  · rcases Names.labelChar_cases mapped with lower | digit | rfl
    · have bounds : 97 ≤ c.toNat ∧ c.toNat ≤ 122 := by simpa [Text.isAsciiLower] using lower
      refine ⟨by omega, by omega, ?_⟩
      rintro rfl
      exact absurd bounds (by decide)
    · have bounds : 48 ≤ c.toNat ∧ c.toNat ≤ 57 := by simpa [Text.isAsciiDigit] using digit
      refine ⟨by omega, by omega, ?_⟩
      rintro rfl
      exact absurd bounds (by decide)
    · decide
  · decide

theorem foldCase_toNat (byte : UInt8) : (foldCase byte).toNat =
    if 65 ≤ byte.toNat ∧ byte.toNat ≤ 90 then byte.toNat + 32 else byte.toNat := by
  unfold foldCase
  split
  · rename_i upper
    have sum : (byte + 32).toNat = (byte.toNat + 32) % 256 := UInt8.toNat_add byte 32
    omega
  · rfl

theorem toNat_ofNat_small {n : Nat} (small : n < 0xD800) : (Char.ofNat n).toNat = n := by
  rw [Char.ofNat, dif_pos (.inl small)]
  rfl

theorem nameChar_toNat (byte : UInt8) : (nameChar byte).toNat = (foldCase byte).toNat := by
  have small : byte.toNat < 256 := byte.toNat_lt
  have read : (Char.ofNat byte.toNat).toNat = byte.toNat := toNat_ofNat_small (by omega)
  rw [foldCase_toNat]
  unfold nameChar Text.toAsciiLower Text.isAsciiUpper
  rw [read]
  by_cases upper : 65 ≤ byte.toNat ∧ byte.toNat ≤ 90
  · rw [if_pos (by simpa using upper), if_pos upper]
    exact toNat_ofNat_small (by omega)
  · rw [if_neg (by simpa using upper), if_neg upper, read]

theorem utf8EncodeChar_plain {c : Char} (small : c.toNat < 128) :
    String.utf8EncodeChar c = [UInt8.ofNat c.toNat] := by
  have size : c.utf8Size = 1 := by
    rw [Char.utf8Size_eq_one_iff, UInt32.le_iff_toNat_le]
    exact Nat.le_of_lt_succ small
  rw [String.utf8EncodeChar_eq_singleton size]
  rfl

/-- A plain character is read from a byte exactly when they are the same without case. -/
theorem plain_eq_nameChar {c : Char} (plain : PlainChar c) (byte : UInt8) :
    c = nameChar byte ↔ foldCase (UInt8.ofNat c.toNat) = foldCase byte := by
  obtain ⟨small, notUpper, _⟩ := plain.bounds
  have same : (UInt8.ofNat c.toNat).toNat = c.toNat := Nat.mod_eq_of_lt (by omega)
  have folded : (foldCase (UInt8.ofNat c.toNat)).toNat = c.toNat := by
    rw [foldCase_toNat, same, if_neg notUpper]
  rw [← Char.toNat_inj, nameChar_toNat, ← UInt8.toNat_inj, folded]

theorem nameChar_dot (byte : UInt8) : nameChar byte = '.' ↔ byte = 46 := by
  rw [← Char.toNat_inj, nameChar_toNat, foldCase_toNat, ← UInt8.toNat_inj]
  have dot : '.'.toNat = 46 := rfl
  have code : (46 : UInt8).toNat = 46 := rfl
  rw [dot, code]
  split <;> omega

theorem foldCase_star (byte : UInt8) : foldCase byte = 42 ↔ byte = 42 := by
  rw [← UInt8.toNat_inj, ← UInt8.toNat_inj, foldCase_toNat]
  have code : (42 : UInt8).toNat = 42 := rfl
  rw [code]
  split <;> omega

/-! ### Splitting at dots -/

theorem length_splitChars (sep : Char) (chars : List Char) :
    (Text.splitChars sep chars).length = chars.count sep + 1 := by
  induction chars with
  | nil => rfl
  | cons c rest ih =>
      rw [Text.splitChars, List.count_cons]
      by_cases same : c = sep
      · rw [if_pos same, List.length_cons, ih, if_pos (beq_iff_eq.mpr same)]
      · rw [if_neg same, if_neg (fun equal => same (beq_iff_eq.mp equal)), Nat.add_zero, ← ih]
        cases split : Text.splitChars sep rest with
        | nil =>
            rw [split] at ih
            cases ih
        | cons part parts => rfl

/-- No label has a dot in it. -/
def Dotless (labels : List DnsLabel) : Prop :=
  ∀ label ∈ labels, (46 : UInt8) ∉ label

theorem dot_mem {label : DnsLabel} : '.' ∈ label.map nameChar ↔ (46 : UInt8) ∈ label := by
  rw [List.mem_map]
  constructor
  · rintro ⟨byte, listed, dot⟩
    rwa [(nameChar_dot byte).mp dot] at listed
  · intro listed
    exact ⟨46, listed, (nameChar_dot 46).mpr rfl⟩

/-- The dotted name is split into the labels it was made of. -/
theorem splitChars_dottedName {labels : List DnsLabel} (dotless : Dotless labels)
    (some_ : labels ≠ []) :
    Text.splitChars '.' (dottedName labels).toList = labels.map (List.map nameChar) := by
  unfold dottedName
  rw [String.toList_ofList, splitChars_eq]
  refine List.splitOn_intercalate '.' ?_ (fun none_ => some_ (List.map_eq_nil_iff.mp none_))
  intro part listed
  obtain ⟨label, there, rfl⟩ := List.mem_map.mp listed
  exact fun dot => dotless label there (dot_mem.mp dot)

theorem splitChars_join (key : String) :
    String.ofList (['.'].intercalate (Text.splitChars '.' key.toList)) = key := by
  rw [splitChars_eq, List.intercalate_splitOn, String.ofList_toList]

/-! ### One record -/

/-- The bytes of a part of a name, without case. -/
def foldedBytes (part : List Char) : DnsLabel :=
  (part.flatMap String.utf8EncodeChar).map foldCase

theorem part_eq_label {part : List Char} (plain : ∀ c ∈ part, PlainChar c) (label : DnsLabel) :
    part = label.map nameChar ↔ foldedBytes part = label.map foldCase := by
  induction part generalizing label with
  | nil =>
      cases label with
      | nil => exact ⟨fun _ => rfl, fun _ => rfl⟩
      | cons byte rest => exact ⟨nofun, nofun⟩
  | cons c part ih =>
      obtain ⟨isPlain, others⟩ := List.forall_mem_cons.mp plain
      have bytes : foldedBytes (c :: part) =
          foldCase (UInt8.ofNat c.toNat) :: foldedBytes part := by
        unfold foldedBytes
        rw [List.flatMap_cons, utf8EncodeChar_plain isPlain.bounds.1]
        rfl
      rw [bytes]
      cases label with
      | nil => exact ⟨nofun, nofun⟩
      | cons byte rest =>
          rw [List.map_cons, List.map_cons, List.cons.injEq, List.cons.injEq, ih others,
            plain_eq_nameChar isPlain]

theorem parts_eq_labels {parts : List (List Char)} (plain : ∀ part ∈ parts, ∀ c ∈ part, PlainChar c)
    (labels : List DnsLabel) :
    parts = labels.map (List.map nameChar) ↔
      parts.map foldedBytes = labels.map (List.map foldCase) := by
  induction parts generalizing labels with
  | nil =>
      cases labels with
      | nil => exact ⟨fun _ => rfl, fun _ => rfl⟩
      | cons label rest => exact ⟨nofun, nofun⟩
  | cons part parts ih =>
      obtain ⟨isPlain, others⟩ := List.forall_mem_cons.mp plain
      cases labels with
      | nil => exact ⟨nofun, nofun⟩
      | cons label rest =>
          rw [List.map_cons, List.map_cons, List.map_cons, List.cons.injEq, List.cons.injEq,
            ih others, part_eq_label isPlain]

theorem recordLabels_folded (key : String) :
    (recordLabels key).map (List.map foldCase) =
      (Text.splitChars '.' key.toList).map foldedBytes := by
  unfold recordLabels Text.split
  rw [List.map_map, List.map_map]
  refine List.map_congr_left (fun part _ => ?_)
  change (Text.utf8Bytes (String.ofList part)).map foldCase = foldedBytes part
  unfold Text.utf8Bytes foldedBytes
  rw [String.toList_ofList]

variable {key : String} {labels : List DnsLabel}

/-- A record is found under the dotted name exactly when it has the name. -/
theorem eq_dottedName_iff (plain : PlainKey key) (dotless : Dotless labels) :
    key = dottedName labels ↔ SameName (recordLabels key) labels := by
  unfold SameName
  rw [recordLabels_folded, ← parts_eq_labels plain.plain]
  constructor
  · rintro rfl
    refine splitChars_dottedName dotless ?_
    rintro rfl
    exact absurd plain.several (by decide)
  · intro parts
    rw [← splitChars_join key, parts]
    rfl

theorem dottedName_cons (first : DnsLabel) {rest : List DnsLabel} (some_ : rest ≠ []) :
    (dottedName (first :: rest)).toList =
      first.map nameChar ++ '.' :: (dottedName rest).toList := by
  unfold dottedName
  rw [String.toList_ofList, String.toList_ofList, List.map_cons, List.intercalate_cons_of_ne_nil]
  · simp
  · exact fun none_ => some_ (List.map_eq_nil_iff.mp none_)

theorem star_dottedName {rest : List DnsLabel} (some_ : rest ≠ []) :
    s!"*.{dottedName rest}" = dottedName ([42] :: rest) := by
  apply String.toList_injective
  rw [dottedName_cons [42] some_]
  simp only [String.toList_append]
  rfl

theorem splitOnce_first {first : DnsLabel} (dotless : (46 : UInt8) ∉ first) (rest : List Char) :
    (first.map nameChar ++ rest).dropWhile (· ≠ '.') = rest.dropWhile (· ≠ '.') := by
  refine List.dropWhile_append_of_pos (fun c listed => decide_eq_true ?_)
  rintro rfl
  exact dotless (dot_mem.mp listed)

theorem wildcardName_dottedName {first : DnsLabel} {rest : List DnsLabel}
    (dotless : Dotless (first :: rest)) (some_ : rest ≠ []) :
    wildcardName (dottedName (first :: rest)) = some (dottedName ([42] :: rest)) := by
  unfold wildcardName Text.splitOnce
  dsimp only
  rw [dottedName_cons first some_, splitOnce_first (dotless first List.mem_cons_self),
    List.dropWhile_cons_of_neg (by decide)]
  dsimp only [Option.map_some]
  rw [String.ofList_toList, star_dottedName some_]

theorem wildcardName_short (dotless : Dotless labels) (short : labels.length ≤ 1) :
    wildcardName (dottedName labels) = none := by
  have chars : (dottedName labels).toList.dropWhile (· ≠ '.') = [] := by
    match labels with
    | [] => rfl
    | [only] =>
        have plain : (dottedName [only]).toList = only.map nameChar ++ [] := by
          unfold dottedName
          simp
        rw [plain, splitOnce_first (dotless only List.mem_cons_self)]
        rfl
    | _ :: _ :: _ => exact absurd short (by simp)
  unfold wildcardName Text.splitOnce
  dsimp only
  rw [chars]
  rfl

/-- Only `*` is `*`, in either case. -/
theorem coversName_iff {first : DnsLabel} {rest : List DnsLabel} :
    CoversName (recordLabels key) (first :: rest) ↔ SameName (recordLabels key) ([42] :: rest) := by
  have star : Text.utf8Bytes "*" = [42] := by decide
  unfold CoversName SameName
  rw [star]
  constructor
  · rintro ⟨_, _, suffix, same, pattern, suffixSame⟩
    obtain ⟨rfl, rfl⟩ := List.cons.inj same
    rw [pattern, List.map_cons, suffixSame]
    rfl
  · intro same
    obtain ⟨label, suffix, pattern, isStar, suffixSame⟩ := List.map_eq_cons_iff.mp same
    obtain ⟨byte, empty, rfl, folded, none_⟩ := List.map_eq_cons_iff.mp isStar
    rw [List.map_eq_nil_iff.mp none_] at pattern
    rw [(foldCase_star byte).mp folded] at pattern
    exact ⟨first, rest, suffix, rfl, pattern, suffixSame⟩

/-- A record is found under the wildcard of the dotted name exactly when it covers the name. -/
theorem wildcardName_iff (plain : PlainKey key) (dotless : Dotless labels) :
    wildcardName (dottedName labels) = some key ↔ CoversName (recordLabels key) labels := by
  match labels with
  | [] =>
      rw [wildcardName_short dotless (by simp)]
      refine ⟨nofun, ?_⟩
      rintro ⟨_, _, _, same, _⟩
      cases same
  | [only] =>
      rw [wildcardName_short dotless (by simp)]
      refine ⟨nofun, fun covers => ?_⟩
      have same := congrArg List.length (coversName_iff.mp covers)
      have several := plain.several
      rw [recordLabels_folded, List.length_map] at same
      rw [same] at several
      exact absurd several (by decide)
  | first :: second :: rest =>
      have dotlessStar : Dotless ([42] :: second :: rest) := by
        intro label listed
        rcases List.mem_cons.mp listed with rfl | later
        · decide
        · exact dotless label (List.mem_cons_of_mem _ later)
      rw [wildcardName_dottedName dotless (List.cons_ne_nil _ _), Option.some.injEq, coversName_iff,
        ← eq_dottedName_iff plain dotlessStar]
      exact eq_comm

/-! ### Labels with dots in them -/

theorem count_intercalate {parts : List (List Char)} (some_ : parts ≠ []) :
    (['.'].intercalate parts).count '.' + 1 =
      (parts.map (List.count '.')).sum + parts.length := by
  induction parts with
  | nil => exact absurd rfl some_
  | cons part parts ih =>
      cases parts with
      | nil => simp
      | cons next parts =>
          rw [List.intercalate_cons_cons]
          have rest := ih (List.cons_ne_nil _ _)
          simp only [List.count_append, List.count_singleton_self, List.map_cons, List.sum_cons,
            List.length_cons] at rest ⊢
          omega

/-- The dotted name falls apart into more parts than there were labels. -/
theorem more_parts (dotted : ¬ Dotless labels) :
    labels.length < (Text.splitChars '.' (dottedName labels).toList).length := by
  simp only [Dotless, not_forall, not_not] at dotted
  obtain ⟨label, listed, dot⟩ := dotted
  have some_ : labels.map (List.map nameChar) ≠ [] :=
    fun none_ => List.ne_nil_of_mem listed (List.map_eq_nil_iff.mp none_)
  have count := count_intercalate some_
  have one : 0 < (label.map nameChar).count '.' := List.count_pos_iff.mpr (dot_mem.mpr dot)
  have part : (label.map nameChar).count '.' ∈
      (labels.map (List.map nameChar)).map (List.count '.') :=
    List.mem_map_of_mem (List.mem_map_of_mem listed)
  have sum := List.sum_pos_iff_exists_pos_nat.mpr ⟨_, part, one⟩
  rw [length_splitChars]
  unfold dottedName
  rw [String.toList_ofList]
  rw [List.length_map] at count
  omega

/-- A wildcard has as many parts as the name it is for. -/
theorem wildcardName_parts {name wildcard : String} (made : wildcardName name = some wildcard) :
    (Text.splitChars '.' wildcard.toList).length = (Text.splitChars '.' name.toList).length := by
  unfold wildcardName Text.splitOnce at made
  dsimp only at made
  have parts := List.takeWhile_append_dropWhile (p := (· ≠ '.')) (l := name.toList)
  have front : (name.toList.takeWhile (· ≠ '.')).count '.' = 0 := by
    refine List.count_eq_zero.mpr (fun dot => ?_)
    have holds := List.mem_takeWhile_imp dot
    simp at holds
  cases after : name.toList.dropWhile (· ≠ '.') with
  | nil =>
      rw [after] at made
      cases made
  | cons c rest =>
      rw [after] at made parts
      cases made
      have isDot : c = '.' := by
        have head := List.head?_dropWhile_not (· ≠ '.') name.toList
        rw [after] at head
        simpa using head
      have whole : name.toList.count '.' = 1 + rest.count '.' := by
        rw [← parts, List.count_append, front, isDot, List.count_cons_self]
        omega
      have text : (s!"*.{String.ofList rest}").toList = '*' :: '.' :: rest := by
        simp only [String.toList_append]
        change _ ++ (String.ofList rest).toList = _
        rw [String.toList_ofList]
        rfl
      rw [length_splitChars, length_splitChars, whole, text, List.count_cons_of_ne (by decide),
        List.count_cons_self]
      omega

theorem sameName_length {one two : List DnsLabel} (same : SameName one two) :
    one.length = two.length := by
  simpa using congrArg List.length same

theorem recordLabels_length (key : String) :
    (recordLabels key).length = (Text.splitChars '.' key.toList).length := by
  unfold recordLabels Text.split
  rw [List.length_map, List.length_map]

theorem coversName_length (covers : CoversName (recordLabels key) labels) :
    (Text.splitChars '.' key.toList).length = labels.length := by
  obtain ⟨first, rest, suffix, rfl, pattern, same⟩ := covers
  rw [← recordLabels_length, pattern, List.length_cons, List.length_cons, sameName_length same]

/-- What has the name of a record has no dots in its labels. -/
theorem sameName_dotless (plain : PlainKey key) (same : SameName (recordLabels key) labels) :
    Dotless labels := by
  unfold SameName at same
  rw [recordLabels_folded, ← parts_eq_labels plain.plain] at same
  intro label listed dot
  have part : label.map nameChar ∈ Text.splitChars '.' key.toList := by
    rw [same]
    exact List.mem_map_of_mem listed
  exact (plain.plain _ part '.' (dot_mem.mpr dot)).bounds.2.2 rfl

/-- Records with one name are one record. -/
theorem eq_of_sameName {other : String} (plain : PlainKey key) (otherPlain : PlainKey other)
    (same : SameName (recordLabels key) (recordLabels other)) : key = other := by
  have dotless := sameName_dotless plain same
  rw [(eq_dottedName_iff plain dotless).mpr same]
  exact ((eq_dottedName_iff otherPlain dotless).mpr rfl).symm

/-! ### Lookups -/

section Lookup

variable {ρ : Type} {table : Table String ρ} {name : String}

theorem lookup_eq_some {row : ρ} : lookup table name = some (key, row) ↔
    (key = name ∧ table.get? key = some row) ∨
      (table.get? name = none ∧ wildcardName name = some key ∧ table.get? key = some row) := by
  unfold lookup
  cases here : table.get? name with
  | some other =>
      simp only [Option.some.injEq, Prod.mk.injEq, reduceCtorEq, false_and, or_false]
      constructor
      · rintro ⟨rfl, rfl⟩
        exact ⟨rfl, here⟩
      · rintro ⟨rfl, there⟩
        exact ⟨rfl, Option.some.inj (here.symm.trans there)⟩
  | none =>
      dsimp only
      rw [Option.bind_eq_some_iff]
      constructor
      · rintro ⟨wildcard, made, found⟩
        obtain ⟨other, there, same⟩ := Option.map_eq_some_iff.mp found
        obtain ⟨rfl, rfl⟩ := Prod.mk.inj same
        exact .inr ⟨rfl, made, there⟩
      · rintro (⟨rfl, there⟩ | ⟨_, made, there⟩)
        · cases here.symm.trans there
        · exact ⟨key, made, by rw [there]; rfl⟩

theorem lookup_eq_none : lookup table name = none ↔
    table.get? name = none ∧ ∀ wildcard, wildcardName name = some wildcard →
      table.get? wildcard = none := by
  unfold lookup
  cases table.get? name with
  | some other => simp
  | none => simp [Option.bind_eq_none_iff]

/-- A record is found under the name or its wildcard. -/
theorem lookup_under {row : ρ} (found : lookup table name = some (key, row)) :
    table.get? key = some row ∧ (key = name ∨ wildcardName name = some key) := by
  rcases lookup_eq_some.mp found with ⟨same, row⟩ | ⟨_, made, row⟩
  · exact ⟨row, .inl same⟩
  · exact ⟨row, .inr made⟩

theorem lookup_isSome {row : ρ} (under : key = name ∨ wildcardName name = some key)
    (there : table.get? key = some row) : lookup table name ≠ none := by
  intro none_
  obtain ⟨noExact, noWildcard⟩ := lookup_eq_none.mp none_
  rcases under with rfl | made
  · cases noExact.symm.trans there
  · cases (noWildcard key made).symm.trans there

end Lookup

/-- What is found is a record under the name or its wildcard, as long as there is one. -/
theorem find_nothing_iff {zone : DnsTables} {name : String} :
    zone.find name = .nothing ↔ lookup zone.a name = none ∧ lookup zone.cname name = none := by
  unfold DnsTables.find
  cases lookup zone.a name with
  | some found => exact ⟨nofun, nofun⟩
  | none =>
      cases lookup zone.cname name with
      | some found => exact ⟨nofun, nofun⟩
      | none => exact ⟨fun _ => ⟨rfl, rfl⟩, fun _ => rfl⟩

theorem find_address {zone : DnsTables} {name : String} {ip : Ipv4Addr}
    (found : zone.find name = .address key ip) : lookup zone.a name = some (key, ip) := by
  unfold DnsTables.find at found
  cases address : lookup zone.a name with
  | some row =>
      rw [address] at found
      cases found
      rfl
  | none =>
      rw [address] at found
      cases alias_ : lookup zone.cname name <;> rw [alias_] at found <;> cases found

theorem find_cname {zone : DnsTables} {name : String} {target : CnameTarget}
    (found : zone.find name = .cname key target) :
    lookup zone.cname name = some (key, target) := by
  unfold DnsTables.find at found
  cases address : lookup zone.a name with
  | some row =>
      rw [address] at found
      cases found
  | none =>
      rw [address] at found
      cases alias_ : lookup zone.cname name with
      | some row =>
          rw [alias_] at found
          cases found
          rfl
      | none =>
          rw [alias_] at found
          cases found

/-- All names of records are plain. -/
def AllPlain (zone : DnsTables) : Prop := ∀ key, zone.Has key → PlainKey key

/-- No address of a wildcard hides an alias of the name itself; and when a label has a dot in it, no
record is concerned: neither by the dotted name and its wildcard nor by the labels. -/
def Unclouded (zone : DnsTables) (labels : List DnsLabel) : Prop :=
  (Dotless labels ∧ ((∃ key, zone.cname.get? key ≠ none ∧ SameName (recordLabels key) labels) →
    (∃ key, zone.a.get? key ≠ none ∧ SameName (recordLabels key) labels) ∨
      ∀ key, zone.a.get? key ≠ none → ¬ CoversName (recordLabels key) labels)) ∨
  (¬ Dotless labels ∧ ∀ key, zone.Has key → key ≠ dottedName labels ∧
    wildcardName (dottedName labels) ≠ some key ∧ ¬ CoversName (recordLabels key) labels)

section Resolving

variable {zone : DnsTables}

theorem find_resolves_dotless (plain : AllPlain zone) (dotless : Dotless labels) :
    Resolves zone labels (zone.find (dottedName labels)) ↔
      ((∃ key, zone.cname.get? key ≠ none ∧ SameName (recordLabels key) labels) →
        (∃ key, zone.a.get? key ≠ none ∧ SameName (recordLabels key) labels) ∨
          ∀ key, zone.a.get? key ≠ none → ¬ CoversName (recordLabels key) labels) := by
  have named : ∀ {key}, zone.Has key →
      (SameName (recordLabels key) labels ↔ key = dottedName labels) :=
    fun has => (eq_dottedName_iff (plain _ has) dotless).symm
  have covered : ∀ {key}, zone.Has key →
      (CoversName (recordLabels key) labels ↔ wildcardName (dottedName labels) = some key) :=
    fun has => (wildcardName_iff (plain _ has) dotless).symm
  unfold DnsTables.find
  cases address : lookup zone.a (dottedName labels) with
  | some found =>
      obtain ⟨key, ip⟩ := found
      dsimp only
      have row : zone.a.get? key = some ip := by
        rcases lookup_eq_some.mp address with ⟨_, row⟩ | ⟨_, _, row⟩ <;> exact row
      have isThere : zone.a.get? key ≠ none := by rw [row]; exact Option.some_ne_none ip
      have has : zone.Has key := .inl isThere
      rcases lookup_eq_some.mp address with ⟨same, _⟩ | ⟨none_, made, _⟩
      · have exact_ := (named has).mpr same
        refine ⟨fun _ _ => .inl ⟨key, isThere, exact_⟩, fun _ => ⟨?_, nofun, nofun⟩⟩
        rintro _ _ ⟨rfl, rfl⟩
        exact ⟨row, .inl exact_⟩
      · have covers := (covered has).mpr made
        have noAddress : ∀ other, zone.a.get? other ≠ none →
            ¬ SameName (recordLabels other) labels := by
          intro other there same
          rw [(named (.inl there)).mp same] at there
          exact there none_
        constructor
        · rintro resolves ⟨other, there, same⟩
          rcases (resolves.address key ip rfl).2 with exact_ | ⟨_, unnamed⟩
          · exact absurd exact_ (noAddress key isThere)
          · exact absurd same (unnamed other (.inr there))
        · intro condition
          refine ⟨?_, nofun, nofun⟩
          rintro _ _ ⟨rfl, rfl⟩
          refine ⟨row, .inr ⟨covers, ?_⟩⟩
          rintro other (there | there) same
          · exact noAddress other there same
          · rcases condition ⟨other, there, same⟩ with ⟨exact_, listed, names⟩ | uncovered
            · exact noAddress exact_ listed names
            · exact uncovered key isThere covers
  | none =>
      dsimp only
      obtain ⟨noExact, noWildcard⟩ := lookup_eq_none.mp address
      have unnamed : ∀ other, zone.a.get? other ≠ none →
          ¬ SameName (recordLabels other) labels := by
        intro other there same
        rw [(named (.inl there)).mp same] at there
        exact there noExact
      have uncovered : ∀ other, zone.a.get? other ≠ none →
          ¬ CoversName (recordLabels other) labels :=
        fun other there covers => there (noWildcard other ((covered (.inl there)).mp covers))
      refine iff_of_true ?_ (fun _ => .inr uncovered)
      cases alias_ : lookup zone.cname (dottedName labels) with
      | some found =>
          obtain ⟨key, target⟩ := found
          refine ⟨nofun, ?_, nofun⟩
          rintro _ _ ⟨rfl, rfl⟩
          have row : zone.cname.get? key = some target := by
            rcases lookup_eq_some.mp alias_ with ⟨_, row⟩ | ⟨_, _, row⟩ <;> exact row
          have has : zone.Has key := .inr (by rw [row]; exact Option.some_ne_none target)
          have noOther : ∀ other, zone.a.get? other ≠ none →
              ¬ SameName (recordLabels other) (recordLabels key) := by
            intro other there same
            have one := eq_of_sameName (plain other (.inl there)) (plain key has) same
            rcases lookup_eq_some.mp alias_ with ⟨exact_, _⟩ | ⟨_, made, _⟩
            · exact unnamed other there ((named (.inl there)).mpr (one.trans exact_))
            · exact uncovered other there ((covered (.inl there)).mpr (one ▸ made))
          refine ⟨row, ?_, noOther⟩
          rcases lookup_eq_some.mp alias_ with ⟨exact_, _⟩ | ⟨none_, made, _⟩
          · exact .inl ((named has).mpr exact_)
          · refine .inr ⟨(covered has).mpr made, ?_⟩
            rintro other (there | there) same
            · exact unnamed other there same
            · rw [(named (.inr there)).mp same] at there
              exact there none_
      | none =>
          obtain ⟨noAlias, noPattern⟩ := lookup_eq_none.mp alias_
          refine ⟨nofun, nofun, ?_⟩
          rintro _ key (there | there)
          · exact ⟨unnamed key there, uncovered key there⟩
          · refine ⟨fun same => ?_, fun covers => ?_⟩
            · rw [(named (.inr there)).mp same] at there
              exact there noAlias
            · exact there (noPattern key ((covered (.inr there)).mp covers))

/-- Whatever is found under the dotted name has too many labels for the question. -/
theorem find_resolves_dotted (plain : AllPlain zone) (dotted : ¬ Dotless labels) :
    Resolves zone labels (zone.find (dottedName labels)) ↔
      ∀ key, zone.Has key → key ≠ dottedName labels ∧
        wildcardName (dottedName labels) ≠ some key ∧ ¬ CoversName (recordLabels key) labels := by
  have unnamed : ∀ {key}, zone.Has key → ¬ SameName (recordLabels key) labels :=
    fun has same => dotted (sameName_dotless (plain _ has) same)
  have more := more_parts dotted
  have foreign : ∀ {key}, key = dottedName labels ∨ wildcardName (dottedName labels) = some key →
      ¬ CoversName (recordLabels key) labels := by
    rintro key (rfl | made) covers
    · rw [coversName_length covers] at more
      exact absurd more (Nat.lt_irrefl _)
    · rw [← wildcardName_parts made, coversName_length covers] at more
      exact absurd more (Nat.lt_irrefl _)
  have matches_ : ∀ {key}, zone.Has key →
      (key = dottedName labels ∨ wildcardName (dottedName labels) = some key) →
      ¬ (SameName (recordLabels key) labels ∨ CoversName (recordLabels key) labels ∧
        ∀ other, zone.Has other → ¬ SameName (recordLabels other) labels) := by
    rintro key has under (same | ⟨covers, _⟩)
    · exact unnamed has same
    · exact foreign under covers
  constructor
  · intro resolves
    have nothing : zone.find (dottedName labels) = .nothing := by
      cases found : zone.find (dottedName labels) with
      | address other ip =>
          obtain ⟨row, under⟩ := lookup_under (find_address found)
          have has : zone.Has other := .inl (by rw [row]; exact Option.some_ne_none ip)
          exact absurd (resolves.address other ip found).2 (matches_ has under)
      | cname other target =>
          obtain ⟨row, under⟩ := lookup_under (find_cname found)
          have has : zone.Has other := .inr (by rw [row]; exact Option.some_ne_none target)
          exact absurd (resolves.cname other target found).2.1 (matches_ has under)
      | nothing => rfl
    intro key has
    obtain ⟨noAddress, noAlias⟩ := find_nothing_iff.mp nothing
    have apart : ¬ (key = dottedName labels ∨ wildcardName (dottedName labels) = some key) := by
      intro under
      rcases has with there | there <;> obtain ⟨row, there⟩ := Option.ne_none_iff_exists'.mp there
      · exact lookup_isSome under there noAddress
      · exact lookup_isSome under there noAlias
    rw [not_or] at apart
    exact ⟨apart.1, apart.2, (resolves.nothing nothing key has).2⟩
  · intro apart
    have none_ : ∀ {ρ : Type} {table : Table String ρ},
        (∀ key, table.get? key ≠ none → zone.Has key) →
        lookup table (dottedName labels) = none := by
      intro ρ table listed
      refine Option.eq_none_iff_forall_ne_some.mpr (fun found isFound => ?_)
      obtain ⟨row, under⟩ := lookup_under isFound
      obtain ⟨notName, notWildcard, _⟩ :=
        apart found.1 (listed found.1 (by rw [row]; exact Option.some_ne_none _))
      exact under.elim notName notWildcard
    rw [find_nothing_iff.mpr ⟨none_ (fun _ => .inl), none_ (fun _ => .inr)⟩]
    exact ⟨nofun, nofun, fun _ key has => ⟨unnamed has, (apart key has).2.2⟩⟩

end Resolving

theorem find_resolves_iff {zone : DnsTables} (plain : AllPlain zone) (labels : List DnsLabel) :
    Resolves zone labels (zone.find (dottedName labels)) ↔ Unclouded zone labels := by
  unfold Unclouded
  by_cases dotless : Dotless labels
  · rw [find_resolves_dotless plain dotless]
    simp [dotless]
  · rw [find_resolves_dotted plain dotless]
    simp [dotless]

/-! ### The names of records are plain -/

/-- A text of plain characters and dots. -/
def PlainText (text : String) : Prop :=
  ∀ c ∈ text.toList, PlainChar c ∨ c = '.'

theorem mem_splitChars {sep : Char} {chars part : List Char}
    (listed : part ∈ Text.splitChars sep chars) : ∀ c ∈ part, c ∈ chars ∧ c ≠ sep := by
  induction chars generalizing part with
  | nil =>
      rw [Text.splitChars, List.mem_singleton] at listed
      rw [listed]
      exact fun c inPart => absurd inPart List.not_mem_nil
  | cons head chars ih =>
      rw [Text.splitChars] at listed
      by_cases same : head = sep
      · rw [if_pos same] at listed
        rcases List.mem_cons.mp listed with rfl | later
        · exact fun c inPart => absurd inPart List.not_mem_nil
        · exact fun c inPart => (ih later c inPart).imp_left (List.mem_cons_of_mem _)
      · rw [if_neg same] at listed
        cases parts : Text.splitChars sep chars with
        | nil =>
            rw [parts, List.mem_singleton] at listed
            rw [listed]
            intro c inPart
            rw [List.mem_singleton.mp inPart]
            exact ⟨List.mem_cons_self, same⟩
        | cons first others =>
            rw [parts] at listed ih
            rcases List.mem_cons.mp listed with rfl | later
            · intro c inPart
              rcases List.mem_cons.mp inPart with rfl | inPart
              · exact ⟨List.mem_cons_self, same⟩
              · exact (ih List.mem_cons_self c inPart).imp_left (List.mem_cons_of_mem _)
            · exact fun c inPart =>
                (ih (List.mem_cons_of_mem _ later) c inPart).imp_left (List.mem_cons_of_mem _)

theorem splitChars_covers {sep c : Char} {chars : List Char} (listed : c ∈ chars)
    (differ : c ≠ sep) : ∃ part ∈ Text.splitChars sep chars, c ∈ part := by
  induction chars with
  | nil => exact absurd listed List.not_mem_nil
  | cons head chars ih =>
      rw [Text.splitChars]
      by_cases same : head = sep
      · rw [if_pos same]
        have later := (List.mem_cons.mp listed).resolve_left (fun here => differ (here.trans same))
        obtain ⟨part, inSplit, inPart⟩ := ih later
        exact ⟨part, List.mem_cons_of_mem _ inSplit, inPart⟩
      · rw [if_neg same]
        cases parts : Text.splitChars sep chars with
        | nil =>
            have count := length_splitChars sep chars
            rw [parts] at count
            cases count
        | cons first others =>
            rcases List.mem_cons.mp listed with rfl | later
            · exact ⟨c :: first, List.mem_cons_self, List.mem_cons_self⟩
            · obtain ⟨part, inSplit, inPart⟩ := ih later
              rw [parts] at inSplit
              rcases List.mem_cons.mp inSplit with rfl | other
              · exact ⟨head :: part, List.mem_cons_self, List.mem_cons_of_mem _ inPart⟩
              · exact ⟨part, List.mem_cons_of_mem _ other, inPart⟩

theorem plainText_append {one two : String} (first : PlainText one) (second : PlainText two) :
    PlainText (one ++ two) := by
  intro c listed
  rw [String.toList_append] at listed
  rcases List.mem_append.mp listed with listed | listed
  · exact first c listed
  · exact second c listed

theorem plainText_label {label : String} (fine : Names.isDnsLabel label = true) :
    PlainText label :=
  fun c listed => .inl (.inl ((Names.isDnsLabel_iff.mp fine).mapped c listed))

theorem plainText_repr (number : Nat) : PlainText (toString number) :=
  fun c listed => .inl (.inl (Names.labelChar_of_digit (Names.repr_digits c listed)))

theorem plainText_numbered {base label : String} {oct : Nat} (plain : PlainText base)
    (numbered : Numbered base oct label) : PlainText label := by
  have hyphen : PlainText (toString "-") := by
    intro c listed
    exact .inl (.inl (by rw [List.mem_singleton.mp listed]; decide))
  cases numbered with
  | plain => exact plain
  | octet => exact plainText_append (plainText_append plain hyphen) (plainText_repr _)
  | again i =>
      exact plainText_append (plainText_append (plainText_append (plainText_append plain hyphen)
        (plainText_repr _)) hyphen) (plainText_repr _)

/-- The characters of a name are those of its parts. -/
theorem plainText_of_parts {name : String}
    (parts : ∀ part ∈ Text.split '.' name, PlainText part) : PlainText name := by
  intro c listed
  by_cases dot : c = '.'
  · exact .inr dot
  · obtain ⟨part, inSplit, inPart⟩ := splitChars_covers listed dot
    refine parts (String.ofList part) (List.mem_map_of_mem inSplit) c ?_
    rwa [String.toList_ofList]

theorem plainText_customName {name : String} (fine : Names.isCustomDnsName name = true) :
    PlainText name := by
  refine plainText_of_parts (fun part listed => ?_)
  unfold Names.isCustomDnsName at fine
  split at fine
  · cases fine
  · cases parts : Text.split '.' name with
    | nil =>
        rw [parts] at listed
        exact absurd listed List.not_mem_nil
    | cons first labels =>
        rw [parts] at fine listed
        dsimp only at fine
        rw [Bool.and_eq_true, Bool.or_eq_true, List.all_eq_true, decide_eq_true_eq] at fine
        rcases List.mem_cons.mp listed with rfl | later
        · rcases fine.1 with rfl | label
          · intro c listed
            exact .inl (.inr (List.mem_singleton.mp listed))
          · exact plainText_label label
        · exact plainText_label (fine.2 part later)

theorem plainKey_fqdn {network name : String} (label : Names.isDnsLabel network = true)
    (plain : PlainText name) : PlainKey (fqdn network name) := by
  have dot : PlainText (toString ".") := by
    intro c listed
    exact .inr (List.mem_singleton.mp listed)
  have suffix : PlainText (toString DNS_SUFFIX) := plainText_customName (by decide)
  have text : PlainText (fqdn network name) :=
    plainText_append (plainText_append (plainText_append (plainText_append plain dot)
      (plainText_label label)) dot) suffix
  constructor
  · rw [length_splitChars]
    have dotted : '.' ∈ (fqdn network name).toList := by
      unfold fqdn
      simp only [String.toList_append]
      refine List.mem_append_left _ (List.mem_append_right _ ?_)
      decide
    have count := List.count_pos_iff.mpr dotted
    omega
  · intro part listed c inPart
    obtain ⟨inKey, notDot⟩ := mem_splitChars listed c inPart
    exact (text c inKey).resolve_right notDot

theorem plainText_member {ledger : List LedgerEntry} {member : LedgerEntry} {label : String}
    (labelled : (member, label) ∈ labelledMembers ledger) : PlainText label :=
  plainText_numbered (plainText_label (dnsBase_label member)) (mem_labelledMembers labelled).2

theorem plainKey_zone {network : String} {ledger : List LedgerEntry} {custom : List DnsRecord}
    (label : Names.isDnsLabel network = true) {entry : ZoneEntry}
    (listed : entry ∈ zoneFor network ledger custom) : PlainKey entry.fqdn := by
  unfold zoneFor at listed
  rcases List.mem_append.mp listed with isMember | isRecord
  · obtain ⟨⟨member, name⟩, labelled, rfl⟩ := List.mem_map.mp isMember
    exact plainKey_fqdn label (plainText_member labelled)
  · obtain ⟨record, kept, rfl⟩ := List.mem_map.mp isRecord
    exact plainKey_fqdn label
      (plainText_customName ((customRecords_spec _ custom).2 record kept).2.1)

/-! ### The merged tables -/

theorem foldl_insert_plain {α ρ : Type} (name : α → String) (row : α → ρ) {entries : List α}
    (plain : ∀ entry ∈ entries, PlainKey (name entry)) {table : Table String ρ}
    (before : ∀ key, table.get? key ≠ none → PlainKey key) :
    ∀ key, (entries.foldl (fun table entry => table.insert (name entry) (row entry)) table).get? key
      ≠ none → PlainKey key := by
  induction entries generalizing table with
  | nil => exact before
  | cons entry entries ih =>
      refine ih (fun other listed => plain other (List.mem_cons_of_mem _ listed)) ?_
      intro key there
      rw [Table.get?_insert] at there
      split at there
      · rename_i same
        rw [same]
        exact plain entry List.mem_cons_self
      · exact before key there

theorem mergeCname_plain {network : String} (label : Names.isDnsLabel network = true)
    {addresses : Table String Ipv4Addr} {table : Table String CnameTarget} (record : CnameRecord)
    (before : ∀ key, table.get? key ≠ none → PlainKey key) :
    ∀ key, (mergeCname network addresses table record).get? key ≠ none → PlainKey key := by
  intro key there
  unfold mergeCname at there
  split at there
  · exact before key there
  · rename_i valid
    split at there
    · exact before key there
    · rw [Table.get?_insert] at there
      split at there
      · rename_i same
        rw [same]
        exact plainKey_fqdn label (plainText_customName (by simpa using valid))
      · exact before key there

theorem mergeNetwork_plain {zone : DnsTables} (plain : AllPlain zone) (data : NetworkZone) :
    AllPlain (mergeNetwork zone data) := by
  have entries : ∀ entry ∈ zoneFor data.network data.ledger data.custom, PlainKey entry.fqdn :=
    fun entry listed => plainKey_zone data.networkLabel listed
  have addresses := foldl_insert_plain ZoneEntry.fqdn ZoneEntry.ip entries
    (fun key there => plain key (.inl there))
  have aliases : ∀ (records : List CnameRecord) (table : Table String CnameTarget) addresses,
      (∀ key, table.get? key ≠ none → PlainKey key) →
      ∀ key, (records.foldl (mergeCname data.network addresses) table).get? key ≠ none →
        PlainKey key := by
    intro records table addresses
    induction records generalizing table with
    | nil => exact id
    | cons record records ih =>
        exact fun before => ih _ (mergeCname_plain data.networkLabel record before)
  rintro key (there | there)
  · exact addresses key there
  · exact aliases _ _ _ (fun key there => plain key (.inr there)) key there

/-- All names in the merged tables are plain. -/
theorem mergeZones_plain (networks : List NetworkZone) : AllPlain (mergeZones networks) := by
  have keeps : ∀ (zone : DnsTables), AllPlain zone →
      AllPlain (networks.foldl mergeNetwork zone) := by
    induction networks with
    | nil => exact fun _ plain => plain
    | cons data networks ih => exact fun _ plain => ih _ (mergeNetwork_plain plain data)
  exact keeps {} (fun key there => there.elim (absurd rfl) (absurd rfl))

/-! ### Questions on the wire -/

/-- The labels with their lengths. -/
def wireLabels (labels : List DnsLabel) : List UInt8 :=
  labels.flatMap (fun label => UInt8.ofNat label.length :: label)

/-- The name so far with one more label. -/
def withLabel (name : String) (label : DnsLabel) : String :=
  (if name = "" then name else name ++ ".") ++ String.ofList (label.map nameChar)

/-- A label that fits the byte in front of it. -/
def FitsWire (label : DnsLabel) : Prop := 0 < label.length ∧ label.length ≤ 63

theorem len_append (one two : String) : Text.len (one ++ two) = Text.len one + Text.len two :=
  String.utf8ByteSize_append

theorem len_withLabel (name : String) (label : DnsLabel) :
    Text.len name ≤ Text.len (withLabel name label) := by
  unfold withLabel
  rw [len_append]
  split
  · omega
  · rw [len_append]
    omega

theorem len_withLabels (name : String) (labels : List DnsLabel) :
    Text.len name ≤ Text.len (labels.foldl withLabel name) := by
  induction labels generalizing name with
  | nil => exact Nat.le_refl _
  | cons label labels ih => exact Nat.le_trans (len_withLabel name label) (ih _)

/-- One round that does not end the name. -/
theorem questionName_round {fuel : Nat} {len : UInt8} {rest : List UInt8} (name : String)
    (nonzero : len ≠ 0) (fits : ¬ (len.toNat > 63 ∨ len.toNat > rest.length)) :
    questionName (fuel + 1) (len :: rest) name =
      if Text.len (withLabel name (rest.take len.toNat)) > 253 then none
      else questionName fuel (rest.drop len.toNat) (withLabel name (rest.take len.toNat)) := by
  rw [questionName, if_neg nonzero, if_neg fits]
  rfl

/-- The loop reads the labels it is given. -/
theorem questionName_wire {labels : List DnsLabel} (fits : ∀ label ∈ labels, FitsWire label)
    (rest : List UInt8) {name : String} (short : Text.len (labels.foldl withLabel name) ≤ 253)
    {fuel : Nat} (enough : labels.length < fuel) :
    questionName fuel (wireLabels labels ++ 0 :: rest) name =
      some (labels.foldl withLabel name, rest) := by
  induction labels generalizing name fuel with
  | nil =>
      cases fuel with
      | zero => exact absurd enough (Nat.not_lt_zero _)
      | succ fuel => rfl
  | cons label labels ih =>
      cases fuel with
      | zero => exact absurd enough (Nat.not_lt_zero _)
      | succ fuel =>
          obtain ⟨⟨some_, small⟩, others⟩ := List.forall_mem_cons.mp fits
          have size : (UInt8.ofNat label.length).toNat = label.length :=
            Nat.mod_eq_of_lt (by omega)
          have nonzero : UInt8.ofNat label.length ≠ 0 := by
            intro zero
            rw [zero] at size
            exact absurd size (Nat.ne_of_lt some_)
          have bytes : wireLabels (label :: labels) ++ 0 :: rest =
              UInt8.ofNat label.length :: (label ++ (wireLabels labels ++ 0 :: rest)) := by
            unfold wireLabels
            rw [List.flatMap_cons, List.append_assoc, List.cons_append]
          have longer : Text.len (withLabel name label) ≤ 253 :=
            Nat.le_trans (len_withLabels _ labels) short
          rw [bytes, questionName_round name nonzero, size, List.take_left, List.drop_left,
            if_neg (Nat.not_lt.mpr longer)]
          · exact ih others short (Nat.lt_of_succ_lt_succ enough)
          · rw [size, List.length_append]
            omega

/-- What the loop reads are labels. -/
theorem questionName_read {fuel : Nat} {body rest : List UInt8} {name full : String}
    (read : questionName fuel body name = some (full, rest)) (short : Text.len name ≤ 253) :
    ∃ labels : List DnsLabel, (∀ label ∈ labels, FitsWire label) ∧
      body = wireLabels labels ++ 0 :: rest ∧ full = labels.foldl withLabel name ∧
      Text.len full ≤ 253 := by
  induction fuel generalizing body name with
  | zero => cases read
  | succ fuel ih =>
      cases body with
      | nil => cases read
      | cons len body =>
          by_cases zero : len = 0
          · rw [questionName, if_pos zero] at read
            cases read
            rw [zero]
            exact ⟨[], fun _ listed => absurd listed List.not_mem_nil, rfl, rfl, short⟩
          · by_cases fits : len.toNat > 63 ∨ len.toNat > body.length
            · rw [questionName, if_neg zero, if_pos fits] at read
              cases read
            · rw [questionName_round name zero fits] at read
              split at read
              · cases read
              · rename_i longer
                obtain ⟨labels, others, bytes, same, limit⟩ := ih read (Nat.not_lt.mp longer)
                have length : (body.take len.toNat).length = len.toNat :=
                  List.length_take_of_le (by omega)
                have positive : 0 < len.toNat := by
                  refine Nat.pos_of_ne_zero (fun none_ => zero (UInt8.toNat_inj.mp none_))
                refine ⟨body.take len.toNat :: labels, ?_, ?_, same, limit⟩
                · exact List.forall_mem_cons.mpr ⟨⟨by omega, by omega⟩, others⟩
                · have header : UInt8.ofNat (body.take len.toNat).length = len := by
                    rw [length]
                    exact UInt8.ofNat_toNat
                  unfold wireLabels at bytes ⊢
                  rw [List.flatMap_cons, header, List.append_assoc, List.cons_append, ← bytes,
                    List.take_append_drop]

theorem withLabel_toList {name : String} (some_ : name ≠ "") (label : DnsLabel) :
    (withLabel name label).toList = name.toList ++ '.' :: label.map nameChar := by
  unfold withLabel
  rw [if_neg some_, String.toList_append, String.toList_append, String.toList_ofList]
  simp

theorem dottedName_singleton (label : DnsLabel) :
    (dottedName [label]).toList = label.map nameChar := by
  unfold dottedName
  simp

/-- More labels come after a dot. -/
theorem withLabels_toList {labels : List DnsLabel} {name : String} (some_ : name ≠ "")
    (more : labels ≠ []) :
    (labels.foldl withLabel name).toList = name.toList ++ '.' :: (dottedName labels).toList := by
  induction labels generalizing name with
  | nil => exact absurd rfl more
  | cons label labels ih =>
      rw [List.foldl_cons]
      have first := withLabel_toList some_ label
      cases labels with
      | nil => rw [List.foldl_nil, first, dottedName_singleton]
      | cons next labels =>
          have longer : withLabel name label ≠ "" := by
            intro empty
            rw [empty] at first
            exact List.append_ne_nil_of_right_ne_nil _ (List.cons_ne_nil _ _) first.symm
          rw [ih longer (List.cons_ne_nil _ _), first, dottedName_cons label (List.cons_ne_nil _ _),
            List.append_assoc, List.cons_append]

/-- The name of labels that are read one by one. -/
theorem withLabels_dottedName {labels : List DnsLabel} (fits : ∀ label ∈ labels, FitsWire label) :
    labels.foldl withLabel "" = dottedName labels := by
  cases labels with
  | nil => rfl
  | cons label labels =>
      have first : withLabel "" label = String.ofList (label.map nameChar) := by
        unfold withLabel
        rw [if_pos rfl, String.empty_append]
      rw [List.foldl_cons, first]
      apply String.toList_injective
      cases labels with
      | nil => rw [List.foldl_nil, dottedName_singleton, String.toList_ofList]
      | cons next labels =>
          have some_ : String.ofList (label.map nameChar) ≠ "" := by
            intro empty
            have chars := congrArg String.toList empty
            rw [String.toList_ofList] at chars
            have none_ : label = [] := List.map_eq_nil_iff.mp chars
            have size := (fits label List.mem_cons_self).1
            rw [none_] at size
            exact absurd size (Nat.lt_irrefl _)
          rw [withLabels_toList some_ (List.cons_ne_nil _ _),
            dottedName_cons label (List.cons_ne_nil _ _), String.toList_ofList]

/-- A question, with its two last fields as they stand in the query. -/
structure DnsQuestion where
  labels : List DnsLabel
  qtype : UInt8 × UInt8
  qclass : UInt8 × UInt8

/-- The section of a question. -/
def DnsQuestion.bytes (question : DnsQuestion) : List UInt8 :=
  wireLabels question.labels ++
    [0, question.qtype.1, question.qtype.2, question.qclass.1, question.qclass.2]

def DnsQuestion.parsed (question : DnsQuestion) : ParsedQuestion where
  name := dottedName question.labels
  qtype := be16 question.qtype.1 question.qtype.2
  qclass := be16 question.qclass.1 question.qclass.2
  bytes := question.bytes

/-- The labels of a name: no longer than names can be. -/
structure FitsName (labels : List DnsLabel) : Prop where
  each : ∀ label ∈ labels, FitsWire label
  name : Text.len (dottedName labels) ≤ 253

/-- What is parsed is a question, with anything after it. -/
theorem parseQuestion_iff {body : List UInt8} {parsed : ParsedQuestion} :
    parseQuestion body = some parsed ↔ ∃ question : DnsQuestion, FitsName question.labels ∧
      question.bytes <+: body ∧ parsed = question.parsed := by
  constructor
  · intro parses
    unfold parseQuestion at parses
    split at parses
    · rename_i name t1 t2 c1 c2 rest read
      obtain ⟨labels, fits, bytes, same, limit⟩ := questionName_read read (Nat.zero_le _)
      rw [withLabels_dottedName fits] at same
      have whole : body = (DnsQuestion.mk labels (t1, t2) (c1, c2)).bytes ++ rest := by
        rw [bytes]
        unfold DnsQuestion.bytes
        rw [List.append_assoc]
        rfl
      refine ⟨⟨labels, (t1, t2), (c1, c2)⟩, ⟨fits, same ▸ limit⟩, ⟨rest, whole.symm⟩, ?_⟩
      cases parses
      have length : body.length - rest.length =
          (DnsQuestion.mk labels (t1, t2) (c1, c2)).bytes.length := by
        rw [whole, List.length_append, Nat.add_sub_cancel]
      rw [length, whole, List.take_left, same]
      rfl
    · cases parses
  · rintro ⟨question, fits, ⟨rest, rfl⟩, rfl⟩
    have layout : question.bytes ++ rest = wireLabels question.labels ++ 0 :: question.qtype.1 ::
        question.qtype.2 :: question.qclass.1 :: question.qclass.2 :: rest := by
      unfold DnsQuestion.bytes
      rw [List.append_assoc]
      rfl
    have enough : question.labels.length < (question.bytes ++ rest).length + 1 := by
      have each : ∀ labels : List DnsLabel, labels.length ≤ (wireLabels labels).length := by
        intro labels
        induction labels with
        | nil => exact Nat.le_refl _
        | cons label labels ih =>
            unfold wireLabels at ih ⊢
            rw [List.flatMap_cons, List.length_append, List.length_cons, List.length_cons]
            omega
      have some_ := each question.labels
      unfold DnsQuestion.bytes
      rw [List.length_append, List.length_append]
      omega
    have short : Text.len (question.labels.foldl withLabel "") ≤ 253 := by
      rw [withLabels_dottedName fits.each]
      exact fits.name
    have read := questionName_wire fits.each (question.qtype.1 :: question.qtype.2 ::
      question.qclass.1 :: question.qclass.2 :: rest) short enough
    rw [withLabels_dottedName fits.each, ← layout] at read
    unfold parseQuestion
    rw [read]
    dsimp only
    rw [List.length_append, Nat.add_sub_cancel, List.take_left]
    rfl

/-- A query that asks for a name: a header for one question, and the question. -/
structure Asks (query : List UInt8) (question : DnsQuestion) : Prop where
  header : 12 ≤ query.length
  isQuery : query.getD 2 0 &&& 0x80 = 0
  opcode : (query.getD 2 0 >>> 3) &&& 0x0F = 0
  one : be16 (query.getD 4 0) (query.getD 5 0) = 1
  fits : FitsName question.labels
  body : question.bytes <+: query.drop 12

variable {query : List UInt8}

/-- The response to a question is made from what is found under its dotted name. -/
theorem respond_asks {question : DnsQuestion} (asks : Asks query question) (zone : DnsTables) :
    respond query zone =
      some (reply query question.parsed (zone.find (dottedName question.labels))) := by
  have parses := parseQuestion_iff.mpr ⟨question, asks.fits, asks.body, rfl⟩
  unfold respond
  dsimp only
  rw [if_neg (Nat.not_lt.mpr asks.header), if_neg (not_not.mpr asks.isQuery),
    if_neg (not_not.mpr asks.opcode), if_neg (not_not.mpr asks.one), parses]
  rfl

/-- Any other query is responded to without a look at the names. -/
theorem respond_others (nothing : ∀ question, ¬ Asks query question) (zone other : DnsTables) :
    respond query zone = respond query other := by
  unfold respond
  dsimp only
  by_cases short : query.length < 12
  · rw [if_pos short, if_pos short]
  · rw [if_neg short, if_neg short]
    by_cases isResponse : query.getD 2 0 &&& 0x80 ≠ 0
    · rw [if_pos isResponse, if_pos isResponse]
    · rw [if_neg isResponse, if_neg isResponse]
      by_cases opcode : (query.getD 2 0 >>> 3) &&& 0x0F ≠ 0
      · rw [if_pos opcode, if_pos opcode]
      · rw [if_neg opcode, if_neg opcode]
        by_cases many : be16 (query.getD 4 0) (query.getD 5 0) ≠ 1
        · rw [if_pos many, if_pos many]
        · rw [if_neg many, if_neg many]
          cases parses : parseQuestion (query.drop 12) with
          | none => rfl
          | some parsed =>
              obtain ⟨question, fits, body, _⟩ := parseQuestion_iff.mp parses
              exact absurd ⟨Nat.not_lt.mp short, not_not.mp isResponse, not_not.mp opcode,
                not_not.mp many, fits, body⟩ (nothing question)

/-- A query is responded to from what is found under its dotted name, and that is the record it must
be exactly for names that are not clouded. -/
theorem lookup_semantics (networks : List NetworkZone) (query : List UInt8) :
    (∀ question, Asks query question →
      respond query (mergeZones networks) = some (reply query question.parsed
        ((mergeZones networks).find (dottedName question.labels))) ∧
      (Resolves (mergeZones networks) question.labels
          ((mergeZones networks).find (dottedName question.labels)) ↔
        Unclouded (mergeZones networks) question.labels)) ∧
    ((∀ question, ¬ Asks query question) →
      ∀ other, respond query (mergeZones networks) = respond query other) := by
  constructor
  · intro question asks
    exact ⟨respond_asks asks _, find_resolves_iff (mergeZones_plain networks) question.labels⟩
  · intro nothing other
    exact respond_others nothing _ other

/-- A network with an address for all names under `app` and an alias for one of them. -/
def appNetwork : NetworkZone where
  network := "home"
  ledger := []
  custom := [{ name := "*.app", ip := 0x0A080009#32 }]
  cnames := [{ name := "docs.app", target := "docs.example.com" }]
  networkLabel := by decide

/-- The labels of a name, for an address of the class `IN`. -/
def addressQuestion (labels : List String) : DnsQuestion where
  labels := labels.map Text.utf8Bytes
  qtype := (0, 1)
  qclass := (0, 1)

/-- A query for one question. -/
def queryOf (question : DnsQuestion) : List UInt8 :=
  [0, 7, 1, 0, 0, 1, 0, 0, 0, 0, 0, 0] ++ question.bytes

def webQuestion : DnsQuestion := addressQuestion ["WEB", "app", "home", "peercove", "internal"]

theorem appNetwork_web : (mergeZones [appNetwork]).find (dottedName webQuestion.labels) =
    .address "*.app.home.peercove.internal" 0x0A080009#32 := by
  decide

theorem queryOf_asks {question : DnsQuestion} (fits : FitsName question.labels) :
    Asks (queryOf question) question where
  header := by
    rw [queryOf, List.length_append]
    exact Nat.le_add_right 12 _
  isQuery := by
    have none_ : (1 : UInt8) &&& 0x80 = 0 := by decide
    exact none_
  opcode := by
    have none_ : ((1 : UInt8) >>> 3) &&& 0x0F = 0 := by decide
    exact none_
  one := by
    have count : be16 0 1 = 1 := by decide
    exact count
  fits := fits
  body := List.prefix_refl _

theorem webQuestion_fits : FitsName webQuestion.labels := by
  constructor
  · intro label listed
    have sizes : ∀ label ∈ webQuestion.labels, 0 < label.length ∧ label.length ≤ 63 := by decide
    exact sizes label listed
  · decide

/-- The case of the letters of `WEB` does not matter. -/
theorem lookup_semantics_web :
    respond (queryOf webQuestion) (mergeZones [appNetwork]) = some (reply (queryOf webQuestion)
      webQuestion.parsed (.address "*.app.home.peercove.internal" 0x0A080009#32)) := by
  have response := ((lookup_semantics [appNetwork] (queryOf webQuestion)).1 webQuestion
    (queryOf_asks webQuestion_fits)).1
  rwa [appNetwork_web] at response

def docsQuestion : DnsQuestion := addressQuestion ["docs", "app", "home", "peercove", "internal"]

theorem docsQuestion_fits : FitsName docsQuestion.labels := by
  constructor
  · intro label listed
    have sizes : ∀ label ∈ docsQuestion.labels, 0 < label.length ∧ label.length ≤ 63 := by decide
    exact sizes label listed
  · decide

/-- The alias of the name is there, but the address of the wildcard is what is found. -/
theorem lookup_hidesAlias : ¬ ∀ (networks : List NetworkZone) (query : List UInt8) (question),
    Asks query question → ∃ found, Resolves (mergeZones networks) question.labels found ∧
      respond query (mergeZones networks) = some (reply query question.parsed found) := by
  intro claimed
  obtain ⟨found, resolves, response⟩ := claimed [appNetwork] (queryOf docsQuestion) docsQuestion
    (queryOf_asks docsQuestion_fits)
  have named : SameName (recordLabels "docs.app.home.peercove.internal") docsQuestion.labels := by
    decide
  have addresses : (mergeZones [appNetwork]).a.rows =
      [("*.app.home.peercove.internal", 0x0A080009#32)] := by decide
  have aliases : (mergeZones [appNetwork]).cname.rows =
      [("docs.app.home.peercove.internal", { target := "docs.example.com", ip := none })] := by
    decide
  have there : (mergeZones [appNetwork]).Has "docs.app.home.peercove.internal" := by
    refine .inr (Option.ne_none_iff_exists'.mpr ⟨{ target := "docs.example.com", ip := none }, ?_⟩)
    rw [Table.get?_eq_some, aliases]
    exact List.mem_singleton.mpr rfl
  cases found with
  | address key ip =>
      obtain ⟨row, same | ⟨_, unnamed⟩⟩ := resolves.address key ip rfl
      · have listed := Table.get?_eq_some.mp row
        rw [addresses] at listed
        obtain ⟨rfl, rfl⟩ := Prod.mk.inj (List.mem_singleton.mp listed)
        have differ : ¬ SameName (recordLabels "*.app.home.peercove.internal")
            docsQuestion.labels := by decide
        exact differ same
      · exact unnamed _ there named
  | cname key target =>
      have listed := Table.get?_eq_some.mp (resolves.cname key target rfl).1
      rw [aliases] at listed
      obtain ⟨rfl, rfl⟩ := Prod.mk.inj (List.mem_singleton.mp listed)
      have differ : ¬ respond (queryOf docsQuestion) (mergeZones [appNetwork]) =
          some (reply (queryOf docsQuestion) docsQuestion.parsed
            (.cname "docs.app.home.peercove.internal"
              { target := "docs.example.com", ip := none })) := by
        decide
      exact differ response
  | nothing => exact (resolves.nothing rfl _ there).1 named

end PeerCove
