/-
Module: PeerCove.Proofs.DnsLabels
Layer: Proofs
Purpose: Which strings are DNS labels already, and that the ids the program numbers are.
Trusted boundary: none
Main exports: LabelShape, dnsLabel_of_shape, isDnsLabel_iff, labelShape_numbered,
  labelShape_ended
-/
import PeerCove.Core.Names
import Mathlib.Data.List.Chain

namespace PeerCove.Names

/-! ### The shape of a label -/

/-- Lower-case letters, digits and hyphens, no hyphen at either end or beside another one. -/
structure LabelShape (chars : List Char) : Prop where
  nonempty : chars ≠ []
  length_le : chars.length ≤ MAX_LABEL_LEN
  mapped : ∀ c ∈ chars, labelChar c = c
  head : chars.head? ≠ some '-'
  last : chars.getLast? ≠ some '-'
  apart : chars.IsChain (fun one two => ¬ (one = '-' ∧ two = '-'))

/-- The loop copies characters that are fine where they stand. -/
theorem mapLabel_of_mapped {chars : List Char} {previous : Bool}
    (mapped : ∀ c ∈ chars, labelChar c = c)
    (apart : chars.IsChain (fun one two => ¬ (one = '-' ∧ two = '-')))
    (first : previous = true → chars.head? ≠ some '-') : mapLabel previous chars = chars := by
  induction chars generalizing previous with
  | nil => rfl
  | cons c rest ih =>
      have here := mapped c List.mem_cons_self
      have later := fun other member => mapped other (List.mem_cons_of_mem _ member)
      have tail := apart.tail
      rw [mapLabel, here]
      by_cases hyphen : c = '-'
      · subst hyphen
        have fresh : previous = false := by
          cases previous with
          | false => rfl
          | true => exact absurd rfl (first rfl)
        subst fresh
        have next : rest.head? ≠ some '-' := by
          cases rest with
          | nil => simp
          | cons two rest =>
              have differ := (List.isChain_cons_cons.mp apart).1
              simpa using differ
        simpa using ih later tail (fun _ => next)
      · have next : mapLabel false rest = rest := ih later tail (by simp)
        simpa [hyphen] using next

/-- Nothing is dropped at an end that does not satisfy the test. -/
theorem dropRight_of_last {p : Char → Bool} {chars : List Char}
    (last : ∀ c, chars.getLast? = some c → p c = false) : Text.dropRight p chars = chars := by
  rw [Text.dropRight]
  cases reversed : chars.reverse with
  | nil =>
      rw [List.reverse_eq_nil_iff.mp reversed]
      rfl
  | cons c rest =>
      have final : chars.getLast? = some c := by
        rw [← List.head?_reverse, reversed]
        rfl
      rw [List.dropWhile_cons_of_neg (by simp [last c final]), ← reversed, List.reverse_reverse]

theorem dropWhile_of_head {p : Char → Bool} {chars : List Char}
    (head : ∀ c, chars.head? = some c → p c = false) : chars.dropWhile p = chars := by
  cases chars with
  | nil => rfl
  | cons c rest => rw [List.dropWhile_cons_of_neg (by simp [head c rfl])]

/-- A string of this shape is its own label. -/
theorem dnsLabel_of_shape {label : String} (shape : LabelShape label.toList) :
    dnsLabel label = some label := by
  have mapped := mapLabel_of_mapped shape.mapped shape.apart
    (fun impossible : false = true => nomatch impossible)
  have trimmedLeft : label.toList.dropWhile (· = '-') = label.toList :=
    dropWhile_of_head (fun c head => by
      have differ : c ≠ '-' := fun same => shape.head (same ▸ head)
      simp [differ])
  have trimmedRight : Text.dropRight (· = '-') label.toList = label.toList :=
    dropRight_of_last (fun c last => by
      have differ : c ≠ '-' := fun same => shape.last (same ▸ last)
      simp [differ])
  unfold dnsLabel
  simp only [mapped, trimmedLeft, trimmedRight, List.take_of_length_le shape.length_le,
    shape.nonempty, if_false, String.ofList_toList]

/-! ### Characters of a label -/

/-- The characters that a label keeps. -/
theorem labelChar_cases {c : Char} (mapped : labelChar c = c) :
    Text.isAsciiLower c = true ∨ Text.isAsciiDigit c = true ∨ c = '-' := by
  unfold labelChar at mapped
  split at mapped
  · rename_i upper
    -- the lower-case letter is another character
    have bounds : 65 ≤ c.toNat ∧ c.toNat ≤ 90 := by
      simpa [Text.isAsciiUpper] using upper
    have valid : (c.toNat + 32).isValidChar := .inl (by omega)
    have code := congrArg Char.toNat mapped
    rw [Text.toAsciiLower, if_pos upper, Char.ofNat, dif_pos valid] at code
    have lowered : c.toNat + 32 = c.toNat := code
    omega
  · split at mapped
    · rename_i kept
      rcases Bool.or_eq_true_iff.mp kept with lower | digit
      · exact .inl lower
      · exact .inr (.inl digit)
    · exact .inr (.inr mapped.symm)

/-- They are ASCII, none a control character or white space. -/
theorem labelChar_bounds {c : Char} (mapped : labelChar c = c) : 45 ≤ c.toNat ∧ c.toNat ≤ 122 := by
  rcases labelChar_cases mapped with lower | digit | rfl
  · have bounds : 97 ≤ c.toNat ∧ c.toNat ≤ 122 := by simpa [Text.isAsciiLower] using lower
    omega
  · have bounds : 48 ≤ c.toNat ∧ c.toNat ≤ 57 := by simpa [Text.isAsciiDigit] using digit
    omega
  · decide

theorem labelChar_notWhitespace {c : Char} (mapped : labelChar c = c) :
    Text.isWhitespace c = false := by
  have bounds := labelChar_bounds mapped
  simp [Text.isWhitespace]
  omega

theorem labelChar_utf8Size {c : Char} (mapped : labelChar c = c) : c.utf8Size = 1 := by
  have bounds := labelChar_bounds mapped
  rw [Char.utf8Size_eq_one_iff, UInt32.le_iff_toNat_le]
  exact Nat.le_trans bounds.2 (by decide)

/-- A label has as many bytes as characters. -/
theorem len_of_mapped {chars : List Char} (mapped : ∀ c ∈ chars, labelChar c = c) :
    Text.len (String.ofList chars) = chars.length := by
  rw [Text.len]
  induction chars with
  | nil => rfl
  | cons c rest ih =>
      have here := labelChar_utf8Size (mapped c List.mem_cons_self)
      have later := ih (fun other member => mapped other (List.mem_cons_of_mem _ member))
      rw [String.ofList_cons, String.utf8ByteSize_append, String.utf8ByteSize_singleton, later, here,
        List.length_cons, Nat.add_comm]

theorem LabelShape.len_le {label : String} (shape : LabelShape label.toList) :
    Text.len label ≤ MAX_LABEL_LEN := by
  have length := len_of_mapped shape.mapped
  rw [String.ofList_toList] at length
  rw [length]
  exact shape.length_le

/-- There is nothing to trim from a label. -/
theorem LabelShape.trim_eq {label : String} (shape : LabelShape label.toList) :
    Text.trim label = label := by
  have left : label.toList.dropWhile Text.isWhitespace = label.toList :=
    dropWhile_of_head (fun c head =>
      labelChar_notWhitespace (shape.mapped c (List.mem_of_mem_head? head)))
  have right : Text.dropRight Text.isWhitespace label.toList = label.toList :=
    dropRight_of_last (fun c last =>
      labelChar_notWhitespace (shape.mapped c (List.mem_of_mem_getLast? last)))
  rw [Text.trim, Text.trimMatches, left, right, String.ofList_toList]

/-! ### Every label has the shape -/

/-- What is written for a character is kept. -/
theorem labelChar_idem (c : Char) : labelChar (labelChar c) = labelChar c := by
  by_cases upper : Text.isAsciiUpper c = true
  · have bounds : 65 ≤ c.toNat ∧ c.toNat ≤ 90 := by simpa [Text.isAsciiUpper] using upper
    have valid : (c.toNat + 32).isValidChar := .inl (by omega)
    have code : (labelChar c).toNat = c.toNat + 32 := by
      rw [labelChar, if_pos upper, Text.toAsciiLower, if_pos upper, Char.ofNat, dif_pos valid]
      rfl
    have notUpper : Text.isAsciiUpper (labelChar c) = false := by
      simp [Text.isAsciiUpper, code]
      omega
    have lower : Text.isAsciiLower (labelChar c) = true := by
      simp [Text.isAsciiLower, code]
      omega
    generalize labelChar c = written at notUpper lower
    simp [labelChar, notUpper, lower]
  · by_cases kept : (Text.isAsciiLower c || Text.isAsciiDigit c) = true
    · have same : labelChar c = c := by simp [labelChar, upper, kept]
      rw [same, same]
    · have hyphen : labelChar c = '-' := by simp [labelChar, upper, kept]
      rw [hyphen]
      decide

theorem mapLabel_mapped {previous : Bool} {chars : List Char} :
    ∀ c ∈ mapLabel previous chars, labelChar c = c := by
  induction chars generalizing previous with
  | nil =>
      intro c member
      cases member
  | cons c rest ih =>
      have here := labelChar_idem c
      rw [mapLabel]
      split
      · split
        · exact ih
        · exact List.forall_mem_cons.mpr ⟨by decide, ih⟩
      · exact List.forall_mem_cons.mpr ⟨here, ih⟩

/-- The loop writes no hyphen beside another one. -/
theorem mapLabel_apart {chars : List Char} (previous : Bool) :
    (mapLabel previous chars).IsChain (fun one two => ¬ (one = '-' ∧ two = '-')) ∧
      (previous = true → (mapLabel previous chars).head? ≠ some '-') := by
  induction chars generalizing previous with
  | nil => exact ⟨.nil, by simp [mapLabel]⟩
  | cons c rest ih =>
      rw [mapLabel]
      split
      · split
        · rename_i again
          exact ⟨(ih true).1, fun _ => (ih true).2 rfl⟩
        · rename_i fresh
          refine ⟨List.isChain_cons.mpr ⟨?_, (ih true).1⟩, fun again => absurd again fresh⟩
          rintro two next ⟨_, rfl⟩
          exact (ih true).2 rfl next
      · rename_i differ
        refine ⟨List.isChain_cons.mpr ⟨?_, (ih false).1⟩, fun _ => ?_⟩
        · rintro two _ ⟨same, _⟩
          exact differ same
        · intro same
          exact differ (Option.some.inj same)

theorem dropRight_isPrefix (p : Char → Bool) (chars : List Char) :
    Text.dropRight p chars <+: chars := by
  rw [Text.dropRight, ← List.reverse_suffix, List.reverse_reverse]
  exact List.dropWhile_suffix p

/-- What is left ends in a character that does not satisfy the test. -/
theorem dropRight_last {p : Char → Bool} {chars : List Char} {c : Char}
    (last : (Text.dropRight p chars).getLast? = some c) : p c = false := by
  rw [Text.dropRight, List.getLast?_reverse] at last
  have fails := List.head?_dropWhile_not p chars.reverse
  rw [last] at fails
  exact fails

/-- Only labels are made. -/
theorem labelShape_of_dnsLabel {input label : String} (made : dnsLabel input = some label) :
    LabelShape label.toList := by
  unfold dnsLabel at made
  simp only at made
  split at made
  · cases made
  · rename_i some
    obtain rfl := Option.some.inj made
    rw [String.toList_ofList]
    have front : Text.dropRight (· = '-')
        ((Text.dropRight (· = '-')
          ((mapLabel false input.toList).dropWhile (· = '-'))).take MAX_LABEL_LEN) <+:
        (mapLabel false input.toList).dropWhile (· = '-') :=
      (dropRight_isPrefix _ _).trans (( List.take_prefix _ _).trans (dropRight_isPrefix _ _))
    have whole := front.isInfix.trans (List.dropWhile_suffix (· = '-')).isInfix
    constructor
    · exact some
    · exact ((dropRight_isPrefix _ _).length_le).trans (List.length_take_le _ _)
    · exact fun c member => mapLabel_mapped c (whole.subset member)
    · intro hyphen
      have first : ((mapLabel false input.toList).dropWhile (· = '-')).head? = Option.some '-' := by
        rcases front with ⟨tail, same⟩
        rw [← same, List.head?_append, hyphen]
        rfl
      have fails := List.head?_dropWhile_not (fun c => decide (c = '-'))
        (mapLabel false input.toList)
      rw [first] at fails
      cases fails
    · intro hyphen
      have fails := dropRight_last hyphen
      cases fails
    · obtain ⟨before, after, same⟩ := whole
      have chain := (@mapLabel_apart input.toList false).1
      rw [← same] at chain
      exact chain.left_of_append.right_of_append

theorem isDnsLabel_iff {label : String} : isDnsLabel label = true ↔ LabelShape label.toList := by
  unfold isDnsLabel
  rw [decide_eq_true_eq]
  exact ⟨labelShape_of_dnsLabel, dnsLabel_of_shape⟩

/-! ### Decimal digits -/

/-- A digit is written as it is. -/
theorem labelChar_of_digit {c : Char} (digit : c.isDigit = true) : labelChar c = c := by
  have bounds : 48 ≤ c.toNat ∧ c.toNat ≤ 57 := by
    simp only [Char.isDigit, Bool.and_eq_true, decide_eq_true_eq, UInt32.le_iff_toNat_le] at digit
    exact digit
  have upper : Text.isAsciiUpper c = false := by
    simp [Text.isAsciiUpper]
    omega
  have asDigit : Text.isAsciiDigit c = true := by
    simp [Text.isAsciiDigit]
    omega
  simp [labelChar, upper, asDigit]

theorem digit_ne_hyphen {c : Char} (digit : c.isDigit = true) : c ≠ '-' := by
  rintro rfl
  cases digit

/-- Digits have no hyphen among them. -/
theorem digits_apart {digits : List Char} (each : ∀ c ∈ digits, c.isDigit = true) :
    digits.IsChain (fun one two => ¬ (one = '-' ∧ two = '-')) := by
  refine List.Pairwise.isChain (List.pairwise_of_forall_mem_list ?_)
  rintro one member two _ ⟨hyphen, _⟩
  exact digit_ne_hyphen (each one member) hyphen

/-! ### Numbered ids -/

/-- Characters that are fine beside a number. -/
def labelPart (chars : List Char) : Prop :=
  chars ≠ [] ∧ (∀ c ∈ chars, labelChar c = c) ∧
    chars.IsChain (fun one two => ¬ (one = '-' ∧ two = '-'))

-- Over all characters the quantifier would be decidable too, but not in reasonable time.
instance (chars : List Char) : Decidable (labelPart chars) :=
  letI : Decidable (∀ c ∈ chars, labelChar c = c) := List.decidableBAll _ chars
  inferInstanceAs (Decidable (_ ∧ _ ∧ _))

theorem repr_digits {number : Nat} : ∀ c ∈ number.repr.toList, c.isDigit = true := by
  intro c member
  rw [Nat.toList_repr] at member
  exact Nat.isDigit_of_mem_toDigits (by decide) (by decide) member

/-- A number between two parts of a label makes a label, when it is not too long. -/
theorem labelShape_numbered {front back : List Char} {number : Nat} (one : labelPart front)
    (two : labelPart back) (head : front.head? ≠ some '-') (last : back.getLast? ≠ some '-')
    (short : front.length + number.repr.length + back.length ≤ MAX_LABEL_LEN) :
    LabelShape (front ++ (number.repr.toList ++ back)) := by
  obtain ⟨frontSome, frontMapped, frontApart⟩ := one
  obtain ⟨backSome, backMapped, backApart⟩ := two
  have digits : ∀ c ∈ number.repr.toList, c.isDigit = true := repr_digits
  have digitsSome : number.repr.toList ≠ [] := by
    rw [Nat.toList_repr]
    exact Nat.toDigits_ne_nil
  constructor
  · exact List.append_ne_nil_of_left_ne_nil frontSome _
  · rw [List.length_append, List.length_append, String.length_toList, ← Nat.add_assoc]
    exact short
  · intro c member
    simp only [List.mem_append] at member
    rcases member with member | member | member
    · exact frontMapped c member
    · exact labelChar_of_digit (digits c member)
    · exact backMapped c member
  · rwa [List.head?_append_of_ne_nil _ frontSome]
  · rwa [← List.append_assoc, List.getLast?_append_of_ne_nil _ backSome]
  · -- a digit stands between the two parts
    refine List.isChain_append.mpr ⟨frontApart, List.isChain_append.mpr
      ⟨digits_apart digits, backApart, ?_⟩, ?_⟩
    · rintro c final d _ ⟨hyphen, _⟩
      exact digit_ne_hyphen (digits c (List.mem_of_mem_getLast? final)) hyphen
    · rintro c _ d first ⟨_, hyphen⟩
      rw [List.head?_append_of_ne_nil _ digitsSome] at first
      exact digit_ne_hyphen (digits d (List.mem_of_mem_head? first)) hyphen

/-- A number at the end of a label makes a label, when it is not too long. -/
theorem labelShape_ended {front : List Char} {number : Nat} (part : labelPart front)
    (head : front.head? ≠ some '-') (short : front.length + number.repr.length ≤ MAX_LABEL_LEN) :
    LabelShape (front ++ number.repr.toList) := by
  obtain ⟨frontSome, frontMapped, frontApart⟩ := part
  have digits : ∀ c ∈ number.repr.toList, c.isDigit = true := repr_digits
  have digitsSome : number.repr.toList ≠ [] := by
    rw [Nat.toList_repr]
    exact Nat.toDigits_ne_nil
  constructor
  · exact List.append_ne_nil_of_left_ne_nil frontSome _
  · rw [List.length_append, String.length_toList]
    exact short
  · intro c member
    rcases List.mem_append.mp member with member | member
    · exact frontMapped c member
    · exact labelChar_of_digit (digits c member)
  · rwa [List.head?_append_of_ne_nil _ frontSome]
  · rw [List.getLast?_append_of_ne_nil _ digitsSome]
    intro hyphen
    exact digit_ne_hyphen (digits '-' (List.mem_of_mem_getLast? hyphen)) rfl
  · refine List.isChain_append.mpr ⟨frontApart, digits_apart digits, ?_⟩
    rintro c _ d first ⟨_, hyphen⟩
    exact digit_ne_hyphen (digits d (List.mem_of_mem_head? first)) hyphen

/-- A label with a hyphen after it is fine before a number. -/
theorem LabelShape.hyphen {chars : List Char} (shape : LabelShape chars) :
    labelPart (chars ++ ['-']) ∧ (chars ++ ['-']).head? ≠ some '-' := by
  refine ⟨⟨by simp, ?_, ?_⟩, ?_⟩
  · intro c member
    rcases List.mem_append.mp member with member | member
    · exact shape.mapped c member
    · rw [List.mem_singleton.mp member]
      decide
  · refine List.isChain_append.mpr ⟨shape.apart, .singleton _, ?_⟩
    rintro c final d _ ⟨rfl, _⟩
    exact shape.last final
  · rw [List.head?_append_of_ne_nil _ shape.nonempty]
    exact shape.head

end PeerCove.Names
