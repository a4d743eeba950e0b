/-
Module: PeerCove.Proofs.CustomNames
Layer: Proofs
Purpose: The normalisers of DNS names: what a label is, and that labels and custom names that are
  made are valid and are not changed any more.
Trusted boundary: none
Main exports: PlainLabel, isDnsLabel_iff_plain, dnsLabel_normalises, customName_normalises,
  names_normalised
-/
import PeerCove.Library.NormalForms
import PeerCove.Proofs.DnsZone

namespace PeerCove.Names

/-! ### Labels -/

/-- 1 to 63 lower-case letters, digits and hyphens, no hyphen at either end, no two in a row. -/
structure PlainLabel (label : String) : Prop where
  nonempty : 1 ≤ label.toList.length
  short : label.toList.length ≤ 63
  letters : ∀ c ∈ label.toList,
    Text.isAsciiLower c = true ∨ Text.isAsciiDigit c = true ∨ c = '-'
  starts : label.toList.head? ≠ some '-'
  ends : label.toList.getLast? ≠ some '-'
  apart : ¬ ['-', '-'] <:+: label.toList

theorem labelChar_eq_self_iff {c : Char} :
    labelChar c = c ↔ Text.isAsciiLower c = true ∨ Text.isAsciiDigit c = true ∨ c = '-' := by
  refine ⟨labelChar_cases, ?_⟩
  have notUpper : Text.isAsciiLower c = true ∨ Text.isAsciiDigit c = true →
      Text.isAsciiUpper c = false := by
    simp only [Text.isAsciiLower, Text.isAsciiDigit, Text.isAsciiUpper, Bool.and_eq_true,
      decide_eq_true_eq, Bool.and_eq_false_iff, decide_eq_false_iff_not]
    omega
  rintro (lower | digit | rfl)
  · simp [labelChar, notUpper (.inl lower), lower]
  · simp [labelChar, notUpper (.inr digit), digit]
  · decide

/-- Hyphens are apart when no two follow each other. -/
theorem apart_iff {chars : List Char} :
    chars.IsChain (fun one two => ¬ (one = '-' ∧ two = '-')) ↔ ¬ ['-', '-'] <:+: chars := by
  constructor
  · intro apart twice
    have both := List.IsChain.infix apart twice
    exact (List.isChain_cons_cons.mp both).1 ⟨rfl, rfl⟩
  · intro never
    refine (List.isChain_isInfix chars).imp ?_
    rintro one two inside ⟨rfl, rfl⟩
    exact never inside

theorem labelShape_iff_plain {label : String} : LabelShape label.toList ↔ PlainLabel label := by
  constructor
  · intro shape
    exact {
      nonempty := List.length_pos_iff.mpr shape.nonempty
      short := shape.length_le
      letters := fun c member => labelChar_eq_self_iff.mp (shape.mapped c member)
      starts := shape.head
      ends := shape.last
      apart := apart_iff.mp shape.apart }
  · intro plain
    exact {
      nonempty := List.length_pos_iff.mp plain.nonempty
      length_le := plain.short
      mapped := fun c member => labelChar_eq_self_iff.mpr (plain.letters c member)
      head := plain.starts
      last := plain.ends
      apart := apart_iff.mpr plain.apart }

theorem isDnsLabel_iff_plain {label : String} : isDnsLabel label = true ↔ PlainLabel label :=
  isDnsLabel_iff.trans labelShape_iff_plain

theorem dnsLabel_normalises : Normalises dnsLabel (fun label => isDnsLabel label = true) where
  made _ _ made := isDnsLabel_iff.mpr (labelShape_of_dnsLabel made)
  kept _ label := dnsLabel_of_shape (isDnsLabel_iff.mp label)

/-! ### Custom names -/

/-- What becomes of the first label of a custom name. -/
def customHead (label : String) : Option String :=
  if label = "*" then some "*" else dnsLabel label

/-- The first labels that may stand. -/
def IsCustomHead (label : String) : Prop :=
  label = "*" ∨ isDnsLabel label = true

theorem customHead_normalises : Normalises customHead IsCustomHead := by
  constructor
  · intro label result made
    rw [customHead] at made
    split at made
    · exact Or.inl (Option.some.inj made).symm
    · exact Or.inr (dnsLabel_normalises.made label result made)
  · intro label valid
    rw [customHead]
    split
    · next wildcard => rw [wildcard]
    · next ordinary =>
        exact dnsLabel_normalises.kept label (valid.resolve_left ordinary)

/-- The labels of a custom name that may stand. -/
abbrev CustomLabels : List String → Prop :=
  Normalises.HeadedForm IsCustomHead (fun label => isDnsLabel label = true)

theorem isCustomDnsName_iff {name : String} :
    isCustomDnsName name = true ↔ CustomLabels (Text.split '.' name) := by
  rw [isCustomDnsName]
  split
  · next empty =>
      subst empty
      have noLabel : ¬ CustomLabels (Text.split '.' "") := by
        rintro ⟨wildcard | label, _⟩
        · exact absurd wildcard (by decide)
        · exact absurd label (by decide)
      simp [noLabel]
  · cases Text.split '.' name with
    | nil => simp [CustomLabels, Normalises.HeadedForm]
    | cons first labels =>
        simp [CustomLabels, Normalises.HeadedForm, IsCustomHead]

theorem normalizeCustomDnsName_eq (input : String) :
    normalizeCustomDnsName input
      = (Normalises.headedWith customHead dnsLabel (Text.split '.' input)).map
          ".".intercalate := by
  rw [normalizeCustomDnsName]
  cases Text.split '.' input with
  | nil => rfl
  | cons first rest =>
      by_cases wildcard : first = "*"
      · simp only [Normalises.headedWith, customHead, wildcard, if_true]
        cases rest.mapM dnsLabel <;> rfl
      · simp only [Normalises.headedWith, customHead, wildcard, if_false]
        cases dnsLabel first with
        | none => rfl
        | some head => cases rest.mapM dnsLabel <;> rfl

theorem join_split (name : String) : ".".intercalate (Text.split '.' name) = name := by
  apply String.toList_injective
  rw [String.toList_intercalate, Text.split, List.map_map, splitChars_eq]
  have same : String.toList ∘ String.ofList = id := funext (fun _ => String.toList_ofList)
  rw [same, List.map_id]
  exact List.intercalate_splitOn '.'

theorem dotless_label {label : String} (valid : isDnsLabel label = true) : '.' ∉ label.toList := by
  intro member
  have letters := (isDnsLabel_iff.mp valid).mapped '.' member
  revert letters
  decide

theorem split_join {labels : List String} (valid : CustomLabels labels) :
    Text.split '.' (".".intercalate labels) = labels := by
  cases labels with
  | nil => cases valid
  | cons first rest =>
      have dotless : ∀ label ∈ first :: rest, '.' ∉ label.toList := by
        refine List.forall_mem_cons.mpr ⟨?_, fun label member => ?_⟩
        · rcases valid.1 with rfl | label
          · decide
          · exact dotless_label label
        · exact dotless_label (valid.2 label member)
      rw [Text.split, String.toList_intercalate, splitChars_eq]
      have parts : ".".toList = ['.'] := rfl
      rw [parts, List.splitOn_intercalate '.' _ (by simp), List.map_map]
      · have same : String.ofList ∘ String.toList = id :=
          funext (fun _ => String.ofList_toList)
        rw [same, List.map_id]
      · intro part member
        obtain ⟨label, listed, rfl⟩ := List.mem_map.mp member
        exact dotless label listed

theorem customName_normalises :
    Normalises normalizeCustomDnsName (fun name => isCustomDnsName name = true) := by
  have labels := (customHead_normalises.headed dnsLabel_normalises).through join_split
    (fun _ valid => split_join valid)
  constructor
  · intro input name made
    rw [normalizeCustomDnsName_eq] at made
    exact isCustomDnsName_iff.mpr (labels.made input name made)
  · intro name valid
    rw [normalizeCustomDnsName_eq]
    exact labels.kept name (isCustomDnsName_iff.mp valid)

/-- Labels that are made are labels and are kept; a label is 1 to 63 lower-case letters, digits and
hyphens that are apart and at neither end; custom names that are made are such names and are
kept. -/
theorem names_normalised :
    (∀ input label, dnsLabel input = some label →
      isDnsLabel label = true ∧ dnsLabel label = some label) ∧
    (∀ input, isDnsLabel input = true ↔ PlainLabel input) ∧
    ∀ input name, normalizeCustomDnsName input = some name →
      isCustomDnsName name = true ∧ normalizeCustomDnsName name = some name := by
  refine ⟨fun input label made => ?_, fun input => isDnsLabel_iff_plain, fun input name made => ?_⟩
  · exact ⟨dnsLabel_normalises.made input label made, dnsLabel_normalises.fixed made⟩
  · exact ⟨customName_normalises.made input name made, customName_normalises.fixed made⟩

theorem names_normalised_wildcard :
    normalizeCustomDnsName "*.My App" = some "*.my-app" ∧
      isCustomDnsName "*.my-app" = true ∧
      normalizeCustomDnsName "*.my-app" = some "*.my-app" := by
  have made : normalizeCustomDnsName "*.My App" = some "*.my-app" := by decide
  exact ⟨made, names_normalised.2.2 "*.My App" "*.my-app" made⟩

end PeerCove.Names
