/-
Module: PeerCove.Proofs.DnsZone
Layer: Proofs
Purpose: Labels of the zone are apart and made of valid labels, whatever the order of the ledger,
  and records stand under the labels of their members.
Trusted boundary: none
Main exports: Numbered, uniquify_fresh, assignLabels_nodup, assignLabels_origin, ZoneSound,
  zone_sound
-/
import PeerCove.Core.DnsZone
import PeerCove.Library.FreshName
import PeerCove.Proofs.PolicyMigration
import Mathlib.Data.List.ReduceOption

namespace PeerCove

/-! ### Splitting at dots -/

theorem splitChars_eq (sep : Char) (chars : List Char) :
    Text.splitChars sep chars = chars.splitOn sep := by
  induction chars with
  | nil => exact (List.splitOn_nil sep).symm
  | cons c rest ih =>
      rw [Text.splitChars, List.splitOn_cons_eq_if_modifyHead, ih]
      by_cases same : c = sep
      · rw [if_pos same, if_pos (beq_iff_eq.mpr same)]
      · rw [if_neg same, if_neg (fun equal => same (beq_iff_eq.mp equal))]
        cases parts : rest.splitOn sep with
        | nil => exact absurd parts (List.splitOn_ne_nil sep rest)
        | cons part parts => rfl

/-! ### One label -/

/-- What is made of a label to make it unique. -/
inductive Numbered (base : String) (oct : Nat) : String → Prop where
  | plain : Numbered base oct base
  | octet : Numbered base oct s!"{base}-{oct}"
  | again (i : Nat) : Numbered base oct s!"{base}-{oct}-{i}"

/-- Texts that differ in the number at their end differ. -/
theorem numbered_injective (base : String) :
    Function.Injective (fun i : Nat => s!"{base}-{i + 2}") := by
  intro one two same
  have number (i : Nat) : (toString i).toList = i.repr.toList := rfl
  have chars := congrArg String.toList same
  simp only [String.toList_append, List.append_cancel_left_eq, number] at chars
  exact Nat.add_right_cancel (repr_injective (String.toList_injective chars))

theorem uniquify_free {base : String} {oct : Nat} {taken : List String} (free : base ∉ taken) :
    uniquify base oct taken = base :=
  if_pos free

/-- The second candidate of `uniquify`. -/
def withOctet (base : String) (oct : Nat) : String := s!"{base}-{oct}"

/-- The last branch of `uniquify` is the search, which always ends. -/
theorem uniquify_search {base : String} {oct : Nat} {taken : List String}
    (first : ¬ base ∉ taken) (second : ¬ s!"{base}-{oct}" ∉ taken) :
    ∃ label, FreshName.search (fun i => s!"{withOctet base oct}-{i + 2}") taken = some label ∧
      uniquify base oct taken = label := by
  obtain ⟨label, found⟩ := Option.isSome_iff_exists.mp
    (FreshName.search_isSome (numbered_injective (withOctet base oct)) taken)
  refine ⟨label, found, ?_⟩
  have last : uniquify base oct taken =
      (FreshName.search (fun i => s!"{withOctet base oct}-{i + 2}") taken).getD s!"{base}-{oct}" := by
    unfold uniquify
    rw [if_neg first]
    exact if_neg second
  rw [last, found, Option.getD_some]

/-- A label that was made unique is not taken. -/
theorem uniquify_fresh (base : String) (oct : Nat) (taken : List String) :
    uniquify base oct taken ∉ taken := by
  by_cases first : base ∉ taken
  · rw [uniquify_free first]
    exact first
  · by_cases second : s!"{base}-{oct}" ∉ taken
    · have octet : uniquify base oct taken = s!"{base}-{oct}" := by
        unfold uniquify
        rw [if_neg first]
        exact if_pos second
      rw [octet]
      exact second
    · obtain ⟨label, found, same⟩ := uniquify_search first second
      rw [same]
      exact (FreshName.search_spec found).1

theorem uniquify_numbered (base : String) (oct : Nat) (taken : List String) :
    Numbered base oct (uniquify base oct taken) := by
  by_cases first : base ∉ taken
  · rw [uniquify_free first]
    exact .plain
  · by_cases second : s!"{base}-{oct}" ∉ taken
    · have octet : uniquify base oct taken = s!"{base}-{oct}" := by
        unfold uniquify
        rw [if_neg first]
        exact if_pos second
      rw [octet]
      exact .octet
    · obtain ⟨label, found, same⟩ := uniquify_search first second
      obtain ⟨number, rfl⟩ := (FreshName.search_spec found).2
      rw [same]
      exact .again (number + 2)

/-! ### The two passes -/

/-- The name a member is fixed to, when it is a label. -/
def LedgerEntry.fixedName (member : LedgerEntry) : Option String :=
  member.dnsName.filter Names.isDnsLabel

/-- What the label of a member starts from. -/
def LedgerEntry.dnsBase (member : LedgerEntry) : String :=
  member.fixedName.getD member.derivedBase

theorem fixedLabels_none {member : LedgerEntry} (taken : List String) (rest : List LedgerEntry)
    (free : member.fixedName = none) :
    fixedLabels taken (member :: rest) =
      (none :: (fixedLabels taken rest).1, (fixedLabels taken rest).2) := by
  unfold LedgerEntry.fixedName at free
  rw [fixedLabels]
  split
  · rfl
  · rename_i fixed given
    rw [given, Option.filter_some] at free
    split
    · rename_i valid
      rw [if_pos valid] at free
      cases free
    · rfl

theorem fixedLabels_some {member : LedgerEntry} {fixed : String} (taken : List String)
    (rest : List LedgerEntry) (given : member.fixedName = some fixed) :
    fixedLabels taken (member :: rest) =
      (some (uniquify fixed (member.ip.octet 3) taken) ::
          (fixedLabels (uniquify fixed (member.ip.octet 3) taken :: taken) rest).1,
        (fixedLabels (uniquify fixed (member.ip.octet 3) taken :: taken) rest).2) := by
  obtain ⟨there, valid⟩ := Option.filter_eq_some_iff.mp given
  rw [fixedLabels, there]
  exact if_pos valid

/-- The labels of the first pass are apart from each other and from what was taken, and are taken
afterwards. -/
structure FirstPass (taken : List String) (given : List (Option String)) (after : List String) :
    Prop where
  nodup : (given.reduceOption).Nodup
  apart : ∀ label ∈ given.reduceOption, label ∉ taken
  kept : ∀ label, label ∈ after ↔ label ∈ taken ∨ label ∈ given.reduceOption

theorem fixedLabels_firstPass (taken : List String) (members : List LedgerEntry) :
    FirstPass taken (fixedLabels taken members).1 (fixedLabels taken members).2 := by
  induction members generalizing taken with
  | nil => exact ⟨.nil, by simp [fixedLabels], by simp [fixedLabels]⟩
  | cons member rest ih =>
      cases given : member.fixedName with
      | none =>
          rw [fixedLabels_none taken rest given]
          exact ⟨(ih taken).nodup, (ih taken).apart, (ih taken).kept⟩
      | some fixed =>
          rw [fixedLabels_some taken rest given]
          have fresh := uniquify_fresh fixed (member.ip.octet 3) taken
          generalize uniquify fixed (member.ip.octet 3) taken = label at fresh
          have later := ih (label :: taken)
          have new : label ∉ (fixedLabels (label :: taken) rest).1.reduceOption := by
            intro again
            exact later.apart label again List.mem_cons_self
          refine ⟨?_, ?_, ?_⟩
          · exact List.nodup_cons.mpr ⟨new, later.nodup⟩
          · intro other listed
            rcases List.mem_cons.mp listed with rfl | listed
            · exact fresh
            · intro old
              exact later.apart other listed (List.mem_cons_of_mem _ old)
          · intro other
            rw [later.kept, List.reduceOption_cons_of_some, List.mem_cons, List.mem_cons]
            tauto

/-- The second pass adds labels that are apart from all others. -/
theorem derivedLabels_nodup (taken : List String) (pairs : List (LedgerEntry × Option String))
    (nodup : (pairs.map Prod.snd).reduceOption.Nodup)
    (kept : ∀ label ∈ (pairs.map Prod.snd).reduceOption, label ∈ taken) :
    (derivedLabels taken pairs).Nodup ∧
      ∀ label ∈ derivedLabels taken pairs,
        label ∈ (pairs.map Prod.snd).reduceOption ∨ label ∉ taken := by
  induction pairs generalizing taken with
  | nil => exact ⟨.nil, by simp [derivedLabels]⟩
  | cons pair rest ih =>
      obtain ⟨member, given⟩ := pair
      cases given with
      | some label =>
          rw [List.map_cons, List.reduceOption_cons_of_some] at nodup kept ⊢
          obtain ⟨once, nodup⟩ := List.nodup_cons.mp nodup
          obtain ⟨here, kept⟩ := List.forall_mem_cons.mp kept
          obtain ⟨later, origin⟩ := ih taken nodup kept
          rw [derivedLabels]
          refine ⟨List.nodup_cons.mpr ⟨?_, later⟩, ?_⟩
          · intro again
            rcases origin label again with fixed | fresh
            · exact once fixed
            · exact fresh here
          · intro other listed
            rcases List.mem_cons.mp listed with rfl | listed
            · exact .inl List.mem_cons_self
            · exact (origin other listed).imp_left (List.mem_cons_of_mem _)
      | none =>
          rw [List.map_cons, List.reduceOption_cons_of_none] at nodup kept ⊢
          rw [derivedLabels]
          have fresh := uniquify_fresh member.derivedBase (member.ip.octet 3) taken
          generalize uniquify member.derivedBase (member.ip.octet 3) taken = label at fresh
          obtain ⟨later, origin⟩ := ih (label :: taken) nodup
            (fun other listed => List.mem_cons_of_mem _ (kept other listed))
          refine ⟨List.nodup_cons.mpr ⟨?_, later⟩, ?_⟩
          · intro again
            rcases origin label again with fixed | new
            · exact fresh (kept label fixed)
            · exact new List.mem_cons_self
          · intro other listed
            rcases List.mem_cons.mp listed with rfl | listed
            · exact .inr fresh
            · refine (origin other listed).imp_right (fun new old => ?_)
              exact new (List.mem_cons_of_mem _ old)

theorem fixedLabels_length (taken : List String) (members : List LedgerEntry) :
    (fixedLabels taken members).1.length = members.length := by
  induction members generalizing taken with
  | nil => rfl
  | cons member rest ih =>
      cases given : member.fixedName with
      | none => rw [fixedLabels_none taken rest given, List.length_cons, List.length_cons, ih]
      | some fixed =>
          rw [fixedLabels_some taken rest given, List.length_cons, List.length_cons, ih]

theorem derivedLabels_length (taken : List String) (pairs : List (LedgerEntry × Option String)) :
    (derivedLabels taken pairs).length = pairs.length := by
  induction pairs generalizing taken with
  | nil => rfl
  | cons pair rest ih =>
      obtain ⟨member, given⟩ := pair
      cases given with
      | some label => rw [derivedLabels, List.length_cons, List.length_cons, ih]
      | none => rw [derivedLabels, List.length_cons, List.length_cons, ih]

theorem assignLabels_length (members : List LedgerEntry) :
    (assignLabels members).length = members.length := by
  rw [assignLabels, derivedLabels_length, List.length_zip, fixedLabels_length, Nat.min_self]

theorem assignLabels_nodup (members : List LedgerEntry) : (assignLabels members).Nodup := by
  have first := fixedLabels_firstPass [] members
  have given : ((members.zip (fixedLabels [] members).1).map Prod.snd) =
      (fixedLabels [] members).1 :=
    List.map_snd_zip (Nat.le_of_eq (fixedLabels_length [] members))
  refine (derivedLabels_nodup _ _ ?_ ?_).1
  · rw [given]
    exact first.nodup
  · rw [given]
    intro label listed
    exact (first.kept label).mpr (.inr listed)

/-! ### Where labels come from -/

/-- What the first pass says of a member. -/
def FixedOrigin (member : LedgerEntry) (given : Option String) : Prop :=
  match given with
  | some label => ∃ fixed, member.fixedName = some fixed ∧
      Numbered fixed (member.ip.octet 3) label
  | none => member.fixedName = none

theorem fixedLabels_origin (taken : List String) (members : List LedgerEntry) :
    List.Forall₂ FixedOrigin members (fixedLabels taken members).1 := by
  induction members generalizing taken with
  | nil => exact .nil
  | cons member rest ih =>
      cases given : member.fixedName with
      | none =>
          rw [fixedLabels_none taken rest given]
          exact .cons given (ih taken)
      | some fixed =>
          rw [fixedLabels_some taken rest given]
          exact .cons ⟨fixed, given, uniquify_numbered _ _ _⟩ (ih _)

/-- A member and its label. -/
def LabelOrigin (member : LedgerEntry) (label : String) : Prop :=
  Numbered member.dnsBase (member.ip.octet 3) label

theorem derivedLabels_origin {members : List LedgerEntry} {given : List (Option String)}
    (fixed : List.Forall₂ FixedOrigin members given) (taken : List String) :
    List.Forall₂ LabelOrigin members (derivedLabels taken (members.zip given)) := by
  induction fixed generalizing taken with
  | nil => exact .nil
  | @cons member label members given here rest ih =>
      rw [List.zip_cons_cons]
      cases label with
      | some label =>
          obtain ⟨name, named, numbered⟩ := here
          have base : member.dnsBase = name := by rw [LedgerEntry.dnsBase, named, Option.getD_some]
          refine .cons ?_ (ih taken)
          rw [LabelOrigin, base]
          exact numbered
      | none =>
          have base : member.dnsBase = member.derivedBase := by
            rw [LedgerEntry.dnsBase, show member.fixedName = none from here, Option.getD_none]
          refine .cons ?_ (ih _)
          rw [LabelOrigin, base]
          exact uniquify_numbered _ _ _

theorem assignLabels_origin (members : List LedgerEntry) :
    List.Forall₂ LabelOrigin members (assignLabels members) :=
  derivedLabels_origin (fixedLabels_origin [] members) _

/-- Fixed names that differ are given as they are. -/
theorem fixedLabels_kept {taken : List String} {members : List LedgerEntry}
    (distinct : (members.filterMap LedgerEntry.fixedName).Nodup)
    (apart : ∀ name ∈ members.filterMap LedgerEntry.fixedName, name ∉ taken) :
    (fixedLabels taken members).1 = members.map LedgerEntry.fixedName := by
  induction members generalizing taken with
  | nil => rfl
  | cons member rest ih =>
      cases given : member.fixedName with
      | none =>
          rw [List.filterMap_cons_none given] at distinct apart
          rw [fixedLabels_none taken rest given, List.map_cons, given, ih distinct apart]
      | some fixed =>
          rw [List.filterMap_cons_some given] at distinct apart
          obtain ⟨once, distinct⟩ := List.nodup_cons.mp distinct
          obtain ⟨free, apart⟩ := List.forall_mem_cons.mp apart
          rw [fixedLabels_some taken rest given, List.map_cons, given, uniquify_free free,
            ih distinct]
          intro name listed again
          rcases List.mem_cons.mp again with rfl | old
          · exact once listed
          · exact apart name listed old

theorem derivedLabels_kept (taken : List String) (pairs : List (LedgerEntry × Option String)) :
    List.Forall₂ (fun pair label => ∀ fixed, pair.2 = some fixed → label = fixed) pairs
      (derivedLabels taken pairs) := by
  induction pairs generalizing taken with
  | nil => exact .nil
  | cons pair rest ih =>
      obtain ⟨member, given⟩ := pair
      cases given with
      | some label => exact .cons (fun fixed same => Option.some.inj same) (ih taken)
      | none => exact .cons (fun fixed impossible => by cases impossible) (ih _)

/-- Where the fixed names differ, every member that has one keeps it. -/
theorem assignLabels_kept {members : List LedgerEntry}
    (distinct : (members.filterMap LedgerEntry.fixedName).Nodup) {member : LedgerEntry}
    {label fixed : String} (labelled : (member, label) ∈ members.zip (assignLabels members))
    (given : member.fixedName = some fixed) : label = fixed := by
  have names : (fixedLabels [] members).1 = members.map LedgerEntry.fixedName :=
    fixedLabels_kept distinct (fun _ _ => List.not_mem_nil)
  have pairs : members.zip (fixedLabels [] members).1 =
      members.map (fun member => (member, member.fixedName)) := by
    rw [names, List.map_prod_left_eq_zip]
  have kept := derivedLabels_kept (fixedLabels [] members).2 (members.zip (fixedLabels [] members).1)
  rw [pairs, List.forall₂_map_left_iff] at kept
  have listed : (member, label) ∈ members.zip
      (derivedLabels (fixedLabels [] members).2 (members.zip (fixedLabels [] members).1)) :=
    labelled
  rw [pairs] at listed
  exact (List.forall₂_iff_zip.mp kept).2 listed fixed given

/-! ### Labels are labels, unless they are too long -/

theorem hostLabel_shape : Names.LabelShape "host".toList :=
  Names.isDnsLabel_iff.mp (by decide)

/-- The label of a member without a name. -/
theorem memberLabel_fine (ip : Ipv4Addr) :
    Names.isDnsLabel s!"member-{ip.octet 3}" = true := by
  have number : (s!"member-{ip.octet 3}").toList =
      "member-".toList ++ (ip.octet 3).repr.toList := String.toList_append
  have small : ip.octet 3 < 256 := Nat.mod_lt _ (by decide)
  have digits : (ip.octet 3).repr.length ≤ 3 :=
    (Nat.length_repr_le_iff (by decide)).mpr (Nat.lt_trans small (by decide))
  have front : Names.labelPart "member-".toList := by decide
  have short : "member-".toList.length + (ip.octet 3).repr.length ≤ Names.MAX_LABEL_LEN :=
    Nat.le_trans (Nat.add_le_add_left digits _) (by decide)
  rw [Names.isDnsLabel_iff, number]
  exact Names.labelShape_ended front (by decide) short

/-- What a label starts from is a label. -/
theorem dnsBase_label (member : LedgerEntry) : Names.isDnsLabel member.dnsBase = true := by
  rw [LedgerEntry.dnsBase]
  cases given : member.fixedName with
  | some fixed => exact (Option.filter_eq_some_iff.mp given).2
  | none =>
      rw [Option.getD_none, LedgerEntry.derivedBase, Names.isDnsLabel_iff]
      cases named : member.name.bind Names.dnsLabel with
      | some label =>
          obtain ⟨name, _, made⟩ := Option.bind_eq_some_iff.mp named
          exact Names.labelShape_of_dnsLabel made
      | none =>
          rw [Option.getD_none]
          cases member.isHost with
          | true => exact hostLabel_shape
          | false =>
              rw [if_neg Bool.false_ne_true]
              exact Names.isDnsLabel_iff.mp (memberLabel_fine member.ip)

theorem label_ended {base : String} (shape : Names.LabelShape base.toList) {number : Nat}
    (short : (s!"{base}-{number}").length ≤ Names.MAX_LABEL_LEN) :
    Names.LabelShape (s!"{base}-{number}").toList := by
  have chars : (s!"{base}-{number}").toList = (base.toList ++ ['-']) ++ number.repr.toList := by
    have hyphen : (toString "-").toList = ['-'] := rfl
    have digits : (toString number).toList = number.repr.toList := rfl
    have same : (toString base).toList = base.toList := rfl
    rw [String.toList_append, String.toList_append, hyphen, digits, same]
  obtain ⟨part, head⟩ := shape.hyphen
  rw [← String.length_toList, chars, List.length_append] at short
  rw [chars]
  exact Names.labelShape_ended part head (String.length_toList (s := number.repr) ▸ short)

/-- A label that was made unique is a label when it is not too long. -/
theorem numbered_label {base label : String} {oct : Nat} (fine : Names.isDnsLabel base = true)
    (numbered : Numbered base oct label) (short : label.length ≤ Names.MAX_LABEL_LEN) :
    Names.isDnsLabel label = true := by
  have shape := Names.isDnsLabel_iff.mp fine
  cases numbered with
  | plain => exact fine
  | octet => exact Names.isDnsLabel_iff.mpr (label_ended shape short)
  | again i =>
      have shorter : (s!"{base}-{oct}").length ≤ Names.MAX_LABEL_LEN := by
        refine Nat.le_trans ?_ short
        simp only [String.length_append]
        omega
      exact Names.isDnsLabel_iff.mpr (label_ended (label_ended shape shorter) short)

/-! ### The members of a ledger -/

theorem mem_labelledMembers {ledger : List LedgerEntry} {member : LedgerEntry} {label : String}
    (labelled : (member, label) ∈ labelledMembers ledger) :
    member ∈ ledger ∧ LabelOrigin member label := by
  constructor
  · exact (List.mem_insertionSort _).mp (List.of_mem_zip labelled).1
  · exact (List.forall₂_iff_zip.mp (assignLabels_origin _)).2 labelled

theorem labelledMembers_labels (ledger : List LedgerEntry) :
    (labelledMembers ledger).map Prod.snd =
      assignLabels (ledger.insertionSort (fun one two => one.ip ≤ two.ip)) :=
  List.map_snd_zip (Nat.le_of_eq (assignLabels_length _))

theorem labelledMembers_members (ledger : List LedgerEntry) :
    (labelledMembers ledger).map Prod.fst =
      ledger.insertionSort (fun one two => one.ip ≤ two.ip) :=
  List.map_fst_zip (Nat.le_of_eq (assignLabels_length _).symm)

theorem labelled_exists {ledger : List LedgerEntry} {member : LedgerEntry}
    (listed : member ∈ ledger) : ∃ label, (member, label) ∈ labelledMembers ledger := by
  have sorted : member ∈ (labelledMembers ledger).map Prod.fst := by
    rw [labelledMembers_members]
    exact (List.mem_insertionSort _).mpr listed
  obtain ⟨⟨_, label⟩, labelled, rfl⟩ := List.mem_map.mp sorted
  exact ⟨label, labelled⟩

/-- Members with addresses of their own are sorted in one way. -/
theorem sorted_perm {one two : List LedgerEntry} (same : one.Perm two)
    (apart : (two.map LedgerEntry.ip).Nodup) :
    one.insertionSort (fun one two => one.ip ≤ two.ip) =
      two.insertionSort (fun one two => one.ip ≤ two.ip) := by
  have total : Std.Total (fun one two : LedgerEntry => one.ip ≤ two.ip) :=
    ⟨fun one two => BitVec.le_total one.ip two.ip⟩
  have trans : IsTrans LedgerEntry (fun one two => one.ip ≤ two.ip) :=
    ⟨fun _ _ _ => BitVec.le_trans⟩
  have perm := (List.perm_insertionSort (fun one two : LedgerEntry => one.ip ≤ two.ip) one).trans
    (same.trans (List.perm_insertionSort (fun one two : LedgerEntry => one.ip ≤ two.ip) two).symm)
  refine List.Perm.eq_of_pairwise ?_ (List.pairwise_insertionSort _ one)
    (List.pairwise_insertionSort _ two) perm
  intro first second firstListed secondListed below above
  have equal := BitVec.le_antisymm below above
  refine List.inj_on_of_nodup_map apart ?_ ?_ equal
  · exact same.mem_iff.mp ((List.mem_insertionSort _).mp firstListed)
  · exact (List.mem_insertionSort _).mp secondListed

theorem labelledMembers_perm {one two : List LedgerEntry} (same : one.Perm two)
    (apart : (two.map LedgerEntry.ip).Nodup) : labelledMembers one = labelledMembers two := by
  rw [labelledMembers, labelledMembers, sorted_perm same apart]

/-- A member with an address of its own has one label. -/
theorem label_unique {ledger : List LedgerEntry} (apart : (ledger.map LedgerEntry.ip).Nodup)
    {one two : LedgerEntry × String} (first : one ∈ labelledMembers ledger)
    (second : two ∈ labelledMembers ledger) (same : one.1.ip = two.1.ip) : one = two := by
  have nodup : ((labelledMembers ledger).map (fun entry => entry.1.ip)).Nodup := by
    have ips : (labelledMembers ledger).map (fun entry => entry.1.ip) =
        ((labelledMembers ledger).map Prod.fst).map LedgerEntry.ip := by
      rw [List.map_map]
      rfl
    rw [ips, labelledMembers_members]
    exact ((List.perm_insertionSort _ ledger).map LedgerEntry.ip).nodup_iff.mpr apart
  exact List.inj_on_of_nodup_map nodup first second same

/-! ### The zone -/

theorem fqdn_injective (network : String) : Function.Injective (fqdn network) := by
  intro one two same
  have chars : (fqdn network one).toList = (fqdn network two).toList := congrArg String.toList same
  unfold fqdn at chars
  simp only [String.toList_append, List.append_cancel_right_eq] at chars
  exact String.toList_injective chars

/-- The custom records of the zone have names of their own. -/
theorem customRecords_spec (taken : List String) (custom : List DnsRecord) :
    ((customRecords taken custom).map DnsRecord.name).Nodup ∧
      ∀ record ∈ customRecords taken custom,
        record ∈ custom ∧ Names.isCustomDnsName record.name = true ∧ record.name ∉ taken := by
  induction custom generalizing taken with
  | nil => exact ⟨.nil, fun record listed => by cases listed⟩
  | cons record rest ih =>
      rw [customRecords]
      split
      · obtain ⟨nodup, each⟩ := ih taken
        refine ⟨nodup, fun other listed => ?_⟩
        exact ⟨List.mem_cons_of_mem _ (each other listed).1, (each other listed).2⟩
      · rename_i passes
        rw [not_or, Bool.not_eq_false] at passes
        obtain ⟨nodup, each⟩ := ih (record.name :: taken)
        constructor
        · rw [List.map_cons, List.nodup_cons]
          refine ⟨fun again => ?_, nodup⟩
          obtain ⟨other, listed, same⟩ := List.mem_map.mp again
          exact (each other listed).2.2 (same ▸ List.mem_cons_self)
        · intro other listed
          rcases List.mem_cons.mp listed with rfl | listed
          · exact ⟨List.mem_cons_self, passes⟩
          · obtain ⟨there, valid, fresh⟩ := each other listed
            exact ⟨List.mem_cons_of_mem _ there, valid,
              fun old => fresh (List.mem_cons_of_mem _ old)⟩

variable {network : String} {ledger : List LedgerEntry} {custom : List DnsRecord}

theorem mem_zone_member {entry : ZoneEntry} (listed : entry ∈ zoneFor network ledger custom)
    (owned : entry.publicKey ≠ none) :
    ∃ member ∈ labelledMembers ledger, entry = memberEntry network member := by
  rcases List.mem_append.mp listed with listed | listed
  · obtain ⟨member, labelled, rfl⟩ := List.mem_map.mp listed
    exact ⟨member, labelled, rfl⟩
  · obtain ⟨record, _, rfl⟩ := List.mem_map.mp listed
    exact absurd rfl owned

theorem mem_zone_custom {entry : ZoneEntry} (listed : entry ∈ zoneFor network ledger custom)
    (free : entry.publicKey = none) :
    ∃ record ∈ customRecords ((labelledMembers ledger).map Prod.snd) custom,
      entry = customEntry network record := by
  rcases List.mem_append.mp listed with listed | listed
  · obtain ⟨member, _, rfl⟩ := List.mem_map.mp listed
    cases free
  · obtain ⟨record, kept, rfl⟩ := List.mem_map.mp listed
    exact ⟨record, kept, rfl⟩

theorem memberEntry_listed {member : LedgerEntry × String}
    (labelled : member ∈ labelledMembers ledger) :
    memberEntry network member ∈ zoneFor network ledger custom :=
  List.mem_append_left _ (List.mem_map_of_mem labelled)

theorem zone_distinct (network : String) (ledger : List LedgerEntry) (custom : List DnsRecord) :
    ((zoneFor network ledger custom).map ZoneEntry.fqdn).Nodup := by
  obtain ⟨nodup, each⟩ := customRecords_spec ((labelledMembers ledger).map Prod.snd) custom
  have names : (zoneFor network ledger custom).map ZoneEntry.fqdn =
      ((labelledMembers ledger).map Prod.snd ++
        (customRecords ((labelledMembers ledger).map Prod.snd) custom).map DnsRecord.name).map
          (fqdn network) := by
    rw [zoneFor, List.map_append, List.map_append, List.map_map, List.map_map, List.map_map,
      List.map_map]
    rfl
  rw [names]
  refine List.Nodup.map (fqdn_injective network) (List.nodup_append'.mpr ⟨?_, nodup, ?_⟩)
  · rw [labelledMembers_labels]
    exact assignLabels_nodup _
  · intro name label custom
    obtain ⟨record, listed, rfl⟩ := List.mem_map.mp custom
    exact (each record listed).2.2 label

/-- What holds of the zone of a ledger whose members have addresses of their own. -/
structure ZoneSound (network : String) (ledger : List LedgerEntry) (custom : List DnsRecord) :
    Prop where
  distinct : ((zoneFor network ledger custom).map ZoneEntry.fqdn).Nodup
  /-- Every member has an entry. -/
  complete : ∀ member ∈ ledger, ∃ label,
    memberEntry network (member, label) ∈ zoneFor network ledger custom
  /-- A member's label is the label it starts from or that label with its octet and a number, and is
  a label itself when it is not too long. -/
  memberLabels : ∀ entry ∈ zoneFor network ledger custom, entry.publicKey ≠ none →
    ∃ member ∈ ledger, ∃ label, entry = memberEntry network (member, label) ∧
      Names.isDnsLabel member.dnsBase = true ∧ LabelOrigin member label ∧
      (label.length ≤ Names.MAX_LABEL_LEN → Names.isDnsLabel label = true)
  /-- The labels of a custom record are labels, or its first one is `*`. -/
  customLabels : ∀ entry ∈ zoneFor network ledger custom, entry.publicKey = none →
    ∃ record ∈ custom, entry = customEntry network record ∧
      Names.isCustomDnsName record.name = true
  orderFree : ∀ other : List LedgerEntry, other.Perm ledger →
    zoneFor network other custom = zoneFor network ledger custom
  /-- Where the valid fixed names differ, a member keeps its own. -/
  fixedKept : (ledger.filterMap LedgerEntry.fixedName).Nodup →
    ∀ member ∈ ledger, ∀ fixed, member.fixedName = some fixed →
      ∀ label, memberEntry network (member, label) ∈ zoneFor network ledger custom ↔ label = fixed
  membersFirst : ∀ one ∈ zoneFor network ledger custom, ∀ two ∈ zoneFor network ledger custom,
    one.publicKey ≠ none → two.publicKey = none → one.fqdn ≠ two.fqdn
  recordsPlaced : ∀ record under, record.under = some under →
    ∀ resolved, resolveRecord ledger record = some resolved →
      ∃ member ∈ ledger, ∃ label, under.names member = true ∧
        memberEntry network (member, label) ∈ zoneFor network ledger custom ∧
        resolved.name = s!"{record.name}.{label}"
  cnamesPlaced : ∀ record under, record.under = some under →
    ∀ resolved, resolveCname ledger record = some resolved →
      ∃ member ∈ ledger, ∃ label, under.names member = true ∧
        memberEntry network (member, label) ∈ zoneFor network ledger custom ∧
        resolved.name = s!"{record.name}.{label}"

/-- A name under a member carries the label the zone has for it. -/
theorem resolvedName_placed {record : DnsRecordConfig} {under : MemberRef} {name : String}
    (placed : record.under = some under) (resolved : resolvedName ledger record = some name) :
    ∃ member ∈ ledger, ∃ label, under.names member = true ∧
      memberEntry network (member, label) ∈ zoneFor network ledger custom ∧
      name = s!"{record.name}.{label}" := by
  unfold resolvedName at resolved
  rw [placed] at resolved
  obtain ⟨⟨member, label⟩, found, rfl⟩ := Option.map_eq_some_iff.mp resolved
  rw [lookupMember] at found
  have named := List.find?_some found
  have labelled := List.mem_of_find?_eq_some found
  exact ⟨member, (mem_labelledMembers labelled).1, label, named, memberEntry_listed labelled, rfl⟩

/-- Where an entry of a member stands, the member has that label. -/
theorem labelled_of_entry (apart : (ledger.map LedgerEntry.ip).Nodup) {member : LedgerEntry}
    {label : String} (listed : member ∈ ledger)
    (entry : memberEntry network (member, label) ∈ zoneFor network ledger custom) :
    (member, label) ∈ labelledMembers ledger := by
  obtain ⟨⟨other, name⟩, labelled, same⟩ := mem_zone_member entry (by simp [memberEntry])
  obtain ⟨own, there⟩ := labelled_exists listed
  have ips : member.ip = other.ip := congrArg ZoneEntry.ip same
  have names : label = name := fqdn_injective network (congrArg ZoneEntry.fqdn same)
  have pairs := label_unique apart there labelled ips
  obtain ⟨rfl, -⟩ := Prod.mk.inj pairs
  rw [names]
  exact labelled

theorem zone_sound (network : String) (ledger : List LedgerEntry) (custom : List DnsRecord)
    (apart : (ledger.map LedgerEntry.ip).Nodup) : ZoneSound network ledger custom where
  distinct := zone_distinct network ledger custom
  complete := by
    intro member listed
    obtain ⟨label, labelled⟩ := labelled_exists listed
    exact ⟨label, memberEntry_listed labelled⟩
  memberLabels := by
    intro entry listed owned
    obtain ⟨⟨member, label⟩, labelled, rfl⟩ := mem_zone_member listed owned
    obtain ⟨there, origin⟩ := mem_labelledMembers labelled
    have base := dnsBase_label member
    exact ⟨member, there, label, rfl, base, origin, numbered_label base origin⟩
  customLabels := by
    intro entry listed free
    obtain ⟨record, kept, rfl⟩ := mem_zone_custom listed free
    obtain ⟨there, valid, -⟩ := (customRecords_spec _ custom).2 record kept
    exact ⟨record, there, rfl, valid⟩
  orderFree := by
    intro other same
    rw [zoneFor, zoneFor, labelledMembers_perm same apart]
  fixedKept := by
    intro distinct member listed fixed given label
    have sorted := List.perm_insertionSort (fun one two : LedgerEntry => one.ip ≤ two.ip) ledger
    have names := (sorted.filterMap LedgerEntry.fixedName).nodup_iff.mpr distinct
    constructor
    · intro entry
      exact assignLabels_kept names (labelled_of_entry apart listed entry) given
    · rintro rfl
      obtain ⟨label, labelled⟩ := labelled_exists listed
      rw [← assignLabels_kept names labelled given]
      exact memberEntry_listed labelled
  membersFirst := by
    intro one oneListed two twoListed owned free same
    have equal := List.inj_on_of_nodup_map (zone_distinct network ledger custom) oneListed
      twoListed same
    rw [equal] at owned
    exact owned free
  recordsPlaced := by
    intro record under placed resolved made
    unfold resolveRecord at made
    obtain ⟨ip, _, made⟩ := Option.bind_eq_some_iff.mp made
    obtain ⟨name, named, made⟩ := Option.bind_eq_some_iff.mp made
    cases made
    exact resolvedName_placed placed named
  cnamesPlaced := by
    intro record under placed resolved made
    unfold resolveCname at made
    obtain ⟨target, _, made⟩ := Option.bind_eq_some_iff.mp made
    obtain ⟨name, named, made⟩ := Option.bind_eq_some_iff.mp made
    cases made
    exact resolvedName_placed placed named

/-- Two members are fixed to one name, and a third to the name the second of them gets. -/
def aliceLedger : List LedgerEntry :=
  [{ ip := 0x0A630002#32, dnsName := some "alice", publicKey := ⟨1⟩, online := true },
    { ip := 0x0A630005#32, dnsName := some "alice", publicKey := ⟨2⟩, online := true },
    { ip := 0x0A630007#32, dnsName := some "alice-5", publicKey := ⟨3⟩, online := true }]

theorem zone_sound_alice : ZoneSound "home" aliceLedger [] :=
  zone_sound "home" aliceLedger [] (by decide)

/-- The third member's name is valid and nobody else's, and it does not get it.  A wildcard's first
label is none that `is_dns_label` knows. -/
theorem zone_renamesFixed :
    (aliceLedger.map LedgerEntry.ip).Nodup ∧
      (aliceLedger.filter (fun member => member.dnsName = some "alice-5")).length = 1 ∧
      Names.isDnsLabel "alice-5" = true ∧
      (zoneFor "home" aliceLedger []).map ZoneEntry.fqdn =
        ["alice.home.peercove.internal", "alice-5.home.peercove.internal",
          "alice-5-7.home.peercove.internal"] ∧
      (zoneFor "home" [] [{ name := "*.web", ip := 0#32 }]).map ZoneEntry.fqdn =
        ["*.web.home.peercove.internal"] ∧ Names.isDnsLabel "*" = false := by
  decide

end PeerCove
