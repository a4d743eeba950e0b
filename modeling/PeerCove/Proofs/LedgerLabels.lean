/-
Module: PeerCove.Proofs.LedgerLabels
Layer: Proofs
Purpose: The labels of the members on a ledger that some members are left out of, against the labels
  on the whole ledger.
Trusted boundary: none
Main exports: labelledMembers_filter, SameLabels, HostView.sameLabels_iff
-/
import PeerCove.Host.BuildLedger
import PeerCove.Library.FirstFree
import PeerCove.Proofs.DnsZone
import PeerCove.Proofs.LedgerFilter

namespace PeerCove

/-! ### The passes -/

theorem stable_uniquify (base : String) (oct : Nat) : FirstFree.Stable (uniquify base oct) where
  fresh := uniquify_fresh base oct
  keeps := by
    intro taken more grows free
    by_cases first : base ∉ taken
    · rw [uniquify_free first] at free ⊢
      exact uniquify_free free
    · by_cases second : s!"{base}-{oct}" ∉ taken
      · have octet : uniquify base oct taken = s!"{base}-{oct}" := by
          unfold uniquify
          rw [if_neg first]
          exact if_pos second
        rw [octet] at free ⊢
        unfold uniquify
        rw [if_neg (fun later => first (fun listed => later (grows listed)))]
        exact if_pos free
      · obtain ⟨label, found, same⟩ := uniquify_search first second
        rw [same] at free ⊢
        obtain ⟨other, again, sameMore⟩ := uniquify_search
          (fun later => first (fun listed => later (grows listed)))
          (fun later => second (fun listed => later (grows listed)))
        rw [sameMore]
        have kept := FreshName.search_keeps (numbered_injective (withOctet base oct)) grows found free
        exact Option.some.inj (again.symm.trans kept)

/-- The first pass asks for the fixed names. -/
def fixedPick (member : LedgerEntry) : Option (List String → String) :=
  member.fixedName.map (fun fixed => uniquify fixed (member.ip.octet 3))

theorem fixedLabels_pass (taken : List String) (members : List LedgerEntry) :
    fixedLabels taken members = FirstFree.pass fixedPick taken members := by
  induction members generalizing taken with
  | nil => rfl
  | cons member rest ih =>
      cases given : member.fixedName with
      | none =>
          have asks : fixedPick member = none := by rw [fixedPick, given]; rfl
          rw [fixedLabels_none taken rest given, FirstFree.pass_none taken rest asks, ih]
      | some fixed =>
          have asks : fixedPick member = some (uniquify fixed (member.ip.octet 3)) := by
            rw [fixedPick, given]
            rfl
          rw [fixedLabels_some taken rest given, FirstFree.pass_some taken rest asks, ih]

/-- The second pass asks for the names of the others. -/
def derivedPick (pair : LedgerEntry × Option String) : Option (List String → String) :=
  match pair.2 with
  | some _ => none
  | none => some (uniquify pair.1.derivedBase (pair.1.ip.octet 3))

/-- A label of the first pass, or else of the second. -/
def eitherLabel (pair : (LedgerEntry × Option String) × Option String) : Option String :=
  pair.1.2.or pair.2

theorem derivedLabels_pass (taken : List String) (pairs : List (LedgerEntry × Option String)) :
    (derivedLabels taken pairs).map some =
      (pairs.zip (FirstFree.pass derivedPick taken pairs).1).map eitherLabel := by
  induction pairs generalizing taken with
  | nil => rfl
  | cons pair rest ih =>
      obtain ⟨member, given⟩ := pair
      cases given with
      | some label =>
          have asks : derivedPick (member, some label) = none := rfl
          rw [FirstFree.pass_none taken rest asks, derivedLabels, List.map_cons, List.zip_cons_cons,
            List.map_cons, ih]
          rfl
      | none =>
          have asks : derivedPick (member, none) =
              some (uniquify member.derivedBase (member.ip.octet 3)) := rfl
          rw [FirstFree.pass_some taken rest asks, derivedLabels, List.map_cons, List.zip_cons_cons,
            List.map_cons, ih]
          rfl

theorem stable_fixedPick (member : LedgerEntry) (choose : List String → String)
    (asks : fixedPick member = some choose) : FirstFree.Stable choose := by
  obtain ⟨fixed, _, rfl⟩ := Option.map_eq_some_iff.mp asks
  exact stable_uniquify fixed _

theorem stable_derivedPick (pair : LedgerEntry × Option String) (choose : List String → String)
    (asks : derivedPick pair = some choose) : FirstFree.Stable choose := by
  obtain ⟨member, given⟩ := pair
  cases given with
  | some label => cases asks
  | none =>
      cases asks
      exact stable_uniquify _ _

/-! ### Labels without some of the members -/

/-- The members, each with what the two passes give it. -/
def bothPasses (members : List LedgerEntry) : List ((LedgerEntry × Option String) × Option String) :=
  (members.zip (fixedLabels [] members).1).zip
    (FirstFree.pass derivedPick (fixedLabels [] members).2
      (members.zip (fixedLabels [] members).1)).1

theorem bothPasses_first (members : List LedgerEntry) :
    (bothPasses members).map Prod.fst = members.zip (fixedLabels [] members).1 :=
  List.map_fst_zip (Nat.le_of_eq (FirstFree.pass_length _ _).symm)

theorem bothPasses_members (members : List LedgerEntry) :
    (bothPasses members).map (fun entry => entry.1.1) = members := by
  have split : (bothPasses members).map (fun entry => entry.1.1) =
      ((bothPasses members).map Prod.fst).map Prod.fst := by rw [List.map_map]; rfl
  rw [split, bothPasses_first, List.map_fst_zip (Nat.le_of_eq (fixedLabels_length [] members).symm)]

theorem bothPasses_labels (members : List LedgerEntry) :
    (assignLabels members).map some = (bothPasses members).map eitherLabel :=
  derivedLabels_pass _ _

theorem zip_assignLabels (members : List LedgerEntry) :
    members.zip ((assignLabels members).map some) =
      (bothPasses members).map (fun entry => (entry.1.1, eitherLabel entry)) :=
  calc members.zip ((assignLabels members).map some)
      = ((bothPasses members).map (fun entry => entry.1.1)).zip
          ((bothPasses members).map eitherLabel) := by
        rw [bothPasses_members, bothPasses_labels]
    _ = (bothPasses members).map (fun entry => (entry.1.1, eitherLabel entry)) := List.zip_map'

section Filter

variable {keep : LedgerEntry → Bool} {members : List LedgerEntry}

/-- A member that a pass gives a label has it. -/
theorem mem_zip_assignLabels {entry : (LedgerEntry × Option String) × Option String}
    {label : String} (listed : entry ∈ bothPasses members)
    (given : eitherLabel entry = some label) :
    (entry.1.1, label) ∈ members.zip (assignLabels members) := by
  have there : (entry.1.1, some label) ∈ members.zip ((assignLabels members).map some) := by
    rw [zip_assignLabels, ← given]
    exact List.mem_map_of_mem listed
  rw [List.zip_map_right] at there
  obtain ⟨⟨member, other⟩, found, same⟩ := List.mem_map.mp there
  obtain ⟨rfl, rfl⟩ : member = entry.1.1 ∧ other = label := by simpa using same
  exact found

theorem mem_zip_of_fixed {member : LedgerEntry} {label : String}
    (given : (member, some label) ∈ members.zip (FirstFree.pass fixedPick [] members).1) :
    (member, label) ∈ members.zip (assignLabels members) := by
  rw [← fixedLabels_pass, ← bothPasses_first] at given
  obtain ⟨entry, listed, same⟩ := List.mem_map.mp given
  have either : eitherLabel entry = some label := by rw [eitherLabel, same]; rfl
  have labelled := mem_zip_assignLabels listed either
  rw [same] at labelled
  exact labelled

theorem mem_zip_of_derived {pair : LedgerEntry × Option String} {label : String}
    (given : (pair, some label) ∈ bothPasses members) :
    (pair.1, label) ∈ members.zip (assignLabels members) := by
  refine mem_zip_assignLabels given ?_
  obtain ⟨member, fixed⟩ := pair
  cases fixed with
  | some other => exact absurd rfl (FirstFree.asks_of_mem_zip given)
  | none => rfl

theorem mem_assignLabels {member : LedgerEntry} {label : String}
    (labelled : (member, label) ∈ members.zip (assignLabels members)) :
    label ∈ assignLabels members :=
  (List.of_mem_zip labelled).2

theorem exists_labelled {label : String} (listed : label ∈ assignLabels members) :
    ∃ member, (member, label) ∈ members.zip (assignLabels members) := by
  have labels : (members.zip (assignLabels members)).map Prod.snd = assignLabels members :=
    List.map_snd_zip (Nat.le_of_eq (assignLabels_length members))
  rw [← labels] at listed
  obtain ⟨⟨member, _⟩, there, rfl⟩ := List.mem_map.mp listed
  exact ⟨member, there⟩

/-- The labels of the members that are kept are the same without the others, when none of them is
then one that another has. -/
theorem bothPasses_filter
    (apart : ∀ label ∈ assignLabels (members.filter keep), ∀ member,
      (member, label) ∈ members.zip (assignLabels members) → keep member = true) :
    bothPasses (members.filter keep) =
      (bothPasses members).filter (fun entry => keep entry.1.1) := by
  let hidden := fun label => ∃ member,
    (member, label) ∈ members.zip (assignLabels members) ∧ keep member = false
  have shown : ∀ label ∈ assignLabels (members.filter keep), ¬ hidden label := by
    rintro label listed ⟨member, labelled, dropped⟩
    rw [apart label listed member labelled] at dropped
    cases dropped
  have passes (members : List LedgerEntry) : bothPasses members =
      (members.zip (FirstFree.pass fixedPick [] members).1).zip
        (FirstFree.pass derivedPick (FirstFree.pass fixedPick [] members).2
          (members.zip (FirstFree.pass fixedPick [] members).1)).1 := by
    rw [bothPasses, fixedLabels_pass]
  obtain ⟨firstNames, fewer, others⟩ := FirstFree.pass_filter keep hidden stable_fixedPick
    (List.Subset.refl []) (fun _ => nofun)
    (fun member label given dropped => ⟨member, mem_zip_of_fixed given, dropped⟩)
    (fun label given => by
      obtain ⟨member, there⟩ := FirstFree.mem_zip_pass given
      exact shown label (mem_assignLabels (mem_zip_of_fixed there)))
  have pairs : (members.filter keep).zip (FirstFree.pass fixedPick [] (members.filter keep)).1 =
      (members.zip (FirstFree.pass fixedPick [] members).1).filter (fun pair => keep pair.1) := by
    rw [firstNames, FirstFree.zip_namesOf (FirstFree.pass_length [] members)]
  have shorter := passes (members.filter keep)
  rw [pairs] at shorter
  obtain ⟨secondNames, _⟩ := FirstFree.pass_filter
    (fun pair : LedgerEntry × Option String => keep pair.1) hidden stable_derivedPick fewer others
    (fun pair label given dropped =>
      ⟨pair.1, mem_zip_of_derived (by rw [passes]; exact given), dropped⟩)
    (fun label given => by
      obtain ⟨pair, there⟩ := FirstFree.mem_zip_pass given
      exact shown label (mem_assignLabels (mem_zip_of_derived (by rw [shorter]; exact there))))
  rw [shorter, secondNames, passes]
  exact FirstFree.zip_namesOf (FirstFree.pass_length _ _)

theorem zip_assignLabels_filter
    (apart : ∀ label ∈ assignLabels (members.filter keep), ∀ member,
      (member, label) ∈ members.zip (assignLabels members) → keep member = true) :
    (members.filter keep).zip (assignLabels (members.filter keep)) =
      (members.zip (assignLabels members)).filter (fun entry => keep entry.1) := by
  have some_ : Function.Injective
      (fun entry : LedgerEntry × String => (entry.1, some entry.2)) := by
    rintro ⟨one, first⟩ ⟨two, second⟩ same
    simpa using same
  refine List.map_injective_iff.mpr some_ ?_
  have asSome (members : List LedgerEntry) :
      (members.zip (assignLabels members)).map (fun entry => (entry.1, some entry.2)) =
        (bothPasses members).map (fun entry => (entry.1.1, eitherLabel entry)) := by
    rw [← zip_assignLabels, List.zip_map_right]
    rfl
  have filtered : ((members.zip (assignLabels members)).filter (fun entry => keep entry.1)).map
      (fun entry => (entry.1, some entry.2)) =
        ((members.zip (assignLabels members)).map (fun entry => (entry.1, some entry.2))).filter
          (fun entry => keep entry.1) := by
    rw [List.filter_map]
    rfl
  rw [filtered, asSome, asSome, bothPasses_filter apart, List.filter_map]
  rfl

end Filter

/-! ### Ledgers -/

theorem filter_sorted (keep : LedgerEntry → Bool) (ledger : List LedgerEntry) :
    (ledger.filter keep).insertionSort (fun one two => one.ip ≤ two.ip) =
      (ledger.insertionSort (fun one two => one.ip ≤ two.ip)).filter keep := by
  have total : Std.Total (fun one two : LedgerEntry => one.ip ≤ two.ip) :=
    ⟨fun one two => BitVec.le_total one.ip two.ip⟩
  have trans : IsTrans LedgerEntry (fun one two => one.ip ≤ two.ip) :=
    ⟨fun _ _ _ => BitVec.le_trans⟩
  exact (SortDedup.filter_insertionSort _ keep ledger).symm

theorem labelledMembers_filter {keep : LedgerEntry → Bool} {ledger : List LedgerEntry}
    (apart : ∀ shown ∈ labelledMembers (ledger.filter keep), ∀ member ∈ labelledMembers ledger,
      shown.2 = member.2 → keep member.1 = true) :
    labelledMembers (ledger.filter keep) =
      (labelledMembers ledger).filter (fun entry => keep entry.1) := by
  unfold labelledMembers at apart ⊢
  rw [filter_sorted] at apart ⊢
  refine zip_assignLabels_filter (fun label listed member labelled => ?_)
  obtain ⟨shown, there⟩ := exists_labelled listed
  exact apart (shown, label) there (member, label) labelled rfl

/-! ### Entries for one recipient -/

/-- An edit that leaves all that labels are made of, and whose they are. -/
structure KeepsNames (edit : LedgerEntry → LedgerEntry) : Prop where
  publicKey : ∀ entry, (edit entry).publicKey = entry.publicKey
  name : ∀ entry, (edit entry).name = entry.name
  dnsName : ∀ entry, (edit entry).dnsName = entry.dnsName
  ip : ∀ entry, (edit entry).ip = entry.ip
  isHost : ∀ entry, (edit entry).isHost = entry.isHost

section Edits

variable {edit : LedgerEntry → LedgerEntry}

theorem fixedLabels_map (keeps : KeepsNames edit) (taken : List String)
    (members : List LedgerEntry) :
    fixedLabels taken (members.map edit) = fixedLabels taken members := by
  induction members generalizing taken with
  | nil => rfl
  | cons member rest ih =>
      rw [List.map_cons, fixedLabels, fixedLabels, keeps.dnsName, keeps.ip]
      simp only [ih]

theorem derivedLabels_map (keeps : KeepsNames edit) (taken : List String)
    (pairs : List (LedgerEntry × Option String)) :
    derivedLabels taken (pairs.map (fun pair => (edit pair.1, pair.2))) =
      derivedLabels taken pairs := by
  induction pairs generalizing taken with
  | nil => rfl
  | cons pair rest ih =>
      obtain ⟨member, given⟩ := pair
      have base : (edit member).derivedBase = member.derivedBase := by
        unfold LedgerEntry.derivedBase
        rw [keeps.name, keeps.isHost, keeps.ip]
      cases given with
      | some label =>
          rw [List.map_cons, derivedLabels, derivedLabels, ih]
      | none =>
          rw [List.map_cons, derivedLabels, derivedLabels, base, keeps.ip]
          simp only [ih]

theorem assignLabels_map (keeps : KeepsNames edit) (members : List LedgerEntry) :
    assignLabels (members.map edit) = assignLabels members := by
  unfold assignLabels
  dsimp only
  rw [fixedLabels_map keeps, List.zip_map_left]
  exact derivedLabels_map keeps _ _

theorem labelledMembers_map (keeps : KeepsNames edit) (ledger : List LedgerEntry) :
    labelledMembers (ledger.map edit) =
      (labelledMembers ledger).map (fun entry => (edit entry.1, entry.2)) := by
  have sorted : (ledger.map edit).insertionSort (fun one two => one.ip ≤ two.ip) =
      (ledger.insertionSort (fun one two => one.ip ≤ two.ip)).map edit := by
    symm
    refine List.map_insertionSort _ _ _ _ ?_
    intro one _ two _
    rw [keeps.ip, keeps.ip]
  unfold labelledMembers
  dsimp only
  rw [sorted, assignLabels_map keeps, List.zip_map_left]
  rfl

end Edits

theorem keepsNames_entryFor (dist : Distribution) (memberIp : Ipv4Addr) :
    KeepsNames (entryFor dist memberIp) := by
  constructor <;> intro entry <;> unfold entryFor relayEntry blockEntry <;> split <;> split <;> rfl

/-! ### One recipient -/

/-- The entries of members. -/
def memberEntries (zone : List ZoneEntry) : List ZoneEntry :=
  zone.filter (fun entry => entry.publicKey.isSome)

/-- A name under the name of an entry. -/
def nameUnder (name : String) (entry : ZoneEntry) : String :=
  s!"{name}.{entry.fqdn}"

/-- The zone of a recipient has for the members that it is sent what the zone of the host has for
them, and the host places records under those names. -/
structure SameLabels (view : HostView) (network : String) (sent : LedgerMessage) : Prop where
  zone : memberEntries (zoneFor network sent.members sent.dnsRecords) =
    (memberEntries (zoneFor network view.members view.distribution.dnsRecords)).filter (fun entry =>
      entry.ip ∈ sent.members.map LedgerEntry.ip)
  records : ∀ record under member label, record.under = some under →
    lookupMember view.members under = some (member, label) →
    member.ip ∈ sent.members.map LedgerEntry.ip →
    ∃ entry ∈ memberEntries (zoneFor network sent.members sent.dnsRecords),
      entry.ip = member.ip ∧ entry.publicKey = some member.publicKey ∧
      (∀ resolved, resolveRecord view.members record = some resolved →
        fqdn network resolved.name = nameUnder record.name entry) ∧
      ∀ resolved, resolveCname view.members record = some resolved →
        fqdn network resolved.name = nameUnder record.name entry

/-- A member that waits for an approval, by its address. -/
def HostView.waits (view : HostView) (member : LedgerEntry) : Bool :=
  member.ip ∈ view.distribution.isolatedIps

/-- No member that waits for an approval has a label that one of the others has without it. -/
def HostView.NoContest (view : HostView) : Prop :=
  ∀ shown ∈ labelledMembers (view.members.filter (fun member => !view.waits member)),
    ∀ member ∈ labelledMembers view.members, shown.2 = member.2 → view.waits member.1 = false

theorem memberEntries_zoneFor (network : String) (ledger : List LedgerEntry)
    (custom : List DnsRecord) :
    memberEntries (zoneFor network ledger custom) =
      (labelledMembers ledger).map (memberEntry network) := by
  have members : ∀ entry ∈ (labelledMembers ledger).map (memberEntry network),
      entry.publicKey.isSome = true := by
    intro entry listed
    obtain ⟨member, _, rfl⟩ := List.mem_map.mp listed
    rfl
  have customs (records : List DnsRecord) : ∀ entry ∈ records.map (customEntry network),
      ¬ entry.publicKey.isSome = true := by
    intro entry listed
    obtain ⟨record, _, rfl⟩ := List.mem_map.mp listed
    exact Bool.false_ne_true
  unfold memberEntries zoneFor
  rw [List.filter_append, List.filter_eq_self.mpr members, List.filter_eq_nil_iff.mpr (customs _),
    List.append_nil]

theorem fqdn_under (network name label : String) (entry : ZoneEntry)
    (same : entry.fqdn = fqdn network label) :
    fqdn network s!"{name}.{label}" = nameUnder name entry := by
  unfold nameUnder
  rw [same]
  unfold fqdn
  have plain (text : String) : toString text = text := rfl
  apply String.toList_injective
  simp only [plain, String.toList_append, List.append_assoc]

theorem resolvedName_under {ledger : List LedgerEntry} {record : DnsRecordConfig}
    {under : MemberRef} {member : LedgerEntry} {label : String}
    (placed : record.under = some under)
    (found : lookupMember ledger under = some (member, label)) :
    resolvedName ledger record = some s!"{record.name}.{label}" := by
  unfold resolvedName
  rw [placed]
  dsimp only
  rw [found]
  rfl

namespace HostView

variable {view : HostView} {network : String} {memberIp : Ipv4Addr}

/-- The ledger that a recipient is sent, before the edits for it. -/
def shown (view : HostView) (memberIp : Ipv4Addr) : List LedgerEntry :=
  if view.distribution.recipientIsAdmin memberIp then view.members
  else view.members.filter (fun member => !view.waits member)

theorem sent_members : (ledgerMessageFor view.distribution memberIp).members =
    (view.shown memberIp).map (entryFor view.distribution memberIp) := by
  have waits : (fun member => !view.waits member) =
      fun member => decide (member.ip ∉ view.distribution.isolatedIps) := by
    funext member
    exact (decide_not).symm
  unfold shown
  rw [waits]
  rfl

theorem sent_zone : memberEntries (zoneFor network
      (ledgerMessageFor view.distribution memberIp).members
      (ledgerMessageFor view.distribution memberIp).dnsRecords) =
    (labelledMembers (view.shown memberIp)).map (memberEntry network) := by
  have keeps := keepsNames_entryFor view.distribution memberIp
  rw [memberEntries_zoneFor, sent_members, labelledMembers_map keeps, List.map_map]
  refine List.map_congr_left (fun entry _ => ?_)
  change memberEntry network (entryFor view.distribution memberIp entry.1, entry.2) = _
  unfold memberEntry
  rw [keeps.ip, keeps.publicKey]

/-- Who is sent to a recipient. -/
def isShown (view : HostView) (memberIp : Ipv4Addr) (member : LedgerEntry) : Bool :=
  view.distribution.recipientIsAdmin memberIp || !view.waits member

theorem shown_eq : view.shown memberIp = view.members.filter (view.isShown memberIp) := by
  unfold shown isShown
  cases view.distribution.recipientIsAdmin memberIp with
  | true => exact (List.filter_eq_self.mpr (fun _ _ => rfl)).symm
  | false => rfl

theorem waits_ip {one two : LedgerEntry} (same : one.ip = two.ip) :
    view.waits one = view.waits two := by
  unfold waits
  rw [same]

/-- Whom a recipient is sent, by the addresses. -/
theorem mem_sent_ips {member : LedgerEntry} (listed : member ∈ view.members) :
    member.ip ∈ (ledgerMessageFor view.distribution memberIp).members.map LedgerEntry.ip ↔
      view.isShown memberIp member = true := by
  have ips : (ledgerMessageFor view.distribution memberIp).members.map LedgerEntry.ip =
      (view.members.filter (view.isShown memberIp)).map LedgerEntry.ip := by
    rw [sent_members, shown_eq, List.map_map]
    exact List.map_congr_left (fun _ _ => (keepsNames_entryFor _ _).ip _)
  rw [ips]
  constructor
  · intro shown
    obtain ⟨other, kept, same⟩ := List.mem_map.mp shown
    have isShown := (List.mem_filter.mp kept).2
    unfold HostView.isShown at isShown ⊢
    rw [← waits_ip same]
    exact isShown
  · intro isShown
    exact List.mem_map_of_mem (List.mem_filter.mpr ⟨listed, isShown⟩)

/-- The labels of the host, for the members that are sent. -/
theorem sent_filter : ((labelledMembers view.members).map (memberEntry network)).filter (fun entry =>
      entry.ip ∈ (ledgerMessageFor view.distribution memberIp).members.map LedgerEntry.ip) =
    ((labelledMembers view.members).filter (fun entry => view.isShown memberIp entry.1)).map
      (memberEntry network) := by
  rw [List.filter_map]
  refine congrArg (List.map (memberEntry network)) (List.filter_congr (fun entry labelled => ?_))
  have listed : entry.1 ∈ view.members := (mem_labelledMembers labelled).1
  refine Bool.eq_iff_iff.mpr ?_
  exact decide_eq_true_iff.trans (mem_sent_ips listed)

theorem noContest_of_zone (ordinary : view.distribution.recipientIsAdmin memberIp = false)
    (same : (labelledMembers (view.shown memberIp)).map (memberEntry network) =
      ((labelledMembers view.members).filter (fun entry => view.isShown memberIp entry.1)).map
        (memberEntry network)) : view.NoContest := by
  intro shown labelled member there label
  have ledger : view.shown memberIp = view.members.filter (fun member => !view.waits member) := by
    unfold HostView.shown
    rw [ordinary]
    rfl
  have sent : memberEntry network shown ∈
      (labelledMembers (view.shown memberIp)).map (memberEntry network) := by
    rw [ledger]
    exact List.mem_map_of_mem labelled
  rw [same] at sent
  obtain ⟨other, kept, entry⟩ := List.mem_map.mp sent
  obtain ⟨otherThere, isShown⟩ := List.mem_filter.mp kept
  have labels : other.2 = member.2 :=
    (fqdn_injective network (congrArg ZoneEntry.fqdn entry)).trans label
  have distinct : ((labelledMembers view.members).map Prod.snd).Nodup := by
    rw [labelledMembers_labels]
    exact assignLabels_nodup _
  have pair := List.inj_on_of_nodup_map distinct otherThere there labels
  unfold HostView.isShown at isShown
  rw [ordinary, pair] at isShown
  simpa using isShown

theorem shown_labels (fine : view.distribution.recipientIsAdmin memberIp = true ∨ view.NoContest) :
    labelledMembers (view.shown memberIp) =
      (labelledMembers view.members).filter (fun entry => view.isShown memberIp entry.1) := by
  rw [shown_eq]
  refine labelledMembers_filter (fun shown labelled member there label => ?_)
  unfold isShown at labelled ⊢
  rcases Bool.eq_false_or_eq_true (view.distribution.recipientIsAdmin memberIp) with admin | ordinary
  · rw [admin]
    rfl
  · rw [ordinary] at labelled fine ⊢
    rw [(fine.resolve_left Bool.false_ne_true) shown labelled member there label]
    rfl

theorem sameLabels_iff (view : HostView) (network : String) (memberIp : Ipv4Addr) :
    SameLabels view network (ledgerMessageFor view.distribution memberIp) ↔
      view.distribution.recipientIsAdmin memberIp = true ∨ view.NoContest := by
  constructor
  · intro same
    have zone := same.zone
    rw [sent_zone, memberEntries_zoneFor, sent_filter] at zone
    by_cases admin : view.distribution.recipientIsAdmin memberIp = true
    · exact .inl admin
    · exact .inr (noContest_of_zone (Bool.not_eq_true _ ▸ admin) zone)
  · intro fine
    have zone : memberEntries (zoneFor network
          (ledgerMessageFor view.distribution memberIp).members
          (ledgerMessageFor view.distribution memberIp).dnsRecords) =
        (memberEntries (zoneFor network view.members view.distribution.dnsRecords)).filter
          (fun entry => entry.ip ∈
            (ledgerMessageFor view.distribution memberIp).members.map LedgerEntry.ip) := by
      rw [sent_zone, memberEntries_zoneFor, sent_filter, shown_labels fine]
    refine ⟨zone, ?_⟩
    intro record under member label placed found sent
    have labelled : (member, label) ∈ labelledMembers view.members :=
      List.mem_of_find?_eq_some found
    refine ⟨memberEntry network (member, label), ?_, rfl, rfl, ?_, ?_⟩
    · rw [zone, memberEntries_zoneFor]
      exact List.mem_filter.mpr ⟨List.mem_map_of_mem labelled, decide_eq_true sent⟩
    · intro resolved made
      obtain ⟨ip, _, made⟩ := Option.bind_eq_some_iff.mp made
      obtain ⟨name, named, made⟩ := Option.bind_eq_some_iff.mp made
      cases made
      cases (resolvedName_under placed found).symm.trans named
      exact fqdn_under network record.name label _ rfl
    · intro resolved made
      obtain ⟨target, _, made⟩ := Option.bind_eq_some_iff.mp made
      obtain ⟨name, named, made⟩ := Option.bind_eq_some_iff.mp made
      cases made
      cases (resolvedName_under placed found).symm.trans named
      exact fqdn_under network record.name label _ rfl

/-- No name that a member that waits for an approval can get is one that another can get. -/
def NamesApart (view : HostView) : Prop :=
  ∀ one ∈ view.members, view.waits one = true → ∀ two ∈ view.members, view.waits two = false →
    ∀ name, Numbered one.dnsBase (one.ip.octet 3) name →
      ¬ Numbered two.dnsBase (two.ip.octet 3) name

theorem noContest_of_apart (apart : view.NamesApart) : view.NoContest := by
  intro shown labelled member there label
  obtain ⟨kept, origin⟩ := mem_labelledMembers labelled
  obtain ⟨listed, otherOrigin⟩ := mem_labelledMembers there
  obtain ⟨shownListed, isShown⟩ := List.mem_filter.mp kept
  by_contra waiting
  unfold LabelOrigin at origin otherOrigin
  rw [label] at origin
  exact apart member.1 listed (Bool.not_eq_false _ ▸ waiting) shown.1 shownListed
    (by simpa using isShown) member.2 otherOrigin origin

/-- Bob has no fixed name; the one who waits for an approval has the label that is made of his. -/
def twoBobs : Config where
  interface := { address := Ipv4Net.slash24 0x0A630001#32 }
  peers := [
    { name := some "alice"
      dnsName := some "alice"
      publicKey := ⟨7⟩
      allowedIps := [Ipv4Net.host 0x0A630002#32] },
    { name := some "Bob"
      publicKey := ⟨8⟩
      allowedIps := [Ipv4Net.host 0x0A630003#32] },
    { name := some "bob"
      dnsName := some "bob"
      inviteId := some "00000000000000000000000000000001"
      inviteIssuedAt := some 1000
      inviteExpiresAt := some 4600
      inviteAcceptedAt := some 2000
      inviteDeviceId := some "00000000000000000000000000000002"
      inviteRequiresApproval := true
      publicKey := ⟨9⟩
      allowedIps := [Ipv4Net.host 0x0A630004#32] }]

def twoBobsView : HostView where
  config := twoBobs
  hostKey := ⟨1⟩
  software := { appVersion := none, platform := none, capabilities := [] }
  now := 3000
  stats := fun _ => none
  connected := fun _ => none
  flatten := fun _ => none
  dnsHealth := fun _ => none
  cnameHealth := fun _ => none
  deny := []
  forceRelay := []
  permGroups := []

end HostView

end PeerCove
