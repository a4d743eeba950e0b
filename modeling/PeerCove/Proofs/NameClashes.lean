/-
Module: PeerCove.Proofs.NameClashes
Layer: Proofs
Purpose: When no two names of a host's network are the same, over all runs of the operations that
  give names: what each operation asks of the records that are there.
Trusted boundary: none
Main exports: assignLabels_bases, Settled, Unshadowed, names_distinct_iff
-/
import PeerCove.Host.BuildLedger
import PeerCove.Library.Runs
import PeerCove.Ops.Naming
import PeerCove.Proofs.DnsZone
import PeerCove.Proofs.EditFrames
import PeerCove.Proofs.InviteAtomicity

namespace PeerCove

open Fallible FilePrograms

/-! ### Labels that start from different names -/

theorem fixedLabels_taken {taken : List String} {members : List LedgerEntry}
    (distinct : (members.filterMap LedgerEntry.fixedName).Nodup)
    (apart : ∀ name ∈ members.filterMap LedgerEntry.fixedName, name ∉ taken) :
    ∀ label ∈ (fixedLabels taken members).2,
      label ∈ taken ∨ label ∈ members.filterMap LedgerEntry.fixedName := by
  induction members generalizing taken with
  | nil => exact fun label listed => .inl listed
  | cons member rest ih =>
      cases given : member.fixedName with
      | none =>
          rw [List.filterMap_cons_none given] at distinct apart ⊢
          rw [fixedLabels_none taken rest given]
          exact ih distinct apart
      | some fixed =>
          rw [List.filterMap_cons_some given] at distinct apart ⊢
          obtain ⟨once, distinct⟩ := List.nodup_cons.mp distinct
          obtain ⟨free, apart⟩ := List.forall_mem_cons.mp apart
          rw [fixedLabels_some taken rest given, uniquify_free free]
          intro label listed
          have apartMore : ∀ name ∈ rest.filterMap LedgerEntry.fixedName, name ∉ fixed :: taken := by
            intro name there again
            rcases List.mem_cons.mp again with rfl | old
            · exact once there
            · exact apart name there old
          rcases ih distinct apartMore label listed with old | new
          · rcases List.mem_cons.mp old with rfl | old
            · exact .inr List.mem_cons_self
            · exact .inl old
          · exact .inr (List.mem_cons_of_mem _ new)

/-- Derived names that are free are given as they are. -/
theorem derivedLabels_bases {taken : List String} {members : List LedgerEntry}
    (distinct : (members.map LedgerEntry.dnsBase).Nodup)
    (free : ∀ member ∈ members, member.fixedName = none → member.dnsBase ∉ taken) :
    derivedLabels taken (members.map (fun member => (member, member.fixedName))) =
      members.map LedgerEntry.dnsBase := by
  induction members generalizing taken with
  | nil => rfl
  | cons member rest ih =>
      obtain ⟨once, distinct⟩ := List.nodup_cons.mp distinct
      obtain ⟨here, later⟩ := List.forall_mem_cons.mp free
      rw [List.map_cons, List.map_cons]
      cases given : member.fixedName with
      | some fixed =>
          have base : member.dnsBase = fixed := by rw [LedgerEntry.dnsBase, given, Option.getD_some]
          rw [derivedLabels, ih distinct later, base]
      | none =>
          have base : member.dnsBase = member.derivedBase := by
            rw [LedgerEntry.dnsBase, given, Option.getD_none]
          have label : uniquify member.derivedBase (member.ip.octet 3) taken = member.dnsBase := by
            rw [← base, uniquify_free (here given)]
          rw [derivedLabels, label, ih distinct]
          intro other listed derived again
          rcases List.mem_cons.mp again with same | old
          · exact once (same ▸ List.mem_map_of_mem listed)
          · exact later other listed derived old

theorem dnsBase_of_fixedName {member : LedgerEntry} {name : String}
    (given : member.fixedName = some name) : member.dnsBase = name := by
  rw [LedgerEntry.dnsBase, given, Option.getD_some]

theorem fixedNames_sublist (members : List LedgerEntry) :
    (members.filterMap LedgerEntry.fixedName).Sublist (members.map LedgerEntry.dnsBase) := by
  induction members with
  | nil => exact .slnil
  | cons member rest ih =>
      rw [List.map_cons]
      cases given : member.fixedName with
      | none =>
          rw [List.filterMap_cons_none given]
          exact ih.cons _
      | some fixed =>
          rw [List.filterMap_cons_some given, dnsBase_of_fixedName given]
          exact ih.cons_cons fixed

/-- Members whose labels start from different names are given these names. -/
theorem assignLabels_bases {members : List LedgerEntry}
    (distinct : (members.map LedgerEntry.dnsBase).Nodup) :
    assignLabels members = members.map LedgerEntry.dnsBase := by
  have fixedDistinct : (members.filterMap LedgerEntry.fixedName).Nodup :=
    distinct.sublist (fixedNames_sublist members)
  have pairs : members.zip (fixedLabels [] members).1 =
      members.map (fun member => (member, member.fixedName)) := by
    rw [fixedLabels_kept fixedDistinct (fun _ _ => List.not_mem_nil), List.map_prod_left_eq_zip]
  unfold assignLabels
  dsimp only
  rw [pairs]
  refine derivedLabels_bases distinct (fun member listed derived again => ?_)
  rcases fixedLabels_taken fixedDistinct (fun _ _ => List.not_mem_nil) _ again with old | new
  · exact absurd old List.not_mem_nil
  · obtain ⟨other, there, given⟩ := List.mem_filterMap.mp new
    have equal := List.inj_on_of_nodup_map distinct there listed (dnsBase_of_fixedName given)
    rw [equal, derived] at given
    cases given

theorem labelledMembers_bases {ledger : List LedgerEntry}
    (distinct : (ledger.map LedgerEntry.dnsBase).Nodup) :
    labelledMembers ledger = (ledger.insertionSort (fun one two => one.ip ≤ two.ip)).map
      (fun member => (member, member.dnsBase)) := by
  have perm := (List.perm_insertionSort (fun one two : LedgerEntry => one.ip ≤ two.ip) ledger)
  unfold labelledMembers
  dsimp only
  rw [assignLabels_bases ((perm.map LedgerEntry.dnsBase).nodup_iff.mpr distinct),
    List.map_prod_left_eq_zip]

/-! ### Names under a label -/

/-- A text without dots. -/
def Undotted (label : String) : Prop := '.' ∉ label.toList

theorem undotted_label {label : String} (fine : Names.isDnsLabel label = true) : Undotted label := by
  intro dot
  have mapped := (Names.isDnsLabel_iff.mp fine).mapped '.' dot
  exact absurd mapped (by decide)

/-- The characters of a name with a label behind it. -/
theorem underLabel_toList (name label : String) :
    (s!"{name}.{label}").toList = name.toList ++ '.' :: label.toList := by
  have plain (text : String) : toString text = text := rfl
  simp [plain]

theorem dotted_injective {front front' back back' : List Char} (dotless : '.' ∉ back)
    (dotless' : '.' ∉ back') (same : front ++ '.' :: back = front' ++ '.' :: back') :
    front = front' ∧ back = back' := by
  have tails : back.reverse ++ '.' :: front.reverse = back'.reverse ++ '.' :: front'.reverse := by
    simpa using congrArg List.reverse same
  have heads : back.reverse = back'.reverse := by
    have first := congrArg (List.takeWhile (fun c => decide (c ≠ '.'))) tails
    have whole : ∀ chars : List Char, '.' ∉ chars → ∀ rest,
        (chars.reverse ++ '.' :: rest).takeWhile (fun c => decide (c ≠ '.')) = chars.reverse := by
      intro chars none_ rest
      rw [List.takeWhile_append_of_pos]
      · simp
      · intro c listed
        refine decide_eq_true ?_
        rintro rfl
        exact none_ (List.mem_reverse.mp listed)
    rwa [whole back dotless, whole back' dotless'] at first
  have backs : back = back' := List.reverse_injective heads
  subst backs
  exact ⟨List.append_cancel_right same, rfl⟩

/-- Names under labels are the same when their parts are. -/
theorem underLabel_injective {name other label parent : String} (dotless : Undotted label)
    (dotless' : Undotted parent) (same : s!"{name}.{label}" = s!"{other}.{parent}") :
    name = other ∧ label = parent := by
  have chars := congrArg String.toList same
  rw [underLabel_toList, underLabel_toList] at chars
  obtain ⟨names, labels⟩ := dotted_injective dotless dotless' chars
  exact ⟨String.toList_injective names, String.toList_injective labels⟩

/-- A name under a label has a dot. -/
theorem underLabel_dotted (name label : String) : ¬ Undotted s!"{name}.{label}" := by
  unfold Undotted
  rw [underLabel_toList, not_not]
  exact List.mem_append_right _ List.mem_cons_self

/-! ### Configurations whose members have names -/

/-- The labels of the host and of the members as the operations compute them. -/
def Config.labels (config : Config) : List String :=
  hostDnsLabel config :: config.peers.map peerDnsLabel

/-- A valid configuration where every member has a DNS name of its own, and no record directly below
the network has one of them. -/
structure Settled (hostKey : PublicKey) (config : Config) : Prop where
  valid : config.validate = .ok ()
  keys : ∀ peer ∈ config.peers, peer.publicKey ≠ hostKey
  named : ∀ peer ∈ config.peers, ∃ label, peer.dnsName = some label ∧ Names.isDnsLabel label = true
  host : ∀ label ∈ config.interface.dnsName, Names.isDnsLabel label = true
  apart : config.labels.Nodup
  free : ∀ record ∈ config.dnsRecords, record.under = none → record.name ∉ config.labels

variable {hostKey : PublicKey} {software : Software} {now : Nat}
  {stats : PublicKey → Option Sighting} {config : Config}

theorem hostEntry_base (host : ∀ label ∈ config.interface.dnsName, Names.isDnsLabel label = true) :
    (hostEntry config hostKey software).dnsBase = hostDnsLabel config := by
  have names : (hostEntry config hostKey software).dnsName = config.interface.dnsName := rfl
  unfold LedgerEntry.dnsBase LedgerEntry.fixedName hostDnsLabel
  rw [names]
  cases given : config.interface.dnsName with
  | some label =>
      rw [Option.filter_some, if_pos (host label given)]
      rfl
  | none =>
      rw [Option.filter_none, Option.getD_none, Option.getD_none]
      unfold LedgerEntry.derivedBase
      have named : (hostEntry config hostKey software).name =
          config.interface.displayName.or (some "host") := rfl
      have isHost : (hostEntry config hostKey software).isHost = true := rfl
      rw [named, isHost, if_pos rfl]
      cases config.interface.displayName with
      | some name => rfl
      | none =>
          have label : Names.dnsLabel "host" = some "host" := by decide
          change (Names.dnsLabel "host").getD "host" = Names.HOST_DNS_LABEL
          rw [label]
          rfl

theorem peerDnsLabel_named {peer : PeerConfig} {label : String}
    (named : peer.dnsName = some label) : peerDnsLabel peer = label := by
  unfold peerDnsLabel
  rw [named]
  rfl

theorem peerEntry_base {sighting : Option Sighting} {peer : PeerConfig}
    (named : ∃ label, peer.dnsName = some label ∧ Names.isDnsLabel label = true) :
    (peerEntry config now sighting peer).dnsBase = peerDnsLabel peer := by
  obtain ⟨label, given, fine⟩ := named
  have names : (peerEntry config now sighting peer).dnsName = peer.dnsName := rfl
  unfold LedgerEntry.dnsBase LedgerEntry.fixedName
  rw [peerDnsLabel_named given, names, given, Option.filter_some, if_pos fine, Option.getD_some]

theorem hostDnsLabel_label
    (host : ∀ label ∈ config.interface.dnsName, Names.isDnsLabel label = true) :
    Names.isDnsLabel (hostDnsLabel config) = true := by
  have base : (hostEntry config ⟨0⟩ ⟨none, none, []⟩).dnsBase = hostDnsLabel config :=
    hostEntry_base host
  rw [← base]
  exact dnsBase_label _

namespace Settled

variable (settled : Settled hostKey config)

include settled

theorem bases : (buildLedger config hostKey software now stats).map LedgerEntry.dnsBase =
    config.labels := by
  unfold buildLedger Config.labels
  rw [List.map_cons, hostEntry_base settled.host, List.map_map]
  congr 1
  exact List.map_congr_left (fun peer listed => peerEntry_base (settled.named peer listed))

theorem label_fine {label : String} (listed : label ∈ config.labels) :
    Names.isDnsLabel label = true := by
  rcases List.mem_cons.mp listed with rfl | listed
  · exact hostDnsLabel_label settled.host
  · obtain ⟨peer, there, rfl⟩ := List.mem_map.mp listed
    obtain ⟨label, given, fine⟩ := settled.named peer there
    rwa [peerDnsLabel_named given]

theorem labelled : labelledMembers (buildLedger config hostKey software now stats) =
    ((buildLedger config hostKey software now stats).insertionSort
      (fun one two => one.ip ≤ two.ip)).map (fun member => (member, member.dnsBase)) := by
  refine labelledMembers_bases ?_
  rw [settled.bases]
  exact settled.apart

theorem zoneLabels_perm : ((labelledMembers (buildLedger config hostKey software now stats)).map
    Prod.snd).Perm config.labels := by
  have bases : (buildLedger config hostKey software now stats).map LedgerEntry.dnsBase =
      config.labels := settled.bases
  rw [settled.labelled, List.map_map, ← bases]
  exact (List.perm_insertionSort _ _).map _

/-- A member is found with the label that the operations compute. -/
theorem lookupMember_label {reference : MemberRef}
    (known : config.memberExists reference = true) :
    ∃ member label, lookupMember (buildLedger config hostKey software now stats) reference =
      some (member, label) ∧ labelOf config reference = some label := by
  have bases : ∀ entry ∈ labelledMembers (buildLedger config hostKey software now stats),
      entry.1 ∈ buildLedger config hostKey software now stats ∧ entry.2 = entry.1.dnsBase := by
    intro entry listed
    rw [settled.labelled] at listed
    obtain ⟨member, there, rfl⟩ := List.mem_map.mp listed
    exact ⟨(List.mem_insertionSort _).mp there, rfl⟩
  have present : ∃ member ∈ buildLedger config hostKey software now stats,
      reference.names member = true := by
    cases reference with
    | host => exact ⟨_, List.mem_cons_self, rfl⟩
    | key key =>
        obtain ⟨peer, listed, same⟩ := List.any_eq_true.mp known
        exact ⟨_, List.mem_cons_of_mem _ (List.mem_map_of_mem listed), same⟩
  obtain ⟨wanted, inLedger, matches_⟩ := present
  obtain ⟨label, labelled⟩ := labelled_exists inLedger
  cases found : lookupMember (buildLedger config hostKey software now stats) reference with
  | none => exact absurd matches_ (by simpa using List.find?_eq_none.mp found _ labelled)
  | some entry =>
      unfold lookupMember at found
      have named := List.find?_some found
      obtain ⟨listed, base⟩ := bases entry (List.mem_of_find?_eq_some found)
      refine ⟨entry.1, entry.2, rfl, ?_⟩
      rw [base]
      rcases List.mem_cons.mp listed with isHost | isPeer
      · cases reference with
        | host => rw [isHost, hostEntry_base settled.host, labelOf]
        | key key =>
            -- the host's key is no member's
            obtain ⟨peer, there, same⟩ := List.any_eq_true.mp known
            rw [isHost] at named
            exact absurd ((of_decide_eq_true same).trans (of_decide_eq_true named).symm)
              (settled.keys peer there)
      · obtain ⟨peer, there, same⟩ := List.mem_map.mp isPeer
        rw [← same] at named ⊢
        rw [peerEntry_base (settled.named peer there)]
        cases reference with
        | host => cases named
        | key key =>
            have keyed : peer.publicKey = key := of_decide_eq_true named
            have distinct := (ValidConfig.mk config settled.valid).keys_nodup
            rw [labelOf]
            cases first : config.peers.find? (fun peer => peer.publicKey = key) with
            | none =>
                exact absurd (decide_eq_true keyed) (List.find?_eq_none.mp first peer there)
            | some other =>
                have chosen := List.find?_some first
                have otherKeyed : other.publicKey = key := of_decide_eq_true chosen
                have one := List.inj_on_of_nodup_map distinct there
                  (List.mem_of_find?_eq_some first) (keyed.trans otherKeyed.symm)
                rw [one]
                rfl

end Settled

/-! ### The names of the zone -/

/-- The relative names of all records as they are resolved, and the labels. -/
def zoneNames (config : Config) (ledger : List LedgerEntry) : List String :=
  (resolveRecords config.dnsRecords ledger).map DnsRecord.name ++
    (resolveCnames config.dnsRecords ledger).map CnameRecord.name ++
    (labelledMembers ledger).map Prod.snd

/-- The name of a record with the label of its parent. -/
def Config.relative (config : Config) (record : DnsRecordConfig) : String :=
  match record.under.bind (labelOf config) with
  | some label => s!"{record.name}.{label}"
  | none => record.name

/-- No record directly below the network has the name. -/
def Config.Avoids (config : Config) (name : String) : Prop :=
  ∀ record ∈ config.dnsRecords, record.under = none → record.name ≠ name

/-- No record directly below the network has the name of a record under a member. -/
def Unshadowed (config : Config) : Prop :=
  ∀ other ∈ config.dnsRecords, ∀ reference label, other.under = some reference →
    labelOf config reference = some label → config.Avoids s!"{other.name}.{label}"

theorem relative_top {record : DnsRecordConfig} (top : record.under = none) :
    config.relative record = record.name := by
  unfold Config.relative
  rw [top]
  rfl

theorem relative_under {record : DnsRecordConfig} {reference : MemberRef} {label : String}
    (under : record.under = some reference) (given : labelOf config reference = some label) :
    config.relative record = s!"{record.name}.{label}" := by
  unfold Config.relative
  rw [under, Option.bind_some, given]

theorem labelOf_key (config : Config) (key : PublicKey) : labelOf config (.key key) =
    (config.peers.find? (fun peer => peer.publicKey = key)).map peerDnsLabel := rfl

theorem labelOf_listed {reference : MemberRef} {label : String}
    (given : labelOf config reference = some label) : label ∈ config.labels := by
  cases reference with
  | host =>
      cases given
      exact List.mem_cons_self
  | key key =>
      obtain ⟨peer, found, rfl⟩ := Option.map_eq_some_iff.mp given
      exact List.mem_cons_of_mem _ (List.mem_map_of_mem (List.mem_of_find?_eq_some found))

/-- Members with distinct labels are told apart by them. -/
theorem labelOf_injective (apart : config.labels.Nodup) {one two : MemberRef} {label : String}
    (first : labelOf config one = some label) (second : labelOf config two = some label) :
    one = two := by
  obtain ⟨notHost, distinct⟩ := List.nodup_cons.mp apart
  have keyed : ∀ {key}, labelOf config (.key key) = some label → ∃ peer ∈ config.peers,
      peer.publicKey = key ∧ peerDnsLabel peer = label := by
    intro key given
    obtain ⟨peer, found, same⟩ := Option.map_eq_some_iff.mp given
    have chosen := List.find?_some found
    exact ⟨peer, List.mem_of_find?_eq_some found, of_decide_eq_true chosen, same⟩
  cases one with
  | host =>
      cases two with
      | host => rfl
      | key key =>
          obtain ⟨peer, there, _, same⟩ := keyed second
          cases first
          exact absurd (same ▸ List.mem_map_of_mem there) notHost
  | key key =>
      obtain ⟨peer, there, rfl, same⟩ := keyed first
      cases two with
      | host =>
          cases second
          exact absurd (same ▸ List.mem_map_of_mem there) notHost
      | key other =>
          obtain ⟨peer', there', rfl, same'⟩ := keyed second
          rw [List.inj_on_of_nodup_map distinct there there' (same.trans same'.symm)]

theorem checkRecords_each {config : Config} {seen : List (String × Option MemberRef)}
    {ids : List String} {records : List DnsRecordConfig}
    (checked : checkRecords config seen ids records = .ok ()) :
    ∀ record ∈ records, Names.isCustomDnsName record.name = true ∧
      checkRecordTarget record = .ok () ∧ checkRecordMembers config record = .ok () := by
  induction records generalizing seen ids with
  | nil => exact fun record listed => absurd listed List.not_mem_nil
  | cons record rest ih =>
      obtain ⟨name, _, _, target, members, _, later⟩ := checkRecords_cons.mp checked
      exact List.forall_mem_cons.mpr ⟨⟨name, target, members⟩, ih later⟩

/-- A record has one target. -/
theorem checkRecordTarget_one {record : DnsRecordConfig}
    (checked : checkRecordTarget record = .ok ()) :
    (record.cname = none ∧ (record.ip.isSome ∨ record.member.isSome)) ∨
      (record.cname.isSome ∧ record.ip = none ∧ record.member = none) := by
  unfold checkRecordTarget at checked
  simp only [bind_ok, refuseIf_ok] at checked
  obtain ⟨_, some_, _, one, _⟩ := checked
  unfold DnsRecordConfig.targets at some_ one
  cases ip : record.ip <;> cases member : record.member <;> cases cname : record.cname <;>
    simp [ip, member, cname] at some_ one ⊢

namespace Settled

variable (settled : Settled hostKey config)

include settled

theorem checked {record : DnsRecordConfig} (listed : record ∈ config.dnsRecords) :
    checkRecordTarget record = .ok () ∧
      (∀ reference ∈ record.member, config.memberExists reference = true) ∧
      ∀ reference ∈ record.under, config.memberExists reference = true := by
  obtain ⟨_, target, members⟩ :=
    checkRecords_each (Config.validate_ok.mp settled.valid).2.2.2.2.2.2.1 record listed
  obtain ⟨member, under, _⟩ := checkRecordMembers_ok.mp members
  exact ⟨target, member, under⟩

theorem resolvedName_relative {record : DnsRecordConfig} (listed : record ∈ config.dnsRecords) :
    resolvedName (buildLedger config hostKey software now stats) record =
      some (config.relative record) := by
  unfold resolvedName Config.relative
  cases under : record.under with
  | none => rfl
  | some reference =>
      obtain ⟨member, label, found, same⟩ := settled.lookupMember_label
        ((settled.checked listed).2.2 reference under)
      dsimp only [Option.bind_some]
      rw [found, same]
      rfl

theorem resolveRecords_names :
    (resolveRecords config.dnsRecords (buildLedger config hostKey software now stats)).map
      DnsRecord.name =
      (config.dnsRecords.filter (fun record => record.cname.isNone)).map config.relative := by
  have each : ∀ records : List DnsRecordConfig, (∀ record ∈ records, record ∈ config.dnsRecords) →
      (resolveRecords records (buildLedger config hostKey software now stats)).map DnsRecord.name =
        (records.filter (fun record => record.cname.isNone)).map config.relative := by
    intro records
    induction records with
    | nil => exact fun _ => rfl
    | cons record rest ih =>
        intro listed
        obtain ⟨here, later⟩ := List.forall_mem_cons.mp listed
        have name : resolvedName (buildLedger config hostKey software now stats) record =
          some (config.relative record) := settled.resolvedName_relative here
        obtain ⟨target, members, _⟩ := settled.checked here
        rcases checkRecordTarget_one target with ⟨noAlias, addressed⟩ | ⟨alias_, noIp, noMember⟩
        · have address : ∃ ip, resolvedIp (buildLedger config hostKey software now stats) record =
              some ip := by
            unfold resolvedIp
            cases given : record.ip with
            | some ip => exact ⟨ip, rfl⟩
            | none =>
                rw [given] at addressed
                obtain ⟨member, given⟩ := Option.isSome_iff_exists.mp
                  (addressed.resolve_left Bool.false_ne_true)
                obtain ⟨entry, label, found, _⟩ := settled.lookupMember_label (members member given)
                rw [given]
                dsimp only
                exact ⟨entry.ip, by rw [found]; rfl⟩
          obtain ⟨ip, resolved⟩ := address
          have made : resolveRecord (buildLedger config hostKey software now stats) record =
              some { id := record.id, name := config.relative record, ip := ip,
                     scheme := record.scheme, port := record.port } := by
            unfold resolveRecord
            rw [resolved, name]
            rfl
          rw [List.filter_cons_of_pos (by rw [noAlias]; rfl), List.map_cons, ← ih later]
          unfold resolveRecords
          rw [List.filterMap_cons_some made]
          rfl
        · have made : resolveRecord (buildLedger config hostKey software now stats) record = none := by
            unfold resolveRecord resolvedIp
            rw [noIp, noMember]
            rfl
          rw [List.filter_cons_of_neg (by rw [Option.isNone_eq_false_iff.mpr alias_]; decide),
            ← ih later]
          unfold resolveRecords
          rw [List.filterMap_cons_none made]
  exact each config.dnsRecords (fun _ listed => listed)

theorem resolveCnames_names :
    (resolveCnames config.dnsRecords (buildLedger config hostKey software now stats)).map
      CnameRecord.name =
      (config.dnsRecords.filter (fun record => record.cname.isSome)).map config.relative := by
  have each : ∀ records : List DnsRecordConfig, (∀ record ∈ records, record ∈ config.dnsRecords) →
      (resolveCnames records (buildLedger config hostKey software now stats)).map CnameRecord.name =
        (records.filter (fun record => record.cname.isSome)).map config.relative := by
    intro records
    induction records with
    | nil => exact fun _ => rfl
    | cons record rest ih =>
        intro listed
        obtain ⟨here, later⟩ := List.forall_mem_cons.mp listed
        have name : resolvedName (buildLedger config hostKey software now stats) record =
          some (config.relative record) := settled.resolvedName_relative here
        cases target : record.cname with
        | some cname =>
            have made : resolveCname (buildLedger config hostKey software now stats) record =
                some { id := record.id, name := config.relative record, target := cname,
                       scheme := record.scheme, port := record.port } := by
              unfold resolveCname
              rw [target, name]
              rfl
            rw [List.filter_cons_of_pos (by rw [target]; rfl), List.map_cons, ← ih later]
            unfold resolveCnames
            rw [List.filterMap_cons_some made]
            rfl
        | none =>
            have made : resolveCname (buildLedger config hostKey software now stats) record =
                none := by
              unfold resolveCname
              rw [target]
              rfl
            rw [List.filter_cons_of_neg (by rw [target]; decide), ← ih later]
            unfold resolveCnames
            rw [List.filterMap_cons_none made]
  exact each config.dnsRecords (fun _ listed => listed)

theorem zoneNames_perm : (zoneNames config (buildLedger config hostKey software now stats)).Perm
    (config.dnsRecords.map config.relative ++ config.labels) := by
  unfold zoneNames
  rw [settled.resolveRecords_names, settled.resolveCnames_names, ← List.map_append]
  refine List.Perm.append (List.Perm.map _ ?_) settled.zoneLabels_perm
  have parts := List.filter_append_perm (fun record : DnsRecordConfig => record.cname.isNone)
    config.dnsRecords
  have same : (fun record : DnsRecordConfig => !record.cname.isNone) =
      (fun record => record.cname.isSome) := by
    funext record
    cases record.cname <;> rfl
  rwa [same] at parts

/-- The names of the zone are distinct exactly when none is shadowed. -/
theorem zoneNames_nodup : (zoneNames config (buildLedger config hostKey software now stats)).Nodup ↔
    Unshadowed config := by
  have pairs := (checkRecords_names (Config.validate_ok.mp settled.valid).2.2.2.2.2.2.1).1
  rw [settled.zoneNames_perm.nodup_iff, List.nodup_append']
  constructor
  · rintro ⟨names, _, _⟩ other there reference label under given record listed top same
    have equal : record = other := by
      refine List.inj_on_of_nodup_map names listed there ?_
      rw [relative_top top, same, relative_under under given]
    rw [equal, under] at top
    cases top
  · intro unshadowed
    have parent : ∀ {record reference}, record ∈ config.dnsRecords →
        record.under = some reference → ∃ label, labelOf config reference = some label ∧
          Undotted label ∧ config.relative record = s!"{record.name}.{label}" := by
      intro record reference listed under
      have known := (settled.checked listed).2.2 reference under
      have found : ∃ member label,
          lookupMember (buildLedger config hostKey software now stats) reference =
            some (member, label) ∧ labelOf config reference = some label :=
        settled.lookupMember_label known
      obtain ⟨_, label, _, given⟩ := found
      exact ⟨label, given, undotted_label (settled.label_fine (labelOf_listed given)),
        relative_under under given⟩
    refine ⟨List.Nodup.map_on ?_ pairs.of_map, settled.apart, ?_⟩
    · intro one listed two there same
      refine List.inj_on_of_nodup_map pairs listed there ?_
      cases first : one.under with
      | none =>
          rw [relative_top first] at same
          cases second : two.under with
          | none => rw [same, relative_top second]
          | some reference =>
              obtain ⟨label, given, _, name⟩ := parent there second
              exact absurd (same.trans name)
                (unshadowed two there reference label second given one listed first)
      | some reference =>
          obtain ⟨label, given, undotted, name⟩ := parent listed first
          cases second : two.under with
          | none =>
              rw [relative_top second, name] at same
              exact absurd same.symm
                (unshadowed one listed reference label first given two there second)
          | some other =>
              obtain ⟨label', given', undotted', name'⟩ := parent there second
              rw [name, name'] at same
              obtain ⟨names, rfl⟩ := underLabel_injective undotted undotted' same
              rw [names, labelOf_injective settled.apart given given']
    · intro name inRecords inLabels
      obtain ⟨record, listed, rfl⟩ := List.mem_map.mp inRecords
      cases under : record.under with
      | none =>
          rw [relative_top under] at inLabels
          exact settled.free record listed under inLabels
      | some reference =>
          obtain ⟨label, _, _, name⟩ := parent listed under
          have undotted := undotted_label (settled.label_fine inLabels)
          rw [name] at undotted
          exact underLabel_dotted record.name label undotted

end Settled

/-! ### What the operations do -/

theorem succeeded_some {α : Type} {outcome : Except String α × Config} {next : Config} :
    succeeded outcome = some next ↔ ∃ value, outcome = (.ok value, next) := by
  obtain ⟨result, left⟩ := outcome
  cases result with
  | error message => simp [succeeded]
  | ok value => simp [succeeded, eq_comm]

theorem alone_loadConfig_ok {config left value : Config} :
    loadConfig.alone config = (.ok value, left) ↔
      config.validate = .ok () ∧ config = value ∧ config = left := by
  unfold loadConfig
  simp only [Program.alone_bind_ok, Program.alone_read_ok, Program.alone_lift_ok,
    Program.alone_pure_ok]
  constructor
  · rintro ⟨_, _, ⟨rfl, rfl⟩, _, _, ⟨valid, rfl⟩, rfl, rfl⟩
    exact ⟨valid, rfl, rfl⟩
  · rintro ⟨valid, rfl, rfl⟩
    exact ⟨config, config, ⟨rfl, rfl⟩, (), config, ⟨valid, rfl⟩, rfl, rfl⟩

/-- What an operation that succeeds leaves of the configuration. -/
inductive NameEffect (publicKey : PrivateKey → PublicKey) (config : Config) :
    NameOp → Config → Prop where
  | added {record : NewRecord} {stamp : Nat} {next : Config} (table : DnsRecordConfig)
      (name : Names.normalizeCustomDnsName record.name = some table.name)
      (under : table.under = record.under)
      (free : record.under = none → lastLabel table.name ∉ takenDnsLabels config .none)
      (interface : next.interface = config.interface) (peers : next.peers = config.peers)
      (records : next.dnsRecords = config.dnsRecords ++ [table]) :
      NameEffect publicKey config (.addRecord record stamp) next
  | removed {name : String} {under : Option MemberRef} {next : Config}
      (interface : next.interface = config.interface) (peers : next.peers = config.peers)
      (records : next.dnsRecords.Sublist config.dnsRecords) :
      NameEffect publicKey config (.removeRecord name under) next
  | peerKept {selector : Selector} {input label : String} (target : PeerConfig)
      (found : findPeer config selector = .ok target)
      (made : Names.normalizeDnsName input false = .ok label) (same : target.dnsName = some label) :
      NameEffect publicKey config (.setPeerDnsName selector input) config
  | peerNamed {selector : Selector} {input label : String} (target : PeerConfig)
      (found : findPeer config selector = .ok target)
      (made : Names.normalizeDnsName input false = .ok label)
      (free : label ∉ takenDnsLabels config (.peer target.publicKey)) :
      NameEffect publicKey config (.setPeerDnsName selector input)
        { config with peers := config.peers.map (fun peer =>
            if peer.publicKey = target.publicKey then { peer with dnsName := some label }
            else peer) }
  | hostKept {input label : String} (made : Names.normalizeDnsName input true = .ok label)
      (same : config.interface.dnsName = some label) :
      NameEffect publicKey config (.setHostDnsName input) config
  | hostNamed {input label : String} (made : Names.normalizeDnsName input true = .ok label)
      (free : label ∉ takenDnsLabels config .host) :
      NameEffect publicKey config (.setHostDnsName input)
        { config with interface := { config.interface with dnsName := some label } }
  | invited {options : InviteOptions} {io : InviteIo} (plan : InvitePlan)
      (planned : planInvite io options config = .ok plan)
      (newKey : ∀ peer ∈ config.peers, peer.publicKey ≠ publicKey io.memberPrivateKey) :
      NameEffect publicKey config (.invite options io)
        (config.withPeer (plan.peer publicKey io options))
  | renamed {selector : Selector} {newName : String} (key : PublicKey) :
      NameEffect publicKey config (.renamePeer selector newName)
        { config with peers := config.peers.map (fun peer =>
            if peer.publicKey = key then { peer with name := some newName } else peer) }
  | peerRemoved {selector : Selector} {next : Config}
      (interface : next.interface = config.interface) (peers : next.peers.Sublist config.peers)
      (records : next.dnsRecords.Sublist config.dnsRecords) :
      NameEffect publicKey config (.removePeer selector) next

theorem checkTopLevel_free {name : String}
    (checked : checkTopLevel config name none = .ok ()) :
    lastLabel name ∉ takenDnsLabels config .none := by
  unfold checkTopLevel at checked
  rw [if_neg (by decide)] at checked
  simp only [bind_ok, refuseIf_ok] at checked
  obtain ⟨_, _, _, _, free⟩ := checked
  exact free

theorem table_named {record : NewRecord} {name : String} {scheme : Option String} {stamp : Nat}
    {table : DnsRecordConfig} (made : record.table name scheme stamp = .ok table) :
    table.name = name ∧ table.under = record.under := by
  unfold NewRecord.table at made
  cases target : record.target with
  | ip ip =>
      rw [target] at made
      cases pure_ok.mp made
      exact ⟨rfl, rfl⟩
  | member member =>
      rw [target] at made
      cases pure_ok.mp made
      exact ⟨rfl, rfl⟩
  | cname domain =>
      rw [target] at made
      dsimp only at made
      cases normal : Names.normalizeCnameTarget domain with
      | none =>
          rw [normal] at made
          cases made
      | some cname =>
          rw [normal] at made
          cases pure_ok.mp made
          exact ⟨rfl, rfl⟩

variable {publicKey : PrivateKey → PublicKey} {escaped : Char → Bool}
  {base64 : List UInt8 → String} {next : Config}

theorem addRecord_effect {record : NewRecord} {stamp : Nat} {relative : String}
    (done : (addRecord record stamp).alone config = (.ok relative, next)) :
    next.validate = .ok () ∧ NameEffect publicKey config (.addRecord record stamp) next := by
  unfold addRecord at done
  cases named : Names.normalizeCustomDnsName record.name with
  | none =>
      rw [named] at done
      cases done
  | some name =>
      rw [named] at done
      simp only [Program.alone_bind_ok, Program.alone_lift_ok, alone_loadConfig_ok,
        Program.alone_write_ok, Program.alone_pure_ok, bind_ok, writeValidated_ok] at done
      obtain ⟨_, _, ⟨_, rfl⟩, _, _, ⟨_, rfl⟩, _, _, ⟨_, rfl, rfl⟩, _, _, ⟨_, rfl⟩, _, _, ⟨top, rfl⟩,
        _, _, ⟨_, rfl⟩, _, written, ⟨table, made, valid, rfl⟩, _, rfl⟩ := done
      obtain ⟨tableName, tableUnder⟩ := table_named made
      refine ⟨valid, .added table (by rw [tableName, named]) tableUnder ?_ rfl rfl rfl⟩
      intro isTop
      rw [isTop] at top
      rw [tableName]
      exact checkTopLevel_free top

theorem removeRecord_effect {name : String} {under : Option MemberRef}
    (done : (removeRecord name under).alone config = (.ok (), next)) :
    next.validate = .ok () ∧ NameEffect publicKey config (.removeRecord name under) next := by
  unfold removeRecord removeRecordEdit at done
  simp only [Program.alone_bind_ok, alone_loadConfig_ok, Program.alone_write_ok, bind_ok,
    writeValidated_ok] at done
  obtain ⟨_, _, ⟨_, rfl, rfl⟩, _, _, valid, rfl⟩ := done
  exact ⟨valid, .removed rfl rfl List.filter_sublist⟩

theorem editPeer_next {key : PublicKey} {edit : PeerConfig → PeerConfig}
    (done : editPeer key edit config = .ok next) :
    next.validate = .ok () ∧ next = { config with
      peers := config.peers.map (fun peer => if peer.publicKey = key then edit peer else peer) } := by
  unfold editPeer at done
  simp only [bind_ok, writeValidated_ok] at done
  obtain ⟨_, _, _, _, valid, rfl⟩ := done
  exact ⟨valid, rfl⟩

theorem setPeerDnsName_effect {selector : Selector} {input : String} {outcome : DnsNameOutcome}
    (done : (HostProgram.setPeerDnsName selector input).alone config = (.ok outcome, next)) :
    next.validate = .ok () ∧ NameEffect publicKey config (.setPeerDnsName selector input) next := by
  unfold HostProgram.setPeerDnsName dnsNamePlan at done
  simp only [Program.alone_bind_ok, Program.alone_read_ok, Program.alone_lift_ok] at done
  obtain ⟨_, _, ⟨rfl, rfl⟩, plan, _, ⟨planned, rfl⟩, done⟩ := done
  cases made : Names.normalizeDnsName input false with
  | error error =>
      rw [made] at planned
      cases planned
  | ok label =>
      rw [made] at planned
      simp only [bind_ok] at planned
      obtain ⟨_, valid, target, found, planned⟩ := planned
      by_cases same : target.dnsName = some label
      · rw [if_pos same] at planned
        cases pure_ok.mp planned
        cases (Program.alone_pure_ok.mp done).2
        exact ⟨valid, .peerKept target found made same⟩
      · rw [if_neg same] at planned
        simp only [bind_ok, refuseIf_ok] at planned
        obtain ⟨_, free, planned⟩ := planned
        cases pure_ok.mp planned
        simp only [Program.alone_bind_ok, Program.alone_write_ok, Program.alone_pure_ok] at done
        obtain ⟨_, _, edited, _, rfl⟩ := done
        obtain ⟨validNext, rfl⟩ := editPeer_next edited
        exact ⟨validNext, .peerNamed target found made free⟩

theorem setHostDnsName_effect {input label : String}
    (done : (setHostDnsName input).alone config = (.ok label, next)) :
    next.validate = .ok () ∧ NameEffect publicKey config (.setHostDnsName input) next := by
  unfold setHostDnsName at done
  simp only [Program.alone_bind_ok, Program.alone_lift_ok, alone_loadConfig_ok] at done
  obtain ⟨made, _, ⟨normal, rfl⟩, _, _, ⟨valid, rfl, rfl⟩, done⟩ := done
  have normalized : Names.normalizeDnsName input true = .ok made := by
    cases result : Names.normalizeDnsName input true with
    | error error =>
        rw [result] at normal
        cases normal
    | ok other =>
        rw [result] at normal
        cases normal
        rfl
  by_cases same : config.interface.dnsName = some made
  · rw [if_pos same] at done
    cases (Program.alone_pure_ok.mp done).2
    exact ⟨valid, .hostKept normalized same⟩
  · rw [if_neg same] at done
    simp only [Program.alone_bind_ok, Program.alone_lift_ok, Program.alone_write_ok,
      Program.alone_pure_ok, refuseIf_ok, writeValidated_ok] at done
    obtain ⟨_, _, ⟨free, rfl⟩, _, _, ⟨validNext, rfl⟩, _, rfl⟩ := done
    exact ⟨validNext, .hostNamed normalized free⟩

theorem renamePeer_effect {selector : Selector} {newName : String}
    (done : (HostProgram.renamePeer selector newName).alone config = (.ok (), next)) :
    next.validate = .ok () ∧ NameEffect publicKey config (.renamePeer selector newName) next := by
  unfold HostProgram.renamePeer at done
  simp only [Program.alone_bind_ok, Program.alone_read_ok, Program.alone_lift_ok,
    Program.alone_write_ok] at done
  obtain ⟨_, _, ⟨rfl, rfl⟩, key, _, ⟨_, rfl⟩, edited⟩ := done
  obtain ⟨valid, rfl⟩ := editPeer_next edited
  exact ⟨valid, .renamed key⟩

theorem removePeer_effect {selector : Selector} {removed : RemovedPeer}
    (done : (HostProgram.removePeer selector).alone config = (.ok removed, next)) :
    next.validate = .ok () ∧ NameEffect publicKey config (.removePeer selector) next := by
  unfold HostProgram.removePeer RemovalPlan.edit at done
  simp only [Program.alone_bind_ok, Program.alone_read_ok, Program.alone_lift_ok,
    Program.alone_write_ok, Program.alone_pure_ok, bind_ok, writeValidated_ok] at done
  obtain ⟨_, _, ⟨rfl, rfl⟩, plan, _, ⟨_, rfl⟩, _, _, ⟨_, _, _, _, valid, rfl⟩, _, rfl⟩ := done
  exact ⟨valid, .peerRemoved rfl List.filter_sublist List.filter_sublist⟩

theorem invite_effect {options : InviteOptions} {io : InviteIo}
    (done : NameOp.inviteStep publicKey escaped base64 options io config = some next) :
    next.validate = .ok () ∧ NameEffect publicKey config (.invite options io) next := by
  unfold NameOp.inviteStep invite at done
  dsimp only at done
  cases planned : planInvite io options config with
  | error error =>
      rw [planned] at done
      cases done
  | ok plan =>
      rw [planned] at done
      dsimp only at done
      unfold carryOut at done
      have kept : (savePsk io options plan
          { hostToml := some config, psk := fun _ => none }).2.hostToml = some config :=
        savePsk_hostToml
      cases saved : savePsk io options plan { hostToml := some config, psk := fun _ => none } with
      | mk written left =>
          rw [saved] at done kept
          cases written with
          | false => cases done
          | true =>
              dsimp only at done
              rcases appendToFile_cases escaped io (plan.peer publicKey io options) kept
                (planInvite_ok planned).1 with
                ⟨registers, _, appended⟩ | ⟨_, _, _, failed⟩ | ⟨_, _, failed⟩
              · rw [appended] at done
                dsimp only at done
                cases issued : issueToken publicKey base64 io options config plan with
                | error error =>
                    rw [issued] at done
                    cases done
                | ok result =>
                    rw [issued] at done
                    cases done
                    exact ⟨registers.valid, .invited plan planned registers.newKey⟩
              · rw [failed] at done
                cases done
              · rw [failed] at done
                cases done

/-- Every operation that succeeds has its effect, and leaves a valid configuration. -/
theorem step_effect {op : NameOp} (done : op.step publicKey escaped base64 config = some next) :
    next.validate = .ok () ∧ NameEffect publicKey config op next := by
  cases op with
  | addRecord record stamp =>
      obtain ⟨_, done⟩ := succeeded_some.mp done
      exact addRecord_effect done
  | removeRecord name under =>
      obtain ⟨_, done⟩ := succeeded_some.mp done
      exact removeRecord_effect done
  | setPeerDnsName selector input =>
      obtain ⟨_, done⟩ := succeeded_some.mp done
      exact setPeerDnsName_effect done
  | setHostDnsName input =>
      obtain ⟨_, done⟩ := succeeded_some.mp done
      exact setHostDnsName_effect done
  | invite options io => exact invite_effect done
  | renamePeer selector newName =>
      obtain ⟨_, done⟩ := succeeded_some.mp done
      exact renamePeer_effect done
  | removePeer selector =>
      obtain ⟨_, done⟩ := succeeded_some.mp done
      exact removePeer_effect done

/-! ### What the operations keep -/

theorem labels_taken {label : String} (listed : label ∈ config.labels) :
    label ∈ takenDnsLabels config .none := by
  unfold takenDnsLabels
  have all : config.peers.filter (fun peer => DnsExclude.none ≠ .peer peer.publicKey) =
      config.peers := List.filter_eq_self.mpr (fun _ _ => rfl)
  rw [all]
  exact List.mem_append_left _ listed

theorem names_taken {exclude : DnsExclude} {record : DnsRecordConfig}
    (listed : record ∈ config.dnsRecords) (top : record.under = none) :
    record.name ∈ takenDnsLabels config exclude := by
  refine List.mem_append_right _ (List.mem_map_of_mem (List.mem_filter.mpr ⟨listed, ?_⟩))
  rw [top]
  rfl

/-- The last label of a name under a label is the label. -/
theorem lastLabel_under {label : String} (undotted : Undotted label) (name : String) :
    lastLabel s!"{name}.{label}" = label := by
  unfold lastLabel Text.split
  rw [splitChars_eq, underLabel_toList, List.splitOn_append_cons_self,
    List.splitOn_eq_singleton undotted, List.map_append, List.map_singleton, List.getLastD_concat,
    String.ofList_toList]

theorem lastLabel_undotted {label : String} (undotted : Undotted label) :
    lastLabel label = label := by
  unfold lastLabel Text.split
  rw [splitChars_eq, List.splitOn_eq_singleton undotted]
  exact String.ofList_toList

theorem dnsLabel_fine {input label : String} (made : Names.dnsLabel input = some label) :
    Names.isDnsLabel label = true :=
  Names.isDnsLabel_iff.mpr (Names.labelShape_of_dnsLabel made)

theorem normalizeDnsName_fine {input label : String} {forHost : Bool}
    (made : Names.normalizeDnsName input forHost = .ok label) : Names.isDnsLabel label = true := by
  unfold Names.normalizeDnsName at made
  cases normal : Names.dnsLabel input with
  | none =>
      rw [normal] at made
      cases made
  | some other =>
      rw [normal] at made
      dsimp only at made
      split at made
      · cases made
      · cases made
        exact dnsLabel_fine normal

/-- Fewer members and records keep their names. -/
theorem Settled.fewer (settled : Settled hostKey config) (valid : next.validate = .ok ())
    (interface : next.interface = config.interface) (peers : next.peers.Sublist config.peers)
    (records : next.dnsRecords.Sublist config.dnsRecords) : Settled hostKey next := by
  have host : hostDnsLabel next = hostDnsLabel config := by
    unfold hostDnsLabel
    rw [interface]
  have labels : next.labels.Sublist config.labels := by
    unfold Config.labels
    rw [host]
    exact (peers.map peerDnsLabel).cons_cons _
  constructor
  · exact valid
  · exact fun peer listed => settled.keys peer (peers.subset listed)
  · exact fun peer listed => settled.named peer (peers.subset listed)
  · rw [interface]
    exact settled.host
  · exact settled.apart.sublist labels
  · exact fun record listed top inLabels =>
      settled.free record (records.subset listed) top (labels.subset inLabels)

theorem labelOf_fewer (settled : Settled hostKey config)
    (interface : next.interface = config.interface) (peers : next.peers.Sublist config.peers)
    {reference : MemberRef} {label : String} (given : labelOf next reference = some label) :
    labelOf config reference = some label := by
  cases reference with
  | host =>
      rw [← given]
      unfold labelOf hostDnsLabel
      rw [interface]
  | key key =>
      obtain ⟨peer, found, same⟩ := Option.map_eq_some_iff.mp given
      have chosen := List.find?_some found
      have keyed : peer.publicKey = key := of_decide_eq_true chosen
      have listed := peers.subset (List.mem_of_find?_eq_some found)
      rw [labelOf_key]
      cases first : config.peers.find? (fun peer => peer.publicKey = key) with
      | none => exact absurd chosen (List.find?_eq_none.mp first peer listed)
      | some other =>
          have chosenFirst := List.find?_some first
          have otherKeyed : other.publicKey = key := of_decide_eq_true chosenFirst
          have one := List.inj_on_of_nodup_map (ValidConfig.mk config settled.valid).keys_nodup
            listed (List.mem_of_find?_eq_some first) (keyed.trans otherKeyed.symm)
          rw [Option.map_some, ← one, same]

/-- Fewer members and records shadow no names. -/
theorem Unshadowed.fewer (unshadowed : Unshadowed config) (settled : Settled hostKey config)
    (interface : next.interface = config.interface) (peers : next.peers.Sublist config.peers)
    (records : next.dnsRecords.Sublist config.dnsRecords) : Unshadowed next := by
  intro other listed reference label under given record there top
  exact unshadowed other (records.subset listed) reference label under
    (labelOf_fewer settled interface peers given) record (records.subset there) top

/-! ### Changed peers -/

/-- The label of a member whose table is changed. -/
theorem labelOf_changed {edit : PeerConfig → PeerConfig}
    (keys : ∀ peer, (edit peer).publicKey = peer.publicKey) (interface : InterfaceConfig)
    (key : PublicKey) :
    labelOf { config with interface := interface, peers := config.peers.map edit } (.key key) =
      (config.peers.find? (fun peer => peer.publicKey = key)).map
        (fun peer => peerDnsLabel (edit peer)) := by
  change ((config.peers.map edit).find? (fun peer => peer.publicKey = key)).map peerDnsLabel = _
  rw [List.find?_map, Option.map_map]
  have same : (fun peer : PeerConfig => decide (peer.publicKey = key)) ∘ edit =
      fun peer => decide (peer.publicKey = key) := by
    funext peer
    exact congrArg (fun other => decide (other = key)) (keys peer)
  rw [same]
  rfl

theorem labels_none {exclude : DnsExclude} {peer : PeerConfig} (listed : peer ∈ config.peers)
    (other : exclude ≠ .peer peer.publicKey) :
    peerDnsLabel peer ∈ takenDnsLabels config exclude := by
  refine List.mem_append_left _ (List.mem_append_right _ ?_)
  exact List.mem_map_of_mem (List.mem_filter.mpr ⟨listed, decide_eq_true other⟩)

theorem host_taken {exclude : DnsExclude} (other : exclude ≠ .host) :
    hostDnsLabel config ∈ takenDnsLabels config exclude := by
  refine List.mem_append_left _ (List.mem_append_left _ ?_)
  rw [if_neg other]
  exact List.mem_singleton.mpr rfl

section Peer

variable {target : PeerConfig} {label : String}

/-- The table of the member gets the label. -/
def giveLabel (key : PublicKey) (label : String) (peer : PeerConfig) : PeerConfig :=
  if peer.publicKey = key then { peer with dnsName := some label } else peer

theorem giveLabel_key (key : PublicKey) (label : String) (peer : PeerConfig) :
    (giveLabel key label peer).publicKey = peer.publicKey := by
  unfold giveLabel
  split <;> rfl

theorem giveLabel_label (key : PublicKey) (label : String) (peer : PeerConfig) :
    peerDnsLabel (giveLabel key label peer) =
      if peer.publicKey = key then label else peerDnsLabel peer := by
  unfold giveLabel
  split <;> rfl

theorem settled_peerNamed (settled : Settled hostKey config) {key : PublicKey}
    (fine : Names.isDnsLabel label = true) (free : label ∉ takenDnsLabels config (.peer key))
    (valid : ({ config with peers := config.peers.map (giveLabel key label) } : Config).validate =
      .ok ()) :
    Settled hostKey { config with peers := config.peers.map (giveLabel key label) } := by
  have others : ∀ peer ∈ config.peers, peer.publicKey ≠ key → peerDnsLabel peer ≠ label := by
    intro peer listed differ same
    refine free (same ▸ labels_none listed ?_)
    exact fun equal => differ (DnsExclude.peer.inj equal).symm
  obtain ⟨notHost, distinct⟩ := List.nodup_cons.mp settled.apart
  have keysDistinct := (ValidConfig.mk config settled.valid).keys_nodup
  have labels : (config.peers.map (giveLabel key label)).map peerDnsLabel =
      config.peers.map (fun peer => if peer.publicKey = key then label else peerDnsLabel peer) := by
    rw [List.map_map]
    exact List.map_congr_left (fun peer _ => giveLabel_label key label peer)
  constructor
  · exact valid
  · intro peer listed
    obtain ⟨old, there, rfl⟩ := List.mem_map.mp listed
    rw [giveLabel_key]
    exact settled.keys old there
  · intro peer listed
    obtain ⟨old, there, rfl⟩ := List.mem_map.mp listed
    unfold giveLabel
    split
    · exact ⟨label, rfl, fine⟩
    · exact settled.named old there
  · exact settled.host
  · change (hostDnsLabel config :: (config.peers.map (giveLabel key label)).map peerDnsLabel).Nodup
    rw [labels, List.nodup_cons]
    constructor
    · intro again
      obtain ⟨peer, there, same⟩ := List.mem_map.mp again
      split at same
      · exact free (same ▸ host_taken nofun)
      · exact notHost (same ▸ List.mem_map_of_mem there)
    · refine List.Nodup.map_on ?_ keysDistinct.of_map
      intro one listed two there same
      by_cases first : one.publicKey = key
      · by_cases second : two.publicKey = key
        · exact List.inj_on_of_nodup_map keysDistinct listed there (first.trans second.symm)
        · rw [if_pos first, if_neg second] at same
          exact absurd same.symm (others two there second)
      · rw [if_neg first] at same
        by_cases second : two.publicKey = key
        · rw [if_pos second] at same
          exact absurd same (others one listed first)
        · rw [if_neg second] at same
          exact List.inj_on_of_nodup_map distinct listed there same
  · intro record listed top inLabels
    change record.name ∈ hostDnsLabel config ::
      (config.peers.map (giveLabel key label)).map peerDnsLabel at inLabels
    rw [labels] at inLabels
    rcases List.mem_cons.mp inLabels with isHost | inPeers
    · exact settled.free record listed top (isHost ▸ List.mem_cons_self)
    · obtain ⟨peer, there, same⟩ := List.mem_map.mp inPeers
      split at same
      · exact free (same ▸ names_taken listed top)
      · exact settled.free record listed top
          (same ▸ List.mem_cons_of_mem _ (List.mem_map_of_mem there))

theorem settled_hostNamed (settled : Settled hostKey config)
    (fine : Names.isDnsLabel label = true) (free : label ∉ takenDnsLabels config .host)
    (valid : ({ config with interface := { config.interface with dnsName := some label } } :
      Config).validate = .ok ()) :
    Settled hostKey
      { config with interface := { config.interface with dnsName := some label } } := by
  obtain ⟨_, distinct⟩ := List.nodup_cons.mp settled.apart
  constructor
  · exact valid
  · exact settled.keys
  · exact settled.named
  · intro given same
    cases same
    exact fine
  · change (label :: config.peers.map peerDnsLabel).Nodup
    rw [List.nodup_cons]
    refine ⟨fun again => ?_, distinct⟩
    obtain ⟨peer, there, same⟩ := List.mem_map.mp again
    exact free (same ▸ labels_none there nofun)
  · intro record listed top inLabels
    change record.name ∈ label :: config.peers.map peerDnsLabel at inLabels
    rcases List.mem_cons.mp inLabels with rfl | inPeers
    · exact free (names_taken listed top)
    · exact settled.free record listed top (List.mem_cons_of_mem _ inPeers)

/-- A new member gets a label that is not taken. -/
theorem settled_withPeer (settled : Settled hostKey config) {peer : NewPeer}
    (named : peer.dnsName = some label) (fine : Names.isDnsLabel label = true)
    (free : label ∉ takenDnsLabels config .none) (other : peer.publicKey ≠ hostKey)
    (valid : (config.withPeer peer).validate = .ok ()) :
    Settled hostKey (config.withPeer peer) := by
  have given : peerDnsLabel (peer.entry config) = label := peerDnsLabel_named named
  have labels : (config.withPeer peer).labels = config.labels ++ [label] := by
    change hostDnsLabel config :: (config.peers ++ [peer.entry config]).map peerDnsLabel = _
    rw [List.map_append, List.map_singleton, given]
    rfl
  constructor
  · exact valid
  · intro member listed
    rcases List.mem_append.mp listed with old | new
    · exact settled.keys member old
    · rw [List.mem_singleton.mp new]
      exact other
  · intro member listed
    rcases List.mem_append.mp listed with old | new
    · exact settled.named member old
    · rw [List.mem_singleton.mp new]
      exact ⟨label, named, fine⟩
  · exact settled.host
  · rw [labels, List.nodup_append']
    refine ⟨settled.apart, List.nodup_singleton label, ?_⟩
    intro old listed new
    rw [List.mem_singleton.mp new] at listed
    exact free (labels_taken listed)
  · intro record listed top inLabels
    rw [labels] at inLabels
    rcases List.mem_append.mp inLabels with old | new
    · exact settled.free record listed top old
    · exact free (List.mem_singleton.mp new ▸ names_taken listed top)

end Peer

/-- The table of the member gets the display name. -/
def giveName (key : PublicKey) (name : String) (peer : PeerConfig) : PeerConfig :=
  if peer.publicKey = key then { peer with name := some name } else peer

theorem giveName_key (key : PublicKey) (name : String) (peer : PeerConfig) :
    (giveName key name peer).publicKey = peer.publicKey := by
  unfold giveName
  split <;> rfl

theorem giveName_dnsName (key : PublicKey) (name : String) (peer : PeerConfig) :
    (giveName key name peer).dnsName = peer.dnsName := by
  unfold giveName
  split <;> rfl

/-- A display name is no label of a member that has a DNS name. -/
theorem giveName_label (settled : Settled hostKey config) (key : PublicKey) (name : String)
    {peer : PeerConfig} (listed : peer ∈ config.peers) :
    peerDnsLabel (giveName key name peer) = peerDnsLabel peer := by
  obtain ⟨label, given, _⟩ := settled.named peer listed
  rw [peerDnsLabel_named given, peerDnsLabel_named ((giveName_dnsName key name peer).trans given)]

theorem settled_renamed (settled : Settled hostKey config) {key : PublicKey} {name : String}
    (valid : ({ config with peers := config.peers.map (giveName key name) } : Config).validate =
      .ok ()) :
    Settled hostKey { config with peers := config.peers.map (giveName key name) } := by
  have labels : ({ config with peers := config.peers.map (giveName key name) } : Config).labels =
      config.labels := by
    change hostDnsLabel config :: (config.peers.map (giveName key name)).map peerDnsLabel = _
    rw [List.map_map]
    refine congrArg (hostDnsLabel config :: ·) (List.map_congr_left (fun peer listed => ?_))
    exact giveName_label settled key name listed
  constructor
  · exact valid
  · intro peer listed
    obtain ⟨old, there, rfl⟩ := List.mem_map.mp listed
    rw [giveName_key]
    exact settled.keys old there
  · intro peer listed
    obtain ⟨old, there, rfl⟩ := List.mem_map.mp listed
    rw [giveName_dnsName]
    exact settled.named old there
  · exact settled.host
  · rw [labels]
    exact settled.apart
  · intro record listed top
    rw [labels]
    exact settled.free record listed top

/-- A record that is added has no label of a member. -/
theorem settled_added (settled : Settled hostKey config) {table : DnsRecordConfig}
    (free : table.under = none → lastLabel table.name ∉ takenDnsLabels config .none)
    (interface : next.interface = config.interface) (peers : next.peers = config.peers)
    (records : next.dnsRecords = config.dnsRecords ++ [table]) (valid : next.validate = .ok ()) :
    Settled hostKey next := by
  have labels : next.labels = config.labels := by
    unfold Config.labels hostDnsLabel
    rw [interface, peers]
  constructor
  · exact valid
  · rw [peers]
    exact settled.keys
  · rw [peers]
    exact settled.named
  · rw [interface]
    exact settled.host
  · rw [labels]
    exact settled.apart
  · rw [labels, records]
    intro record listed top inLabels
    rcases List.mem_append.mp listed with old | new
    · exact settled.free record old top inLabels
    · rw [List.mem_singleton.mp new] at top inLabels
      have undotted := undotted_label (settled.label_fine inLabels)
      refine free top ?_
      rw [lastLabel_undotted undotted]
      exact labels_taken inLabels

/-! ### What the operations ask of the records -/

namespace NameOp

/-- The label that an invitation makes has the length of a label, and its key is not the host's. -/
def Fits (publicKey : PrivateKey → PublicKey) (hostKey : PublicKey) (op : NameOp)
    (config : Config) : Prop :=
  match op with
  | .invite options io => publicKey io.memberPrivateKey ≠ hostKey ∧
      ∀ plan, planInvite io options config = .ok plan →
        plan.dnsName.length ≤ Names.MAX_LABEL_LEN
  | _ => True

/-- Under the label no record has a name that a record directly below the network has in full: a
record that is added under a member, and those under a member that is named. -/
def Clear (op : NameOp) (config : Config) : Prop :=
  match op with
  | .addRecord record _ => ∀ name reference label,
      Names.normalizeCustomDnsName record.name = some name → record.under = some reference →
      labelOf config reference = some label → config.Avoids s!"{name}.{label}"
  | .setPeerDnsName selector input => ∀ target label, findPeer config selector = .ok target →
      Names.normalizeDnsName input false = .ok label →
      ∀ record ∈ config.dnsRecords, record.under = some (.key target.publicKey) →
        config.Avoids s!"{record.name}.{label}"
  | .setHostDnsName input => ∀ label, Names.normalizeDnsName input true = .ok label →
      ∀ record ∈ config.dnsRecords, record.under = some .host →
        config.Avoids s!"{record.name}.{label}"
  | _ => True

end NameOp

theorem unshadowed_added (settled : Settled hostKey config) (unshadowed : Unshadowed config)
    {table : DnsRecordConfig}
    (free : table.under = none → lastLabel table.name ∉ takenDnsLabels config .none)
    (interface : next.interface = config.interface) (peers : next.peers = config.peers)
    (records : next.dnsRecords = config.dnsRecords ++ [table]) :
    Unshadowed next ↔ ∀ reference label, table.under = some reference →
      labelOf config reference = some label → config.Avoids s!"{table.name}.{label}" := by
  have labels : ∀ reference, labelOf next reference = labelOf config reference := by
    intro reference
    cases reference with
    | host =>
        unfold labelOf hostDnsLabel
        rw [interface]
    | key key =>
        unfold labelOf
        rw [peers]
  constructor
  · intro after reference label under given record listed top
    refine after table ?_ reference label under ((labels reference).trans given) record ?_ top
    · rw [records]
      exact List.mem_append_right _ (List.mem_singleton.mpr rfl)
    · rw [records]
      exact List.mem_append_left _ listed
  · intro clear other listed reference label under given record there top
    rw [labels] at given
    rw [records] at listed there
    have isNew : ∀ {some_}, some_ ∈ [table] → some_ = table := List.mem_singleton.mp
    rcases List.mem_append.mp there with old | new
    · rcases List.mem_append.mp listed with oldOther | newOther
      · exact unshadowed other oldOther reference label under given record old top
      · rw [isNew newOther] at under ⊢
        exact clear reference label under given record old top
    · -- the last label of the new name is no member's
      rw [isNew new] at top ⊢
      intro same
      have undotted := undotted_label (settled.label_fine (labelOf_listed given))
      refine free top ?_
      rw [same, lastLabel_under undotted]
      exact labels_taken (labelOf_listed given)

theorem unshadowed_peerNamed (unshadowed : Unshadowed config)
    {target : PeerConfig} (listed : target ∈ config.peers) (label : String) :
    Unshadowed { config with peers := config.peers.map (giveLabel target.publicKey label) } ↔
      ∀ record ∈ config.dnsRecords, record.under = some (.key target.publicKey) →
        config.Avoids s!"{record.name}.{label}" := by
  have labelled : ∀ key, labelOf { config with
      peers := config.peers.map (giveLabel target.publicKey label) } (.key key) =
      (config.peers.find? (fun peer => peer.publicKey = key)).map
        (fun peer => peerDnsLabel (giveLabel target.publicKey label peer)) :=
    labelOf_changed (giveLabel_key target.publicKey label) config.interface
  have named : labelOf { config with
      peers := config.peers.map (giveLabel target.publicKey label) } (.key target.publicKey) =
      some label := by
    rw [labelled]
    cases found : config.peers.find? (fun peer => peer.publicKey = target.publicKey) with
    | none => exact absurd (decide_eq_true rfl) (List.find?_eq_none.mp found target listed)
    | some peer =>
        have chosen := List.find?_some found
        have keyed : peer.publicKey = target.publicKey := of_decide_eq_true chosen
        rw [Option.map_some, giveLabel_label, if_pos keyed]
  constructor
  · intro after record there under
    exact after record there _ label under named
  · intro clear other there reference label' under given
    by_cases isTarget : reference = .key target.publicKey
    · rw [isTarget, named] at given
      cases given
      exact clear other there (isTarget ▸ under)
    · refine unshadowed other there reference label' under ?_
      cases reference with
      | host => exact given
      | key key =>
          rw [labelled] at given
          obtain ⟨peer, found, same⟩ := Option.map_eq_some_iff.mp given
          have chosen := List.find?_some found
          have keyed : peer.publicKey = key := of_decide_eq_true chosen
          have differ : peer.publicKey ≠ target.publicKey :=
            fun equal => isTarget (congrArg MemberRef.key (keyed.symm.trans equal))
          rw [giveLabel_label, if_neg differ] at same
          exact Option.map_eq_some_iff.mpr ⟨peer, found, same⟩

theorem unshadowed_hostNamed (unshadowed : Unshadowed config) (label : String) :
    Unshadowed { config with interface := { config.interface with dnsName := some label } } ↔
      ∀ record ∈ config.dnsRecords, record.under = some .host →
        config.Avoids s!"{record.name}.{label}" := by
  constructor
  · exact fun after record there under => after record there .host label under rfl
  · intro clear other there reference label' under given
    cases reference with
    | host =>
        cases given
        exact clear other there under
    | key key => exact unshadowed other there (.key key) label' under given

/-- A name that a member has already is clear. -/
theorem clear_current (unshadowed : Unshadowed config) {reference : MemberRef} {label : String}
    (given : labelOf config reference = some label) :
    ∀ record ∈ config.dnsRecords, record.under = some reference →
      config.Avoids s!"{record.name}.{label}" :=
  fun record there under => unshadowed record there reference label under given

theorem labelOf_target (settled : Settled hostKey config) {target : PeerConfig}
    (listed : target ∈ config.peers) :
    labelOf config (.key target.publicKey) = some (peerDnsLabel target) := by
  rw [labelOf_key]
  cases found : config.peers.find? (fun peer => peer.publicKey = target.publicKey) with
  | none => exact absurd (decide_eq_true rfl) (List.find?_eq_none.mp found target listed)
  | some peer =>
      have chosen := List.find?_some found
      have keyed : peer.publicKey = target.publicKey := of_decide_eq_true chosen
      have one := List.inj_on_of_nodup_map (ValidConfig.mk config settled.valid).keys_nodup
        (List.mem_of_find?_eq_some found) listed keyed
      rw [one]
      rfl

/-- A new member has no records under it. -/
theorem unshadowed_withPeer (settled : Settled hostKey config) (unshadowed : Unshadowed config)
    (peer : NewPeer) : Unshadowed (config.withPeer peer) := by
  intro other there reference label under given
  refine unshadowed other there reference label under ?_
  cases reference with
  | host => exact given
  | key key =>
      have known := (settled.checked there).2.2 (.key key) under
      obtain ⟨member, listed, keyed⟩ := List.any_eq_true.mp known
      have isSome : (config.peers.find? (fun peer => peer.publicKey = key)).isSome := by
        rw [List.find?_isSome]
        exact ⟨member, listed, keyed⟩
      obtain ⟨first, found⟩ := Option.isSome_iff_exists.mp isSome
      have after : (config.peers ++ [peer.entry config]).find?
          (fun peer => peer.publicKey = key) = some first := by
        rw [List.find?_append, found]
        rfl
      rw [labelOf_key] at given ⊢
      unfold Config.withPeer at given
      rw [after] at given
      rwa [found]

theorem unshadowed_renamed (settled : Settled hostKey config) (unshadowed : Unshadowed config)
    (key : PublicKey) (name : String) :
    Unshadowed { config with peers := config.peers.map (giveName key name) } := by
  intro other there reference label under given
  refine unshadowed other there reference label under ?_
  cases reference with
  | host => exact given
  | key wanted =>
      have labelled : labelOf { config with peers := config.peers.map (giveName key name) }
          (.key wanted) = (config.peers.find? (fun peer => peer.publicKey = wanted)).map
            (fun peer => peerDnsLabel (giveName key name peer)) :=
        labelOf_changed (giveName_key key name) config.interface wanted
      rw [labelled] at given
      obtain ⟨peer, found, same⟩ := Option.map_eq_some_iff.mp given
      rw [giveName_label settled key name (List.mem_of_find?_eq_some found)] at same
      exact Option.map_eq_some_iff.mpr ⟨peer, found, same⟩

/-- The label of an invitation, made unique. -/
theorem planInvite_dnsName {options : InviteOptions} {io : InviteIo} {plan : InvitePlan}
    (planned : planInvite io options config = .ok plan) :
    plan.dnsName ∉ takenDnsLabels config .none ∧
      (plan.dnsName.length ≤ Names.MAX_LABEL_LEN → Names.isDnsLabel plan.dnsName = true) := by
  unfold planInvite at planned
  simp only [bind_ok, refuseIf_ok] at planned
  obtain ⟨_, _, ip, _, _, _, _, _, _, _, _, _, _, _, made⟩ := planned
  cases pure_ok.mp made
  dsimp only
  unfold inviteDnsName
  dsimp only
  refine ⟨uniquify_fresh _ _ _, fun short => ?_⟩
  refine numbered_label ?_ (uniquify_numbered _ _ _) short
  split
  · rename_i label normal
    exact normalizeDnsName_fine normal
  · exact memberLabel_fine ip

/-- A step keeps the names in order; it leaves none shadowed exactly when it is clear. -/
theorem step_settled {op : NameOp} (settled : Settled hostKey config)
    (fits : op.Fits publicKey hostKey config)
    (done : op.step publicKey escaped base64 config = some next) : Settled hostKey next := by
  obtain ⟨valid, effect⟩ := step_effect done
  cases effect with
  | added table name under free interface peers records =>
      exact settled_added settled (fun top => free (under.symm.trans top)) interface peers records
        valid
  | removed interface peers records =>
      exact settled.fewer valid interface (peers ▸ List.Sublist.refl _) records
  | peerKept => exact settled
  | peerNamed target found made free =>
      exact settled_peerNamed settled (normalizeDnsName_fine made) free valid
  | hostKept => exact settled
  | hostNamed made free => exact settled_hostNamed settled (normalizeDnsName_fine made) free valid
  | invited plan planned newKey =>
      obtain ⟨free, fine⟩ := planInvite_dnsName planned
      exact settled_withPeer settled rfl (fine (fits.2 plan planned)) free fits.1 valid
  | renamed key => exact settled_renamed settled valid
  | peerRemoved interface peers records => exact settled.fewer valid interface peers records

theorem step_unshadowed {op : NameOp} (settled : Settled hostKey config)
    (unshadowed : Unshadowed config)
    (done : op.step publicKey escaped base64 config = some next) :
    Unshadowed next ↔ op.Clear config := by
  obtain ⟨_, effect⟩ := step_effect done
  cases effect with
  | added table name under free interface peers records =>
      rw [unshadowed_added settled unshadowed (fun top => free (under.symm.trans top)) interface
        peers records]
      constructor
      · intro clear other reference label made given
        cases name.symm.trans made
        exact clear reference label (under.trans given)
      · intro clear reference label given
        exact clear table.name reference label name (under.symm.trans given)
  | removed interface peers records =>
      exact iff_of_true (unshadowed.fewer settled interface (peers ▸ List.Sublist.refl _) records)
        trivial
  | peerKept target found made same =>
      refine iff_of_true unshadowed (fun other label foundOther madeOther => ?_)
      cases found.symm.trans foundOther
      cases made.symm.trans madeOther
      have listed : target ∈ config.peers :=
        (List.mem_filter.mp (findPeer_ok.mp found ▸ List.mem_singleton.mpr rfl)).1
      have current := labelOf_target settled listed
      rw [peerDnsLabel_named same] at current
      exact clear_current unshadowed current
  | peerNamed target found made free =>
      have listed : target ∈ config.peers :=
        (List.mem_filter.mp (findPeer_ok.mp found ▸ List.mem_singleton.mpr rfl)).1
      have exact_ := unshadowed_peerNamed unshadowed listed
      constructor
      · intro after other label foundOther madeOther
        cases found.symm.trans foundOther
        cases made.symm.trans madeOther
        exact (exact_ _).mp after
      · exact fun clear => (exact_ _).mpr (clear target _ found made)
  | hostKept made same =>
      refine iff_of_true unshadowed (fun label madeOther => ?_)
      cases made.symm.trans madeOther
      have current : labelOf config .host = some _ := rfl
      unfold hostDnsLabel at current
      rw [same] at current
      exact clear_current unshadowed current
  | hostNamed made free =>
      have exact_ := unshadowed_hostNamed unshadowed
      constructor
      · intro after label madeOther
        cases made.symm.trans madeOther
        exact (exact_ _).mp after
      · exact fun clear => (exact_ _).mpr (clear _ made)
  | invited plan planned newKey =>
      exact iff_of_true (unshadowed_withPeer settled unshadowed _) trivial
  | renamed key => exact iff_of_true (unshadowed_renamed settled unshadowed key _) trivial
  | peerRemoved interface peers records =>
      exact iff_of_true (unshadowed.fewer settled interface peers records) trivial


/-- No two names of the zone are the same, whatever the statistics say. -/
def NamesDistinct (hostKey : PublicKey) (config : Config) : Prop :=
  ∀ software now stats, (zoneNames config (buildLedger config hostKey software now stats)).Nodup

theorem namesDistinct_iff (settled : Settled hostKey config) :
    NamesDistinct hostKey config ↔ Unshadowed config := by
  constructor
  · exact fun distinct =>
      settled.zoneNames_nodup.mp (distinct ⟨none, none, []⟩ 0 (fun _ => none))
  · exact fun unshadowed _ _ _ => settled.zoneNames_nodup.mpr unshadowed

/-- In a run whose invitations make labels that fit, all names are distinct all the time exactly when
every operation is clear. -/
theorem names_distinct_iff {ops : List NameOp} {start final : Config}
    (settled : Settled hostKey start) (distinct : NamesDistinct hostKey start)
    (fits : Runs.Along (NameOp.step publicKey escaped base64) (NameOp.Fits publicKey hostKey) ops
      start)
    (reached : Runs.run (NameOp.step publicKey escaped base64) ops start = some final) :
    (∀ done, done <+: ops → ∀ config,
      Runs.run (NameOp.step publicKey escaped base64) done start = some config →
      NamesDistinct hostKey config) ↔
      Runs.Along (NameOp.step publicKey escaped base64) NameOp.Clear ops start := by
  refine Runs.fair_safe_iff_along (Settled hostKey) (NamesDistinct hostKey)
    (fun op config next settled fits done => step_settled settled fits done)
    (fun op config next settled distinct fits done => ?_) settled distinct fits reached
  rw [namesDistinct_iff (step_settled settled fits done)]
  exact step_unshadowed settled ((namesDistinct_iff settled).mp distinct) done

/-- A configuration as `init_host` writes it. -/
def initialHost : Config where
  interface := {
    networkName := some "home"
    address := Ipv4Net.slash24 0x0A4D0501#32
    listenPort := some 51820 }

/-- Without members and records everything is in order. -/
theorem settled_initial (valid : config.validate = .ok ()) (peers : config.peers = [])
    (records : config.dnsRecords = []) (host : config.interface.dnsName = none) :
    Settled hostKey config := by
  constructor
  · exact valid
  · simp [peers]
  · simp [peers]
  · simp [host]
  · simp [Config.labels, peers]
  · simp [records]

theorem unshadowed_initial (records : config.dnsRecords = []) : Unshadowed config := by
  intro other listed
  rw [records] at listed
  exact absurd listed List.not_mem_nil

theorem initialHost_settled : Settled hostKey initialHost :=
  settled_initial (by decide) rfl rfl rfl

theorem initialHost_distinct : NamesDistinct hostKey initialHost :=
  (namesDistinct_iff initialHost_settled).mpr (unshadowed_initial rfl)

/-- A record for the host's own address, under the host or directly below the network. -/
def hostRecord (name : String) (under : Option MemberRef) : NewRecord where
  name := name
  target := .member .host
  under := under
  scheme := none
  port := none

/-- The operations, where nobody is invited. -/
def plainStep : NameOp → Config → Option Config :=
  NameOp.step (fun key => ⟨key.bytes⟩) (fun _ => false) (fun _ => "")

/-- The host gets its name first, and then a record. -/
def namedFirst : List NameOp :=
  [.setHostDnsName "NAS", .addRecord (hostRecord "web" (some .host)) 7,
    .addRecord (hostRecord "web" none) 8]

theorem namedFirst_clear : Runs.Along plainStep NameOp.Clear namedFirst initialHost := by
  have none_ : (plainStep (.setHostDnsName "NAS") initialHost).map Config.dnsRecords = some [] := by
    decide
  refine ⟨?_, fun next happens => ⟨?_, fun _ _ => ⟨?_, fun _ _ => trivial⟩⟩⟩
  · exact fun label _ record listed => absurd listed List.not_mem_nil
  · have records : next.dnsRecords = [] := by
      rw [happens] at none_
      exact Option.some.inj none_
    intro name reference label _ _ _ record listed
    rw [records] at listed
    exact absurd listed List.not_mem_nil
  · intro name reference label _ under
    cases under

theorem names_distinct_namedFirst :
    ∃ final, Runs.run plainStep namedFirst initialHost = some final ∧
      final.dnsRecords.map DnsRecordConfig.name = ["web", "web"] ∧
      ∀ done, done <+: namedFirst → ∀ config,
        Runs.run plainStep done initialHost = some config → NamesDistinct ⟨1⟩ config := by
  have ends : (Runs.run plainStep namedFirst initialHost).map (fun config =>
      config.dnsRecords.map DnsRecordConfig.name) = some ["web", "web"] := by decide
  obtain ⟨final, reached, names⟩ := Option.map_eq_some_iff.mp ends
  have fits : Runs.Along plainStep (NameOp.Fits (fun key => ⟨key.bytes⟩) ⟨1⟩) namedFirst
      initialHost := by
    refine Runs.along_of_forall (fun op listed config => ?_) initialHost
    simp only [namedFirst, List.mem_cons, List.not_mem_nil, or_false] at listed
    rcases listed with rfl | rfl | rfl <;> exact trivial
  exact ⟨final, reached, names,
    (names_distinct_iff initialHost_settled initialHost_distinct fits reached).mpr namedFirst_clear⟩

/-- The record directly below the network comes first, with a label that nobody has yet. -/
def namedLast : List NameOp :=
  [.addRecord (hostRecord "web.nas" none) 7, .addRecord (hostRecord "web" (some .host)) 8,
    .setHostDnsName "NAS"]

theorem names_clash_namedLast :
    ¬ ∀ (ops : List NameOp) (final : Config),
      Runs.run plainStep ops initialHost = some final → NamesDistinct ⟨1⟩ final := by
  intro claimed
  have ends : (Runs.run plainStep namedLast initialHost).map (fun config =>
      zoneNames config (buildLedger config ⟨1⟩ ⟨none, none, []⟩ 0 (fun _ => none))) =
      some ["web.nas", "web.nas", "nas"] := by decide
  obtain ⟨final, reached, names⟩ := Option.map_eq_some_iff.mp ends
  have distinct := claimed namedLast final reached ⟨none, none, []⟩ 0 (fun _ => none)
  rw [names] at distinct
  exact absurd distinct (by decide)

end PeerCove
