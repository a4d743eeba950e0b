/-
Module: PeerCove.Proofs.InviteNames
Layer: Proofs
Purpose: The label that an invitation writes for the new member, against the labels of the zone.
Trusted boundary: none
Main exports: Config.zoneLabels, NewcomerNamed, NewcomerFits, invite_newcomer_iff
-/
import PeerCove.Proofs.LedgerLabels
import PeerCove.Proofs.NameClashes

namespace PeerCove

open Fallible

/-! ### Candidates -/

/-- The candidates of `uniquify` in their order. -/
def candidate (base : String) (oct : Nat) : Nat → String
  | 0 => base
  | 1 => withOctet base oct
  | number + 2 => s!"{withOctet base oct}-{number + 2}"

/-- `uniquify` takes the first candidate that is free. -/
theorem uniquify_first (base : String) (oct : Nat) (taken : List String) :
    ∃ number, uniquify base oct taken = candidate base oct number ∧
      candidate base oct number ∉ taken ∧
      ∀ earlier < number, candidate base oct earlier ∈ taken := by
  by_cases first : base ∉ taken
  · exact ⟨0, uniquify_free first, first, fun earlier less => absurd less (Nat.not_lt_zero _)⟩
  · by_cases second : s!"{base}-{oct}" ∉ taken
    · have octet : uniquify base oct taken = s!"{base}-{oct}" := by
        unfold uniquify
        rw [if_neg first]
        exact if_pos second
      refine ⟨1, octet, second, fun earlier less => ?_⟩
      obtain rfl := Nat.lt_one_iff.mp less
      exact not_not.mp first
    · obtain ⟨label, found, same⟩ := uniquify_search first second
      obtain ⟨number, rfl, free, before⟩ := FreshName.search_first found
      refine ⟨number + 2, same, free, fun earlier less => ?_⟩
      match earlier, less with
      | 0, _ => exact not_not.mp first
      | 1, _ => exact not_not.mp second
      | earlier + 2, less => exact before earlier (Nat.lt_of_add_lt_add_right less)

/-- There is one first free candidate. -/
theorem first_unique {candidates : Nat → String} {taken : List String} {one two : Nat}
    (free : candidates one ∉ taken) (before : ∀ earlier < one, candidates earlier ∈ taken)
    (free' : candidates two ∉ taken) (before' : ∀ earlier < two, candidates earlier ∈ taken) :
    one = two := by
  rcases Nat.lt_trichotomy one two with less | same | greater
  · exact absurd (before' one less) free
  · exact same
  · exact absurd (before two greater) free'

/-! ### One more member -/

section Newcomer

variable {ledger : List LedgerEntry} {newcomer : LedgerEntry}

/-- A member with an address of its own stands between members of the others. -/
theorem sorted_newcomer (apart : ∀ member ∈ ledger, member.ip ≠ newcomer.ip) :
    ∃ front back, front ++ back = ledger.insertionSort (fun one two => one.ip ≤ two.ip) ∧
      (ledger ++ [newcomer]).insertionSort (fun one two => one.ip ≤ two.ip) =
        front ++ newcomer :: back ∧ newcomer ∉ front ++ back := by
  have listed : newcomer ∈ (ledger ++ [newcomer]).insertionSort (fun one two => one.ip ≤ two.ip) :=
    (List.mem_insertionSort _).mpr (List.mem_append_right _ List.mem_cons_self)
  obtain ⟨front, back, split⟩ := List.append_of_mem listed
  have others : (front ++ back).Perm ledger := by
    have perm := List.perm_insertionSort (fun one two : LedgerEntry => one.ip ≤ two.ip)
      (ledger ++ [newcomer])
    rw [split] at perm
    have cons : (newcomer :: (front ++ back)).Perm (newcomer :: ledger) :=
      (List.perm_middle.symm.trans perm).trans (List.perm_append_singleton newcomer ledger)
    exact cons.cons_inv
  have differ : ∀ member ∈ front ++ back, member.ip ≠ newcomer.ip := fun member there =>
    apart member (others.mem_iff.mp there)
  refine ⟨front, back, ?_, split, fun there => differ newcomer there rfl⟩
  let keep : LedgerEntry → Bool := fun member => member.ip ≠ newcomer.ip
  have kept : ∀ members : List LedgerEntry, (∀ member ∈ members, member.ip ≠ newcomer.ip) →
      members.filter keep = members := fun members each =>
    List.filter_eq_self.mpr (fun member there => decide_eq_true (each member there))
  have dropped : ¬ keep newcomer = true := fun kept => of_decide_eq_true kept rfl
  have sorted := filter_sorted keep (ledger ++ [newcomer])
  rw [split, List.filter_append, List.filter_append, List.filter_cons_of_neg dropped,
    List.filter_cons_of_neg dropped, kept ledger apart, ← List.filter_append,
    kept (front ++ back) differ, List.filter_nil, List.append_nil] at sorted
  exact sorted.symm

/-- A member that stands once in a list has one label. -/
theorem label_between {front back : List LedgerEntry} {labels : List String} {one two : String}
    (alone : newcomer ∉ front ++ back)
    (first : (newcomer, one) ∈ (front ++ newcomer :: back).zip labels)
    (second : (newcomer, two) ∈ (front ++ newcomer :: back).zip labels) : one = two := by
  obtain ⟨notFront, notBack⟩ := not_or.mp (fun there => alone (List.mem_append.mpr there))
  induction front generalizing labels with
  | nil =>
      cases labels with
      | nil => cases first
      | cons label labels =>
          have here : ∀ {other : String},
              (newcomer, other) ∈ ([] ++ newcomer :: back).zip (label :: labels) →
                other = label := by
            intro other given
            rcases List.mem_cons.mp given with same | later
            · exact (Prod.mk.inj same).2
            · exact absurd (List.of_mem_zip later).1 notBack
          rw [here first, here second]
  | cons member front ih =>
      cases labels with
      | nil => cases first
      | cons label labels =>
          have different : newcomer ≠ member := fun same =>
            notFront (same ▸ List.mem_cons_self)
          have later : ∀ {other : String},
              (newcomer, other) ∈ (member :: front ++ newcomer :: back).zip (label :: labels) →
                (newcomer, other) ∈ (front ++ newcomer :: back).zip labels := by
            intro other given
            rcases List.mem_cons.mp given with same | later
            · exact absurd (Prod.mk.inj same).1 different
            · exact later
          have fewer : newcomer ∉ front := fun there => notFront (List.mem_cons_of_mem _ there)
          have rest : newcomer ∉ front ++ back := fun there =>
            (List.mem_append.mp there).elim fewer notBack
          exact ih rest (later first) (later second) fewer

/-- A new member with a fixed name that is no label of the others has it as its label. -/
theorem newcomer_label {label : String} (fixed : newcomer.fixedName = some label)
    (apart : ∀ member ∈ ledger, member.ip ≠ newcomer.ip)
    (unused : label ∉ (labelledMembers ledger).map Prod.snd) (other : String) :
    (newcomer, other) ∈ labelledMembers (ledger ++ [newcomer]) ↔ other = label := by
  obtain ⟨front, back, sorted, split, alone⟩ := sorted_newcomer apart
  have asks : fixedPick newcomer = some (uniquify label (newcomer.ip.octet 3)) := by
    rw [fixedPick, fixed]
    rfl
  -- All names that are fixed before it are labels of the others.
  have free : label ∉ (FirstFree.pass fixedPick [] front).2 := by
    intro taken
    rcases FirstFree.mem_taken taken with old | given
    · cases old
    · have later : some label ∈ (FirstFree.pass fixedPick [] (front ++ back)).1 := by
        rw [FirstFree.pass_append]
        exact List.mem_append_left _ given
      obtain ⟨member, there⟩ := FirstFree.mem_zip_pass later
      have labelled := mem_assignLabels (mem_zip_of_fixed there)
      rw [sorted, ← labelledMembers_labels] at labelled
      exact unused labelled
  have given : (newcomer, label) ∈ labelledMembers (ledger ++ [newcomer]) := by
    unfold labelledMembers
    dsimp only
    rw [split]
    refine mem_zip_of_fixed ?_
    rw [FirstFree.pass_append, FirstFree.pass_some _ _ asks, uniquify_free free]
    rw [List.zip_append (FirstFree.pass_length [] front).symm]
    exact List.mem_append_right _ List.mem_cons_self
  constructor
  · intro labelled
    unfold labelledMembers at labelled given
    dsimp only at labelled given
    rw [split] at labelled given
    exact label_between alone labelled given
  · rintro rfl
    exact given

end Newcomer

/-! ### The ledgers before and after -/

/-- The labels that the zone of a configuration gives the host and the members. -/
def Config.zoneLabels (hostKey : PublicKey) (config : Config) : List String :=
  (labelledMembers (buildLedger config hostKey ⟨none, none, []⟩ 0 (fun _ => none))).map Prod.snd

/-- An entry with only what labels are made of. -/
def bareEntry (entry : LedgerEntry) : LedgerEntry where
  name := entry.name
  dnsName := entry.dnsName
  ip := entry.ip
  publicKey := entry.publicKey
  online := false
  isHost := entry.isHost

theorem keepsNames_bareEntry : KeepsNames bareEntry where
  publicKey _ := rfl
  name _ := rfl
  dnsName _ := rfl
  ip _ := rfl
  isHost _ := rfl

theorem labels_bare (ledger : List LedgerEntry) :
    (labelledMembers ledger).map Prod.snd =
      (labelledMembers (ledger.map bareEntry)).map Prod.snd := by
  rw [labelledMembers_map keepsNames_bareEntry, List.map_map]
  rfl

section Ledgers

variable {hostKey : PublicKey} {config : Config} {software : Software} {now : Nat}
  {stats : PublicKey → Option Sighting}

/-- Statistics and later peers make no difference to the labels. -/
theorem zoneLabels_eq {next : Config} (interface : next.interface = config.interface) :
    (labelledMembers (hostEntry next hostKey software ::
      config.peers.map (fun peer => peerEntry next now (stats peer.publicKey) peer))).map Prod.snd =
        config.zoneLabels hostKey := by
  unfold Config.zoneLabels buildLedger
  rw [labels_bare, labels_bare (hostEntry config _ _ :: _), List.map_cons, List.map_cons,
    List.map_map, List.map_map]
  have host : bareEntry (hostEntry next hostKey software) =
      bareEntry (hostEntry config hostKey ⟨none, none, []⟩) := by
    unfold hostEntry
    rw [interface]
    rfl
  rw [host]
  rfl

end Ledgers

/-- The label of a new member is a label, no other member and no record has it, and the zone gives
it to the new member and to nobody else. -/
structure NewcomerNamed (hostKey : PublicKey) (config next : Config) (newcomer : PeerConfig)
    (label : String) : Prop where
  fine : Names.isDnsLabel label = true
  members : ∀ software now stats,
    label ∉ (labelledMembers (buildLedger config hostKey software now stats)).map Prod.snd
  records : ∀ software now stats, ∀ record ∈ config.dnsRecords,
    resolvedName (buildLedger config hostKey software now stats) record ≠ some label
  zone : ∀ software now stats network custom entry,
    (entry ∈ zoneFor network (buildLedger next hostKey software now stats) custom ∧
        entry.publicKey ≠ none ∧ some entry.ip = newcomer.virtualIp) ↔
      entry = memberEntry network
        (peerEntry next now (stats newcomer.publicKey) newcomer, label)

/-- The label that the name of a new member starts from. -/
def newcomerBase (name : String) (ip : Ipv4Addr) : String :=
  match Names.normalizeDnsName name false with
  | .ok label => label
  | .error _ => s!"member-{ip.octet 3}"

/-- The first candidate that is not taken is not too long, and is no label of the zone. -/
def NewcomerFits (hostKey : PublicKey) (config : Config) (options : InviteOptions) : Prop :=
  ∀ ip, inviteIp options config = .ok ip → ∃ number,
    let base := newcomerBase (options.name.getD s!"member-{ip.octet 3}") ip
    candidate base (ip.octet 3) number ∉ takenDnsLabels config .none ∧
      (∀ earlier < number, candidate base (ip.octet 3) earlier ∈ takenDnsLabels config .none) ∧
      (candidate base (ip.octet 3) number).length ≤ Names.MAX_LABEL_LEN ∧
      candidate base (ip.octet 3) number ∉ config.zoneLabels hostKey

/-! ### Invitations -/

variable {publicKey : PrivateKey → PublicKey} {escaped : Char → Bool}
  {base64 : List UInt8 → String} {io : InviteIo} {options : InviteOptions}
  {files left : HostFiles} {config next : Config} {result : InviteResult} {plan : InvitePlan}
  {hostKey : PublicKey}

/-- What an invitation that succeeds has done. -/
theorem invite_done (before : files.hostToml = some config)
    (done : invite publicKey escaped base64 io options files = (.ok result, left)) :
    ∃ plan, planInvite io options config = .ok plan ∧
      Registers escaped io config (plan.peer publicKey io options) ∧
      left.hostToml = some (config.withPeer (plan.peer publicKey io options)) := by
  unfold invite at done
  rw [before] at done
  dsimp only at done
  cases planned : planInvite io options config with
  | error error =>
      rw [planned] at done
      cases done
  | ok plan =>
      rw [planned] at done
      dsimp only at done
      unfold carryOut at done
      have kept : (savePsk io options plan files).2.hostToml = some config :=
        savePsk_hostToml.trans before
      cases saved : savePsk io options plan files with
      | mk written kept_ =>
          rw [saved] at done kept
          cases written with
          | false => cases done
          | true =>
              dsimp only at done
              rcases appendToFile_cases escaped io (plan.peer publicKey io options) kept
                (planInvite_ok planned).1 with
                ⟨registers, _, appended⟩ | ⟨_, _, _, failed⟩ | ⟨_, _, failed⟩
              · rw [appended] at done
                have files_ := (Prod.mk.inj done).2
                rw [← files_]
                exact ⟨plan, rfl, registers, rfl⟩
              · rw [failed] at done
                cases done
              · rw [failed] at done
                cases done

theorem inviteDnsName_eq (config : Config) (name : String) (ip : Ipv4Addr) :
    inviteDnsName config name ip =
      uniquify (newcomerBase name ip) (ip.octet 3) (takenDnsLabels config .none) := by
  unfold inviteDnsName newcomerBase
  cases Names.normalizeDnsName name false with
  | error error => rfl
  | ok label => rfl

/-- The plan is for the address and the name of the options. -/
theorem planInvite_label (planned : planInvite io options config = .ok plan) :
    inviteIp options config = .ok plan.ip ∧
      plan.dnsName = uniquify
        (newcomerBase (options.name.getD s!"member-{plan.ip.octet 3}") plan.ip) (plan.ip.octet 3)
        (takenDnsLabels config .none) := by
  unfold planInvite at planned
  simp only [bind_ok, refuseIf_ok] at planned
  obtain ⟨_, _, ip, found, _, _, _, _, _, _, _, _, _, _, made⟩ := planned
  rw [← pure_ok.mp made]
  refine ⟨found, ?_⟩
  dsimp only
  rw [inviteDnsName_eq]

/-- All members have addresses other than the new one. -/
theorem newcomer_apart {peer : NewPeer} {shown : Config} {software : Software} {now : Nat}
    {stats : PublicKey → Option Sighting} (interface : shown.interface = config.interface)
    (valid : config.validate = .ok ()) (notHost : peer.ip ≠ config.interface.address.addr)
    (unused : peer.ip ∉ usedIps config) :
    ∀ member ∈ hostEntry shown hostKey software ::
      config.peers.map (fun peer => peerEntry shown now (stats peer.publicKey) peer),
      member.ip ≠ peer.ip := by
  intro member listed
  rcases List.mem_cons.mp listed with rfl | listed
  · change shown.interface.address.addr ≠ peer.ip
    rw [interface]
    exact notHost.symm
  · obtain ⟨other, there, rfl⟩ := List.mem_map.mp listed
    have checked := (Config.validate_ok.mp valid).2.1
    rw [forM_ok] at checked
    obtain ⟨i, inBounds, same⟩ := List.mem_iff_getElem.mp there
    have fine := checked (other, i) (List.mem_zipIdx_iff_getElem?.mpr (by
      rw [List.getElem?_eq_getElem inBounds, same]))
    unfold checkPeer at fine
    simp only [bind_ok, refuseIf_ok] at fine
    obtain ⟨_, filled, _⟩ := fine
    cases ips : other.allowedIps with
    | nil => exact absurd ips filled
    | cons first rest =>
        have address : (peerEntry shown now (stats other.publicKey) other).ip = first.addr := by
          change other.virtualIp.getD 0#32 = first.addr
          rw [PeerConfig.virtualIp, ips]
          rfl
        rw [address]
        intro equal
        rw [← equal] at unused
        refine unused (List.mem_cons_of_mem _ (List.mem_flatMap.mpr ⟨other, there, ?_⟩))
        rw [ips, List.map_cons]
        exact List.mem_cons_self

/-- A label is no record's name when it is not taken. -/
theorem label_noRecord {ledger : List LedgerEntry} {label : String}
    (fine : Names.isDnsLabel label = true) (free : label ∉ takenDnsLabels config .none)
    {record : DnsRecordConfig} (listed : record ∈ config.dnsRecords) :
    resolvedName ledger record ≠ some label := by
  intro resolved
  unfold resolvedName at resolved
  cases under : record.under with
  | none =>
      rw [under] at resolved
      rw [← Option.some.inj resolved] at free
      exact free (names_taken listed under)
  | some parent =>
      rw [under] at resolved
      obtain ⟨member, _, same⟩ := Option.map_eq_some_iff.mp resolved
      have undotted := undotted_label fine
      unfold Undotted at undotted
      rw [← same, underLabel_toList] at undotted
      exact undotted (List.mem_append_right _ List.mem_cons_self)

/-- A label of its own that no other member has is the label in the zone. -/
theorem newcomer_zone {peer : NewPeer} {label : String} (valid : config.validate = .ok ())
    (notHost : peer.ip ≠ config.interface.address.addr) (unused : peer.ip ∉ usedIps config)
    (named : peer.dnsName = some label) (fine : Names.isDnsLabel label = true)
    (apart : label ∉ config.zoneLabels hostKey) (software : Software) (now : Nat)
    (stats : PublicKey → Option Sighting) (network : String) (custom : List DnsRecord)
    (entry : ZoneEntry) :
    (entry ∈ zoneFor network
        (buildLedger (config.withPeer peer) hostKey software now stats) custom ∧
        entry.publicKey ≠ none ∧ some entry.ip = (peer.entry config).virtualIp) ↔
      entry = memberEntry network (peerEntry (config.withPeer peer) now
        (stats (peer.entry config).publicKey) (peer.entry config), label) := by
  have interface : (config.withPeer peer).interface = config.interface := rfl
  have others : ∀ member ∈ hostEntry (config.withPeer peer) hostKey software ::
      config.peers.map (fun other =>
        peerEntry (config.withPeer peer) now (stats other.publicKey) other),
      member.ip ≠ peer.ip := newcomer_apart interface valid notHost unused
  have ledger : buildLedger (config.withPeer peer) hostKey software now stats =
      (hostEntry (config.withPeer peer) hostKey software :: config.peers.map (fun other =>
        peerEntry (config.withPeer peer) now (stats other.publicKey) other)) ++
        [peerEntry (config.withPeer peer) now (stats (peer.entry config).publicKey)
          (peer.entry config)] := by
    unfold buildLedger
    have peers : (config.withPeer peer).peers = config.peers ++ [peer.entry config] := rfl
    rw [peers, List.map_append]
    rfl
  have fixed : (peerEntry (config.withPeer peer) now (stats (peer.entry config).publicKey)
      (peer.entry config)).fixedName = some label := by
    unfold LedgerEntry.fixedName
    change peer.dnsName.filter Names.isDnsLabel = some label
    rw [named, Option.filter_some, if_pos fine]
  have labels : (labelledMembers (hostEntry (config.withPeer peer) hostKey software ::
      config.peers.map (fun other =>
        peerEntry (config.withPeer peer) now (stats other.publicKey) other))).map Prod.snd =
      config.zoneLabels hostKey := zoneLabels_eq interface
  rw [← labels] at apart
  have alone := newcomer_label fixed others apart
  rw [ledger]
  constructor
  · rintro ⟨listed, keyed, address⟩
    unfold zoneFor at listed
    rcases List.mem_append.mp listed with isMember | isCustom
    · obtain ⟨⟨member, given⟩, labelled, rfl⟩ := List.mem_map.mp isMember
      have place : member.ip = peer.ip := Option.some.inj address
      rcases List.mem_append.mp (mem_labelledMembers labelled).1 with old | new
      · exact absurd place (others member old)
      · obtain rfl := List.mem_singleton.mp new
        rw [(alone given).mp labelled]
    · obtain ⟨record, _, rfl⟩ := List.mem_map.mp isCustom
      exact absurd rfl keyed
  · rintro rfl
    exact ⟨memberEntry_listed ((alone label).mpr rfl), Option.some_ne_none _, rfl⟩

/-- The label that an invitation writes is a label, is no other's, and is what the zone gives the new
member, exactly when the first candidate that is not taken is short enough and no label of the
zone. -/
theorem invite_newcomer_iff (before : files.hostToml = some config)
    (done : invite publicKey escaped base64 io options files = (.ok result, left))
    (after : left.hostToml = some next) (hostKey : PublicKey) :
    (∃ newcomer label, next.peers = config.peers ++ [newcomer] ∧ newcomer.dnsName = some label ∧
        NewcomerNamed hostKey config next newcomer label) ↔
      NewcomerFits hostKey config options := by
  obtain ⟨plan, planned, registers, wrote⟩ := invite_done before done
  obtain rfl := Option.some.inj (wrote.symm.trans after)
  obtain ⟨found, made⟩ := planInvite_label planned
  obtain ⟨free, short⟩ := planInvite_dnsName planned
  obtain ⟨number, same, first, earlier⟩ := uniquify_first
    (newcomerBase (options.name.getD s!"member-{plan.ip.octet 3}") plan.ip) (plan.ip.octet 3)
    (takenDnsLabels config .none)
  have label := made.trans same
  constructor
  · rintro ⟨newcomer, written, peers, named, proper⟩ ip found'
    obtain rfl := Except.ok.inj (found.symm.trans found')
    have entry : newcomer = (plan.peer publicKey io options).entry config :=
      (List.singleton_injective (List.append_cancel_left peers)).symm
    rw [entry] at named
    obtain rfl : plan.dnsName = written := Option.some.inj named
    refine ⟨number, first, earlier, ?_, ?_⟩
    · rw [← label, ← String.length_toList]
      exact (Names.isDnsLabel_iff.mp proper.fine).length_le
    · rw [← label]
      exact proper.members _ _ _
  · intro fits
    obtain ⟨other, free', earlier', limit, apart⟩ := fits plan.ip found
    obtain rfl := first_unique first earlier free' earlier'
    rw [← label] at limit apart
    have fine := short limit
    refine ⟨_, plan.dnsName, rfl, rfl, fine, ?_, fun _ _ _ _ listed =>
      label_noRecord fine free listed, ?_⟩
    · intro software now stats listed
      have labels : (labelledMembers (buildLedger config hostKey software now stats)).map Prod.snd =
          config.zoneLabels hostKey := zoneLabels_eq rfl
      rw [labels] at listed
      exact apart listed
    · exact newcomer_zone (planInvite_ok planned).1 registers.notHost registers.unused rfl fine apart

/-- An invitation under a name. -/
def inviteAs (name : String) : InviteOptions where
  name := some name
  extraEndpoints := [{ ip := 0x0A630001#32, port := 51820 }]

/-- A host with one member from before the DNS names were fixed. -/
def legacyHost (name : String) : Config where
  interface := { address := Ipv4Net.slash24 0x0A630001#32 }
  peers := [{
    name := some name
    publicKey := ⟨9⟩
    allowedIps := [Ipv4Net.host 0x0A630002#32] }]

def plainInvite (options : InviteOptions) (config : Config) :
    Except String InviteResult × HostFiles :=
  invite (fun key => ⟨key.bytes⟩) (fun _ => false) Base64Url.encode homeIo options
    { hostToml := some config, psk := fun _ => none }

/-- A run of an invitation with what it writes. -/
theorem plainInvite_written {options : InviteOptions} {names : List (Option String)}
    (succeeds : (plainInvite options config).1.toOption.isSome = true)
    (writes : (plainInvite options config).2.hostToml.map (fun next =>
      next.peers.map PeerConfig.dnsName) = some names) :
    ∃ result left next, plainInvite options config = (.ok result, left) ∧
      left.hostToml = some next ∧ next.peers.map PeerConfig.dnsName = names := by
  obtain ⟨next, written, same⟩ := Option.map_eq_some_iff.mp writes
  cases outcome : plainInvite options config with
  | mk first left =>
      rw [outcome] at succeeds written
      cases first with
      | error error => cases succeeds
      | ok result => exact ⟨result, left, next, rfl, written, same⟩

/-- Bob gets his name beside a member without a fixed one. -/
theorem invite_newcomer_bob : ∃ next newcomer label,
    (plainInvite (inviteAs "bob") (legacyHost "alice")).2.hostToml = some next ∧
      newcomer ∈ next.peers ∧ newcomer.dnsName = some label ∧
      NewcomerNamed ⟨4⟩ (legacyHost "alice") next newcomer label := by
  have succeeds : (plainInvite (inviteAs "bob") (legacyHost "alice")).1.toOption.isSome = true := by
    decide
  have writes : (plainInvite (inviteAs "bob") (legacyHost "alice")).2.hostToml.map (fun next =>
      next.peers.map PeerConfig.dnsName) = some [none, some "bob"] := by decide
  obtain ⟨result, left, next, done, after, _⟩ := plainInvite_written succeeds writes
  have fits : NewcomerFits ⟨4⟩ (legacyHost "alice") (inviteAs "bob") := by
    intro ip found
    have address : inviteIp (inviteAs "bob") (legacyHost "alice") = .ok 0x0A630003#32 := by
      decide
    obtain rfl := Except.ok.inj (address.symm.trans found)
    exact ⟨0, by decide, fun earlier less => absurd less (Nat.not_lt_zero _),
      by decide, by decide⟩
  obtain ⟨newcomer, label, peers, named, proper⟩ :=
    (invite_newcomer_iff rfl done after ⟨4⟩).mpr fits
  refine ⟨next, newcomer, label, ?_, ?_, named, proper⟩
  · rw [done, after]
  · rw [peers]
    exact List.mem_append_right _ List.mem_cons_self

/-- A name of 63 letters that another member has in upper case gets a label of 65 characters. -/
theorem invite_longLabel : ¬ ∀ (options : InviteOptions) (config next : Config)
    (result : InviteResult) (left : HostFiles),
    plainInvite options config = (.ok result, left) → left.hostToml = some next →
      ∃ newcomer label, next.peers = config.peers ++ [newcomer] ∧ newcomer.dnsName = some label ∧
        NewcomerNamed ⟨4⟩ config next newcomer label := by
  intro claimed
  have succeeds : (plainInvite (inviteAs (String.ofList (List.replicate 63 'a')))
      (legacyHost (String.ofList (List.replicate 63 'A')))).1.toOption.isSome = true := by
    decide +kernel
  have writes : (plainInvite (inviteAs (String.ofList (List.replicate 63 'a')))
      (legacyHost (String.ofList (List.replicate 63 'A')))).2.hostToml.map (fun next =>
        next.peers.map PeerConfig.dnsName) =
      some [none, some (String.ofList (List.replicate 63 'a' ++ ['-', '3']))] := by
    decide +kernel
  obtain ⟨result, left, next, done, after, names⟩ := plainInvite_written succeeds writes
  obtain ⟨newcomer, label, peers, named, proper⟩ := claimed _ _ next result left done after
  rw [peers, List.map_append, List.map_singleton, named] at names
  have same := List.append_cancel_left names
  obtain rfl := Option.some.inj (List.singleton_injective same)
  have fine := proper.fine
  exact absurd fine (by decide)

end PeerCove
