/-
Module: PeerCove.Proofs.EditFrames
Layer: Proofs
Purpose: What each edit of `host.toml` leaves as it is: the entry of a member, the admin flags, the
  section `[interface]`, and the access control but for references to what the edit removes.
Trusted boundary: none
Main exports: OnlyReferencesRemoved, Framed, Allowed, SameButAdmin, allowed_editPeer,
  allowed_removal, allowed_removeRecord, allowed_settings
-/
import PeerCove.Ops.DnsRecords
import PeerCove.Ops.HostPrograms
import PeerCove.Proofs.PeerRemoval

namespace PeerCove

open Fallible

/-! ### References to what an edit removes -/

/-- A peer had the key, and none has it any more. -/
def removedKey (before after : Config) (key : PublicKey) : Bool :=
  before.peers.any (fun peer => peer.publicKey = key) &&
    after.peers.all (fun peer => peer.publicKey ≠ key)

/-- The address of a peer that is gone. -/
def removedAddress (before after : Config) (ip : Ipv4Addr) : Bool :=
  before.peers.any (fun peer =>
    peer.virtualIp = some ip && removedKey before after peer.publicKey)

def removedRecordId (before after : Config) (id : String) : Bool :=
  before.dnsRecords.any (fun record => record.id = some id) &&
    after.dnsRecords.all (fun record => record.id ≠ some id)

/-- The group without the members that are gone. -/
def AclGroup.strip (gone : PublicKey → Bool) (group : AclGroup) : AclGroup :=
  { group with members := group.members.filter (fun member => !gone member) }

/-- All members of the group are gone, and it had some. -/
def AclGroup.emptied (gone : PublicKey → Bool) (group : AclGroup) : Bool :=
  group.members ≠ [] && (group.strip gone).members = []

/-- One end of a rule is a member, a record or a whole group that is gone. -/
def AclTarget.isGone (before after : Config) : AclTarget → Bool
  | .member key => removedKey before after key
  | .service id => removedRecordId before after id
  | .group id => before.acl.groups.any (fun group =>
      group.id = id && group.emptied (removedKey before after))
  | .any _ => false
  | .subnet _ => false

/-- The access control is the same but for references to members and records that are gone. -/
structure OnlyReferencesRemoved (before after : Config) : Prop where
  default : after.acl.default = before.acl.default
  deny : ∀ pair, pair ∈ after.acl.normalizedDeny ↔ pair ∈ before.acl.normalizedDeny ∧
    removedAddress before after pair.1 = false ∧ removedAddress before after pair.2 = false
  groups : after.acl.groups =
    (before.acl.groups.filter (fun group => !group.emptied (removedKey before after))).map
      (AclGroup.strip (removedKey before after))
  rules : after.acl.rules = before.acl.rules.filter (fun rule =>
    !rule.source.isGone before after && !rule.destination.isGone before after)

/-! ### The frame of an edit -/

/-- Admin flags, the entry of one member, and the section `[interface]` but for three fields. -/
structure Framed (memberIp : Ipv4Addr) (before after : Config) : Prop where
  admins : ∀ peer ∈ before.peers, ∀ other ∈ after.peers, other.publicKey = peer.publicKey →
    other.admin = peer.admin
  own : after.peers.filter (Selector.ip memberIp).matches =
    before.peers.filter (Selector.ip memberIp).matches
  interface : after.interface = { before.interface with
    requireInviteApproval := after.interface.requireInviteApproval
    memberInvites := after.interface.memberInvites
    networkDisplayName := after.interface.networkDisplayName }

/-- What an edit on behalf of a member may do.  `policy` says that it is about the policy. -/
structure Allowed (memberIp : Ipv4Addr) (policy : Bool) (before after : Config) : Prop where
  framed : Framed memberIp before after
  references : policy = false → OnlyReferencesRemoved before after

section

variable {before after : Config}

/-- No key is gone when every peer has a counterpart. -/
theorem removedKey_none
    (keys : ∀ peer ∈ before.peers, ∃ other ∈ after.peers, other.publicKey = peer.publicKey) :
    removedKey before after = fun _ => false := by
  funext key
  rw [removedKey, Bool.and_eq_false_iff]
  by_cases had : before.peers.any (fun peer => peer.publicKey = key) = true
  · right
    rcases List.any_eq_true.mp had with ⟨peer, listed, same⟩
    rcases keys peer listed with ⟨other, there, sameToo⟩
    rw [List.all_eq_false]
    exact ⟨other, there, by simp [sameToo, of_decide_eq_true same]⟩
  · exact Or.inl (Bool.eq_false_iff.mpr had)

theorem AclGroup.strip_none (group : AclGroup) : group.strip (fun _ => false) = group := by
  simp [AclGroup.strip]

theorem AclGroup.emptied_none (group : AclGroup) : group.emptied (fun _ => false) = false := by
  simp [AclGroup.emptied, AclGroup.strip_none]

/-- An edit that keeps every key removes references in rules at most. -/
theorem OnlyReferencesRemoved.of_keys
    (keys : ∀ peer ∈ before.peers, ∃ other ∈ after.peers, other.publicKey = peer.publicKey)
    (default : after.acl.default = before.acl.default) (deny : after.acl.deny = before.acl.deny)
    (groups : after.acl.groups = before.acl.groups)
    (rules : after.acl.rules = before.acl.rules.filter (fun rule =>
      !rule.source.isGone before after && !rule.destination.isGone before after)) :
    OnlyReferencesRemoved before after := by
  have noKey := removedKey_none keys
  have noAddress (ip : Ipv4Addr) : removedAddress before after ip = false := by
    rw [removedAddress, noKey]
    simp
  refine ⟨default, ?_, ?_, rules⟩
  · intro pair
    simp only [AclConfig.normalizedDeny, deny, noAddress, and_self, and_true]
  · rw [groups, noKey]
    simp only [AclGroup.emptied_none, Bool.not_false, List.filter_true]
    exact (List.map_id' _).symm.trans (List.map_congr_left (fun group _ => group.strip_none.symm))

/-- An edit that keeps every key and every record leaves nothing to refer to. -/
theorem OnlyReferencesRemoved.of_same (acl : after.acl = before.acl)
    (keys : ∀ peer ∈ before.peers, ∃ other ∈ after.peers, other.publicKey = peer.publicKey)
    (ids : ∀ record ∈ before.dnsRecords, ∀ id, record.id = some id →
      ∃ other ∈ after.dnsRecords, other.id = some id) :
    OnlyReferencesRemoved before after := by
  have noId (id : String) : removedRecordId before after id = false := by
    rw [removedRecordId, Bool.and_eq_false_iff]
    by_cases had : before.dnsRecords.any (fun record => record.id = some id) = true
    · right
      rcases List.any_eq_true.mp had with ⟨record, listed, same⟩
      rcases ids record listed id (of_decide_eq_true same) with ⟨other, there, sameToo⟩
      rw [List.all_eq_false]
      exact ⟨other, there, by simp [sameToo]⟩
    · exact Or.inl (Bool.eq_false_iff.mpr had)
  have stays (end_ : AclTarget) : end_.isGone before after = false := by
    cases end_ with
    | any value => rfl
    | subnet subnet => rfl
    | member key => rw [AclTarget.isGone, removedKey_none keys]
    | service id => exact noId id
    | group id =>
        rw [AclTarget.isGone, removedKey_none keys]
        simp [AclGroup.emptied_none]
  apply OnlyReferencesRemoved.of_keys keys
  · rw [acl]
  · rw [acl]
  · rw [acl]
  · rw [acl]
    simp [stays]

/-- Peers and `[interface]` are as before. -/
theorem Framed.of_same {memberIp : Ipv4Addr}
    (once : (before.peers.map PeerConfig.publicKey).Nodup) (peers : after.peers = before.peers)
    (interface : after.interface = before.interface) : Framed memberIp before after := by
  constructor
  · intro peer listed other there same
    rw [peers] at there
    rw [List.inj_on_of_nodup_map once there listed same]
  · rw [peers]
  · rw [interface]

/-- The peers of one key are changed, and the member is not among them. -/
theorem Framed.of_change {memberIp : Ipv4Addr} {key : PublicKey}
    {change : PeerConfig → PeerConfig}
    (once : (before.peers.map PeerConfig.publicKey).Nodup)
    (keeps : ∀ peer, (change peer).publicKey = peer.publicKey ∧
      (change peer).admin = peer.admin ∧ (change peer).virtualIp = peer.virtualIp)
    (apart : ∀ peer ∈ before.peers, peer.virtualIp = some memberIp → peer.publicKey ≠ key)
    (peers : after.peers =
      before.peers.map (fun peer => if peer.publicKey = key then change peer else peer))
    (interface : after.interface = before.interface) : Framed memberIp before after := by
  have kept (peer : PeerConfig) :
      (if peer.publicKey = key then change peer else peer).publicKey = peer.publicKey ∧
      (if peer.publicKey = key then change peer else peer).admin = peer.admin ∧
      (if peer.publicKey = key then change peer else peer).virtualIp = peer.virtualIp := by
    split
    · exact keeps peer
    · exact ⟨rfl, rfl, rfl⟩
  constructor
  · intro peer listed other there same
    rw [peers] at there
    rcases List.mem_map.mp there with ⟨source, member, rfl⟩
    rw [(kept source).1] at same
    rw [(kept source).2.1, List.inj_on_of_nodup_map once member listed same]
  · rw [peers, List.filter_map]
    have sameTest : (Selector.ip memberIp).matches ∘
        (fun peer => if peer.publicKey = key then change peer else peer) =
        (Selector.ip memberIp).matches := by
      funext peer
      simp only [Function.comp_apply, Selector.matches, (kept peer).2.2]
    rw [sameTest]
    conv_rhs => rw [← List.map_id (before.peers.filter (Selector.ip memberIp).matches)]
    apply List.map_congr_left
    intro peer selected
    rcases List.mem_filter.mp selected with ⟨listed, own⟩
    exact if_neg (apart peer listed (of_decide_eq_true own))
  · rw [interface]

/-- The peers of a key are gone, and the member is not among them. -/
theorem Framed.of_removal {memberIp : Ipv4Addr} {key : PublicKey}
    (once : (before.peers.map PeerConfig.publicKey).Nodup)
    (apart : ∀ peer ∈ before.peers, peer.virtualIp = some memberIp → peer.publicKey ≠ key)
    (peers : after.peers = before.peers.filter (fun peer => peer.publicKey ≠ key))
    (interface : after.interface = before.interface) : Framed memberIp before after := by
  constructor
  · intro peer listed other there same
    rw [peers] at there
    have member := (List.mem_filter.mp there).1
    rw [List.inj_on_of_nodup_map once member listed same]
  · rw [peers, List.filter_filter]
    apply List.filter_congr
    intro peer listed
    by_cases own : peer.virtualIp = some memberIp
    · simp [Selector.matches, own, apart peer listed own]
    · simp [Selector.matches, own]
  · rw [interface]

end

/-! ### Files that differ in the admin flags -/

def Config.withoutAdmins (config : Config) : Config :=
  { config with peers := config.peers.map (fun peer => { peer with admin := false }) }

/-- The owner of the host may have granted and revoked in between. -/
def SameButAdmin (one two : Config) : Prop :=
  one.withoutAdmins = two.withoutAdmins

namespace SameButAdmin

variable {one two three : Config}

theorem symm (same : SameButAdmin one two) : SameButAdmin two one := Eq.symm same

theorem trans (same : SameButAdmin one two) (more : SameButAdmin two three) :
    SameButAdmin one three :=
  Eq.trans same more

theorem interface (same : SameButAdmin one two) : one.interface = two.interface := by
  have parts := congrArg Config.interface same
  exact parts

theorem acl (same : SameButAdmin one two) : one.acl = two.acl := by
  have parts := congrArg Config.acl same
  exact parts

theorem dnsRecords (same : SameButAdmin one two) : one.dnsRecords = two.dnsRecords := by
  have parts := congrArg Config.dnsRecords same
  exact parts

theorem keys (same : SameButAdmin one two) :
    one.peers.map PeerConfig.publicKey = two.peers.map PeerConfig.publicKey := by
  have parts := congrArg (fun config => config.peers.map PeerConfig.publicKey) same
  simpa only [Config.withoutAdmins, List.map_map, Function.comp_def] using parts

/-- Every peer is there with its key and its address. -/
theorem peer (same : SameButAdmin one two) {peer : PeerConfig} (listed : peer ∈ one.peers) :
    ∃ other ∈ two.peers, other.publicKey = peer.publicKey ∧
      other.virtualIp = peer.virtualIp := by
  have parts : one.withoutAdmins.peers = two.withoutAdmins.peers := congrArg Config.peers same
  have there : { peer with admin := false } ∈ two.withoutAdmins.peers := by
    rw [← parts]
    exact List.mem_map_of_mem listed
  rcases List.mem_map.mp there with ⟨other, member, equal⟩
  refine ⟨other, member, ?_, ?_⟩
  · have keys := congrArg PeerConfig.publicKey equal
    exact keys
  · have addresses := congrArg PeerConfig.virtualIp equal
    exact addresses

theorem hostEndpoint_withoutAdmins (config : Config) :
    config.withoutAdmins.hostEndpoint = config.hostEndpoint := by
  unfold Config.hostEndpoint Config.withoutAdmins
  rcases config.peers with _ | ⟨peer, _ | ⟨other, rest⟩⟩
  · rfl
  · rfl
  · rfl

theorem hostEndpoint (same : SameButAdmin one two) : one.hostEndpoint = two.hostEndpoint := by
  rw [← hostEndpoint_withoutAdmins one, ← hostEndpoint_withoutAdmins two]
  exact congrArg Config.hostEndpoint same

theorem settings (same : SameButAdmin one two) : one.settings = two.settings := by
  unfold Config.settings
  rw [same.interface, same.hostEndpoint]

/-- The same peer has the address. -/
theorem findPeer (same : SameButAdmin one two) {ip : Ipv4Addr} {target : PeerConfig}
    (found : findPeer one (.ip ip) = .ok target) :
    ∃ other, PeerCove.findPeer two (.ip ip) = .ok other ∧ other.publicKey = target.publicKey ∧
      other.virtualIp = target.virtualIp := by
  let blind := fun (peer : PeerConfig) => { peer with admin := false }
  have selected (config : Config) :
      config.withoutAdmins.peers.filter (Selector.ip ip).matches =
        (config.peers.filter (Selector.ip ip).matches).map blind :=
    List.filter_map
  have equal : one.withoutAdmins.peers = two.withoutAdmins.peers := congrArg Config.peers same
  have both := selected one
  rw [equal, selected two, findPeer_ok.mp found] at both
  rcases List.map_eq_singleton_iff.mp both with ⟨other, only, alike⟩
  have keys := congrArg PeerConfig.publicKey alike
  have addresses := congrArg PeerConfig.virtualIp alike
  exact ⟨other, findPeer_ok.mpr only, keys, addresses⟩

/-- The flag of one key does not count. -/
theorem of_grant {key : PublicKey} {allowed : Bool} {doc : Config} :
    SameButAdmin doc { doc with peers := doc.peers.map (fun peer =>
      if peer.publicKey = key then { peer with admin := allowed } else peer) } := by
  unfold SameButAdmin Config.withoutAdmins
  simp only [List.map_map]
  congr 1
  apply List.map_congr_left
  intro peer _
  simp only [Function.comp_apply]
  split
  · rfl
  · rfl

end SameButAdmin

/-! ### Edits of peers -/

theorem editPeer_ok {key : PublicKey} {change : PeerConfig → PeerConfig} {doc written : Config}
    (done : editPeer key change doc = .ok written) :
    written.validate = .ok () ∧ written = { doc with peers := doc.peers.map (fun peer =>
      if peer.publicKey = key then change peer else peer) } := by
  unfold editPeer at done
  rcases bind_ok.mp done with ⟨⟨⟩, _, done⟩
  rcases bind_ok.mp done with ⟨⟨⟩, _, done⟩
  rcases writeValidated_ok.mp done with ⟨valid, same⟩
  exact ⟨same ▸ valid, same.symm⟩

theorem editLocated_ok {missing : String} {key : PublicKey} {change : PeerConfig → PeerConfig}
    {doc written : Config} (done : HostProgram.editLocated missing key change doc = .ok written) :
    editPeer key change doc = .ok written := by
  unfold HostProgram.editLocated at done
  rcases bind_ok.mp done with ⟨⟨⟩, _, done⟩
  rcases bind_ok.mp done with ⟨⟨⟩, _, done⟩
  exact done

/-- The first table of a key is the only one. -/
theorem changePeer_eq_map {key : PublicKey} {change : PeerConfig → PeerConfig}
    {peers : List PeerConfig} (once : (peers.map PeerConfig.publicKey).Nodup) :
    HostProgram.changePeer key change peers =
      peers.map (fun peer => if peer.publicKey = key then change peer else peer) := by
  induction peers with
  | nil => rfl
  | cons peer rest ih =>
      rw [List.map_cons, List.nodup_cons] at once
      rw [HostProgram.changePeer, List.map_cons]
      by_cases same : peer.publicKey = key
      · rw [if_pos same, if_pos same]
        congr 1
        conv_lhs => rw [← List.map_id rest]
        apply List.map_congr_left
        intro other member
        have differs : other.publicKey ≠ key := by
          intro again
          exact once.1 (same.trans again.symm ▸ List.mem_map_of_mem member)
        rw [if_neg differs]
        rfl
      · rw [if_neg same, if_neg same, ih once.2]

section

variable {memberIp : Ipv4Addr} {policy : Bool} {doc written : Config}

/-- Changing the peers of a key that is not the member's. -/
theorem allowed_change {key : PublicKey} {change : PeerConfig → PeerConfig}
    (once : (doc.peers.map PeerConfig.publicKey).Nodup)
    (keeps : ∀ peer, (change peer).publicKey = peer.publicKey ∧
      (change peer).admin = peer.admin ∧ (change peer).virtualIp = peer.virtualIp)
    (apart : ∀ peer ∈ doc.peers, peer.virtualIp = some memberIp → peer.publicKey ≠ key) :
    Allowed memberIp policy doc { doc with peers := doc.peers.map (fun peer =>
      if peer.publicKey = key then change peer else peer) } := by
  refine ⟨Framed.of_change once keeps apart rfl rfl, fun _ => ?_⟩
  refine OnlyReferencesRemoved.of_same ?_ ?_ ?_
  · rfl
  · intro peer listed
    refine ⟨_, List.mem_map_of_mem listed, ?_⟩
    split
    · exact (keeps peer).1
    · rfl
  · intro record listed id same
    exact ⟨record, listed, same⟩

/-- Exchanging the access control, for a request about the policy. -/
theorem allowed_acl (acl : AclConfig) (once : (doc.peers.map PeerConfig.publicKey).Nodup) :
    Allowed memberIp true doc { doc with acl := acl } :=
  ⟨Framed.of_same once rfl rfl, nofun⟩

/-! ### Edits of records -/

theorem exists_fillIds (index : Nat) (used : List String) {records : List DnsRecordConfig}
    {record : DnsRecordConfig} {id : String} (listed : record ∈ records)
    (same : record.id = some id) :
    ∃ other ∈ fillIds index used records, other.id = some id := by
  induction records generalizing index used with
  | nil => cases listed
  | cons first rest ih =>
      rw [fillIds]
      rcases List.mem_cons.mp listed with rfl | later
      · rw [same]
        exact ⟨record, List.mem_cons_self, same⟩
      · cases first.id with
        | some old =>
            rcases ih (index + 1) used later with ⟨other, member, found⟩
            exact ⟨other, List.mem_cons_of_mem _ member, found⟩
        | none =>
            rcases ih (index + 1) (serialId used index :: used) later with ⟨other, member, found⟩
            exact ⟨other, List.mem_cons_of_mem _ member, found⟩

theorem exists_changeRecord {name : String} {under : Option MemberRef}
    {change : DnsRecordConfig → DnsRecordConfig} (keeps : ∀ record, (change record).id = record.id)
    {records : List DnsRecordConfig} {record : DnsRecordConfig} {id : String}
    (listed : record ∈ records) (same : record.id = some id) :
    ∃ other ∈ changeRecord name under change records, other.id = some id := by
  induction records with
  | nil => cases listed
  | cons first rest ih =>
      rw [changeRecord]
      split
      · rcases List.mem_cons.mp listed with rfl | later
        · exact ⟨_, List.mem_cons_self, (keeps record).trans same⟩
        · exact ⟨record, List.mem_cons_of_mem _ later, same⟩
      · rcases List.mem_cons.mp listed with rfl | later
        · exact ⟨record, List.mem_cons_self, same⟩
        · rcases ih later with ⟨other, member, found⟩
          exact ⟨other, List.mem_cons_of_mem _ member, found⟩

/-- Changing records that all stay. -/
theorem allowed_records {records : List DnsRecordConfig}
    (once : (doc.peers.map PeerConfig.publicKey).Nodup)
    (stay : ∀ record ∈ doc.dnsRecords, ∀ id, record.id = some id →
      ∃ other ∈ records, other.id = some id) :
    Allowed memberIp policy doc { doc with dnsRecords := records } := by
  refine ⟨Framed.of_same once rfl rfl, fun _ => ?_⟩
  refine OnlyReferencesRemoved.of_same ?_ ?_ stay
  · rfl
  · exact fun peer listed => ⟨peer, listed, rfl⟩

/-- Ids of a valid configuration are distinct. -/
theorem checkRecords_ids {config : Config} {seen : List (String × Option MemberRef)}
    {ids : List String} {records : List DnsRecordConfig}
    (checked : checkRecords config seen ids records = .ok ()) :
    (records.filterMap DnsRecordConfig.id).Nodup ∧
      ∀ id ∈ records.filterMap DnsRecordConfig.id, id ∉ ids := by
  induction records generalizing seen ids with
  | nil => exact ⟨List.nodup_nil, nofun⟩
  | cons record rest ih =>
      rcases checkRecords_cons.mp checked with ⟨_, _, fresh, _, _, _, later⟩
      rcases ih later with ⟨distinct, apart⟩
      cases own : record.id with
      | none =>
          rw [List.filterMap_cons_none own]
          refine ⟨distinct, fun id listed old => ?_⟩
          exact apart id listed (List.mem_append_right _ old)
      | some id =>
          rw [List.filterMap_cons_some own]
          constructor
          · rw [List.nodup_cons]
            refine ⟨fun again => ?_, distinct⟩
            apply apart id again
            rw [own]
            exact List.mem_append_left _ (List.mem_singleton.mpr rfl)
          · intro other listed old
            rcases List.mem_cons.mp listed with rfl | listed
            · exact (fresh other own).2 old
            · exact apart other listed (List.mem_append_right _ old)

/-- Names below one parent are distinct. -/
theorem checkRecords_names {config : Config} {seen : List (String × Option MemberRef)}
    {ids : List String} {records : List DnsRecordConfig}
    (checked : checkRecords config seen ids records = .ok ()) :
    (records.map (fun record => (record.name, record.under))).Nodup ∧
      ∀ record ∈ records, (record.name, record.under) ∉ seen := by
  induction records generalizing seen ids with
  | nil => exact ⟨List.nodup_nil, fun record listed => absurd listed List.not_mem_nil⟩
  | cons record rest ih =>
      rcases checkRecords_cons.mp checked with ⟨_, fresh, _, _, _, _, later⟩
      rcases ih later with ⟨distinct, apart⟩
      constructor
      · rw [List.map_cons, List.nodup_cons]
        refine ⟨fun again => ?_, distinct⟩
        rcases List.mem_map.mp again with ⟨other, member, same⟩
        exact apart other member (same ▸ List.mem_cons_self)
      · intro other listed old
        rcases List.mem_cons.mp listed with rfl | listed
        · exact fresh old
        · exact apart other listed (List.mem_cons_of_mem _ old)

/-- Two records with one id are the same. -/
theorem record_of_id {records : List DnsRecordConfig}
    (distinct : (records.filterMap DnsRecordConfig.id).Nodup) {one two : DnsRecordConfig}
    (here : one ∈ records) (there : two ∈ records) {id : String} (first : one.id = some id)
    (second : two.id = some id) : one = two := by
  induction records with
  | nil => cases here
  | cons record rest ih =>
      have later {other : DnsRecordConfig} (listed : other ∈ rest) (own : other.id = some id) :
          id ∈ rest.filterMap DnsRecordConfig.id :=
        List.mem_filterMap.mpr ⟨other, listed, own⟩
      rcases List.mem_cons.mp here with rfl | inRest
      · rcases List.mem_cons.mp there with rfl | inRest
        · rfl
        · rw [List.filterMap_cons_some first, List.nodup_cons] at distinct
          exact absurd (later inRest second) distinct.1
      · rcases List.mem_cons.mp there with rfl | inRest'
        · rw [List.filterMap_cons_some second, List.nodup_cons] at distinct
          exact absurd (later inRest first) distinct.1
        · apply ih _ inRest inRest'
          cases own : record.id with
          | none => rwa [List.filterMap_cons_none own] at distinct
          | some other =>
              rw [List.filterMap_cons_some own, List.nodup_cons] at distinct
              exact distinct.2

/-- The id of the record that is removed is gone, and no other. -/
theorem removedRecordId_iff {record : DnsRecordConfig} {id : String}
    (ids : (doc.dnsRecords.filterMap DnsRecordConfig.id).Nodup)
    (names : (doc.dnsRecords.map (fun record => (record.name, record.under))).Nodup)
    (listed : record ∈ doc.dnsRecords) (own : record.id = some id)
    (left : written.dnsRecords =
      doc.dnsRecords.filter (fun other => !other.isNamed record.name record.under))
    (other : String) : removedRecordId doc written other = true ↔ other = id := by
  rw [removedRecordId, left, Bool.and_eq_true, List.any_eq_true, List.all_eq_true]
  simp only [List.mem_filter, decide_eq_true_eq, Bool.not_eq_true', and_imp]
  constructor
  · intro gone
    rcases gone with ⟨⟨had, member, itsId⟩, all⟩
    by_cases named : had.isNamed record.name record.under = true
    · have same : had = record := by
        apply List.inj_on_of_nodup_map names member listed
        simpa [DnsRecordConfig.isNamed] using named
      rw [same, own] at itsId
      exact (Option.some.inj itsId).symm
    · exact absurd itsId (all had member (Bool.eq_false_iff.mpr named))
  · intro same
    subst same
    refine ⟨⟨record, listed, own⟩, fun had member unnamed itsId => ?_⟩
    rw [record_of_id ids member listed itsId own] at unnamed
    simp [DnsRecordConfig.isNamed] at unnamed

/-- With a record go the rules that name its service. -/
theorem allowed_removeRecord {record : DnsRecordConfig} {id : String}
    (once : (doc.peers.map PeerConfig.publicKey).Nodup)
    (ids : (doc.dnsRecords.filterMap DnsRecordConfig.id).Nodup)
    (names : (doc.dnsRecords.map (fun record => (record.name, record.under))).Nodup)
    (listed : record ∈ doc.dnsRecords) (own : record.id = some id)
    (done : removeRecordEdit record.name record.under (some id) doc = .ok written) :
    Allowed memberIp policy doc written ∧ written.validate = .ok () := by
  unfold removeRecordEdit at done
  rcases bind_ok.mp done with ⟨⟨⟩, _, done⟩
  rcases writeValidated_ok.mp done with ⟨valid, same⟩
  have peers : written.peers = doc.peers := by rw [← same]
  have left : written.dnsRecords =
      doc.dnsRecords.filter (fun other => !other.isNamed record.name record.under) := by
    rw [← same]
  have rules : written.acl.rules = doc.acl.rules.filter (fun rule => !rule.namesService id) := by
    rw [← same]
  have keys : ∀ peer ∈ doc.peers, ∃ other ∈ written.peers, other.publicKey = peer.publicKey :=
    fun peer member => ⟨peer, peers ▸ member, rfl⟩
  have gone (end_ : AclTarget) : end_.isGone doc written = decide (end_ = .service id) := by
    cases end_ with
    | any value => rfl
    | subnet subnet => rfl
    | member key => simp [AclTarget.isGone, removedKey_none keys]
    | group name => simp [AclTarget.isGone, removedKey_none keys, AclGroup.emptied_none]
    | service name =>
        rw [AclTarget.isGone, Bool.eq_iff_iff, removedRecordId_iff ids names listed own left]
        simp
  refine ⟨⟨Framed.of_same once peers ?_, fun _ => ?_⟩, same ▸ valid⟩
  · rw [← same]
  · apply OnlyReferencesRemoved.of_keys keys
    · rw [← same]
    · rw [← same]
    · rw [← same]
    · rw [rules]
      apply List.filter_congr
      intro rule _
      rw [gone, gone, AclRule.namesService, Bool.not_or]

end

/-! ### Removal of a peer -/

/-- The cleaning of the section takes nothing along but what refers to the member: a denied pair
with its address stands in a section without anything to keep, and every group has members. -/
def CleanRemoval (config : Config) (target : PeerConfig) : Prop :=
  (∀ group ∈ config.acl.groups, group.members ≠ []) ∧
    (pairsNamed config target = true → config.acl.default = .allow ∧
      (∀ group ∈ config.acl.groups, (group.withoutMember target.publicKey).members = []) ∧
      ∀ rule ∈ config.acl.rules, ruleConcerned config target.publicKey rule = true)

instance (config : Config) (target : PeerConfig) : Decidable (CleanRemoval config target) :=
  inferInstanceAs (Decidable (_ ∧ _))

theorem CleanRemoval.detached {config : Config} {target : PeerConfig}
    (clean : CleanRemoval config target) : Detached config target where
  pairsAlone ip own named := clean.2 (pairsNamed_iff.mpr ⟨ip, own, named⟩)
  noMemberless rule _ _ id _ := by
    rw [memberlessGroup, List.any_eq_false]
    intro group listed
    simp [clean.1 group listed]

theorem orderPair_orderPair (pair : Ipv4Addr × Ipv4Addr) :
    orderPair (orderPair pair) = orderPair pair := by
  unfold orderPair
  by_cases ordered : pair.1 ≤ pair.2
  · simp only [if_pos ordered]
  · have other : pair.2 ≤ pair.1 := by
      simp only [BitVec.le_def] at ordered ⊢
      omega
    simp only [if_neg ordered, if_pos other]

/-- Of the configuration a removal reads the access control and the records. -/
theorem removal_congr {one two : Config} (acl : one.acl = two.acl)
    (records : one.dnsRecords = two.dnsRecords) (target : PeerConfig) :
    target.removal one = target.removal two := by
  unfold PeerConfig.removal
  rw [acl, records]

theorem CleanRemoval.congr {one two : Config} {target other : PeerConfig}
    (acl : one.acl = two.acl) (records : one.dnsRecords = two.dnsRecords)
    (key : other.publicKey = target.publicKey) (ip : other.virtualIp = target.virtualIp)
    (clean : CleanRemoval one other) : CleanRemoval two target := by
  have concerned : endConcerned one target.publicKey = endConcerned two target.publicKey := by
    funext end_
    cases end_ with
    | any value => rfl
    | subnet subnet => rfl
    | member key => rfl
    | group id => rw [endConcerned, endConcerned, emptiedGroup, emptiedGroup, acl]
    | service id => rw [endConcerned, endConcerned, removedService, removedService, records]
  unfold CleanRemoval pairsNamed ruleConcerned at clean ⊢
  rwa [acl, key, ip, concerned] at clean

section

variable {memberIp : Ipv4Addr} {doc : Config} {target : PeerConfig}

/-- The key of the target is gone, and no other. -/
theorem removal_key (here : ∃ peer ∈ doc.peers, peer.publicKey = target.publicKey) :
    removedKey doc ((target.removal doc).apply doc) =
      fun key => decide (key = target.publicKey) := by
  have peers : ((target.removal doc).apply doc).peers =
      doc.peers.filter (fun peer => peer.publicKey ≠ target.publicKey) := rfl
  funext key
  rw [removedKey, peers, Bool.eq_iff_iff, Bool.and_eq_true, List.any_eq_true, List.all_eq_true]
  simp only [List.mem_filter, decide_eq_true_eq, and_imp]
  constructor
  · intro gone
    rcases gone with ⟨⟨peer, listed, same⟩, all⟩
    by_contra differs
    exact all peer listed (same ▸ differs) same
  · intro same
    subst same
    exact ⟨here, fun peer _ differs => differs⟩

/-- The address of the target is gone, and no other. -/
theorem removal_address (once : (doc.peers.map PeerConfig.publicKey).Nodup)
    (here : ∃ peer ∈ doc.peers, peer.publicKey = target.publicKey ∧
      peer.virtualIp = target.virtualIp) (ip : Ipv4Addr) :
    removedAddress doc ((target.removal doc).apply doc) ip = decide (target.virtualIp = some ip) := by
  rcases here with ⟨own, listed, sameKey, sameIp⟩
  rw [removedAddress, removal_key ⟨own, listed, sameKey⟩, Bool.eq_iff_iff, List.any_eq_true]
  simp only [Bool.and_eq_true, decide_eq_true_eq]
  constructor
  · intro gone
    rcases gone with ⟨peer, member, itsIp, itsKey⟩
    rw [List.inj_on_of_nodup_map once member listed (itsKey.trans sameKey.symm), sameIp] at itsIp
    exact itsIp
  · intro same
    exact ⟨own, listed, sameIp.trans same, sameKey⟩

/-- A record of the target is gone, and no other. -/
theorem removal_recordId (ids : (doc.dnsRecords.filterMap DnsRecordConfig.id).Nodup) (id : String) :
    removedRecordId doc ((target.removal doc).apply doc) id =
      removedService doc target.publicKey id := by
  have left : ((target.removal doc).apply doc).dnsRecords =
      doc.dnsRecords.filter (fun record => !record.refersTo target.publicKey) := rfl
  rw [removedRecordId, removedService, left, Bool.eq_iff_iff, Bool.and_eq_true, List.any_eq_true,
    List.all_eq_true, List.any_eq_true]
  simp only [List.mem_filter, decide_eq_true_eq, Bool.not_eq_true', Bool.and_eq_true, and_imp]
  constructor
  · intro gone
    rcases gone with ⟨⟨record, listed, own⟩, all⟩
    refine ⟨record, listed, own, ?_⟩
    by_contra apart
    exact all record listed (Bool.eq_false_iff.mpr apart) own
  · intro gone
    rcases gone with ⟨record, listed, own, refers⟩
    refine ⟨⟨record, listed, own⟩, fun other member apart itsId => ?_⟩
    rw [record_of_id ids member listed itsId own, refers] at apart
    cases apart

/-- A group is stripped of the target. -/
theorem strip_target (group : AclGroup) :
    group.strip (fun key => decide (key = target.publicKey)) =
      group.withoutMember target.publicKey := by
  unfold AclGroup.strip AclGroup.withoutMember
  congr 1
  apply List.filter_congr
  intro member _
  simp

theorem emptied_target (group : AclGroup) :
    group.emptied (fun key => decide (key = target.publicKey)) =
      (group.members ≠ [] && (group.withoutMember target.publicKey).members = [] : Bool) := by
  rw [AclGroup.emptied, strip_target]

/-- What is gone with the target is what the removal counts as concerned. -/
theorem removal_isGone (ids : (doc.dnsRecords.filterMap DnsRecordConfig.id).Nodup)
    (here : ∃ peer ∈ doc.peers, peer.publicKey = target.publicKey) (end_ : AclTarget) :
    end_.isGone doc ((target.removal doc).apply doc) = endConcerned doc target.publicKey end_ := by
  cases end_ with
  | any value => rfl
  | subnet subnet => rfl
  | member key => rw [AclTarget.isGone, removal_key here, endConcerned]
  | service id => exact removal_recordId ids id
  | group id =>
      rw [AclTarget.isGone, removal_key here, endConcerned, emptiedGroup]
      simp only [emptied_target]

theorem removal_normalizedDeny (once : (doc.peers.map PeerConfig.publicKey).Nodup)
    (here : ∃ peer ∈ doc.peers, peer.publicKey = target.publicKey ∧
      peer.virtualIp = target.virtualIp) (pair : Ipv4Addr × Ipv4Addr) :
    pair ∈ ((target.removal doc).apply doc).acl.normalizedDeny ↔
      pair ∈ doc.acl.normalizedDeny ∧
        removedAddress doc ((target.removal doc).apply doc) pair.1 = false ∧
        removedAddress doc ((target.removal doc).apply doc) pair.2 = false := by
  have kept (pair : Ipv4Addr × Ipv4Addr) : Clause.kept doc target (.inl pair) = true ↔
      removedAddress doc ((target.removal doc).apply doc) pair.1 = false ∧
        removedAddress doc ((target.removal doc).apply doc) pair.2 = false := by
    rw [removal_address once here, removal_address once here, Clause.kept]
    cases target.virtualIp with
    | none => simp
    | some ip =>
        simp only [Option.all_some, Bool.and_eq_true, decide_eq_true_eq, decide_eq_false_iff_not,
          Option.some.injEq, ne_eq]
        exact and_congr ⟨Ne.symm, Ne.symm⟩ ⟨Ne.symm, Ne.symm⟩
  rw [← kept]
  cases named : pairsNamed doc target with
  | false =>
      have same : ((target.removal doc).apply doc).acl.normalizedDeny = doc.acl.normalizedDeny := by
        rw [removal_acl_unnamed named]
        rfl
      rw [same]
      refine ⟨fun listed => ⟨listed, ?_⟩, fun both => both.1⟩
      rcases mem_normalizedDeny.mp listed with ⟨old, denied, rfl⟩
      rw [kept_orderPair]
      exact kept_of_unnamed named denied
  | true =>
      rw [removal_acl_named named, mem_normalizedDeny]
      simp only [SortDedup.mem_sortDedup, List.mem_map, List.mem_filter]
      constructor
      · intro listed
        rcases listed with ⟨_, ⟨ordered, ⟨member, left⟩, rfl⟩, rfl⟩
        rcases mem_normalizedDeny.mp member with ⟨old, _, rfl⟩
        rw [orderPair_orderPair, orderPair_orderPair]
        exact ⟨member, left⟩
      · intro both
        rcases mem_normalizedDeny.mp both.1 with ⟨old, _, rfl⟩
        refine ⟨orderPair old, ⟨orderPair old, both, orderPair_orderPair old⟩, ?_⟩
        exact orderPair_orderPair old

/-- The groups that are left are those that had another member. -/
theorem removal_cleanGroups (clean : CleanRemoval doc target)
    (distinct : (doc.acl.groups.map AclGroup.id).Nodup) :
    ((target.removal doc).apply doc).acl.groups =
      (doc.acl.groups.filter (fun group =>
        !(group.members ≠ [] && (group.withoutMember target.publicKey).members = [] : Bool))).map
        (AclGroup.withoutMember target.publicKey) := by
  cases named : pairsNamed doc target with
  | true =>
      have none : doc.acl.groups.filter (fun group => !(group.members ≠ [] &&
          (group.withoutMember target.publicKey).members = [] : Bool)) = [] := by
        rw [List.filter_eq_nil_iff]
        intro group listed
        simp [clean.1 group listed, (clean.2 named).2.1 group listed]
      rw [removal_acl_named named, none]
      rfl
  | false =>
      rw [removal_acl_unnamed named, AclConfig.withoutMember, List.filter_map]
      refine congrArg (List.map (AclGroup.withoutMember target.publicKey))
        (List.filter_congr (fun group listed => ?_))
      have some : group.members ≠ [] := clean.1 group listed
      rw [Function.comp_apply, Bool.eq_iff_iff, decide_eq_true_eq, AclConfig.groupsLeftEmpty]
      simp only [some, ne_eq, not_false_eq_true, decide_true, Bool.true_and, Bool.not_eq_true',
        decide_eq_false_iff_not]
      -- ids are distinct, so no other group takes this one along
      constructor
      · intro left empty
        exact left (List.mem_map.mpr ⟨group, List.mem_filter.mpr ⟨listed, by simp [empty]⟩, rfl⟩)
      · intro inhabited gone
        rcases List.mem_map.mp gone with ⟨other, empty, same⟩
        rcases List.mem_filter.mp empty with ⟨member, none⟩
        obtain rfl := List.inj_on_of_nodup_map distinct member listed same
        exact inhabited (of_decide_eq_true none)

/-- Removing a peer that is not the member. -/
theorem allowed_removal {policy : Bool} (clean : CleanRemoval doc target)
    (once : (doc.peers.map PeerConfig.publicKey).Nodup)
    (ids : (doc.dnsRecords.filterMap DnsRecordConfig.id).Nodup)
    (distinct : (doc.acl.groups.map AclGroup.id).Nodup)
    (here : ∃ peer ∈ doc.peers, peer.publicKey = target.publicKey ∧
      peer.virtualIp = target.virtualIp)
    (apart : ∀ peer ∈ doc.peers, peer.virtualIp = some memberIp →
      peer.publicKey ≠ target.publicKey) :
    Allowed memberIp policy doc ((target.removal doc).apply doc) := by
  have key : ∃ peer ∈ doc.peers, peer.publicKey = target.publicKey :=
    here.imp fun peer own => ⟨own.1, own.2.1⟩
  refine ⟨Framed.of_removal once apart rfl rfl, fun _ => ⟨?_, ?_, ?_, ?_⟩⟩
  · exact removal_default clean.detached
  · exact removal_normalizedDeny once here
  · rw [removal_cleanGroups clean distinct, removal_key key]
    simp only [emptied_target]
    exact List.map_congr_left (fun group _ => (strip_target group).symm)
  · rw [removal_rules clean.detached]
    apply List.filter_congr
    intro rule _
    rw [removal_isGone ids key, removal_isGone ids key, ruleConcerned, Bool.not_or]

end

end PeerCove
