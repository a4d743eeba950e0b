/-
Module: PeerCove.Proofs.SingleUse
Layer: Proofs
Purpose: When an invitation is used by one device only: what every write of `host.toml` keeps of the
  peers, and what an acceptance in progress relies on.
Trusted boundary: none
Main exports: Edited, RosterPlan.edited, InviteHost.Careful, InviteHost.Tracked,
  InviteHost.used_once, InviteHost.used_twice
-/
import PeerCove.Host.InviteUse
import PeerCove.Proofs.Delegation
import PeerCove.Proofs.SerialEdits

namespace PeerCove

open Fallible LockedFile

/-! ### What a write keeps of the peers -/

/-- The invitation of a peer and who used it, before and after an edit. -/
structure SameUse (before after : PeerConfig) : Prop where
  allowedIps : after.allowedIps = before.allowedIps
  inviteId : after.inviteId = before.inviteId
  expiresAt : after.inviteExpiresAt = before.inviteExpiresAt
  acceptedAt : after.inviteAcceptedAt = before.inviteAcceptedAt
  deviceId : after.inviteDeviceId = before.inviteDeviceId

theorem SameUse.refl (peer : PeerConfig) : SameUse peer peer :=
  ⟨rfl, rfl, rfl, rfl, rfl⟩

theorem SameUse.virtualIp {before after : PeerConfig} (same : SameUse before after) :
    after.virtualIp = before.virtualIp := by
  rw [PeerConfig.virtualIp, PeerConfig.virtualIp, same.allowedIps]

namespace RosterPlan

/-- The key that a key becomes. -/
def rekey : RosterPlan → PublicKey → PublicKey
  | .host (.rotation old new _) => replaceKey old new
  | _ => id

/-- The key that a plan takes off the roster. -/
def removes : RosterPlan → Option PublicKey
  | .host (.removal plan) => some plan.key
  | _ => none

/-- Whom a plan appends. -/
def appends : RosterPlan → Option NewPeer
  | .host (.append peer) => some peer
  | _ => none

/-- The key that a plan brings in. -/
def brings : RosterPlan → Option PublicKey
  | .host (.append peer) => some peer.publicKey
  | .host (.rotation _ new _) => some new
  | _ => none

/-- Whether a plan is an acceptance. -/
def accepts : RosterPlan → Bool
  | .acceptance _ _ _ => true
  | _ => false

end RosterPlan

/-- What a write that accepts nothing does to the peers. -/
structure Edited (plan : RosterPlan) (doc after : Config) : Prop where
  origin : ∀ later ∈ after.peers,
    (∃ peer ∈ doc.peers, SameUse peer later ∧ later.publicKey = plan.rekey peer.publicKey) ∨
      ∃ new, plan.appends = some new ∧ later = new.entry doc
  fresh : ∀ new, plan.appends = some new → new.ip ∉ usedIps doc
  kept : ∀ peer ∈ doc.peers,
    plan.removes = some peer.publicKey ∨ ∃ later ∈ after.peers, SameUse peer later

section
variable {plan : RosterPlan} {doc after : Config}

/-- Where every peer is changed in what an invitation does not care for. -/
theorem Edited.of_each (each : List.Forall₂ (fun peer later =>
      SameUse peer later ∧ later.publicKey = plan.rekey peer.publicKey) doc.peers after.peers)
    (quiet : plan.appends = none) : Edited plan doc after where
  origin := by
    intro later listed
    exact .inl (of_mem_results each listed)
  fresh := by
    intro new appends
    rw [quiet] at appends
    cases appends
  kept := by
    intro peer listed
    obtain ⟨later, member, same, _⟩ := ok_of_mem each listed
    exact .inr ⟨later, member, same⟩

/-- Where the peers stay. -/
theorem Edited.of_peers (same : after.peers = doc.peers) (keeps : plan.rekey = id)
    (quiet : plan.appends = none) : Edited plan doc after := by
  refine Edited.of_each ?_ quiet
  rw [same, keeps]
  exact List.forall₂_same.mpr (fun peer _ => ⟨.refl peer, rfl⟩)

/-- An edit of the tables of one key. -/
theorem editPeer_peers {key : PublicKey} {change : PeerConfig → PeerConfig}
    (done : editPeer key change doc = .ok after) :
    after.peers = doc.peers.map (fun peer => if peer.publicKey = key then change peer else peer) ∧
      ∃ peer ∈ doc.peers, peer.publicKey = key := by
  unfold editPeer at done
  rcases bind_ok.mp done with ⟨⟨⟩, _, done⟩
  rcases bind_ok.mp done with ⟨⟨⟩, located, done⟩
  rcases writeValidated_ok.mp done with ⟨_, rfl⟩
  refine ⟨rfl, ?_⟩
  by_contra nobody
  apply refuseIf_ok.mp located
  rw [List.all_eq_true]
  intro peer listed
  exact decide_eq_true (fun same => nobody ⟨peer, listed, same⟩)

theorem Edited.editPeer {key : PublicKey} {change : PeerConfig → PeerConfig}
    (done : editPeer key change doc = .ok after) (keeps : plan.rekey = id)
    (quiet : plan.appends = none)
    (spares : ∀ peer, SameUse peer (change peer) ∧ (change peer).publicKey = peer.publicKey) :
    Edited plan doc after := by
  refine Edited.of_each ?_ quiet
  rw [(editPeer_peers done).1, keeps, List.forall₂_map_right_iff, List.forall₂_same]
  intro peer _
  split
  · exact spares peer
  · exact ⟨.refl peer, rfl⟩

/-- Of the tables of one key the first is changed. -/
theorem changePeer_spares {key : PublicKey} (change : PeerConfig → PeerConfig)
    (spares : ∀ peer, SameUse peer (change peer) ∧ (change peer).publicKey = peer.publicKey)
    (peers : List PeerConfig) :
    List.Forall₂ (fun peer later => SameUse peer later ∧ later.publicKey = peer.publicKey) peers
      (HostProgram.changePeer key change peers) := by
  induction peers with
  | nil => exact .nil
  | cons peer rest ih =>
      rw [HostProgram.changePeer]
      split
      · exact .cons (spares peer) (List.forall₂_same.mpr fun other _ => ⟨.refl other, rfl⟩)
      · exact .cons ⟨.refl peer, rfl⟩ ih

theorem Edited.approval {key : PublicKey} {approvedAt : Nat}
    (done : HostProgram.approvalEdit key approvedAt doc = .ok after) (keeps : plan.rekey = id)
    (quiet : plan.appends = none) : Edited plan doc after := by
  unfold HostProgram.approvalEdit at done
  rcases bind_ok.mp done with ⟨⟨⟩, _, done⟩
  rcases bind_ok.mp done with ⟨⟨⟩, _, done⟩
  rcases writeValidated_ok.mp done with ⟨_, rfl⟩
  refine Edited.of_each ?_ quiet
  rw [keeps]
  exact changePeer_spares (fun peer => { peer with inviteApprovedAt := some approvedAt })
    (fun _ => ⟨⟨rfl, rfl, rfl, rfl, rfl⟩, rfl⟩) doc.peers

theorem Edited.append {escaped : Char → Bool} {new : NewPeer} (appends : plan.appends = some new)
    (done : appendPeer escaped new doc = .ok after) (keeps : plan.rekey = id) :
    Edited plan doc after := by
  unfold appendPeer at done
  rcases bind_ok.mp done with ⟨⟨⟩, _, done⟩
  rcases bind_ok.mp done with ⟨⟨⟩, _, done⟩
  rcases bind_ok.mp done with ⟨⟨⟩, _, done⟩
  rcases bind_ok.mp done with ⟨⟨⟩, _, done⟩
  rcases bind_ok.mp done with ⟨⟨⟩, unused, done⟩
  rcases bind_ok.mp done with ⟨⟨⟩, _, done⟩
  rcases writeValidated_ok.mp done with ⟨_, rfl⟩
  constructor
  · intro later listed
    rcases List.mem_append.mp listed with old | added
    · exact .inl ⟨later, old, .refl later, by rw [keeps]; rfl⟩
    · exact .inr ⟨new, appends, List.mem_singleton.mp added⟩
  · intro other same
    rw [appends] at same
    cases same
    exact refuseIf_ok.mp unused
  · exact fun peer listed => .inr ⟨peer, List.mem_append_left _ listed, .refl peer⟩

theorem Edited.removal {removal : RemovalPlan} (removes : plan.removes = some removal.key)
    (done : removal.edit doc = .ok after) (keeps : plan.rekey = id)
    (quiet : plan.appends = none) : Edited plan doc after := by
  unfold RemovalPlan.edit at done
  rcases bind_ok.mp done with ⟨⟨⟩, _, done⟩
  rcases bind_ok.mp done with ⟨⟨⟩, _, done⟩
  rcases writeValidated_ok.mp done with ⟨_, rfl⟩
  constructor
  · intro later listed
    exact .inl ⟨later, (List.mem_filter.mp listed).1, .refl later, by rw [keeps]; rfl⟩
  · intro new appends
    rw [quiet] at appends
    cases appends
  · intro peer listed
    by_cases gone : peer.publicKey = removal.key
    · exact .inl (gone ▸ removes)
    · exact .inr ⟨peer, List.mem_filter.mpr ⟨listed, by simpa using gone⟩, .refl peer⟩

theorem Edited.rotation {old new : PublicKey} (rekeys : plan.rekey = replaceKey old new)
    (quiet : plan.appends = none) (done : rotationEdit old new doc = .ok after) :
    Edited plan doc after := by
  unfold rotationEdit at done
  rcases bind_ok.mp done with ⟨⟨⟩, _, done⟩
  rcases bind_ok.mp done with ⟨⟨⟩, _, done⟩
  rcases writeValidated_ok.mp done with ⟨_, rfl⟩
  refine Edited.of_each ?_ quiet
  change List.Forall₂ _ doc.peers (doc.peers.map (PeerConfig.replaceKey old new))
  rw [rekeys, List.forall₂_map_right_iff, List.forall₂_same]
  exact fun _ _ => ⟨⟨rfl, rfl, rfl, rfl, rfl⟩, rfl⟩

theorem concludedWith_some {edited : Except String Config} {answer : RosterResult}
    {result : Except String RosterResult} (done : concludedWith edited answer = (result, some after)) :
    edited = .ok after ∧ result = .ok answer := by
  cases edited with
  | error message => cases done
  | ok config =>
      cases done
      exact ⟨rfl, rfl⟩

/-- Every plan but an acceptance leaves the invitations and their users. -/
theorem RosterPlan.edited {escaped : Char → Bool} {result : Except String RosterResult}
    (other : plan.accepts = false) (edits : plan.edit escaped doc = (result, some after)) :
    Edited plan doc after := by
  cases plan with
  | approval key approvedAt =>
      exact .approval (concludedWith_some edits).1 rfl rfl
  | acceptance key acceptedAt device => cases other
  | host plan =>
      have second : (plan.edit escaped doc).2 = some after := congrArg Prod.snd edits
      have wrote : plan.edit escaped doc = ((plan.edit escaped doc).1, some after) :=
        Prod.ext rfl second
      cases plan with
      | append peer => exact .append rfl (written_some wrote) rfl
      | removal removal => exact .removal rfl (written_some wrote) rfl rfl
      | rename key newName =>
          exact .editPeer (written_some wrote) rfl rfl (fun _ => ⟨⟨rfl, rfl, rfl, rfl, rfl⟩, rfl⟩)
      | rotation old new display => exact .rotation rfl rfl (written_some wrote)
      | dnsName key display label =>
          exact .editPeer (written_some wrote) rfl rfl (fun _ => ⟨⟨rfl, rfl, rfl, rfl, rfl⟩, rfl⟩)
      | policy settings answer =>
          rcases writeValidated_ok.mp (written_some wrote) with ⟨_, rfl⟩
          exact .of_peers rfl rfl rfl

/-! ### What an acceptance in progress relies on -/

/-- The peers of the key wait for their first device, at the address, in time. -/
structure Unused (key : PublicKey) (memberIp : Ipv4Addr) (acceptedAt : Nat) (config : Config) :
    Prop where
  waits : ∀ peer ∈ config.peers, peer.publicKey = key →
    peer.virtualIp = some memberIp ∧ peer.inviteAcceptedAt = none ∧ peer.inviteDeviceId = none ∧
      ∀ expires, peer.inviteExpiresAt = some expires → acceptedAt < expires
  alone : (∃ peer ∈ config.peers, peer.publicKey = key) →
    ∀ peer ∈ config.peers, peer.virtualIp = some memberIp → peer.publicKey = key

/-- How often peers were appended, after another one is. -/
def bumped (tenure : Ipv4Addr → Nat) (appended : Option NewPeer) : Ipv4Addr → Nat :=
  match appended with
  | some peer => Function.update tenure peer.ip (tenure peer.ip + 1)
  | none => tenure

/-- The peers at an address have the device, unless a peer was appended there since. -/
structure Claimed (ip : Ipv4Addr) (count : Nat) (device : String) (config : Config)
    (tenure : Ipv4Addr → Nat) : Prop where
  below : count ≤ tenure ip
  device : tenure ip = count → ∀ peer ∈ config.peers, peer.virtualIp = some ip →
    peer.inviteDeviceId = some device

theorem mem_usedIps {config : Config} {peer : PeerConfig} {ip : Ipv4Addr}
    (listed : peer ∈ config.peers) (here : peer.virtualIp = some ip) : ip ∈ usedIps config := by
  obtain ⟨net, first, rfl⟩ := Option.map_eq_some_iff.mp here
  refine List.mem_cons_of_mem _ (List.mem_flatMap.mpr ⟨peer, listed, ?_⟩)
  exact List.mem_map.mpr ⟨net, List.mem_of_mem_head? first, rfl⟩

/-- A key that a plan does not bring in is the key of nobody else afterwards. -/
theorem RosterPlan.rekey_eq {key other : PublicKey} (brought : plan.brings ≠ some key)
    (same : plan.rekey other = key) : other = key ∧ plan.rekey key = key := by
  unfold rekey at same ⊢
  split at same
  · rename_i old new display
    have different : new ≠ key := fun equal => brought (congrArg some equal)
    unfold replaceKey at same ⊢
    split at same
    · exact absurd same different
    · rename_i unchanged
      subst same
      exact ⟨rfl, if_neg unchanged⟩
  · exact ⟨same, rfl⟩

theorem RosterPlan.brings_of_appends {new : NewPeer} (appends : plan.appends = some new) :
    plan.brings = some new.publicKey := by
  unfold RosterPlan.appends at appends
  split at appends
  · cases appends
    rfl
  · cases appends

/-- A write that does not bring the key in. -/
theorem Unused.edited {key : PublicKey} {memberIp : Ipv4Addr} {acceptedAt : Nat}
    (unused : Unused key memberIp acceptedAt doc) (edited : Edited plan doc after)
    (brought : plan.brings ≠ some key) : Unused key memberIp acceptedAt after := by
  have old : ∀ later ∈ after.peers, later.publicKey = key →
      ∃ peer ∈ doc.peers, SameUse peer later ∧ peer.publicKey = key ∧ plan.rekey key = key := by
    intro later listed isKey
    rcases edited.origin later listed with ⟨peer, member, same, rekeyed⟩ | ⟨new, appends, rfl⟩
    · obtain ⟨was, stays⟩ := RosterPlan.rekey_eq brought (rekeyed.symm.trans isKey)
      exact ⟨peer, member, same, was, stays⟩
    · exact absurd ((RosterPlan.brings_of_appends appends).trans (congrArg some isKey)) brought
  constructor
  · intro later listed isKey
    obtain ⟨peer, member, same, was, -⟩ := old later listed isKey
    obtain ⟨here, waits, none, inTime⟩ := unused.waits peer member was
    exact ⟨same.virtualIp.trans here, same.acceptedAt.trans waits, same.deviceId.trans none,
      fun expires => same.expiresAt ▸ inTime expires⟩
  · rintro ⟨later, listed, isKey⟩ other listed' here
    obtain ⟨peer, member, same, was, stays⟩ := old later listed isKey
    have alone := unused.alone ⟨peer, member, was⟩
    rcases edited.origin other listed' with ⟨source, member', same', rekeyed⟩ | ⟨new, appends, rfl⟩
    · rw [rekeyed, alone source member' (same'.virtualIp.symm.trans here), stays]
    · obtain rfl : new.ip = memberIp := Option.some.inj here
      exact absurd (mem_usedIps member (unused.waits peer member was).1) (edited.fresh new appends)

theorem bumped_le (tenure : Ipv4Addr → Nat) (appended : Option NewPeer) (ip : Ipv4Addr) :
    tenure ip ≤ bumped tenure appended ip := by
  unfold bumped
  split
  · rename_i peer
    by_cases here : ip = peer.ip
    · subst here
      rw [Function.update_self]
      exact Nat.le_succ _
    · rw [Function.update_of_ne here]
  · exact le_rfl

theorem bumped_of_ne {tenure : Ipv4Addr → Nat} {appended : Option NewPeer} {ip : Ipv4Addr}
    (elsewhere : ∀ peer, appended = some peer → peer.ip ≠ ip) : bumped tenure appended ip = tenure ip := by
  unfold bumped
  split
  · rename_i peer
    exact Function.update_of_ne (elsewhere peer rfl).symm _ _
  · rfl

theorem Claimed.edited {ip : Ipv4Addr} {count : Nat} {device : String} {tenure : Ipv4Addr → Nat}
    (claimed : Claimed ip count device doc tenure) (edited : Edited plan doc after) :
    Claimed ip count device after (bumped tenure plan.appends) := by
  have grows := bumped_le tenure plan.appends ip
  constructor
  · exact claimed.below.trans grows
  · intro current later listed here
    have before : tenure ip = count := le_antisymm (current ▸ grows) claimed.below
    rcases edited.origin later listed with ⟨peer, member, same, -⟩ | ⟨new, appends, rfl⟩
    · exact same.deviceId.trans
        (claimed.device before peer member (same.virtualIp.symm.trans here))
    · obtain rfl : new.ip = ip := Option.some.inj here
      rw [appends, bumped, Function.update_self, before] at current
      exact absurd current (Nat.succ_ne_self count)

/-- An acceptance for an address that nobody has claimed. -/
theorem accepted_peers {key : PublicKey} {memberIp : Ipv4Addr} {acceptedAt : Nat} {device : String}
    (unused : Unused key memberIp acceptedAt doc)
    (done : editPeer key (PeerConfig.accept acceptedAt device) doc = .ok after) :
    (∀ later ∈ after.peers,
      later ∈ doc.peers ∧ later.virtualIp ≠ some memberIp ∨
        ∃ peer ∈ doc.peers, peer.publicKey = key ∧ later = peer.accept acceptedAt device) ∧
      ∃ peer ∈ doc.peers, peer.publicKey = key := by
  obtain ⟨peers, located⟩ := editPeer_peers done
  refine ⟨fun later listed => ?_, located⟩
  rw [peers] at listed
  obtain ⟨peer, member, rfl⟩ := List.mem_map.mp listed
  split
  · rename_i isKey
    exact .inr ⟨peer, member, isKey, rfl⟩
  · rename_i other
    exact .inl ⟨member, fun here => other (unused.alone located peer member here)⟩

theorem Claimed.accepted {key : PublicKey} {memberIp : Ipv4Addr} {acceptedAt : Nat}
    {device : String} {ip : Ipv4Addr} {count : Nat} {holder : String} {tenure : Ipv4Addr → Nat}
    (claimed : Claimed ip count holder doc tenure) (unused : Unused key memberIp acceptedAt doc)
    (done : editPeer key (PeerConfig.accept acceptedAt device) doc = .ok after) :
    Claimed ip count holder after tenure := by
  obtain ⟨origin, _⟩ := accepted_peers unused done
  refine ⟨claimed.below, fun current later listed here => ?_⟩
  rcases origin later listed with ⟨member, -⟩ | ⟨peer, member, isKey, rfl⟩
  · exact claimed.device current later member here
  · have owned := claimed.device current peer member here
    rw [(unused.waits peer member isKey).2.2.1] at owned
    cases owned

/-- The acceptance is for the peer who was there when the request found the address. -/
structure Reserved (key : PublicKey) (memberIp : Ipv4Addr) (acceptedAt : Nat) (config : Config)
    (tenure : Ipv4Addr → Nat) (seen : Nat) : Prop where
  unused : Unused key memberIp acceptedAt config
  current : (∃ peer ∈ config.peers, peer.publicKey = key) → tenure memberIp = seen

theorem Reserved.edited {key : PublicKey} {memberIp : Ipv4Addr} {acceptedAt seen : Nat}
    {tenure : Ipv4Addr → Nat} (reserved : Reserved key memberIp acceptedAt doc tenure seen)
    (edited : Edited plan doc after) (brought : plan.brings ≠ some key) :
    Reserved key memberIp acceptedAt after (bumped tenure plan.appends) seen := by
  refine ⟨reserved.unused.edited edited brought, ?_⟩
  rintro ⟨later, listed, isKey⟩
  have there : ∃ peer ∈ doc.peers, peer.publicKey = key := by
    rcases edited.origin later listed with ⟨peer, member, _, rekeyed⟩ | ⟨new, appends, rfl⟩
    · exact ⟨peer, member, (RosterPlan.rekey_eq brought (rekeyed.symm.trans isKey)).1⟩
    · exact absurd ((RosterPlan.brings_of_appends appends).trans (congrArg some isKey)) brought
  obtain ⟨peer, member, was⟩ := there
  rw [bumped_of_ne ?_]
  · exact reserved.current ⟨peer, member, was⟩
  · rintro new appends rfl
    exact edited.fresh new appends
      (mem_usedIps member (reserved.unused.waits peer member was).1)

/-! ### What a request finds -/

theorem findPeer_found {config : Config} {selector : Selector} {target : PeerConfig}
    (found : findPeer config selector = .ok target) :
    target ∈ config.peers ∧ selector.matches target = true ∧
      ∀ peer ∈ config.peers, selector.matches peer = true → peer = target := by
  have only := findPeer_ok.mp found
  have listed : target ∈ config.peers.filter selector.matches := only ▸ List.mem_singleton.mpr rfl
  obtain ⟨member, matched⟩ := List.mem_filter.mp listed
  refine ⟨member, matched, fun peer there same => ?_⟩
  have also : peer ∈ config.peers.filter selector.matches := List.mem_filter.mpr ⟨there, same⟩
  rw [only] at also
  exact List.mem_singleton.mp also

/-- A peer of a valid configuration has a device exactly if it has been accepted. -/
theorem valid_device {config : Config} (valid : config.validate = .ok ()) {peer : PeerConfig}
    (member : peer ∈ config.peers) :
    peer.inviteDeviceId.isSome = peer.inviteAcceptedAt.isSome := by
  obtain ⟨place, checked⟩ := Config.checkPeer_of_valid valid member
  rw [checkPeer] at checked
  rcases bind_ok.mp checked with ⟨⟨⟩, _, checked⟩
  split at checked
  · rw [checkInvite] at checked
    split at checked
    · cases checked
    · rcases bind_ok.mp checked with ⟨⟨⟩, _, checked⟩
      cases checked
    · rcases bind_ok.mp checked with ⟨⟨⟩, _, checked⟩
      rcases bind_ok.mp checked with ⟨⟨⟩, _, checked⟩
      rcases bind_ok.mp checked with ⟨⟨⟩, _, checked⟩
      rcases bind_ok.mp checked with ⟨⟨⟩, _, checked⟩
      rcases bind_ok.mp checked with ⟨⟨⟩, complete, _⟩
      exact not_not.mp (refuseIf_ok.mp complete)
  · have bare := refuseIf_ok.mp checked
    simp only [not_or, Bool.not_eq_true] at bare
    rw [bare.2.1, bare.2.2.1]

theorem markInvitePlan_cases {config : Config} {memberIp : Ipv4Addr} {acceptedAt : Nat}
    {deviceId : Option String} {found : MarkOutcome ⊕ PublicKey × String}
    (planned : markInvitePlan config memberIp acceptedAt deviceId = .ok found) :
    config.validate = .ok () ∧ ∃ target, findPeer config (.ip memberIp) = .ok target ∧
      (found = .inl .legacy ∨
        ∃ device, deviceId = some device ∧
          (found = .inl .again ∧ target.inviteDeviceId = some device ∨
            found = .inr (target.publicKey, device) ∧ target.inviteId.isSome ∧
              target.inviteAcceptedAt = none ∧
              target.inviteAllowsConnection acceptedAt = true)) := by
  unfold markInvitePlan at planned
  rcases bind_ok.mp planned with ⟨⟨⟩, valid, planned⟩
  rcases bind_ok.mp planned with ⟨target, there, planned⟩
  refine ⟨valid, target, there, ?_⟩
  split at planned
  · cases planned
    exact .inl rfl
  · rename_i invited
    cases deviceId with
    | none => cases planned
    | some device =>
      refine .inr ⟨device, rfl, ?_⟩
      dsimp only at planned
      split at planned
      · rcases bind_ok.mp planned with ⟨⟨⟩, same, planned⟩
        cases planned
        exact .inl ⟨rfl, not_not.mp (refuseIf_ok.mp same)⟩
      · rename_i waits
        rcases bind_ok.mp planned with ⟨⟨⟩, inTime, planned⟩
        cases planned
        refine .inr ⟨rfl, ?_, ?_, ?_⟩
        · simpa [Option.isSome_iff_ne_none] using invited
        · simpa using waits
        · simpa using refuseIf_ok.mp inTime

/-- An invitation that is open has not expired. -/
theorem inviteAllowsConnection_open {peer : PeerConfig} {now : Nat}
    (allowed : peer.inviteAllowsConnection now = true) (invited : peer.inviteId.isSome)
    (waits : peer.inviteAcceptedAt = none) {expires : Nat}
    (limit : peer.inviteExpiresAt = some expires) : now < expires := by
  by_contra late
  have expired : peer.inviteState now = .expired ∨ peer.inviteState now = .clockInvalid := by
    unfold PeerConfig.inviteState
    rw [waits, limit]
    rw [if_neg (by simp), if_neg (by simp), if_neg (by
      simpa [Option.isSome_iff_ne_none] using invited)]
    split
    · exact .inr rfl
    · rw [if_pos (by simpa using late)]
      exact .inl rfl
  unfold PeerConfig.inviteAllowsConnection at allowed
  rcases expired with state | state
  · rw [state] at allowed
    cases allowed
  · rw [state] at allowed
    cases allowed

/-- The plan of an acceptance, on the file it was made of. -/
theorem reserved_planned {config : Config} {memberIp : Ipv4Addr} {acceptedAt : Nat}
    {deviceId : Option String} {key : PublicKey} {device : String} (tenure : Ipv4Addr → Nat)
    (planned : markInvitePlan config memberIp acceptedAt deviceId = .ok (.inr (key, device))) :
    deviceId = some device ∧
      Reserved key memberIp acceptedAt config tenure (tenure memberIp) := by
  obtain ⟨valid, target, found, legacy | ⟨device', given, again | ⟨made, invited, waits, allowed⟩⟩⟩ :=
    markInvitePlan_cases planned
  · cases legacy
  · cases again.1
  · cases made
    obtain ⟨member, here, only⟩ := findPeer_found found
    have once : ∀ peer ∈ config.peers, peer.publicKey = target.publicKey → peer = target :=
      fun peer listed same => List.inj_on_of_nodup_map (sound_of_valid valid).once listed member same
    have free : target.inviteDeviceId = none := by
      have none := valid_device valid member
      rw [waits] at none
      simpa using none
    refine ⟨given, ⟨?_, ?_⟩, fun _ => rfl⟩
    · intro peer listed same
      obtain rfl := once peer listed same
      exact ⟨of_decide_eq_true here, waits, free, fun expires limit =>
        inviteAllowsConnection_open allowed invited waits limit⟩
    · intro _ peer listed there
      rw [only peer listed (decide_eq_true there)]

end

/-! ### Plans and their operations -/

/-- What the plan of an operation has of it. -/
structure PlanOf (op : RosterOp) (plan : RosterPlan) : Prop where
  brings : plan.brings = op.brings
  appends : plan.appends = op.appends
  accepts : ∀ key acceptedAt device, plan = .acceptance key acceptedAt device →
    ∃ memberIp, op = .markInvite memberIp acceptedAt (some device)

theorem planOf_host {op : HostOp} {plan : HostPlan} {config : Config}
    (prepares : op.prepare config = .inr plan) : PlanOf (.host op) (.host plan) := by
  refine ⟨?_, ?_, fun _ _ _ => nofun⟩
  all_goals
    cases op with
    | appendPeer peer =>
        cases prepares
        rfl
    | rotatePeerKey memberIp newKey hostPublicKey =>
        rcases planned_inr prepares with ⟨rotation, _, same⟩
        cases rotation with
        | unchanged => cases same
        | apply old display =>
            cases same
            rfl
    | setPeerDnsName selector input =>
        rcases planned_inr prepares with ⟨naming, _, same⟩
        cases naming with
        | unchanged label => cases same
        | apply key display label =>
            cases same
            rfl
    | importPermGroups groups =>
        rcases planned_inr prepares with ⟨policy, _, same⟩
        cases policy with
        | none => cases same
        | some policy =>
            cases same
            rfl
    | writePolicy policy =>
        cases prepares
        rfl
    | removePeer selector =>
        rcases planned_inr prepares with ⟨_, _, same⟩
        cases same
        rfl
    | renamePeer selector newName =>
        rcases planned_inr prepares with ⟨_, _, same⟩
        cases same
        rfl
    | permGroupCreate name members random =>
        rcases planned_inr prepares with ⟨_, _, same⟩
        cases same
        rfl
    | permGroupRename id name =>
        rcases planned_inr prepares with ⟨_, _, same⟩
        cases same
        rfl
    | permGroupSetMembers id members =>
        rcases planned_inr prepares with ⟨_, _, same⟩
        cases same
        rfl
    | permGroupDelete id =>
        rcases planned_inr prepares with ⟨_, _, same⟩
        cases same
        rfl

theorem planOf_prepare {op : RosterOp} {plan : RosterPlan} {config : Config}
    (prepares : op.prepare config = .inr plan) : PlanOf op plan := by
  cases op with
  | host op =>
      rw [RosterOp.prepare] at prepares
      split at prepares
      · cases prepares
      · rename_i hostPlan made
        cases prepares
        exact planOf_host made
  | approveInvite selector approvedAt =>
      rw [RosterOp.prepare] at prepares
      split at prepares
      · cases prepares
      · cases prepares
      · cases prepares
        exact ⟨rfl, rfl, fun _ _ _ => nofun⟩
  | markInvite memberIp acceptedAt deviceId =>
      rw [RosterOp.prepare] at prepares
      split at prepares
      · cases prepares
      · cases prepares
      · rename_i key device made
        cases prepares
        refine ⟨rfl, rfl, ?_⟩
        rintro _ _ _ ⟨⟩
        exact ⟨memberIp, by rw [(reserved_planned (fun _ => 0) made).1]⟩

namespace InviteHost

variable {ι : Type} [DecidableEq ι] {escaped : Char → Bool} {ops : ι → RosterOp}

/-! ### The invariant -/

/-- A plan, and for an acceptance what it relies on. -/
structure Ready (ops : ι → RosterOp) (host : InviteHost ι) (process : ι) (plan : RosterPlan) :
    Prop where
  planOf : PlanOf (ops process) plan
  reserved : ∀ key acceptedAt device memberIp, plan = .acceptance key acceptedAt device →
    ops process = .markInvite memberIp acceptedAt (some device) →
    Reserved key memberIp acceptedAt host.roster.file host.tenure host.seen

/-- The success that a request is about to answer. -/
structure Answerable (host : InviteHost ι) (memberIp : Ipv4Addr) (device : String) : Prop where
  claimed : Claimed memberIp host.seen device host.roster.file host.tenure
  agrees : ∀ grant ∈ host.granted, grant.ip = memberIp → grant.tenure = host.seen →
    grant.device = device

structure Tracked (escaped : Char → Bool) (ops : ι → RosterOp) (host : InviteHost ι) : Prop where
  planned : ∀ process plan, host.roster.stage process = .planned plan →
    Ready ops host process plan
  holding : ∀ process result write, host.roster.stage process = .holding result write →
    host.roster.holder = some process ∧
      ∃ plan, Ready ops host process plan ∧ plan.edit escaped host.roster.file = (result, write)
  active : ∀ process, (caller (ops process)).isSome → host.request ≠ some process →
    host.roster.stage process = .waiting ∨ ∃ result, host.roster.stage process = .finished result
  answered : ∀ process memberIp acceptedAt deviceId outcome,
    ops process = .markInvite memberIp acceptedAt deviceId → host.request = some process →
    host.roster.stage process = .finished (.ok (.marked outcome)) → outcome ≠ .legacy →
    ∃ device, deviceId = some device ∧ Answerable host memberIp device
  granted : ∀ grant ∈ host.granted,
    Claimed grant.ip grant.tenure grant.device host.roster.file host.tenure
  once : ∀ one ∈ host.granted, ∀ two ∈ host.granted, one.ip = two.ip → one.tenure = two.tenure →
    one.device = two.device

omit [DecidableEq ι] in
theorem tracked_start (config : Config) : Tracked escaped ops (start ι config) where
  planned := fun _ _ => nofun
  holding := fun _ _ _ => nofun
  active := fun _ _ _ => .inl rfl
  answered := fun _ _ _ _ _ _ => nofun
  granted := fun _ => nofun
  once := fun _ => nofun

/-- Every acceptance under way belongs to the request that is served. -/
theorem Tracked.requested {host : InviteHost ι} (tracked : Tracked escaped ops host) {process : ι}
    {stage : Stage Config RosterPlan (Except String RosterResult)}
    (here : host.roster.stage process = stage) (going : stage ≠ .waiting)
    (unfinished : ∀ result, stage ≠ .finished result) (calls : (caller (ops process)).isSome) :
    host.request = some process := by
  by_contra other
  rcases tracked.active process calls other with waits | ⟨result, done⟩
  · exact going (here.symm.trans waits)
  · exact unfinished result (here.symm.trans done)

/-! ### Steps that write nothing -/

/-- The tenure that another request found stays. -/
theorem seenAfter_other {host : InviteHost ι} {reader other : ι}
    (guarded : ¬ ((caller (ops reader)).isSome ∧ host.request ≠ some reader))
    (differs : other ≠ reader) (requested : host.request = some other) :
    seenAfter ops (.read reader) host = host.seen := by
  rw [seenAfter]
  cases calls : caller (ops reader) with
  | none => rfl
  | some pair =>
      have mine : host.request = some reader := by
        by_contra theirs
        exact guarded ⟨by rw [calls]; rfl, theirs⟩
      exact absurd (Option.some.inj (requested.symm.trans mine)) differs

/-- A plan stays ready where only the tenure found by other requests changes. -/
theorem Ready.reread {host : InviteHost ι} {reader other : ι} {plan : RosterPlan}
    {roster : LockedFile.State ι Config RosterPlan (Except String RosterResult)}
    (ready : Ready ops host other plan) (same : roster.file = host.roster.file)
    (guarded : ¬ ((caller (ops reader)).isSome ∧ host.request ≠ some reader))
    (differs : other ≠ reader)
    (requested : (caller (ops other)).isSome → host.request = some other) :
    Ready ops { host with roster := roster, seen := seenAfter ops (.read reader) host } other
      plan := by
  refine ⟨ready.planOf, fun key acceptedAt device memberIp isPlan isOp => ?_⟩
  have calls : (caller (ops other)).isSome := by
    rw [isOp]
    rfl
  dsimp only
  rw [same, seenAfter_other guarded differs (requested calls)]
  exact ready.reserved key acceptedAt device memberIp isPlan isOp

omit [DecidableEq ι] in
/-- What a request finds that needs no write. -/
theorem answerable_again {host : InviteHost ι} {memberIp : Ipv4Addr} {acceptedAt : Nat}
    {deviceId : Option String} {outcome : MarkOutcome} (tracked : Tracked escaped ops host)
    (found : markInvitePlan host.roster.file memberIp acceptedAt deviceId = .ok (.inl outcome))
    (invited : outcome ≠ .legacy) :
    ∃ device, deviceId = some device ∧
      Claimed memberIp (host.tenure memberIp) device host.roster.file host.tenure ∧
      ∀ grant ∈ host.granted, grant.ip = memberIp → grant.tenure = host.tenure memberIp →
        grant.device = device := by
  obtain ⟨valid, target, there, legacy | ⟨device, given, ⟨-, has⟩ | made⟩⟩ :=
    markInvitePlan_cases found
  · cases legacy
    exact absurd rfl invited
  · obtain ⟨member, here, only⟩ := findPeer_found there
    refine ⟨device, given, ⟨le_rfl, fun _ peer listed at_ => ?_⟩, ?_⟩
    · rw [only peer listed (decide_eq_true at_)]
      exact has
    · rintro grant listed rfl current
      have owned := (tracked.granted grant listed).device current.symm target member
        (of_decide_eq_true here)
      exact Option.some.inj (owned.symm.trans has)
  · cases made.1

theorem Tracked.read {host : InviteHost ι} (tracked : Tracked escaped ops host) {reader : ι}
    {stage : Stage Config RosterPlan (Except String RosterResult)}
    (guarded : ¬ ((caller (ops reader)).isSome ∧ host.request ≠ some reader))
    (found : (∃ result, (ops reader).prepare host.roster.file = .inl result ∧
        stage = .finished result) ∨
      ∃ plan, (ops reader).prepare host.roster.file = .inr plan ∧ stage = .planned plan) :
    Tracked escaped ops { host with
      roster := host.roster.set reader stage
      seen := seenAfter ops (.read reader) host } := by
  have after (other : ι) (differs : other ≠ reader) :
      (host.roster.set reader stage).stage other = host.roster.stage other :=
    Function.update_of_ne differs _ _
  have this : (host.roster.set reader stage).stage reader = stage := Function.update_self ..
  constructor
  · intro process plan stands
    by_cases same : process = reader
    · subst same
      rcases found with ⟨result, _, rfl⟩ | ⟨made, prepares, rfl⟩
      · cases this.symm.trans stands
      · cases this.symm.trans stands
        refine ⟨planOf_prepare prepares, ?_⟩
        rintro key acceptedAt device memberIp rfl isOp
        rw [isOp, RosterOp.prepare] at prepares
        split at prepares
        · cases prepares
        · cases prepares
        · rename_i key' device' plans
          cases prepares
          have reserved := (reserved_planned host.tenure plans).2
          dsimp only
          rw [seenAfter, isOp]
          exact reserved
    · have before := (after process same).symm.trans stands
      exact (tracked.planned process plan before).reread rfl guarded same
        (tracked.requested before nofun (fun _ => nofun))
  · intro process result write stands
    by_cases same : process = reader
    · subst same
      rcases found with ⟨_, _, rfl⟩ | ⟨_, _, rfl⟩
      · cases this.symm.trans stands
      · cases this.symm.trans stands
    · have before := (after process same).symm.trans stands
      obtain ⟨holds, plan, ready, edits⟩ := tracked.holding process result write before
      exact ⟨holds, plan, ready.reread rfl guarded same
        (tracked.requested before nofun (fun _ => nofun)), edits⟩
  · intro process calls other
    by_cases same : process = reader
    · subst same
      exact absurd ⟨calls, other⟩ guarded
    · rw [after process same]
      exact tracked.active process calls other
  · intro process memberIp acceptedAt deviceId outcome isOp requested stands invited
    by_cases same : process = reader
    · subst same
      rcases found with ⟨result, prepares, rfl⟩ | ⟨_, _, rfl⟩
      · cases this.symm.trans stands
        rw [isOp, RosterOp.prepare] at prepares
        split at prepares
        · cases prepares
        · rename_i found plans
          cases prepares
          obtain ⟨device, given, claimed, agrees⟩ := answerable_again tracked plans invited
          refine ⟨device, given, ?_, ?_⟩
          · dsimp only
            rw [seenAfter, isOp]
            exact claimed
          · dsimp only
            rw [seenAfter, isOp]
            exact agrees
        · cases prepares
      · cases this.symm.trans stands
    · have before := (after process same).symm.trans stands
      obtain ⟨device, given, answerable⟩ :=
        tracked.answered process memberIp acceptedAt deviceId outcome isOp requested before invited
      have stays := seenAfter_other guarded same requested
      refine ⟨device, given, ?_, ?_⟩
      · dsimp only
        rw [stays]
        exact answerable.claimed
      · dsimp only
        rw [stays]
        exact answerable.agrees
  · exact tracked.granted
  · exact tracked.once

theorem Tracked.acquire {host : InviteHost ι} (tracked : Tracked escaped ops host) {process : ι}
    {plan : RosterPlan} (stands : host.roster.stage process = .planned plan)
    (free : host.roster.holder = none) :
    Tracked escaped ops { host with
      roster := { host.roster.set process (.holding (plan.edit escaped host.roster.file).1
        (plan.edit escaped host.roster.file).2) with holder := some process } } := by
  have idle : ∀ other result write, host.roster.stage other ≠ .holding result write := by
    intro other result write holds
    rw [(tracked.holding other result write holds).1] at free
    cases free
  constructor
  · intro other plan' stands'
    by_cases same : other = process
    · subst same
      cases (Function.update_self ..).symm.trans stands'
    · have ready := tracked.planned other plan' ((Function.update_of_ne same _ _).symm.trans stands')
      exact ⟨ready.planOf, ready.reserved⟩
  · intro other result write stands'
    by_cases same : other = process
    · subst same
      cases (Function.update_self ..).symm.trans stands'
      have ready := tracked.planned other plan stands
      exact ⟨rfl, plan, ⟨ready.planOf, ready.reserved⟩, rfl⟩
    · exact absurd ((Function.update_of_ne same _ _).symm.trans stands') (idle other result write)
  · intro other calls differs
    by_cases same : other = process
    · subst same
      exact absurd (tracked.requested stands nofun (fun _ => nofun) calls) differs
    · have before := tracked.active other calls differs
      rw [← Function.update_of_ne same (.holding _ _) host.roster.stage] at before
      exact before
  · intro other memberIp acceptedAt deviceId outcome isOp requested stands' invited
    by_cases same : other = process
    · subst same
      cases (Function.update_self ..).symm.trans stands'
    · obtain ⟨device, given, answerable⟩ := tracked.answered other memberIp acceptedAt deviceId
        outcome isOp requested ((Function.update_of_ne same _ _).symm.trans stands') invited
      exact ⟨device, given, answerable.claimed, answerable.agrees⟩
  · exact tracked.granted
  · exact tracked.once

/-! ### Writes -/

/-- What an acceptance writes. -/
theorem marked_edit {plan : RosterPlan} {doc : Config} {outcome : MarkOutcome}
    {write : Option Config}
    (edits : plan.edit escaped doc = (.ok (.marked outcome), write)) :
    plan.accepts = true ∧ write.isSome := by
  cases plan with
  | approval key approvedAt =>
      rw [RosterPlan.edit] at edits
      unfold concludedWith at edits
      split at edits
      · cases edits
      · cases edits
  | acceptance key acceptedAt device =>
      rw [RosterPlan.edit] at edits
      unfold concludedWith at edits
      split at edits
      · cases edits
      · cases edits
        exact ⟨rfl, rfl⟩
  | host plan =>
      have first : (plan.edit escaped doc).1.map RosterResult.host = .ok (.marked outcome) :=
        congrArg Prod.fst edits
      cases answer : (plan.edit escaped doc).1 with
      | error message =>
          rw [answer] at first
          cases first
      | ok result =>
          rw [answer] at first
          cases first

/-- A key that an acceptance relies on does not come back while it is under way. -/
def Careful (ops : ι → RosterOp) (event : InviteEvent ι) (host : InviteHost ι) : Prop :=
  match event with
  | .file (.release writer) =>
      ∀ result after, host.roster.stage writer = .holding result (some after) →
        ∀ process key acceptedAt device,
          host.roster.stage process = .planned (.acceptance key acceptedAt device) →
          (ops writer).brings ≠ some key
  | _ => True

/-- The file after a process has released it. -/
def released (host : InviteHost ι) (writer : ι) (result : Except String RosterResult)
    (file : Config) (tenure : Ipv4Addr → Nat) : InviteHost ι :=
  { host with
    roster := { host.roster.set writer (.finished result) with file := file, holder := none }
    tenure := tenure }

/-- The parts of the invariant that a release cannot touch. -/
theorem Tracked.release {host : InviteHost ι} (tracked : Tracked escaped ops host) {writer : ι}
    {result : Except String RosterResult} {write : Option Config} {file : Config}
    {tenure : Ipv4Addr → Nat}
    (holds : host.roster.stage writer = .holding result write)
    (planned : ∀ process plan, host.roster.stage process = .planned plan →
      Ready ops (released host writer result file tenure) process plan)
    (mine : ∀ memberIp acceptedAt deviceId outcome,
      ops writer = .markInvite memberIp acceptedAt deviceId → result = .ok (.marked outcome) →
      ∃ device, deviceId = some device ∧
        Answerable (released host writer result file tenure) memberIp device)
    (others : ∀ process memberIp device, host.request = some process → process ≠ writer →
      Answerable host memberIp device →
      Answerable (released host writer result file tenure) memberIp device)
    (granted : ∀ grant ∈ host.granted, Claimed grant.ip grant.tenure grant.device file tenure) :
    Tracked escaped ops (released host writer result file tenure) := by
  have after (other : ι) (differs : other ≠ writer) :
      (released host writer result file tenure).roster.stage other = host.roster.stage other :=
    Function.update_of_ne differs _ _
  have this : (released host writer result file tenure).roster.stage writer = .finished result :=
    Function.update_self ..
  have holder := (tracked.holding writer result write holds).1
  constructor
  · intro process plan stands
    by_cases same : process = writer
    · subst same
      cases this.symm.trans stands
    · exact planned process plan ((after process same).symm.trans stands)
  · intro process result' write' stands
    by_cases same : process = writer
    · subst same
      cases this.symm.trans stands
    · have also := (tracked.holding process result' write'
        ((after process same).symm.trans stands)).1
      exact absurd (Option.some.inj (also.symm.trans holder)) same
  · intro process calls differs
    by_cases same : process = writer
    · subst same
      exact .inr ⟨result, this⟩
    · rw [after process same]
      exact tracked.active process calls differs
  · intro process memberIp acceptedAt deviceId outcome isOp requested stands invited
    by_cases same : process = writer
    · subst same
      obtain rfl := Stage.finished.inj (this.symm.trans stands)
      exact mine memberIp acceptedAt deviceId outcome isOp rfl
    · obtain ⟨device, given, answerable⟩ := tracked.answered process memberIp acceptedAt deviceId
        outcome isOp requested ((after process same).symm.trans stands) invited
      exact ⟨device, given, others process memberIp device requested same answerable⟩
  · exact granted
  · exact tracked.once

/-- A release that writes nothing. -/
theorem Tracked.abandon {host : InviteHost ι} (tracked : Tracked escaped ops host) {writer : ι}
    {result : Except String RosterResult}
    (holds : host.roster.stage writer = .holding result none) :
    Tracked escaped ops (released host writer result host.roster.file host.tenure) := by
  refine tracked.release holds ?_ ?_ ?_ tracked.granted
  · intro process plan stands
    have ready := tracked.planned process plan stands
    exact ⟨ready.planOf, ready.reserved⟩
  · rintro memberIp acceptedAt deviceId outcome _ rfl
    obtain ⟨_, plan, _, edits⟩ := tracked.holding writer _ none holds
    exact absurd (marked_edit edits).2 (by simp)
  · exact fun _ _ _ _ _ answerable => ⟨answerable.claimed, answerable.agrees⟩

/-- A write that accepts nothing. -/
theorem Tracked.write {host : InviteHost ι} (tracked : Tracked escaped ops host) {writer : ι}
    {result : Except String RosterResult} {after : Config} {plan : RosterPlan}
    (holds : host.roster.stage writer = .holding result (some after))
    (other : plan.accepts = false) (planOf : PlanOf (ops writer) plan)
    (edits : plan.edit escaped host.roster.file = (result, some after))
    (careful : Careful ops (.file (.release writer)) host) :
    Tracked escaped ops
      (released host writer result after (bumped host.tenure plan.appends)) := by
  have edited := RosterPlan.edited other edits
  refine tracked.release holds ?_ ?_ ?_ ?_
  · intro process plan' stands
    have ready := tracked.planned process plan' stands
    refine ⟨ready.planOf, ?_⟩
    rintro key acceptedAt device memberIp rfl isOp
    apply (ready.reserved key acceptedAt device memberIp rfl isOp).edited edited
    rw [planOf.brings]
    exact careful result after holds process key acceptedAt device stands
  · rintro memberIp acceptedAt deviceId outcome _ rfl
    rw [(marked_edit edits).1] at other
    cases other
  · exact fun _ _ _ _ _ answerable => ⟨answerable.claimed.edited edited, answerable.agrees⟩
  · exact fun grant listed => (tracked.granted grant listed).edited edited

/-- An acceptance. -/
theorem Tracked.accept {host : InviteHost ι} (tracked : Tracked escaped ops host) {writer : ι}
    {result : Except String RosterResult} {after : Config} {key : PublicKey} {acceptedAt : Nat}
    {device : String} {memberIp : Ipv4Addr}
    (holds : host.roster.stage writer = .holding result (some after))
    (isOp : ops writer = .markInvite memberIp acceptedAt (some device))
    (reserved : Reserved key memberIp acceptedAt host.roster.file host.tenure host.seen)
    (done : editPeer key (PeerConfig.accept acceptedAt device) host.roster.file = .ok after) :
    Tracked escaped ops (released host writer result after host.tenure) := by
  have requested : host.request = some writer :=
    tracked.requested holds nofun (fun _ => nofun) (by rw [isOp]; rfl)
  obtain ⟨origin, located⟩ := accepted_peers reserved.unused done
  have current := reserved.current located
  refine tracked.release holds ?_ ?_ ?_ ?_
  · intro process plan stands
    refine ⟨(tracked.planned process plan stands).planOf, ?_⟩
    rintro key' acceptedAt' device' memberIp' rfl isOp'
    have also := tracked.requested stands nofun (fun _ => nofun) (by rw [isOp']; rfl)
    obtain rfl := Option.some.inj (also.symm.trans requested)
    cases stands.symm.trans holds
  · intro memberIp' acceptedAt' deviceId outcome isOp' _
    obtain ⟨rfl, rfl, rfl⟩ : memberIp = memberIp' ∧ acceptedAt = acceptedAt' ∧
        some device = deviceId := by
      rw [isOp] at isOp'
      cases isOp'
      exact ⟨rfl, rfl, rfl⟩
    refine ⟨device, rfl, ⟨current.ge, fun _ later listed here => ?_⟩, ?_⟩
    · rcases origin later listed with ⟨_, elsewhere⟩ | ⟨peer, _, _, rfl⟩
      · exact absurd here elsewhere
      · rfl
    · rintro grant listed rfl same
      obtain ⟨peer, member, isKey⟩ := located
      obtain ⟨there, _, none, _⟩ := reserved.unused.waits peer member isKey
      have owned := (tracked.granted grant listed).device (current.trans same.symm) peer member there
      rw [none] at owned
      cases owned
  · intro process _ _ also differs _
    exact absurd (Option.some.inj (also.symm.trans requested)) differs
  · exact fun grant listed => (tracked.granted grant listed).accepted reserved.unused done

omit [DecidableEq ι] in
/-- What a write of the roster is. -/
theorem Tracked.writes {host : InviteHost ι} (tracked : Tracked escaped ops host) {writer : ι}
    {result : Except String RosterResult} {after : Config}
    (holds : host.roster.stage writer = .holding result (some after)) :
    (∃ plan, plan.accepts = false ∧ PlanOf (ops writer) plan ∧
      plan.edit escaped host.roster.file = (result, some after)) ∨
    ∃ key memberIp acceptedAt device,
      ops writer = .markInvite memberIp acceptedAt (some device) ∧
      Reserved key memberIp acceptedAt host.roster.file host.tenure host.seen ∧
      editPeer key (PeerConfig.accept acceptedAt device) host.roster.file = .ok after := by
  obtain ⟨_, plan, ready, edits⟩ := tracked.holding writer result _ holds
  cases accepts : plan.accepts with
  | false => exact .inl ⟨plan, accepts, ready.planOf, edits⟩
  | true =>
      cases plan with
      | host plan => cases accepts
      | approval key approvedAt => cases accepts
      | acceptance key acceptedAt device =>
          obtain ⟨memberIp, isOp⟩ := ready.planOf.accepts key acceptedAt device rfl
          exact .inr ⟨key, memberIp, acceptedAt, device, isOp,
            ready.reserved key acceptedAt device memberIp rfl isOp, (concludedWith_some edits).1⟩

/-! ### Requests -/

omit [DecidableEq ι] in
theorem mem_grant {host : InviteHost ι} {memberIp : Ipv4Addr} {deviceId : Option String}
    {result : Except String RosterResult} {grant : InviteGrant}
    (listed : grant ∈ host.grant memberIp deviceId result) :
    ∃ outcome device, result = .ok (.marked outcome) ∧ outcome ≠ .legacy ∧
      deviceId = some device ∧
      grant = { ip := memberIp, tenure := host.seen, device := device } := by
  unfold InviteHost.grant at listed
  split at listed
  · cases listed
  · rename_i outcome device _ invited _
    exact ⟨outcome, device, rfl, invited, rfl, List.mem_singleton.mp listed⟩
  · cases listed

omit [DecidableEq ι] in
theorem caller_some {op : RosterOp} {memberIp : Ipv4Addr} {deviceId : Option String}
    (calls : caller op = some (memberIp, deviceId)) :
    ∃ acceptedAt, op = .markInvite memberIp acceptedAt deviceId := by
  cases op with
  | host op => cases calls
  | approveInvite selector approvedAt => cases calls
  | markInvite ip acceptedAt device =>
      cases calls
      exact ⟨acceptedAt, rfl⟩

omit [DecidableEq ι] in
theorem Tracked.begin {host : InviteHost ι} (tracked : Tracked escaped ops host) {process : ι}
    (idle : host.request = none) (waits : host.roster.stage process = .waiting) :
    Tracked escaped ops { host with request := some process } where
  planned := by
    intro other plan stands
    have ready := tracked.planned other plan stands
    exact ⟨ready.planOf, ready.reserved⟩
  holding := by
    intro other result write stands
    obtain ⟨holds, plan, ready, edits⟩ := tracked.holding other result write stands
    exact ⟨holds, plan, ⟨ready.planOf, ready.reserved⟩, edits⟩
  active := by
    intro other calls _
    apply tracked.active other calls
    rw [idle]
    exact nofun
  answered := by
    intro other memberIp acceptedAt deviceId outcome _ requested stands _
    obtain rfl := Option.some.inj requested
    cases waits.symm.trans stands
  granted := tracked.granted
  once := tracked.once

omit [DecidableEq ι] in
theorem Tracked.answer {host : InviteHost ι} (tracked : Tracked escaped ops host) {process : ι}
    {memberIp : Ipv4Addr} {acceptedAt : Nat} {deviceId : Option String}
    {result : Except String RosterResult}
    (isOp : ops process = .markInvite memberIp acceptedAt deviceId)
    (done : host.roster.stage process = .finished result) (requested : host.request = some process) :
    Tracked escaped ops { host with
      request := none
      granted := host.granted ++ host.grant memberIp deviceId result } := by
  have new : ∀ grant ∈ host.grant memberIp deviceId result,
      grant.ip = memberIp ∧ grant.tenure = host.seen ∧ Answerable host memberIp grant.device := by
    intro grant listed
    obtain ⟨outcome, device, rfl, invited, given, rfl⟩ := mem_grant listed
    obtain ⟨device', given', answerable⟩ := tracked.answered process memberIp acceptedAt deviceId
      outcome isOp requested done invited
    obtain rfl := Option.some.inj (given.symm.trans given')
    exact ⟨rfl, rfl, answerable⟩
  have single : ∀ one ∈ host.grant memberIp deviceId result,
      ∀ two ∈ host.grant memberIp deviceId result, one.device = two.device := by
    intro one listed two listed'
    obtain ⟨_, device, _, _, given, rfl⟩ := mem_grant listed
    obtain ⟨_, device', _, _, given', rfl⟩ := mem_grant listed'
    exact Option.some.inj (given.symm.trans given')
  constructor
  · intro other plan stands
    have ready := tracked.planned other plan stands
    exact ⟨ready.planOf, ready.reserved⟩
  · intro other result' write stands
    obtain ⟨holds, plan, ready, edits⟩ := tracked.holding other result' write stands
    exact ⟨holds, plan, ⟨ready.planOf, ready.reserved⟩, edits⟩
  · intro other calls _
    by_cases same : other = process
    · subst same
      exact .inr ⟨result, done⟩
    · apply tracked.active other calls
      rw [requested]
      exact fun equal => same (Option.some.inj equal).symm
  · exact fun _ _ _ _ _ _ => nofun
  · intro grant listed
    rcases List.mem_append.mp listed with old | fresh
    · exact tracked.granted grant old
    · obtain ⟨ip, tenure, answerable⟩ := new grant fresh
      rw [ip, tenure]
      exact answerable.claimed
  · intro one listed two listed' sameIp sameTenure
    rcases List.mem_append.mp listed with old | fresh
    · rcases List.mem_append.mp listed' with old' | fresh'
      · exact tracked.once one old two old' sameIp sameTenure
      · obtain ⟨ip, tenure, answerable⟩ := new two fresh'
        exact answerable.agrees one old (sameIp.trans ip) (sameTenure.trans tenure)
    · obtain ⟨ip, tenure, answerable⟩ := new one fresh
      rcases List.mem_append.mp listed' with old' | fresh'
      · exact (answerable.agrees two old' (sameIp.symm.trans ip)
          (sameTenure.symm.trans tenure)).symm
      · exact single one fresh two fresh'

/-! ### Steps -/

/-- What a step does to the roster. -/
theorem step_file {event : LockedFile.Event ι} {host next : InviteHost ι}
    (happens : step escaped ops (.file event) host = some next) :
    ¬ ((caller (ops (process event))).isSome ∧ host.request ≠ some (process event)) ∧
      ∃ roster, LockedFile.step (rosterProtocol escaped) ops event host.roster = some roster ∧
        next = { host with
          roster := roster
          tenure := tenureAfter ops event host
          seen := seenAfter ops event host } := by
  rw [step] at happens
  split at happens
  · cases happens
  · rename_i guarded
    obtain ⟨roster, steps, rfl⟩ := Option.map_eq_some_iff.mp happens
    exact ⟨guarded, roster, steps, rfl⟩

theorem Tracked.file {event : LockedFile.Event ι} {host next : InviteHost ι}
    (tracked : Tracked escaped ops host) (careful : Careful ops (.file event) host)
    (happens : step escaped ops (.file event) host = some next) : Tracked escaped ops next := by
  obtain ⟨guarded, roster, steps, rfl⟩ := step_file happens
  rcases LockedFile.step_cases steps with ⟨process, result, rfl, waits, answers, rfl⟩ |
    ⟨process, plan, rfl, waits, plans, rfl⟩ | ⟨process, plan, rfl, stands, free, rfl⟩ |
    ⟨process, result, write, rfl, holds, rfl⟩
  · exact tracked.read guarded (.inl ⟨result, answers, rfl⟩)
  · exact tracked.read guarded (.inr ⟨plan, plans, rfl⟩)
  · exact tracked.acquire stands free
  · cases write with
    | none =>
        have same : tenureAfter ops (.release process) host = host.tenure := by
          rw [tenureAfter, holds]
        rw [same]
        exact tracked.abandon holds
    | some after =>
        have tenure : tenureAfter ops (.release process) host =
            bumped host.tenure (ops process).appends := by
          rw [tenureAfter, holds]
          cases (ops process).appends with
          | none => rfl
          | some peer => rfl
        rw [tenure]
        rcases tracked.writes holds with ⟨plan, other, planOf, edits⟩ |
          ⟨key, memberIp, acceptedAt, device, isOp, reserved, done⟩
        · rw [← planOf.appends]
          exact tracked.write holds other planOf edits careful
        · rw [isOp]
          exact tracked.accept holds isOp reserved done

theorem tracked_step {event : InviteEvent ι} {host next : InviteHost ι}
    (tracked : Tracked escaped ops host) (careful : Careful ops event host)
    (happens : step escaped ops event host = some next) : Tracked escaped ops next := by
  cases event with
  | begin process =>
      rw [step] at happens
      split at happens
      · rename_i pair calls idle waits
        cases happens
        exact tracked.begin idle waits
      · cases happens
  | file event => exact tracked.file careful happens
  | answer process =>
      rw [step] at happens
      split at happens
      · rename_i memberIp deviceId result calls done
        obtain ⟨acceptedAt, isOp⟩ := caller_some calls
        split at happens
        · rename_i requested
          cases happens
          exact tracked.answer isOp done requested
        · cases happens
      · cases happens

/-! ### What every step keeps -/

/-- The step is the one that takes the peer off the roster. -/
def Removes (event : InviteEvent ι) (host : InviteHost ι) (peer : PeerConfig) : Prop :=
  ∃ writer removed write, event = .file (.release writer) ∧
    host.roster.stage writer = .holding (.ok (.host (.removed removed))) write ∧
    removed.publicKey = peer.publicKey

/-- A step keeps the stored devices, and accepts invitations in time only. -/
structure StepKeeps (ops : ι → RosterOp) (event : InviteEvent ι) (host next : InviteHost ι) :
    Prop where
  devices : ∀ peer ∈ host.roster.file.peers, ∀ device, peer.inviteDeviceId = some device →
    Removes event host peer ∨
      ∃ later ∈ next.roster.file.peers, later.allowedIps = peer.allowedIps ∧
        later.inviteId = peer.inviteId ∧ later.inviteDeviceId = some device
  inTime : ∀ later ∈ next.roster.file.peers, ∀ time, later.inviteAcceptedAt = some time →
    (∃ peer ∈ host.roster.file.peers, peer.allowedIps = later.allowedIps ∧
      peer.inviteId = later.inviteId ∧ peer.inviteAcceptedAt = some time) ∨
    ∃ writer memberIp deviceId, event = .file (.release writer) ∧
      ops writer = .markInvite memberIp time deviceId ∧
      ∀ expires, later.inviteExpiresAt = some expires → time < expires

omit [DecidableEq ι] in
theorem StepKeeps.of_file {event : InviteEvent ι} {host next : InviteHost ι}
    (same : next.roster.file = host.roster.file) : StepKeeps ops event host next where
  devices := fun peer listed _ has => .inr ⟨peer, same ▸ listed, rfl, rfl, has⟩
  inTime := fun later listed _ accepted => .inl ⟨later, same ▸ listed, rfl, rfl, accepted⟩

omit [DecidableEq ι] in
/-- What a plan that takes a peer off the roster answers. -/
theorem removed_answer {plan : RosterPlan} {doc after : Config} {key : PublicKey}
    {result : Except String RosterResult} (removes : plan.removes = some key)
    (edits : plan.edit escaped doc = (result, some after)) :
    ∃ removed, result = .ok (.host (.removed removed)) ∧ removed.publicKey = key := by
  unfold RosterPlan.removes at removes
  split at removes
  · rename_i removal
    cases removes
    rw [RosterPlan.edit, HostPlan.edit] at edits
    cases done : removal.edit doc with
    | error message =>
        rw [done] at edits
        cases edits
    | ok config =>
        rw [done] at edits
        cases edits
        exact ⟨removal.removed, rfl, rfl⟩
  · cases removes

omit [DecidableEq ι] in
theorem StepKeeps.write {host next : InviteHost ι} {writer : ι}
    {result : Except String RosterResult} {plan : RosterPlan}
    (holds : host.roster.stage writer = .holding result (some next.roster.file))
    (other : plan.accepts = false)
    (edits : plan.edit escaped host.roster.file = (result, some next.roster.file)) :
    StepKeeps ops (.file (.release writer)) host next := by
  have edited := RosterPlan.edited other edits
  constructor
  · intro peer listed device has
    rcases edited.kept peer listed with removes | ⟨later, member, same⟩
    · obtain ⟨removed, rfl, key⟩ := removed_answer removes edits
      exact .inl ⟨writer, removed, _, rfl, holds, key⟩
    · exact .inr ⟨later, member, same.allowedIps, same.inviteId, same.deviceId.trans has⟩
  · intro later listed time accepted
    rcases edited.origin later listed with ⟨peer, member, same, _⟩ | ⟨new, _, rfl⟩
    · exact .inl ⟨peer, member, same.allowedIps.symm, same.inviteId.symm,
        same.acceptedAt.symm.trans accepted⟩
    · cases accepted

omit [DecidableEq ι] in
theorem StepKeeps.accept {host next : InviteHost ι} {writer : ι} {key : PublicKey}
    {memberIp : Ipv4Addr} {acceptedAt : Nat} {device : String}
    (isOp : ops writer = .markInvite memberIp acceptedAt (some device))
    (unused : Unused key memberIp acceptedAt host.roster.file)
    (done : editPeer key (PeerConfig.accept acceptedAt device) host.roster.file =
      .ok next.roster.file) : StepKeeps ops (.file (.release writer)) host next := by
  obtain ⟨peers, _⟩ := editPeer_peers done
  constructor
  · intro peer listed holder has
    refine .inr ⟨peer, ?_, rfl, rfl, has⟩
    rw [peers]
    refine List.mem_map.mpr ⟨peer, listed, if_neg fun isKey => ?_⟩
    rw [(unused.waits peer listed isKey).2.2.1] at has
    cases has
  · intro later listed time accepted
    rw [peers] at listed
    obtain ⟨peer, member, rfl⟩ := List.mem_map.mp listed
    split at accepted
    · rename_i isKey
      cases accepted
      refine .inr ⟨writer, memberIp, some device, rfl, isOp, fun expires limit => ?_⟩
      rw [if_pos isKey] at limit
      exact (unused.waits peer member isKey).2.2.2 expires limit
    · rename_i differs
      rw [if_neg differs]
      exact .inl ⟨peer, member, rfl, rfl, accepted⟩

/-- A careful step from a state that is tracked keeps the devices and the deadlines. -/
theorem Tracked.step_keeps {event : InviteEvent ι} {host next : InviteHost ι}
    (tracked : Tracked escaped ops host) (happens : step escaped ops event host = some next) :
    StepKeeps ops event host next := by
  cases event with
  | begin process =>
      rw [step] at happens
      split at happens
      · cases happens
        exact .of_file rfl
      · cases happens
  | answer process =>
      rw [step] at happens
      split at happens
      · split at happens
        · cases happens
          exact .of_file rfl
        · cases happens
      · cases happens
  | file event =>
      obtain ⟨_, roster, steps, rfl⟩ := step_file happens
      rcases LockedFile.step_cases steps with ⟨process, result, rfl, _, _, rfl⟩ |
        ⟨process, plan, rfl, _, _, rfl⟩ | ⟨process, plan, rfl, _, _, rfl⟩ |
        ⟨process, result, write, rfl, holds, rfl⟩
      · exact .of_file rfl
      · exact .of_file rfl
      · exact .of_file rfl
      · cases write with
        | none => exact .of_file rfl
        | some after =>
            rcases tracked.writes holds with ⟨plan, other, _, edits⟩ |
              ⟨key, memberIp, acceptedAt, device, isOp, reserved, done⟩
            · exact .write holds other edits
            · exact .accept isOp reserved.unused done

/-- In a run in which no key comes back that an acceptance under way relies on, an invitation is
used by one device only, its device is kept, and it is accepted in time. -/
theorem used_once (escaped : Char → Bool) (ops : ι → RosterOp) (config : Config)
    {events : List (InviteEvent ι)} {host : InviteHost ι}
    (reached : Runs.run (step escaped ops) events (start ι config) = some host)
    (careful : Runs.Along (step escaped ops) (Careful ops) events (start ι config)) :
    (∀ one ∈ host.granted, ∀ two ∈ host.granted, one.ip = two.ip → one.tenure = two.tenure →
      one.device = two.device) ∧
    ∀ event next, step escaped ops event host = some next → StepKeeps ops event host next := by
  have tracked : Tracked escaped ops host :=
    Runs.run_invariant (Tracked escaped ops)
      (fun _ _ _ holds meets happens => tracked_step holds meets happens)
      (tracked_start config) careful reached
  exact ⟨tracked.once, fun _ _ happens => tracked.step_keeps happens⟩

/-- One member has joined, another one is invited. -/
def halfJoined : Config where
  interface := { address := Ipv4Net.slash24 0x0A630001#32 }
  peers := [
    { inviteId := some "00000000000000000000000000000001"
      inviteIssuedAt := some 1000
      inviteExpiresAt := some 4600
      publicKey := ⟨7⟩
      allowedIps := [Ipv4Net.host 0x0A630002#32] },
    { inviteId := some "00000000000000000000000000000002"
      inviteIssuedAt := some 1000
      inviteAcceptedAt := some 1500
      inviteDeviceId := some "0000000000000000000000000000000b"
      publicKey := ⟨8⟩
      allowedIps := [Ipv4Net.host 0x0A630003#32] }]

/-- The first Hello of the invited member. -/
def firstHello : RosterOp :=
  .markInvite 0x0A630002#32 2000 (some "0000000000000000000000000000000a")

theorem used_once_joined :
    ∃ host : InviteHost Unit, Runs.run (step (fun _ => false) (fun _ => firstHello))
        [.begin (), .file (.read ()), .file (.acquire ()), .file (.release ()), .answer ()]
        (start Unit halfJoined) = some host ∧
      host.granted = [{ ip := 0x0A630002#32, tenure := 0,
                        device := "0000000000000000000000000000000a" }] ∧
      ∀ event next, step (fun _ => false) (fun _ => firstHello) event host = some next →
        StepKeeps (fun _ => firstHello) event host next := by
  let events : List (InviteEvent Unit) :=
    [.begin (), .file (.read ()), .file (.acquire ()), .file (.release ()), .answer ()]
  have granted : ((Runs.run (step (fun _ => false) (fun _ => firstHello)) events
      (start Unit halfJoined)).map InviteHost.granted) =
      some [{ ip := 0x0A630002#32, tenure := 0,
              device := "0000000000000000000000000000000a" }] := by decide
  obtain ⟨host, reached, recorded⟩ := Option.map_eq_some_iff.mp granted
  refine ⟨host, reached, recorded, ?_⟩
  apply (used_once (fun _ => false) (fun _ => firstHello) halfJoined reached ?_).2
  refine Runs.along_of_forall (fun event _ state => ?_) _
  cases event with
  | begin process => exact trivial
  | answer process => exact trivial
  | file event =>
      cases event with
      | read process => exact trivial
      | acquire process => exact trivial
      | release process => exact fun _ _ _ _ _ _ _ _ => nofun

/-- While the invited member is accepted, they are removed, and the joined member rotates to their
key. -/
def takeover : Fin 3 → RosterOp
  | 0 => firstHello
  | 1 => .host (.removePeer (.ip 0x0A630002#32))
  | 2 => .host (.rotatePeerKey 0x0A630003#32 ⟨7⟩ ⟨1⟩)

def takeoverEvents : List (InviteEvent (Fin 3)) :=
  [.begin 0, .file (.read 0),
    .file (.read 1), .file (.acquire 1), .file (.release 1),
    .file (.read 2), .file (.acquire 2), .file (.release 2),
    .file (.acquire 0)]

/-- What the acceptance makes of the joined member. -/
def takenOver : Config where
  interface := { address := Ipv4Net.slash24 0x0A630001#32 }
  peers := [
    { inviteId := some "00000000000000000000000000000002"
      inviteIssuedAt := some 1000
      inviteAcceptedAt := some 2000
      inviteDeviceId := some "0000000000000000000000000000000a"
      publicKey := ⟨7⟩
      allowedIps := [Ipv4Net.host 0x0A630003#32] }]

/-- The device of the joined member is replaced by the one that was invited. -/
theorem used_twice :
    ∃ host next, Runs.run (step (fun _ => false) takeover) takeoverEvents
        (start (Fin 3) halfJoined) = some host ∧
      step (fun _ => false) takeover (.file (.release 0)) host = some next ∧
      ¬ StepKeeps takeover (.file (.release 0)) host next := by
  have before : ((Runs.run (step (fun _ => false) takeover) takeoverEvents
      (start (Fin 3) halfJoined)).map (fun host =>
        (host.roster.file.peers.map PeerConfig.inviteDeviceId, host.roster.stage 0))) =
      some ([some "0000000000000000000000000000000b"],
        .holding (.ok (.marked .first)) (some takenOver)) := by decide
  obtain ⟨host, reached, stood⟩ := Option.map_eq_some_iff.mp before
  obtain ⟨devices, holds⟩ := Prod.mk.inj stood
  obtain ⟨next, happens, file⟩ : ∃ next,
      step (fun _ => false) takeover (.file (.release 0)) host = some next ∧
        next.roster.file = takenOver := by
    have released : ((Runs.run (step (fun _ => false) takeover) takeoverEvents
        (start (Fin 3) halfJoined)).bind
          (step (fun _ => false) takeover (.file (.release 0)))).map
            (fun next => next.roster.file) = some takenOver := by decide
    rw [reached, Option.bind_some] at released
    exact Option.map_eq_some_iff.mp released
  refine ⟨host, next, reached, happens, fun keeps => ?_⟩
  have owned : some "0000000000000000000000000000000b" ∈
      host.roster.file.peers.map PeerConfig.inviteDeviceId := devices ▸ List.mem_cons_self
  obtain ⟨peer, member, has⟩ := List.mem_map.mp owned
  rcases keeps.devices peer member _ has with ⟨writer, removed, write, same, stands, _⟩ |
    ⟨later, listed, _, _, kept⟩
  · cases same
    cases holds.symm.trans stands
  · have still : some "0000000000000000000000000000000b" ∈
        next.roster.file.peers.map PeerConfig.inviteDeviceId :=
      kept ▸ List.mem_map.mpr ⟨later, listed, rfl⟩
    rw [file] at still
    exact absurd still (by decide)

end InviteHost

end PeerCove
