/-
Module: PeerCove.Proofs.PeerSync
Layer: Proofs
Purpose: What the interface holds after each tick of `sync_peers`, and when the removal of peers in
  two stages is what it is meant to be.
Trusted boundary: none
Main exports: SyncState.Right, SyncTick.Fits, SyncState.peers_removed_iff
-/
import PeerCove.Host.PeerSync
import PeerCove.Library.Runs
import PeerCove.Proofs.ApprovalIsolation

namespace PeerCove

open Fallible

/-! ### What a tick is for -/

/-- The address by which a peer is known. -/
def PeerSpec.ip (spec : PeerSpec) : Ipv4Addr :=
  (PeerFingerprint.of spec).ip

/-- The peer is not asked for any more, and its address has not gone to another key. -/
def Leaves (eligible : List PeerConfig) (spec : PeerSpec) : Prop :=
  (∀ peer ∈ eligible, peer.publicKey ≠ spec.publicKey) ∧
    ∀ peer ∈ eligible, peer.virtualIp ≠ some spec.ip

/-- No address of one list stands alone in the other as well. -/
def NoSharedHost (one two : List Ipv4Net) : Prop :=
  ∀ net ∈ one, net.prefixLen = 32 → net ∉ two

theorem NoSharedHost.symm {one two : List Ipv4Net} (apart : NoSharedHost one two) :
    NoSharedHost two one :=
  fun net second host first => apart net first host second

/-- What holds after a tick that did what it should. -/
structure SyncState.Right (state : SyncState) : Prop where
  once : (state.backend.peers.map PeerSpec.publicKey).Nodup
  /-- Every eligible peer can be set up as the configuration and its key file say. -/
  readable : ∀ peer ∈ state.eligible, ∃ spec, buildPeerSpec state.secrets peer = .ok spec
  /-- The interface holds these peers, and those that are absent for the first time. -/
  peers : ∀ spec, spec ∈ state.backend.peers ↔
    spec ∈ state.asked ∨ (spec ∈ state.before ∧ Leaves state.eligible spec)
  /-- Those that are absent for the first time have been told, if they are connected. -/
  told : state.told.Nodup ∧ ∀ notice, notice ∈ state.told ↔
    ∃ spec ∈ state.before, Leaves state.eligible spec ∧ notice = (spec.publicKey, spec.ip) ∧
      spec.ip ∈ state.connected
  apart : ∀ one ∈ state.backend.peers, ∀ two ∈ state.backend.peers,
    one.publicKey ≠ two.publicKey → NoSharedHost one.allowedIps two.allowedIps

/-- The addresses a configuration gives to a peer. -/
def PeerConfig.nets (peer : PeerConfig) : List Ipv4Net :=
  peer.allowedIps ++ peer.subnets

/-- No two peers are given the same address. -/
def DistinctHosts (eligible : List PeerConfig) : Prop :=
  ∀ one ∈ eligible, ∀ two ∈ eligible, one.publicKey ≠ two.publicKey →
    NoSharedHost one.nets two.nets

/-- When a tick does what it should. -/
structure SyncTick.Fits (tick : SyncTick) (state : SyncState) : Prop where
  readable : ∀ peer ∈ eligiblePeers tick.config tick.now,
    ∃ spec, buildPeerSpec tick.secrets peer = .ok spec
  distinct : DistinctHosts (eligiblePeers tick.config tick.now)
  /-- No peer that is gone now was announced as removed in an earlier absence and has come back
  before it was taken off. -/
  settled : ∀ spec ∈ state.asked, Leaves (eligiblePeers tick.config tick.now) spec →
    spec.publicKey ∉ state.run.pendingRemoval
  /-- A peer that is gone now leaves no further address to another one. -/
  handed : ∀ spec ∈ state.asked, Leaves (eligiblePeers tick.config tick.now) spec →
    ∀ peer ∈ eligiblePeers tick.config tick.now, NoSharedHost spec.allowedIps peer.nets

/-! ### The supervisor and the interface -/

/-- What is remembered of a peer of the interface. -/
def entryOf (spec : PeerSpec) : PublicKey × PeerFingerprint :=
  (spec.publicKey, PeerFingerprint.of spec)

/-- The supervisor remembers what the interface holds. -/
structure Mirrored (run : Supervisor) (backend : TunnelBackend) : Prop where
  known : run.known = backend.peers.map entryOf
  once : (backend.peers.map PeerSpec.publicKey).Nodup

/-- A peer is all in what is remembered of it. -/
theorem entryOf_injective {one two : PeerSpec} (same : entryOf one = entryOf two) : one = two := by
  obtain ⟨key, fingerprint⟩ := Prod.mk.inj same
  cases one
  cases two
  simp only [PeerFingerprint.of, PeerFingerprint.mk.injEq] at fingerprint key
  obtain ⟨_, endpoint, nets, keepalive, psk⟩ := fingerprint
  subst key endpoint nets keepalive psk
  rfl

theorem Mirrored.filter {run : Supervisor} {backend : TunnelBackend}
    (mirrored : Mirrored run backend) (keep : PublicKey → Bool) :
    run.known.filter (fun entry => keep entry.1) =
      (backend.peers.filter (fun spec => keep spec.publicKey)).map entryOf := by
  rw [mirrored.known, List.filter_map]
  rfl

theorem once_filter {peers : List PeerSpec} (once : (peers.map PeerSpec.publicKey).Nodup)
    (keep : PeerSpec → Bool) : ((peers.filter keep).map PeerSpec.publicKey).Nodup :=
  once.sublist (List.filter_sublist.map PeerSpec.publicKey)

theorem spec_unique {peers : List PeerSpec} (once : (peers.map PeerSpec.publicKey).Nodup)
    {one two : PeerSpec} (first : one ∈ peers) (second : two ∈ peers)
    (same : one.publicKey = two.publicKey) : one = two :=
  List.inj_on_of_nodup_map once first second same

/-- The lookup of `known`. -/
theorem Mirrored.fingerprint {run : Supervisor} {backend : TunnelBackend}
    (mirrored : Mirrored run backend) (key : PublicKey) :
    run.fingerprint key =
      (backend.peers.find? (fun spec => spec.publicKey = key)).map PeerFingerprint.of := by
  rw [Supervisor.fingerprint, mirrored.known, List.find?_map, Option.map_map]
  rfl

/-! ### Taking peers off -/

section
variable {run : Supervisor} {session : BackendSession}

/-- What is left without one key and then without others. -/
theorem filter_forgotten {α : Type} (key : PublicKey) (rest : List PublicKey)
    (keyOf : α → PublicKey) (entries : List α) :
    (entries.filter (fun entry => keyOf entry ≠ key)).filter (fun entry => keyOf entry ∉ rest) =
      entries.filter (fun entry => keyOf entry ∉ key :: rest) := by
  rw [List.filter_filter]
  refine List.filter_congr (fun entry _ => ?_)
  rw [← Bool.decide_and, decide_eq_decide, List.mem_cons, not_or, and_comm]

/-- Peers that are taken off are gone from the interface and from both tables. -/
theorem removePeers_all (keys : List PublicKey) :
    (removePeers allWork keys run session).1.known =
        run.known.filter (fun entry => entry.1 ∉ keys) ∧
      (removePeers allWork keys run session).1.pendingRemoval =
        run.pendingRemoval.filter (fun key => key ∉ keys) ∧
      (removePeers allWork keys run session).2.state.peers =
        session.state.peers.filter (fun spec => spec.publicKey ∉ keys) := by
  induction keys generalizing run session with
  | nil => simp [removePeers]
  | cons key rest ih =>
      have issued : backendOp allWork (.removePeer key) session =
          (true, (backendOp allWork (.removePeer key) session).2) := rfl
      rw [removePeers, issued]
      obtain ⟨known, pending, peers⟩ := @ih (run.forget key)
        (backendOp allWork (.removePeer key) session).2
      exact ⟨known.trans (filter_forgotten key rest Prod.fst _),
        pending.trans (filter_forgotten key rest id _),
        peers.trans (filter_forgotten key rest PeerSpec.publicKey _)⟩

theorem removePeers_mirrored (keys : List PublicKey) (mirrored : Mirrored run session.state) :
    Mirrored (removePeers allWork keys run session).1
      (removePeers allWork keys run session).2.state := by
  obtain ⟨known, _, peers⟩ := @removePeers_all run session keys
  constructor
  · rw [known, peers]
    exact mirrored.filter (fun key => key ∉ keys)
  · rw [peers]
    exact once_filter mirrored.once _

/-! ### Putting peers on -/

/-- What the peers ask for. -/
def askedFor (secrets : TunnelSecrets) (peers : List PeerConfig) : List PeerSpec :=
  peers.filterMap (fun peer => (buildPeerSpec secrets peer).toOption)

theorem mem_askedFor {secrets : TunnelSecrets} {peers : List PeerConfig} {spec : PeerSpec} :
    spec ∈ askedFor secrets peers ↔ ∃ peer ∈ peers, buildPeerSpec secrets peer = .ok spec := by
  rw [askedFor, List.mem_filterMap]
  refine exists_congr (fun peer => and_congr Iff.rfl ?_)
  cases buildPeerSpec secrets peer with
  | error message => exact ⟨(nomatch ·), (nomatch ·)⟩
  | ok made =>
      exact ⟨fun same => congrArg _ (Option.some.inj same),
        fun same => congrArg _ (Except.ok.inj same)⟩

theorem askedFor_cons_error {secrets : TunnelSecrets} {peer : PeerConfig} {message : String}
    (rest : List PeerConfig) (unreadable : buildPeerSpec secrets peer = .error message) :
    askedFor secrets (peer :: rest) = askedFor secrets rest :=
  List.filterMap_cons_none (by rw [unreadable]; rfl)

theorem askedFor_cons_ok {secrets : TunnelSecrets} {peer : PeerConfig} {spec : PeerSpec}
    (rest : List PeerConfig) (built : buildPeerSpec secrets peer = .ok spec) :
    askedFor secrets (peer :: rest) = spec :: askedFor secrets rest :=
  List.filterMap_cons_some (by rw [built]; rfl)

/-- One peer is set up as it is asked for, the others stay as they are. -/
structure Placed (spec : PeerSpec) (before : Supervisor × BackendSession)
    (after : Supervisor × BackendSession) : Prop where
  mirrored : Mirrored after.1 after.2.state
  pending : after.1.pendingRemoval = before.1.pendingRemoval
  peers : ∀ other, other ∈ after.2.state.peers ↔
    other = spec ∨ (other ∈ before.2.state.peers ∧ other.publicKey ≠ spec.publicKey)

/-- Where a peer is put in the place of what was there under its key. -/
theorem placed_learn (mirrored : Mirrored run session.state) {spec : PeerSpec}
    {after : BackendSession} (replaced : after.state.peers =
      session.state.peers.filter (fun other => other.publicKey ≠ spec.publicKey) ++ [spec]) :
    Placed spec (run, session) (run.learn spec.publicKey (PeerFingerprint.of spec), after) := by
  refine ⟨⟨?_, ?_⟩, rfl, ?_⟩
  · rw [Supervisor.learn, mirrored.filter (fun key => key ≠ spec.publicKey), replaced,
      List.map_append]
    rfl
  · rw [replaced, List.map_append, List.nodup_append]
    refine ⟨once_filter mirrored.once _, List.nodup_singleton _, ?_⟩
    intro key listed other single same
    obtain ⟨old, kept, rfl⟩ := List.mem_map.mp listed
    rw [List.map_singleton, List.mem_singleton] at single
    have differs := (List.mem_filter.mp kept).2
    rw [decide_eq_true_eq] at differs
    exact differs (same.trans single)
  · intro other
    rw [replaced, List.mem_append, List.mem_singleton, List.mem_filter, decide_eq_true_eq, or_comm]

/-- The body of the loop, for a peer that can be set up. -/
theorem addPeers_cons {secrets : TunnelSecrets} {peer : PeerConfig} {spec : PeerSpec}
    (rest : List PeerConfig) (built : buildPeerSpec secrets peer = .ok spec)
    (mirrored : Mirrored run session.state) :
    ∃ after, Placed spec (run, session) after ∧
      addPeers allWork secrets (peer :: rest) run session =
        addPeers allWork secrets rest after.1 after.2 := by
  have key : spec.publicKey = peer.publicKey := (buildPeerSpec_ok built).1
  rw [addPeers, built]
  simp only
  rw [mirrored.fingerprint, ← key]
  cases found : session.state.peers.find? (fun other => other.publicKey = spec.publicKey) with
  | none =>
      have issued : backendOp allWork (.addPeer spec) session =
          (true, (backendOp allWork (.addPeer spec) session).2) := rfl
      rw [Option.map_none, issued]
      exact ⟨_, placed_learn mirrored rfl, rfl⟩
  | some current =>
      have listed : current ∈ session.state.peers := List.mem_of_find?_eq_some found
      have same : current.publicKey = spec.publicKey := by
        simpa using List.find?_some found
      rw [Option.map_some]
      simp only
      split
      · next unchanged =>
          have equal : current = spec := entryOf_injective (Prod.ext same unchanged)
          refine ⟨(run, session), ⟨mirrored, rfl, fun other => ?_⟩, rfl⟩
          constructor
          · intro member
            by_cases own : other.publicKey = spec.publicKey
            · have held : other = current :=
                spec_unique mirrored.once member listed (own.trans same.symm)
              exact .inl (held.trans equal)
            · exact .inr ⟨member, own⟩
          · rintro (rfl | ⟨member, _⟩)
            · exact equal ▸ listed
            · exact member
      · have removed : backendOp allWork (.removePeer spec.publicKey) session =
            (true, (backendOp allWork (.removePeer spec.publicKey) session).2) := rfl
        rw [removed]
        simp only
        have issued : backendOp allWork (.addPeer spec)
            (backendOp allWork (.removePeer spec.publicKey) session).2 = (true, (backendOp allWork
              (.addPeer spec) (backendOp allWork (.removePeer spec.publicKey) session).2).2) := rfl
        rw [issued]
        refine ⟨_, placed_learn mirrored ?_, rfl⟩
        change List.filter _ (List.filter _ _) ++ _ = _
        rw [List.filter_filter]
        simp only [Bool.and_self]

/-- After the loop the peers are set up as asked for; what else was there has stayed. -/
theorem addPeers_all (secrets : TunnelSecrets) {peers : List PeerConfig}
    (distinct : (peers.map PeerConfig.publicKey).Nodup) (mirrored : Mirrored run session.state) :
    Mirrored (addPeers allWork secrets peers run session).1
        (addPeers allWork secrets peers run session).2.state ∧
      (addPeers allWork secrets peers run session).1.pendingRemoval = run.pendingRemoval ∧
        ∀ spec, spec ∈ (addPeers allWork secrets peers run session).2.state.peers ↔
          spec ∈ askedFor secrets peers ∨ (spec ∈ session.state.peers ∧
            ∀ other ∈ askedFor secrets peers, other.publicKey ≠ spec.publicKey) := by
  induction peers generalizing run session with
  | nil =>
      refine ⟨mirrored, rfl, fun spec => ?_⟩
      exact ⟨fun listed => .inr ⟨listed, fun _ none => absurd none List.not_mem_nil⟩,
        fun either => either.elim (fun none => absurd none List.not_mem_nil) And.left⟩
  | cons peer rest ih =>
      rw [List.map_cons, List.nodup_cons] at distinct
      cases built : buildPeerSpec secrets peer with
      | error message =>
          rw [addPeers, built, askedFor_cons_error rest built]
          exact ih distinct.2 mirrored
      | ok made =>
          obtain ⟨after, placed, same⟩ := addPeers_cons rest built mirrored
          have apart : ∀ other ∈ askedFor secrets rest, other.publicKey ≠ made.publicKey := by
            intro other listed equal
            obtain ⟨two, member, built'⟩ := mem_askedFor.mp listed
            apply distinct.1
            rw [← (buildPeerSpec_ok built).1, ← equal, (buildPeerSpec_ok built').1]
            exact List.mem_map_of_mem member
          obtain ⟨mirrored', pending, peers⟩ := ih distinct.2 placed.mirrored
          rw [same, askedFor_cons_ok rest built]
          refine ⟨mirrored', pending.trans placed.pending, fun spec => ?_⟩
          rw [peers spec, placed.peers spec]
          constructor
          · rintro (listed | ⟨rfl | ⟨old, differs⟩, absent⟩)
            · exact .inl (List.mem_cons_of_mem made listed)
            · exact .inl List.mem_cons_self
            · refine .inr ⟨old, fun other listed => ?_⟩
              rcases List.mem_cons.mp listed with rfl | listed
              · exact differs.symm
              · exact absent other listed
          · rintro (listed | ⟨old, absent⟩)
            · rcases List.mem_cons.mp listed with rfl | listed
              · exact .inr ⟨.inl rfl, apart⟩
              · exact .inl listed
            · refine .inr ⟨.inr ⟨old, (absent made List.mem_cons_self).symm⟩, ?_⟩
              exact fun other listed => absent other (List.mem_cons_of_mem made listed)

end

/-! ### One tick -/

/-- No peer has the key. -/
def Absent (eligible : List PeerConfig) (key : PublicKey) : Prop :=
  ∀ peer ∈ eligible, peer.publicKey ≠ key

theorem all_absent {eligible : List PeerConfig} {key : PublicKey} :
    eligible.all (fun peer => peer.publicKey ≠ key) = true ↔ Absent eligible key := by
  simp [Absent]

theorem takenOver_iff {config : Config} {now : Nat} {spec : PeerSpec} :
    takenOver config now (entryOf spec) = true ↔
      Absent (eligiblePeers config now) spec.publicKey ∧
        ∃ peer ∈ eligiblePeers config now, peer.virtualIp = some spec.ip := by
  rw [takenOver, Bool.and_eq_true, List.any_eq_true]
  simp only [decide_eq_true_eq]
  exact and_congr all_absent Iff.rfl

theorem leaves_iff {config : Config} {now : Nat} {spec : PeerSpec} :
    Leaves (eligiblePeers config now) spec ↔
      Absent (eligiblePeers config now) spec.publicKey ∧
        ¬ takenOver config now (entryOf spec) = true := by
  rw [takenOver_iff]
  constructor
  · rintro ⟨absent, kept⟩
    refine ⟨absent, fun taken => ?_⟩
    obtain ⟨_, peer, member, same⟩ := taken
    exact kept peer member same
  · rintro ⟨absent, kept⟩
    exact ⟨absent, fun peer member same => kept ⟨absent, peer, member, same⟩⟩

section
variable (secrets : TunnelSecrets) (config : Config) (now : Nat) (run : Supervisor)
  (session : BackendSession)

def rotatedKeys : List PublicKey :=
  (run.known.filter (takenOver config now)).map Prod.fst

/-- The tick up to the end of the loop over the configuration. -/
def addStage : Supervisor × BackendSession :=
  let swapped := removePeers allWork (rotatedKeys config now run) run session
  addPeers allWork secrets (eligiblePeers config now) swapped.1 swapped.2

/-- The keys the tick finds without a peer. -/
def goneKeys : List PublicKey :=
  ((addStage secrets config now run session).1.known.map Prod.fst).filter (fun key =>
    (eligiblePeers config now).all (fun peer => peer.publicKey ≠ key))

theorem syncPeers_eq :
    syncPeers allWork secrets config now run session =
      removePeers allWork
        (removalStages (goneKeys secrets config now run session)
          (addStage secrets config now run session).1).1
        (removalStages (goneKeys secrets config now run session)
          (addStage secrets config now run session).1).2
        (addStage secrets config now run session).2 := rfl

variable {secrets config now run session}

theorem mem_rotatedKeys (mirrored : Mirrored run session.state) {spec : PeerSpec}
    (listed : spec ∈ session.state.peers) :
    spec.publicKey ∈ rotatedKeys config now run ↔ takenOver config now (entryOf spec) = true := by
  rw [rotatedKeys, mirrored.known, List.mem_map]
  constructor
  · rintro ⟨entry, kept, same⟩
    obtain ⟨member, taken⟩ := List.mem_filter.mp kept
    obtain ⟨other, held, rfl⟩ := List.mem_map.mp member
    rwa [spec_unique mirrored.once listed held same.symm]
  · intro taken
    exact ⟨entryOf spec, List.mem_filter.mpr ⟨List.mem_map_of_mem listed, taken⟩, rfl⟩

theorem eligible_distinct (valid : config.validate = .ok ()) :
    ((eligiblePeers config now).map PeerConfig.publicKey).Nodup :=
  (sound_of_valid valid).once.sublist (List.filter_sublist.map PeerConfig.publicKey)

/-- What the interface holds when the peers that are gone are looked for. -/
theorem addStage_all (valid : config.validate = .ok ()) (mirrored : Mirrored run session.state) :
    Mirrored (addStage secrets config now run session).1
        (addStage secrets config now run session).2.state ∧
      (addStage secrets config now run session).1.pendingRemoval =
          run.pendingRemoval.filter (fun key => key ∉ rotatedKeys config now run) ∧
        ∀ spec, spec ∈ (addStage secrets config now run session).2.state.peers ↔
          spec ∈ askedFor secrets (eligiblePeers config now) ∨
            (spec ∈ session.state.peers ∧ ¬ takenOver config now (entryOf spec) = true ∧
              ∀ other ∈ askedFor secrets (eligiblePeers config now),
                other.publicKey ≠ spec.publicKey) := by
  obtain ⟨_, pending, peers⟩ := @removePeers_all run session (rotatedKeys config now run)
  have swapped := removePeers_mirrored (rotatedKeys config now run) mirrored
  obtain ⟨mirrored', pending', peers'⟩ :=
    addPeers_all secrets (@eligible_distinct config now valid) swapped
  refine ⟨mirrored', pending'.trans pending, fun spec => ?_⟩
  rw [addStage, peers' spec, peers, List.mem_filter, decide_eq_true_eq, and_assoc]
  refine or_congr Iff.rfl (and_congr_right (fun listed => and_congr ?_ Iff.rfl))
  rw [mem_rotatedKeys mirrored listed]

/-- An absent peer that has been there all the time. -/
theorem absent_kept (valid : config.validate = .ok ()) (mirrored : Mirrored run session.state)
    {spec : PeerSpec} (absent : Absent (eligiblePeers config now) spec.publicKey) :
    spec ∈ (addStage secrets config now run session).2.state.peers ↔
      spec ∈ session.state.peers ∧ ¬ takenOver config now (entryOf spec) = true := by
  have unasked : ∀ other ∈ askedFor secrets (eligiblePeers config now),
      other.publicKey ≠ spec.publicKey := by
    intro other listed
    obtain ⟨peer, member, built⟩ := mem_askedFor.mp listed
    rw [(buildPeerSpec_ok built).1]
    exact absent peer member
  rw [(addStage_all valid mirrored).2.2 spec]
  constructor
  · rintro (listed | ⟨old, kept, _⟩)
    · exact absurd rfl (unasked spec listed)
    · exact ⟨old, kept⟩
  · rintro ⟨old, kept⟩
    exact .inr ⟨old, kept, unasked⟩

/-- Whether such a peer has been told before does not depend on the keys that were swapped. -/
theorem absent_pending (valid : config.validate = .ok ()) (mirrored : Mirrored run session.state)
    {spec : PeerSpec} (listed : spec ∈ session.state.peers)
    (kept : ¬ takenOver config now (entryOf spec) = true) :
    spec.publicKey ∈ (addStage secrets config now run session).1.pendingRemoval ↔
      spec.publicKey ∈ run.pendingRemoval := by
  rw [(addStage_all valid mirrored).2.1, List.mem_filter, decide_eq_true_eq,
    mem_rotatedKeys mirrored listed]
  exact and_iff_left kept

theorem mem_goneKeys (valid : config.validate = .ok ()) (mirrored : Mirrored run session.state)
    {spec : PeerSpec} (listed : spec ∈ (addStage secrets config now run session).2.state.peers) :
    spec.publicKey ∈ goneKeys secrets config now run session ↔
      Absent (eligiblePeers config now) spec.publicKey := by
  rw [goneKeys, List.mem_filter, all_absent, (addStage_all valid mirrored).1.known, List.map_map]
  exact and_iff_right (List.mem_map_of_mem listed)

/-- What the interface holds after a tick. -/
theorem mem_syncPeers (valid : config.validate = .ok ()) (mirrored : Mirrored run session.state)
    (spec : PeerSpec) :
    spec ∈ (syncPeers allWork secrets config now run session).2.state.peers ↔
      spec ∈ (addStage secrets config now run session).2.state.peers ∧
        (Absent (eligiblePeers config now) spec.publicKey →
          spec.publicKey ∉ run.pendingRemoval) := by
  rw [syncPeers_eq, (removePeers_all _).2.2, List.mem_filter, decide_eq_true_eq]
  apply and_congr_right
  intro listed
  rw [removalStages, List.mem_filter, decide_eq_true_eq, mem_goneKeys valid mirrored listed,
    not_and]
  apply imp_congr_right
  intro absent
  obtain ⟨old, kept⟩ := (absent_kept valid mirrored absent).mp listed
  rw [absent_pending valid mirrored old kept]

/-- Absent peers that are still there have been told. -/
theorem syncPeers_pending (valid : config.validate = .ok ()) (mirrored : Mirrored run session.state)
    {spec : PeerSpec}
    (listed : spec ∈ (syncPeers allWork secrets config now run session).2.state.peers)
    (absent : Absent (eligiblePeers config now) spec.publicKey) :
    spec.publicKey ∈ (syncPeers allWork secrets config now run session).1.pendingRemoval := by
  obtain ⟨held, waiting⟩ := (mem_syncPeers valid mirrored spec).mp listed
  obtain ⟨old, kept⟩ := (absent_kept valid mirrored absent).mp held
  have fresh : spec.publicKey ∉ (addStage secrets config now run session).1.pendingRemoval := by
    rw [absent_pending valid mirrored old kept]
    exact waiting absent
  have gone := (mem_goneKeys valid mirrored held).mpr absent
  rw [syncPeers_eq, (removePeers_all _).2.1, removalStages]
  refine List.mem_filter.mpr ⟨List.mem_append_right _ (List.mem_filter.mpr ⟨gone, ?_⟩), ?_⟩
  · exact decide_eq_true fresh
  · rw [decide_eq_true_eq, List.mem_filter, decide_eq_true_eq]
    exact fun both => fresh both.2

theorem syncPeers_mirrored (valid : config.validate = .ok ())
    (mirrored : Mirrored run session.state) :
    Mirrored (syncPeers allWork secrets config now run session).1
      (syncPeers allWork secrets config now run session).2.state := by
  have added : Mirrored (addStage secrets config now run session).1
      (addStage secrets config now run session).2.state := (addStage_all valid mirrored).1
  rw [syncPeers_eq]
  exact removePeers_mirrored _ ⟨added.known, added.once⟩

end

/-- The messages are about the peers of the interface that are absent and have not been told. -/
theorem syncNotices_eq {tick : SyncTick} {run : Supervisor} {session : BackendSession}
    (valid : tick.config.validate = .ok ()) (mirrored : Mirrored run session.state) :
    syncNotices allWork tick run session =
      let added := addStage tick.secrets tick.config tick.now run session
      ((added.2.state.peers.filter (fun spec => spec.publicKey ∉ added.1.pendingRemoval &&
        (eligiblePeers tick.config tick.now).all (fun peer => peer.publicKey ≠ spec.publicKey))).map
          (fun spec => (spec.publicKey, spec.ip))).filter
            (fun notice => notice.2 ∈ tick.connected) := by
  have added : Mirrored (addStage tick.secrets tick.config tick.now run session).1
      (addStage tick.secrets tick.config tick.now run session).2.state :=
    (addStage_all valid mirrored).1
  refine congrArg (List.filter _) ?_
  change ((((addStage tick.secrets tick.config tick.now run session).1.known.filter _).filter _).map
    _) = _
  rw [added.known, List.filter_map, List.filter_map, List.map_map, List.filter_filter]
  rfl

/-- The messages of a tick. -/
theorem mem_syncNotices {tick : SyncTick} {run : Supervisor} {session : BackendSession}
    (valid : tick.config.validate = .ok ()) (mirrored : Mirrored run session.state)
    (notice : PublicKey × Ipv4Addr) :
    notice ∈ syncNotices allWork tick run session ↔
      ∃ spec ∈ session.state.peers, Leaves (eligiblePeers tick.config tick.now) spec ∧
        spec.publicKey ∉ run.pendingRemoval ∧ notice = (spec.publicKey, spec.ip) ∧
          spec.ip ∈ tick.connected := by
  rw [syncNotices_eq valid mirrored, List.mem_filter, List.mem_map, decide_eq_true_eq]
  constructor
  · rintro ⟨⟨spec, found, rfl⟩, connected⟩
    obtain ⟨listed, tests⟩ := List.mem_filter.mp found
    rw [Bool.and_eq_true, decide_eq_true_eq, all_absent] at tests
    obtain ⟨old, kept⟩ := (absent_kept valid mirrored tests.2).mp listed
    exact ⟨spec, old, leaves_iff.mpr ⟨tests.2, kept⟩,
      fun told => tests.1 ((absent_pending valid mirrored old kept).mpr told), rfl, connected⟩
  · rintro ⟨spec, old, leaves, untold, rfl, connected⟩
    obtain ⟨absent, kept⟩ := leaves_iff.mp leaves
    refine ⟨⟨spec, List.mem_filter.mpr ⟨(absent_kept valid mirrored absent).mpr ⟨old, kept⟩, ?_⟩,
      rfl⟩, connected⟩
    rw [Bool.and_eq_true, decide_eq_true_eq, all_absent, absent_pending valid mirrored old kept]
    exact ⟨untold, absent⟩

theorem syncNotices_nodup {tick : SyncTick} {run : Supervisor} {session : BackendSession}
    (valid : tick.config.validate = .ok ()) (mirrored : Mirrored run session.state) :
    (syncNotices allWork tick run session).Nodup := by
  rw [syncNotices_eq valid mirrored]
  apply List.Nodup.filter
  have added : Mirrored (addStage tick.secrets tick.config tick.now run session).1
      (addStage tick.secrets tick.config tick.now run session).2.state :=
    (addStage_all valid mirrored).1
  have keys := once_filter added.once (fun spec =>
    spec.publicKey ∉ (addStage tick.secrets tick.config tick.now run session).1.pendingRemoval &&
      (eligiblePeers tick.config tick.now).all (fun peer => peer.publicKey ≠ spec.publicKey))
  apply List.Nodup.of_map Prod.fst
  rw [List.map_map]
  exact keys

/-! ### Runs -/

namespace SyncState

/-- What holds after every tick. -/
structure Sane (state : SyncState) : Prop where
  mirrored : Mirrored state.run state.backend
  pending : ∀ spec ∈ state.backend.peers, Absent state.eligible spec.publicKey →
    spec.publicKey ∈ state.run.pendingRemoval

variable {tick : SyncTick} {state next : SyncState}

/-- What a tick does. -/
theorem step_cases (happens : step tick state = some next) :
    tick.config.validate = .ok () ∧
      next = {
        run := (syncPeers allWork tick.secrets tick.config tick.now state.run
          { state := state.backend }).1
        backend := (syncPeers allWork tick.secrets tick.config tick.now state.run
          { state := state.backend }).2.state
        eligible := eligiblePeers tick.config tick.now
        secrets := tick.secrets
        connected := tick.connected
        before := state.asked
        told := syncNotices allWork tick state.run { state := state.backend } } := by
  unfold step at happens
  split at happens
  · cases happens
  · next valid => exact ⟨valid, (Option.some.inj happens).symm⟩

theorem step_sane (sane : Sane state) (happens : step tick state = some next) : Sane next := by
  obtain ⟨valid, rfl⟩ := step_cases happens
  have mirrored : Mirrored state.run ({ state := state.backend } : BackendSession).state :=
    sane.mirrored
  exact ⟨syncPeers_mirrored valid mirrored,
    fun spec listed absent => syncPeers_pending valid mirrored listed absent⟩

/-- Where all eligible peers can be set up, the interface holds them, and of the others those that
have just left and have not been told. -/
theorem mem_peers (sane : Sane state) (happens : step tick state = some next)
    (readable : ∀ peer ∈ next.eligible, ∃ spec, buildPeerSpec next.secrets peer = .ok spec)
    (spec : PeerSpec) :
    spec ∈ next.backend.peers ↔ spec ∈ next.asked ∨ (spec ∈ state.backend.peers ∧
      Leaves next.eligible spec ∧ spec.publicKey ∉ state.run.pendingRemoval) := by
  obtain ⟨valid, rfl⟩ := step_cases happens
  have mirrored : Mirrored state.run ({ state := state.backend } : BackendSession).state :=
    sane.mirrored
  rw [mem_syncPeers valid mirrored]
  by_cases absent : Absent (eligiblePeers tick.config tick.now) spec.publicKey
  · have unasked : spec ∉ askedFor tick.secrets (eligiblePeers tick.config tick.now) := by
      intro listed
      obtain ⟨peer, member, built⟩ := mem_askedFor.mp listed
      exact absent peer member (buildPeerSpec_ok built).1.symm
    rw [absent_kept valid mirrored absent]
    constructor
    · rintro ⟨⟨old, kept⟩, fresh⟩
      exact .inr ⟨old, leaves_iff.mpr ⟨absent, kept⟩, fresh absent⟩
    · rintro (asked | ⟨old, leaves, fresh⟩)
      · exact absurd asked unasked
      · exact ⟨⟨old, (leaves_iff.mp leaves).2⟩, fun _ => fresh⟩
  · rw [(addStage_all valid mirrored).2.2 spec]
    have stays : ¬ Leaves (eligiblePeers tick.config tick.now) spec := fun leaves => absent leaves.1
    constructor
    · rintro ⟨asked | ⟨old, _, alone⟩, _⟩
      · exact .inl asked
      · exfalso
        apply absent
        intro peer member same
        obtain ⟨made, built⟩ := readable peer member
        apply alone made (mem_askedFor.mpr ⟨peer, member, built⟩)
        rw [(buildPeerSpec_ok built).1, same]
    · rintro (asked | ⟨_, leaves, _⟩)
      · exact ⟨.inl asked, fun gone => absurd gone absent⟩
      · exact absurd leaves stays

/-- In a right state an absent peer that has not been told was asked for last. -/
theorem Right.mem_untold (right : Right state) (sane : Sane state) {spec : PeerSpec}
    (listed : spec ∈ state.backend.peers) (untold : spec.publicKey ∉ state.run.pendingRemoval) :
    spec ∈ state.asked := by
  rcases (right.peers spec).mp listed with asked | ⟨_, leaves⟩
  · exact asked
  · exact absurd (sane.pending spec listed leaves.1) untold

theorem asked_nets {spec : PeerSpec} (asked : spec ∈ state.asked) :
    ∃ peer ∈ state.eligible, peer.publicKey = spec.publicKey ∧ spec.allowedIps = peer.nets := by
  obtain ⟨peer, member, built⟩ := mem_askedFor.mp asked
  exact ⟨peer, member, (buildPeerSpec_ok built).1.symm, (buildPeerSpec_ok built).2⟩

/-- A tick that fits sets up every peer of its configuration as asked for, keeps those that have
just left, and tells them. -/
theorem right_of_fits (sane : Sane state) (right : Right state)
    (happens : step tick state = some next) (fits : tick.Fits state) : Right next := by
  have after := step_sane sane happens
  obtain ⟨valid, same⟩ := step_cases happens
  have eligible : next.eligible = eligiblePeers tick.config tick.now := by rw [same]
  have secrets : next.secrets = tick.secrets := by rw [same]
  have before : next.before = state.asked := by rw [same]
  have connected : next.connected = tick.connected := by rw [same]
  have told : next.told = syncNotices allWork tick state.run { state := state.backend } := by
    rw [same]
  have mirrored : Mirrored state.run ({ state := state.backend } : BackendSession).state :=
    sane.mirrored
  have readable : ∀ peer ∈ next.eligible, ∃ spec, buildPeerSpec next.secrets peer = .ok spec := by
    rw [eligible, secrets]
    exact fits.readable
  have leaving : ∀ spec, (spec ∈ state.backend.peers ∧ Leaves next.eligible spec ∧
      spec.publicKey ∉ state.run.pendingRemoval) ↔
        spec ∈ next.before ∧ Leaves next.eligible spec := by
    intro spec
    rw [before]
    constructor
    · rintro ⟨old, leaves, untold⟩
      exact ⟨right.mem_untold sane old untold, leaves⟩
    · rintro ⟨asked, leaves⟩
      exact ⟨(right.peers spec).mpr (.inl asked), leaves,
        fits.settled spec asked (eligible ▸ leaves)⟩
  have peers : ∀ spec, spec ∈ next.backend.peers ↔
      spec ∈ next.asked ∨ (spec ∈ next.before ∧ Leaves next.eligible spec) := by
    intro spec
    rw [mem_peers sane happens readable spec, leaving spec]
  have handed : ∀ one ∈ next.before, Leaves next.eligible one → ∀ two ∈ next.asked,
      NoSharedHost one.allowedIps two.allowedIps := by
    intro one asked leaves two listed
    obtain ⟨peer, member, _, nets⟩ := asked_nets listed
    rw [nets]
    exact fits.handed one (before ▸ asked) (eligible ▸ leaves) peer (eligible ▸ member)
  refine ⟨after.mirrored.once, readable, peers, ⟨?_, ?_⟩, ?_⟩
  · rw [told]
    exact syncNotices_nodup valid mirrored
  · intro notice
    rw [told, mem_syncNotices valid mirrored, connected]
    constructor
    · rintro ⟨spec, old, leaves, untold, message⟩
      have left := (leaving spec).mp ⟨old, eligible ▸ leaves, untold⟩
      exact ⟨spec, left.1, left.2, message⟩
    · rintro ⟨spec, asked, leaves, message⟩
      have left := (leaving spec).mpr ⟨asked, leaves⟩
      exact ⟨spec, left.1, eligible ▸ leaves, left.2.2, message⟩
  · intro one first two second differ
    rcases (peers one).mp first with asked | ⟨asked, leaves⟩
    · rcases (peers two).mp second with asked' | ⟨asked', leaves'⟩
      · obtain ⟨peer, member, key, nets⟩ := asked_nets asked
        obtain ⟨peer', member', key', nets'⟩ := asked_nets asked'
        rw [nets, nets']
        apply fits.distinct peer (eligible ▸ member) peer' (eligible ▸ member')
        rwa [key, key']
      · exact (handed two asked' leaves' one asked).symm
    · rcases (peers two).mp second with asked' | ⟨asked', leaves'⟩
      · exact handed one asked leaves two asked'
      · exact right.apart one ((leaving one).mpr ⟨asked, leaves⟩).1 two
          ((leaving two).mpr ⟨asked', leaves'⟩).1 differ

/-- Only a tick that fits leaves a right state right. -/
theorem fits_of_right (sane : Sane state) (happens : step tick state = some next)
    (right : Right next) : tick.Fits state := by
  obtain ⟨valid, same⟩ := step_cases happens
  have eligible : next.eligible = eligiblePeers tick.config tick.now := by rw [same]
  have secrets : next.secrets = tick.secrets := by rw [same]
  have before : next.before = state.asked := by rw [same]
  have readable : ∀ peer ∈ eligiblePeers tick.config tick.now,
      ∃ spec, buildPeerSpec tick.secrets peer = .ok spec := by
    rw [← eligible, ← secrets]
    exact right.readable
  -- every eligible peer is on the interface with the addresses of the configuration
  have held : ∀ peer ∈ eligiblePeers tick.config tick.now, ∃ spec ∈ next.backend.peers,
      spec.publicKey = peer.publicKey ∧ spec.allowedIps = peer.nets := by
    intro peer member
    obtain ⟨spec, built⟩ := readable peer member
    refine ⟨spec, (right.peers spec).mpr (.inl (mem_askedFor.mpr ⟨peer, ?_, ?_⟩)), ?_⟩
    · exact eligible ▸ member
    · exact secrets ▸ built
    · exact buildPeerSpec_ok built
  have left : ∀ spec ∈ state.asked, Leaves (eligiblePeers tick.config tick.now) spec →
      spec ∈ next.backend.peers := by
    intro spec asked leaves
    exact (right.peers spec).mpr (.inr ⟨before ▸ asked, eligible ▸ leaves⟩)
  refine ⟨readable, ?_, ?_, ?_⟩
  · intro one first two second differ
    obtain ⟨spec, listed, key, nets⟩ := held one first
    obtain ⟨spec', listed', key', nets'⟩ := held two second
    rw [← nets, ← nets']
    apply right.apart spec listed spec' listed'
    rwa [key, key']
  · intro spec asked leaves
    rcases (mem_peers sane happens right.readable spec).mp (left spec asked leaves) with
      again | ⟨_, _, untold⟩
    · obtain ⟨peer, member, key, _⟩ := asked_nets again
      exact absurd key (leaves.1 peer (eligible ▸ member))
    · exact untold
  · intro spec asked leaves peer member
    obtain ⟨spec', listed', key', nets'⟩ := held peer member
    rw [← nets']
    apply right.apart spec (left spec asked leaves) spec' listed'
    rw [key']
    exact (leaves.1 peer member).symm

/-! ### The start -/

theorem forall₂_asked {secrets : TunnelSecrets} {peers : List PeerConfig} {images : List PeerSpec}
    (each : List.Forall₂ (fun peer image => buildPeerSpec secrets peer = .ok image) peers images) :
    images = askedFor secrets peers := by
  induction each with
  | nil => rfl
  | cons made _ ih => rw [askedFor_cons_ok _ made, ih]

/-- `bring_up` sets up the peers of the configuration. -/
theorem buildSpec_asked {secrets : TunnelSecrets} {config : Config} {now : Nat} {spec : TunnelSpec}
    (built : buildSpec secrets config now = .ok spec) :
    (∀ peer ∈ eligiblePeers config now, ∃ image, buildPeerSpec secrets peer = .ok image) ∧
      spec.peers = askedFor secrets (eligiblePeers config now) := by
  rw [buildSpec] at built
  rcases bind_ok.mp built with ⟨key, _, built⟩
  rcases bind_ok.mp built with ⟨peers, mapped, built⟩
  cases built
  have each := mapM_ok.mp mapped
  exact ⟨forall₂_exists.mp ⟨peers, each⟩, forall₂_asked each⟩

theorem askedFor_keys {secrets : TunnelSecrets} {peers : List PeerConfig} :
    ((askedFor secrets peers).map PeerSpec.publicKey).Sublist (peers.map PeerConfig.publicKey) := by
  induction peers with
  | nil => exact List.Sublist.slnil
  | cons peer rest ih =>
      cases built : buildPeerSpec secrets peer with
      | error message =>
          rw [askedFor_cons_error rest built, List.map_cons]
          exact ih.cons _
      | ok made =>
          rw [askedFor_cons_ok rest built, List.map_cons, List.map_cons, (buildPeerSpec_ok built).1]
          exact ih.cons_cons _

theorem askedFor_once {secrets : TunnelSecrets} {peers : List PeerConfig}
    (distinct : (peers.map PeerConfig.publicKey).Nodup) :
    ((askedFor secrets peers).map PeerSpec.publicKey).Nodup := by
  have fewer : ((askedFor secrets peers).map PeerSpec.publicKey).Sublist
      (peers.map PeerConfig.publicKey) := askedFor_keys
  exact distinct.sublist fewer

theorem started_sane {secrets : TunnelSecrets} {config : Config} {now : Nat} {spec : TunnelSpec}
    (valid : config.validate = .ok ()) (built : buildSpec secrets config now = .ok spec) :
    Sane (started secrets config now spec) := by
  obtain ⟨_, peers⟩ := buildSpec_asked built
  refine ⟨⟨rfl, ?_⟩, ?_⟩
  · change (spec.peers.map PeerSpec.publicKey).Nodup
    rw [peers]
    exact askedFor_once (eligible_distinct valid)
  · intro image listed absent
    obtain ⟨peer, member, same⟩ := buildSpec_peer built listed
    exact absurd same.symm (absent peer member)

/-- The state after `bring_up` is right unless the configuration gives an address twice. -/
theorem started_right_iff {secrets : TunnelSecrets} {config : Config} {now : Nat}
    {spec : TunnelSpec} (valid : config.validate = .ok ())
    (built : buildSpec secrets config now = .ok spec) :
    Right (started secrets config now spec) ↔ DistinctHosts (eligiblePeers config now) := by
  obtain ⟨readable, peers⟩ := buildSpec_asked built
  have asked : (started secrets config now spec).asked = spec.peers := peers.symm
  constructor
  · intro right one first two second differ
    obtain ⟨image, made⟩ := readable one first
    obtain ⟨image', made'⟩ := readable two second
    have listed : image ∈ spec.peers := peers ▸ mem_askedFor.mpr ⟨one, first, made⟩
    have listed' : image' ∈ spec.peers := peers ▸ mem_askedFor.mpr ⟨two, second, made'⟩
    obtain ⟨key, nets⟩ := buildPeerSpec_ok made
    obtain ⟨key', nets'⟩ := buildPeerSpec_ok made'
    rw [PeerConfig.nets, PeerConfig.nets, ← nets, ← nets']
    apply right.apart image listed image' listed'
    rwa [key, key']
  · intro distinct
    refine ⟨(started_sane valid built).mirrored.once, readable, fun image => ?_,
      ⟨List.nodup_nil, fun notice => ?_⟩, ?_⟩
    · rw [asked]
      exact ⟨.inl, fun either => either.elim id (fun old => absurd old.1 List.not_mem_nil)⟩
    · exact ⟨fun none => absurd none List.not_mem_nil,
        fun ⟨_, old, _⟩ => absurd old List.not_mem_nil⟩
    · intro one first two second differ
      have listed : ∀ image ∈ spec.peers, image ∈ (started secrets config now spec).asked :=
        fun image held => asked ▸ held
      obtain ⟨peer, member, key, nets⟩ := asked_nets (listed one first)
      obtain ⟨peer', member', key', nets'⟩ := asked_nets (listed two second)
      rw [nets, nets']
      apply distinct peer member peer' member'
      rwa [key, key']

/-- In a run of ticks, every tick does what it should if and only if no configuration gives two
peers an address and every tick fits. -/
theorem peers_removed_iff {secrets : TunnelSecrets} {config : Config} {now : Nat}
    {spec : TunnelSpec} {ticks : List SyncTick} {final : SyncState}
    (valid : config.validate = .ok ()) (built : buildSpec secrets config now = .ok spec)
    (reached : Runs.run step ticks (started secrets config now spec) = some final) :
    (∀ done, done <+: ticks → ∀ state,
        Runs.run step done (started secrets config now spec) = some state → Right state) ↔
      DistinctHosts (eligiblePeers config now) ∧
        Runs.Along step SyncTick.Fits ticks (started secrets config now spec) := by
  rw [← started_right_iff valid built]
  have exact_ : ∀ tick state next, Sane state → Right state → step tick state = some next →
      (Right next ↔ tick.Fits state) :=
    fun _ _ _ sane right happens =>
      ⟨fits_of_right sane happens, right_of_fits sane right happens⟩
  have along := fun first => Runs.safe_iff_along Sane Right
    (fun _ _ _ sane happens => step_sane sane happens) exact_ (started_sane valid built) first
      reached
  constructor
  · intro all
    have first := all [] List.nil_prefix _ rfl
    exact ⟨first, (along first).mp all⟩
  · rintro ⟨first, fits⟩
    exact (along first).mpr fits

/-- A host and its guest, or the host alone. -/
def guestHouse (guests : List PeerConfig) : Config where
  interface := { address := .slash24 0x0a070001 }
  peers := guests

def guest : PeerConfig where
  publicKey := ⟨1⟩
  allowedIps := [Ipv4Net.host 0x0a070002]

def openSecrets : TunnelSecrets where
  privateKey := .ok ⟨9⟩
  presharedKey := fun _ => .ok none

def guestSpec : TunnelSpec where
  listenPort := DEFAULT_LISTEN_PORT
  mtu := 1420
  peers := [⟨⟨1⟩, none, [Ipv4Net.host 0x0a070002], none, none⟩]

/-- A tick that finds these guests; the guest is connected. -/
def guestTick (guests : List PeerConfig) : SyncTick where
  config := guestHouse guests
  secrets := openSecrets
  now := 100
  connected := [0x0a070002]

theorem peers_removed_iff_twice :
    (∀ done, done <+: [guestTick [], guestTick [], guestTick [guest]] → ∀ state,
        Runs.run step done (started openSecrets (guestHouse [guest]) 100 guestSpec) = some state →
          Right state) ↔
      DistinctHosts (eligiblePeers (guestHouse [guest]) 100) ∧
        Runs.Along step SyncTick.Fits [guestTick [], guestTick [], guestTick [guest]]
          (started openSecrets (guestHouse [guest]) 100 guestSpec) := by
  have reached : ∃ final, Runs.run step [guestTick [], guestTick [], guestTick [guest]]
      (started openSecrets (guestHouse [guest]) 100 guestSpec) = some final :=
    Option.isSome_iff_exists.mp (by decide)
  obtain ⟨final, reached⟩ := reached
  exact peers_removed_iff (by decide) (by rfl) reached

/-- A guest that is removed, comes back before the second tick and is removed again is taken off at
once and not told. -/
theorem peers_removed_returning :
    (guestHouse [guest]).validate = .ok () ∧
      buildSpec openSecrets (guestHouse [guest]) 100 = .ok guestSpec ∧
      (∃ told, Runs.run step [guestTick []]
        (started openSecrets (guestHouse [guest]) 100 guestSpec) = some told ∧
          told.told = [(⟨1⟩, 0x0a070002)] ∧ told.backend.peers = guestSpec.peers) ∧
      ∃ final, Runs.run step [guestTick [], guestTick [guest], guestTick []]
        (started openSecrets (guestHouse [guest]) 100 guestSpec) = some final ∧
          final.before = guestSpec.peers ∧ final.eligible = [] ∧ final.told = [] ∧
            final.backend.peers = [] ∧ ¬ Right final := by
  have first : (Runs.run step [guestTick []]
      (started openSecrets (guestHouse [guest]) 100 guestSpec)).map
        (fun state => (state.told, state.backend.peers)) =
      some ([(⟨1⟩, 0x0a070002)], guestSpec.peers) := by decide
  have last : (Runs.run step [guestTick [], guestTick [guest], guestTick []]
      (started openSecrets (guestHouse [guest]) 100 guestSpec)).map
        (fun state => (state.before, state.eligible, state.told, state.backend.peers)) =
      some (guestSpec.peers, [], [], []) := by decide
  obtain ⟨told, reached, shows⟩ := Option.map_eq_some_iff.mp first
  obtain ⟨final, reached', shows'⟩ := Option.map_eq_some_iff.mp last
  simp only [Prod.mk.injEq] at shows shows'
  obtain ⟨before, eligible, silent, empty⟩ := shows'
  refine ⟨by decide, by rfl, ⟨told, reached, shows⟩, final, reached', before, eligible,
    silent, empty, fun right => ?_⟩
  have leaves : Leaves final.eligible ⟨⟨1⟩, none, [Ipv4Net.host 0x0a070002], none, none⟩ := by
    rw [eligible]
    exact ⟨fun _ none => absurd none List.not_mem_nil, fun _ none => absurd none List.not_mem_nil⟩
  have kept := (right.peers _).mpr (.inr ⟨before ▸ List.mem_cons_self, leaves⟩)
  rw [empty] at kept
  exact List.not_mem_nil kept

end SyncState

end PeerCove
