/-
Module: PeerCove.Proofs.ApprovalIsolation
Layer: Proofs
Purpose: When a peer that awaits approval is never on the interface without isolation: what the ticks
  of `supervise` keep, and what starts and restarts must not find.
Trusted boundary: none
Main exports: Covered, HostTunnel.Careful, HostTunnel.Honest, syncPeers_within,
  HostTunnel.approval_isolated, HostTunnel.approval_unisolated
-/
import PeerCove.Host.Tunnel
import PeerCove.Proofs.InviteAtomicity
import PeerCove.Proofs.Delegation

namespace PeerCove

open Fallible

/-! ### Peers that await approval -/

/-- Peers of the interface that await approval are isolated. -/
def Covered (config : Config) (backend : TunnelBackend) : Prop :=
  ∀ spec ∈ backend.peers, ∀ peer ∈ config.peers, peer.publicKey = spec.publicKey →
    peer.inviteIsIsolated = true →
    ∃ net, spec.allowedIps.head? = some net ∧ net.addr ∈ backend.isolated

/-- None of the peers of the interface awaits approval. -/
def NoneWaits (config : Config) (backend : TunnelBackend) : Prop :=
  ∀ spec ∈ backend.peers, ∀ peer ∈ config.peers, peer.publicKey = spec.publicKey →
    peer.inviteIsIsolated = false

/-- None of the peers that may connect awaits approval. -/
def NobodyWaits (config : Config) (now : Nat) : Prop :=
  ∀ peer ∈ eligiblePeers config now, peer.inviteIsIsolated = false

/-- The peers of the interface that await approval have the address of the configuration. -/
def SameAddresses (config : Config) (backend : TunnelBackend) : Prop :=
  ∀ spec ∈ backend.peers, ∀ peer ∈ config.peers, peer.publicKey = spec.publicKey →
    peer.inviteIsIsolated = true → spec.allowedIps.head? = peer.allowedIps.head?

theorem NoneWaits.covered {config : Config} {backend : TunnelBackend}
    (none : NoneWaits config backend) : Covered config backend := by
  intro spec listed peer member same waits
  rw [none spec listed peer member same] at waits
  cases waits

/-- Fewer peers, or another isolation, where none of them waits. -/
theorem NoneWaits.of_subset {config : Config} {one two : TunnelBackend}
    (none : NoneWaits config one) (fewer : ∀ spec ∈ two.peers, spec ∈ one.peers) :
    NoneWaits config two :=
  fun spec listed => none spec (fewer spec listed)

theorem mem_inviteIsolation {config : Config} {peer : PeerConfig} {net : Ipv4Net}
    (member : peer ∈ config.peers) (waits : peer.inviteIsIsolated = true)
    (first : peer.allowedIps.head? = some net) : net.addr ∈ inviteIsolation config := by
  rw [inviteIsolation, SortDedup.mem_sortDedup, List.mem_filterMap]
  exact ⟨peer, List.mem_filter.mpr ⟨member, waits⟩, by rw [PeerConfig.virtualIp, first]; rfl⟩

/-! ### What a valid configuration gives -/

theorem valid_addressed {config : Config} (valid : config.validate = .ok ()) {peer : PeerConfig}
    (member : peer ∈ config.peers) : peer.allowedIps ≠ [] := by
  obtain ⟨place, checked⟩ := Config.checkPeer_of_valid valid member
  rw [checkPeer] at checked
  rcases bind_ok.mp checked with ⟨⟨⟩, some, _⟩
  exact refuseIf_ok.mp some

theorem valid_once {config : Config} (valid : config.validate = .ok ()) {one two : PeerConfig}
    (first : one ∈ config.peers) (second : two ∈ config.peers)
    (same : one.publicKey = two.publicKey) : one = two :=
  List.inj_on_of_nodup_map (sound_of_valid valid).once first second same

theorem buildPeerSpec_ok {secrets : TunnelSecrets} {peer : PeerConfig} {spec : PeerSpec}
    (built : buildPeerSpec secrets peer = .ok spec) :
    spec.publicKey = peer.publicKey ∧ spec.allowedIps = peer.allowedIps ++ peer.subnets := by
  rw [buildPeerSpec] at built
  rcases bind_ok.mp built with ⟨psk, _, built⟩
  cases built
  exact ⟨rfl, rfl⟩

theorem buildSpec_peer {secrets : TunnelSecrets} {config : Config} {now : Nat} {spec : TunnelSpec}
    (built : buildSpec secrets config now = .ok spec) {image : PeerSpec}
    (listed : image ∈ spec.peers) :
    ∃ peer ∈ eligiblePeers config now, image.publicKey = peer.publicKey := by
  rw [buildSpec] at built
  rcases bind_ok.mp built with ⟨key, _, built⟩
  rcases bind_ok.mp built with ⟨peers, mapped, built⟩
  cases built
  obtain ⟨peer, member, made⟩ := of_mem_results (mapM_ok.mp mapped) listed
  exact ⟨peer, member, (buildPeerSpec_ok made).1⟩

/-! ### The interface within a configuration -/

/-- The isolation of the configuration is applied, and the peers that await approval have the
addresses it is about. -/
structure Within (config : Config) (backend : TunnelBackend) : Prop where
  isolated : backend.isolated = inviteIsolation config
  addresses : SameAddresses config backend

theorem Within.covered {config : Config} {backend : TunnelBackend}
    (valid : config.validate = .ok ()) (within : Within config backend) :
    Covered config backend := by
  intro spec listed peer member same waits
  obtain ⟨net, first⟩ : ∃ net, peer.allowedIps.head? = some net := by
    cases nets : peer.allowedIps with
    | nil => exact absurd nets (valid_addressed valid member)
    | cons net rest => exact ⟨net, rfl⟩
  refine ⟨net, (within.addresses spec listed peer member same waits).trans first, ?_⟩
  rw [within.isolated]
  exact mem_inviteIsolation member waits first

theorem Within.remove {config : Config} {backend : TunnelBackend} (within : Within config backend)
    (key : PublicKey) (done : Bool) :
    Within config (BackendOp.effect (.removePeer key) done backend) := by
  cases done with
  | false => exact within
  | true =>
      exact ⟨within.isolated, fun spec listed => within.addresses spec (List.mem_filter.mp listed).1⟩

theorem Within.add {config : Config} {backend : TunnelBackend} (within : Within config backend)
    (valid : config.validate = .ok ()) {secrets : TunnelSecrets} {peer : PeerConfig}
    {spec : PeerSpec} (member : peer ∈ config.peers) (built : buildPeerSpec secrets peer = .ok spec)
    (done : Bool) : Within config (BackendOp.effect (.addPeer spec) done backend) := by
  cases done with
  | false => exact within
  | true =>
      refine ⟨within.isolated, fun other listed => ?_⟩
      rcases List.mem_append.mp listed with old | new
      · exact within.addresses other (List.mem_filter.mp old).1
      · rw [List.mem_singleton] at new
        subst new
        intro peer' member' same _
        obtain ⟨key, nets⟩ := buildPeerSpec_ok built
        have equal : peer' = peer := valid_once valid member' member (same.trans key)
        rw [nets, equal, List.head?_append_of_ne_nil _ (valid_addressed valid member)]

section
variable {works : BackendWorks} {config : Config} {secrets : TunnelSecrets} {now : Nat}
  {session after : BackendSession}

/-- From a session within the configuration to a later one, all the way. -/
def Stays (config : Config) (session after : BackendSession) : Prop :=
  session.Passes (Within config) after ∧ Within config after.state

theorem Stays.refl (within : Within config session.state) : Stays config session session :=
  ⟨.refl, within⟩

theorem Stays.trans {last : BackendSession} (first : Stays config session after)
    (second : Stays config after last) : Stays config session last :=
  ⟨first.1.trans second.1, second.2⟩

/-- One operation that keeps the interface within the configuration, whatever becomes of it. -/
theorem Stays.op {op : BackendOp} {done : Bool}
    (keeps : ∀ done, Within config (op.effect done session.state))
    (issued : backendOp works op session = (done, after)) : Stays config session after := by
  have passes := Console.issue_passes works (keeps (works session.issued op))
  rw [show Console.issue BackendOp.effect works op session = (done, after) from issued] at passes
  exact passes

theorem removePeers_within {keys : List PublicKey} {run : Supervisor}
    (within : Within config session.state) :
    Stays config session (removePeers works keys run session).2 := by
  induction keys generalizing run session with
  | nil => exact .refl within
  | cons key rest ih =>
      rw [removePeers]
      split
      · rename_i removed done
        have first := Stays.op (within.remove key) done
        exact first.trans (ih first.2)
      · rename_i removed refused
        have first := Stays.op (within.remove key) refused
        exact first.trans (ih first.2)

theorem addPeers_within (valid : config.validate = .ok ()) {peers : List PeerConfig}
    (members : ∀ peer ∈ peers, peer ∈ config.peers) {run : Supervisor}
    (within : Within config session.state) :
    Stays config session (addPeers works secrets peers run session).2 := by
  induction peers generalizing run session with
  | nil => exact .refl within
  | cons peer rest ih =>
      have member := members peer List.mem_cons_self
      have later : ∀ {run : Supervisor} {session : BackendSession}, Within config session.state →
          Stays config session (addPeers works secrets rest run session).2 :=
        fun inside => ih (fun other listed => members other (List.mem_cons_of_mem peer listed)) inside
      rw [addPeers]
      split
      · exact later within
      · rename_i spec built
        split
        · split
          · rename_i added done
            have first := Stays.op (within.add valid member built) done
            exact first.trans (later first.2)
          · rename_i added refused
            have first := Stays.op (within.add valid member built) refused
            exact first.trans (later first.2)
        · split
          · exact later within
          · split
            · rename_i removed refused
              have first := Stays.op (within.remove peer.publicKey) refused
              exact first.trans (later first.2)
            · rename_i removed done
              have first := Stays.op (within.remove peer.publicKey) done
              split
              · rename_i added done
                have second := Stays.op (first.2.add valid member built) done
                exact first.trans (second.trans (later second.2))
              · rename_i added refused
                have second := Stays.op (first.2.add valid member built) refused
                exact first.trans (second.trans (later second.2))

/-- `sync_peers` keeps the interface within the configuration. -/
theorem syncPeers_within (valid : config.validate = .ok ()) {run : Supervisor}
    (within : Within config session.state) :
    Stays config session (syncPeers works secrets config now run session).2 := by
  have eligible : ∀ peer ∈ eligiblePeers config now, peer ∈ config.peers :=
    fun peer listed => (List.mem_filter.mp listed).1
  let rotated := (run.known.filter (takenOver config now)).map Prod.fst
  let swapped := removePeers works rotated run session
  have first : Stays config session swapped.2 := removePeers_within within
  have second : Stays config swapped.2
      (addPeers works secrets (eligiblePeers config now) swapped.1 swapped.2).2 :=
    addPeers_within valid eligible first.2
  exact first.trans (second.trans (removePeers_within second.2))

end

/-! ### The cached isolation -/

/-- The supervisor remembers the isolation that the interface has. -/
def Cached (run : Supervisor) (backend : TunnelBackend) : Prop :=
  ∀ isolated, run.appliedIsolation = some isolated → backend.isolated = isolated

/-- A supervisor that applies nothing keeps its memory, and the interface its isolation. -/
structure Keeps (run : Supervisor) (session : BackendSession)
    (done : Supervisor × BackendSession) : Prop where
  applied : done.1.appliedIsolation = run.appliedIsolation
  isolated : done.2.state.isolated = session.state.isolated

section
variable {works : BackendWorks} {secrets : TunnelSecrets} {session : BackendSession}
  {run : Supervisor}

theorem Keeps.refl : Keeps run session (run, session) :=
  ⟨rfl, rfl⟩

theorem Keeps.trans {later : Supervisor} {between : BackendSession}
    {last : Supervisor × BackendSession} (first : Keeps run session (later, between))
    (second : Keeps later between last) : Keeps run session last :=
  ⟨second.applied.trans first.applied, second.isolated.trans first.isolated⟩

theorem Keeps.cached {done : Supervisor × BackendSession} (keeps : Keeps run session done)
    (cached : Cached run session.state) : Cached done.1 done.2.state := by
  intro isolated applied
  rw [keeps.isolated]
  exact cached isolated (keeps.applied ▸ applied)

/-- An operation on one peer leaves the isolation alone, and what follows it too. -/
theorem Keeps.op {op : BackendOp} {done : Bool} {after : BackendSession} {later : Supervisor}
    {last : Supervisor × BackendSession}
    (spares : ∀ done state, (op.effect done state).isolated = state.isolated)
    (issued : backendOp works op session = (done, after)) (rest : Keeps later after last)
    (same : later.appliedIsolation = run.appliedIsolation) : Keeps run session last := by
  refine Keeps.trans ⟨same, ?_⟩ rest
  rw [show after = (backendOp works op session).2 by rw [issued]]
  exact spares (works session.issued op) session.state

theorem removePeer_isolated {key : PublicKey} (done : Bool) (state : TunnelBackend) :
    (BackendOp.effect (.removePeer key) done state).isolated = state.isolated := by
  cases done <;> rfl

theorem addPeer_isolated {spec : PeerSpec} (done : Bool) (state : TunnelBackend) :
    (BackendOp.effect (.addPeer spec) done state).isolated = state.isolated := by
  cases done <;> rfl

theorem removePeers_keeps {keys : List PublicKey} :
    Keeps run session (removePeers works keys run session) := by
  induction keys generalizing run session with
  | nil => exact .refl
  | cons key rest ih =>
      rw [removePeers]
      split
      · rename_i removed done
        exact .op removePeer_isolated done ih rfl
      · rename_i removed refused
        exact .op removePeer_isolated refused ih rfl

theorem addPeers_keeps {peers : List PeerConfig} :
    Keeps run session (addPeers works secrets peers run session) := by
  induction peers generalizing run session with
  | nil => exact .refl
  | cons peer rest ih =>
      rw [addPeers]
      split
      · exact ih
      · split
        · split
          · rename_i added done
            exact .op addPeer_isolated done ih rfl
          · rename_i added refused
            exact .op addPeer_isolated refused ih rfl
        · split
          · exact ih
          · split
            · rename_i removed refused
              exact .op removePeer_isolated refused ih rfl
            · rename_i removed gone
              split
              · rename_i added done
                exact .op removePeer_isolated gone (.op addPeer_isolated done ih rfl) rfl
              · rename_i added refused
                exact .op removePeer_isolated gone (.op addPeer_isolated refused ih rfl) rfl

theorem syncPeers_keeps {config : Config} {now : Nat} :
    Keeps run session (syncPeers works secrets config now run session) := by
  let rotated := (run.known.filter (takenOver config now)).map Prod.fst
  let swapped := removePeers works rotated run session
  let added := addPeers works secrets (eligiblePeers config now) swapped.1 swapped.2
  have first : Keeps run session swapped := removePeers_keeps
  have second : Keeps swapped.1 swapped.2 added := addPeers_keeps
  let staged := removalStages ((added.1.known.map Prod.fst).filter (fun key =>
    (eligiblePeers config now).all (fun peer => peer.publicKey ≠ key))) added.1
  have third : Keeps added.1 added.2 (staged.2, added.2) := ⟨rfl, rfl⟩
  have fourth : Keeps staged.2 added.2 (removePeers works staged.1 staged.2 added.2) :=
    removePeers_keeps
  exact first.trans (second.trans (third.trans fourth))

end

/-! ### Calls that leave nobody uncovered -/

/-- Where the isolation is released, the peers that await approval are off the interface. -/
def NobodyReleased (loaded : Option Config) (backend : TunnelBackend) : Prop :=
  ∀ config, loaded = some config → NoneWaits config backend

namespace HostTunnel

/-- `bring_up` puts nobody on the interface who awaits approval: it isolates after that. -/
def CarefulStart (works : BackendWorks) (secrets : TunnelSecrets) (config : Config) (now : Nat)
    (backend : TunnelBackend) : Prop :=
  ∀ spec, buildSpec secrets config now = .ok spec →
    if works 0 (.up spec.peers) = true then NobodyWaits config now else NoneWaits config backend

/-- `restart_in_place` does not isolate at all. -/
def CarefulRestart (works : BackendWorks) (secrets : TunnelSecrets) (config : Config) (now : Nat)
    (backend : TunnelBackend) : Prop :=
  if works 0 .down = true then
    ∀ spec, buildSpec secrets config now = .ok spec → works 1 (.up spec.peers) = true →
      NobodyWaits config now
  else NoneWaits config backend

/-- A tick finds the peers that await approval under their addresses, and isolates them or has
none to isolate. -/
def CarefulTick (works : BackendWorks) (config : Config) (run : Supervisor)
    (backend : TunnelBackend) : Prop :=
  SameAddresses config backend ∧
    (run.appliedIsolation ≠ some (inviteIsolation config) →
      works 0 (.syncIsolation (inviteIsolation config)) = false →
      NoneWaits config backend ∧ (run.appliedIsolation = none ∨ backend.isolated = []))

/-- The teardown releases the isolation even where it fails. -/
def CarefulDown (works : BackendWorks) (loaded : Option Config) (backend : TunnelBackend) : Prop :=
  works 0 .down = true ∨ NobodyReleased loaded backend

/-- A call that leaves nobody on the interface uncovered. -/
def Careful (taken : Step) (tunnel : HostTunnel) : Prop :=
  match taken.call, tunnel.phase with
  | .bringUp (some config) secrets now, .stopped =>
      CarefulStart taken.works secrets config now tunnel.backend
  | .tick (some config) _ _, .supervising spec run =>
      detectReconfigRestart spec config = false →
        CarefulTick taken.works config run tunnel.backend
  | .restart (some config) secrets now, .restarting _ =>
      CarefulRestart taken.works secrets config now tunnel.backend
  | .restart none _ _, .restarting _ => CarefulDown taken.works tunnel.loaded tunnel.backend
  | .tearDown, .supervising _ _ => CarefulDown taken.works tunnel.loaded tunnel.backend
  | .tearDown, .restarting _ => CarefulDown taken.works tunnel.loaded tunnel.backend
  | _, _ => True

/-- The supervisor of a tunnel remembers the isolation that the interface has. -/
def Honest (tunnel : HostTunnel) : Prop :=
  ∀ spec run, tunnel.phase = .supervising spec run → Cached run tunnel.backend

end HostTunnel

/-- The interface is covered for the configuration that was read. -/
def CoveredFor (loaded : Option Config) (backend : TunnelBackend) : Prop :=
  ∀ config, loaded = some config → Covered config backend

namespace TunnelPerformed

/-- Every moment of the call is covered, and the cache is honest after it. -/
structure Good (performed : TunnelPerformed) : Prop where
  covered : ∀ moment ∈ performed.moments, CoveredFor performed.tunnel.loaded moment
  honest : performed.tunnel.Honest

end TunnelPerformed

section
variable {works : BackendWorks} {session after : BackendSession} {loaded : Option Config}
  {config : Config} {secrets : TunnelSecrets} {now : Nat}

/-- What an operation leaves behind. -/
theorem backendOp_done {op : BackendOp} {done : Bool}
    (issued : backendOp works op session = (done, after)) :
    works session.issued op = done ∧
      after = { issued := session.issued + 1
                state := op.effect done session.state
                seen := session.seen ++ [op.effect done session.state] } := by
  rw [backendOp, Console.issue, Prod.mk.injEq] at issued
  obtain ⟨granted, made⟩ := issued
  rw [granted] at made
  exact ⟨granted, made.symm⟩

/-- The moment after an operation is good. -/
theorem passes_op {good : TunnelBackend → Prop} {op : BackendOp} {done : Bool}
    (issued : backendOp works op session = (done, after))
    (now : good (op.effect done session.state)) : session.Passes good after := by
  rw [(backendOp_done issued).2]
  exact ⟨[_], rfl, fun state listed => List.mem_singleton.mp listed ▸ now⟩

theorem NoneWaits.released {backend : TunnelBackend} (none : NoneWaits config backend) :
    NobodyReleased (some config) backend :=
  fun _ read => Option.some.inj read ▸ none

theorem NobodyReleased.covered {backend : TunnelBackend} (none : NobodyReleased loaded backend) :
    CoveredFor loaded backend :=
  fun config read => NoneWaits.covered (none config read)

/-- It does not depend on the isolation. -/
theorem NobodyReleased.isolate {backend : TunnelBackend} (isolated : List Ipv4Addr) (done : Bool)
    (none : NobodyReleased loaded backend) :
    NobodyReleased loaded (BackendOp.effect (.syncIsolation isolated) done backend) := by
  cases done <;> exact none

theorem NobodyReleased.down {backend : TunnelBackend} (none : NobodyReleased loaded backend) :
    NobodyReleased loaded (BackendOp.effect .down false backend) :=
  none

/-- An interface without peers. -/
theorem coveredFor_bare : CoveredFor loaded {} :=
  fun _ _ _ listed => absurd listed List.not_mem_nil

/-- Nobody waits among the peers of the interface that a configuration asks for. -/
theorem noneWaits_buildSpec (valid : config.validate = .ok ()) {spec : TunnelSpec}
    (built : buildSpec secrets config now = .ok spec) (nobody : NobodyWaits config now) :
    NoneWaits config { peers := spec.peers } := by
  intro image listed peer member same
  obtain ⟨source, eligible, key⟩ := buildSpec_peer built listed
  have equal : peer = source :=
    valid_once valid member (List.mem_filter.mp eligible).1 (same.trans key)
  rw [equal]
  exact nobody source eligible

theorem down_covered {done : Bool} (issued : backendOp works .down session = (done, after))
    (careful : works session.issued .down = true ∨ NobodyReleased loaded session.state) :
    session.Passes (CoveredFor loaded) after := by
  apply passes_op issued
  cases done with
  | true => exact coveredFor_bare
  | false =>
      rw [(backendOp_done issued).1] at careful
      exact (careful.resolve_left Bool.false_ne_true).down.covered

namespace HostTunnel

/-- A call that ends with a session whose moments are covered. -/
theorem settled_good {phase : TunnelPhase} {start : BackendSession} (fresh : start.seen = [])
    (passes : start.Passes (CoveredFor loaded) session)
    (honest : ∀ spec run, phase = .supervising spec run → Cached run session.state) :
    (settled phase loaded session).Good where
  covered := passes.all fresh
  honest := honest

theorem tearDown_good {start : BackendSession} (fresh : start.seen = [])
    (passes : start.Passes (CoveredFor loaded) session)
    (careful : works session.issued .down = true ∨ NobodyReleased loaded session.state) :
    (tearDown works loaded session).Good := by
  have down := passes.trans (down_covered rfl careful)
  exact settled_good fresh down (fun _ _ => nofun)

/-- What is remembered after a start is nothing. -/
theorem start_cached {spec spec' : TunnelSpec} {run : Supervisor} {backend : TunnelBackend}
    (phase : TunnelPhase.supervising spec (Supervisor.start spec) = .supervising spec' run) :
    Cached run backend := by
  cases phase
  exact fun _ => nofun

theorem bringUp_good (valid : config.validate = .ok ()) {backend : TunnelBackend}
    (careful : CarefulStart works secrets config now backend) :
    (bringUp works secrets config now { state := backend }).Good := by
  unfold bringUp
  split
  · exact settled_good rfl .refl (fun _ _ => nofun)
  · rename_i spec built
    have clean := careful spec built
    split
    · rename_i after refused
      rw [if_neg (by simp [(backendOp_done refused).1])] at clean
      exact settled_good rfl (passes_op refused clean.released.covered) (fun _ _ => nofun)
    · rename_i after done
      rw [if_pos (backendOp_done done).1] at clean
      have free : NobodyReleased (some config) after.state := by
        rw [(backendOp_done done).2]
        exact (noneWaits_buildSpec valid built clean).released
      have first : Console.Session.Passes (CoveredFor (some config)) { state := backend } after :=
        passes_op done (noneWaits_buildSpec valid built clean).released.covered
      split
      · rename_i later refused
        have second := first.trans (passes_op refused (free.isolate _ false).covered)
        have still : NobodyReleased (some config) later.state := by
          rw [(backendOp_done refused).2]
          exact free.isolate (inviteIsolation config) false
        exact tearDown_good rfl second (.inr still)
      · rename_i later isolated
        have second := first.trans (passes_op isolated (free.isolate _ true).covered)
        exact settled_good rfl second (fun _ _ => start_cached)

theorem restartInPlace_good (valid : config.validate = .ok ()) {backend : TunnelBackend}
    (careful : CarefulRestart works secrets config now backend) :
    (restartInPlace works secrets config now { state := backend }).Good := by
  unfold CarefulRestart at careful
  unfold restartInPlace
  split
  · refine tearDown_good rfl .refl ?_
    split at careful
    · rename_i granted
      exact .inl granted
    · exact .inr careful.released
  · rename_i spec built
    split
    · rename_i after refused
      rw [if_neg (by simp [(backendOp_done refused).1])] at careful
      refine tearDown_good rfl (passes_op refused careful.released.down.covered) (.inr ?_)
      rw [(backendOp_done refused).2]
      exact careful.released.down
    · rename_i after done
      rw [if_pos (backendOp_done done).1] at careful
      obtain ⟨granted, made⟩ := backendOp_done done
      subst made
      have first : Console.Session.Passes (CoveredFor (some config)) { state := backend } _ :=
        passes_op done coveredFor_bare
      split
      · rename_i later refused
        have second := first.trans (passes_op refused coveredFor_bare)
        refine tearDown_good rfl second (.inr fun _ _ _ listed => ?_)
        rw [(backendOp_done refused).2] at listed
        exact absurd listed List.not_mem_nil
      · rename_i later started
        have clean := careful spec built (backendOp_done started).1
        have second := first.trans
          (passes_op started (noneWaits_buildSpec valid built clean).released.covered)
        exact settled_good rfl second (fun _ _ => start_cached)

/-- `sync_peers` on an interface within the configuration. -/
theorem synced_good (valid : config.validate = .ok ()) {start : BackendSession}
    (fresh : start.seen = []) (passes : start.Passes (CoveredFor (some config)) session)
    {spec : TunnelSpec} {run : Supervisor} (within : Within config session.state)
    (cached : Cached run session.state) :
    (settled (.supervising spec (syncPeers works secrets config now run session).1) (some config)
      (syncPeers works secrets config now run session).2).Good := by
  have covers : ∀ state, Within config state → CoveredFor (some config) state :=
    fun state within _ read => Option.some.inj read ▸ within.covered valid
  have stays : Stays config session (syncPeers works secrets config now run session).2 :=
    syncPeers_within valid within
  refine settled_good fresh (passes.trans (stays.1.imp covers)) ?_
  intro spec' run' phase
  cases phase
  exact syncPeers_keeps.cached cached

theorem superviseTick_good (valid : config.validate = .ok ()) {backend : TunnelBackend}
    {spec : TunnelSpec} {run : Supervisor} (cached : Cached run backend)
    (careful : CarefulTick works config run backend) :
    (settled (.supervising spec (superviseTick works secrets config now run { state := backend }).1)
      (some config) (superviseTick works secrets config now run { state := backend }).2).Good := by
  obtain ⟨addresses, isolable⟩ := careful
  rw [superviseTick, applyInviteIsolation]
  by_cases applied : run.appliedIsolation = some (inviteIsolation config)
  · rw [if_pos applied]
    exact synced_good valid rfl .refl ⟨cached _ applied, addresses⟩ cached
  · rw [if_neg applied]
    cases issued : backendOp works (.syncIsolation (inviteIsolation config))
        { state := backend } with
    | mk done after =>
        obtain ⟨granted, made⟩ := backendOp_done issued
        cases done with
        | true =>
            have within : Within config after.state := by
              rw [made]
              exact ⟨rfl, addresses⟩
            have covered : CoveredFor (some config) after.state :=
              fun _ read => Option.some.inj read ▸ within.covered valid
            rw [made] at covered
            refine synced_good valid rfl (passes_op issued covered) within ?_
            intro isolated remembered
            rw [within.isolated]
            exact Option.some.inj remembered
        | false =>
            obtain ⟨clean, forgotten⟩ := isolable applied granted
            have covered := passes_op issued (clean.released.isolate _ false).covered
            refine settled_good rfl covered ?_
            intro spec' run' phase
            cases phase
            intro isolated remembered
            rw [made]
            rcases forgotten with never | bare
            · rw [never] at remembered
              cases remembered
            · exact bare.symm.trans (cached isolated remembered)

/-! ### Runs -/

/-- A careful call leaves nobody uncovered, and the cache honest. -/
theorem perform_good {taken : Step} {tunnel : HostTunnel} {performed : TunnelPerformed}
    (honest : tunnel.Honest) (careful : Careful taken tunnel)
    (done : perform taken.works taken.call tunnel = some performed) : performed.Good := by
  obtain ⟨call, works⟩ := taken
  obtain ⟨phase, backend, loaded⟩ := tunnel
  have quiet : ∀ {phase loaded}, (∀ spec run, phase = TunnelPhase.supervising spec run →
      Cached run backend) → (settled phase loaded { state := backend }).Good :=
    fun honest => settled_good rfl .refl honest
  unfold perform at done
  split at done
  · rename_i secrets now called stopped
    cases done
    exact quiet (fun _ _ => nofun)
  · rename_i config secrets now called stopped
    cases called
    cases stopped
    split at done
    · cases done
    · rename_i valid
      cases done
      exact bringUp_good valid careful
  · rename_i secrets now spec run called supervising
    cases called
    cases supervising
    cases done
    exact quiet honest
  · rename_i config secrets now spec run called supervising
    cases called
    cases supervising
    split at done
    · cases done
    · rename_i valid
      split at done
      · cases done
        exact quiet (fun _ _ => nofun)
      · rename_i same
        cases done
        exact superviseTick_good valid (honest spec run rfl) (careful (Bool.not_eq_true _ ▸ same))
  · rename_i secrets now spec called restarting
    cases called
    cases restarting
    cases done
    exact tearDown_good rfl .refl careful
  · rename_i config secrets now spec called restarting
    cases called
    cases restarting
    split at done
    · cases done
    · rename_i valid
      cases done
      exact restartInPlace_good valid careful
  · rename_i spec run called supervising
    cases called
    cases supervising
    cases done
    exact tearDown_good rfl .refl careful
  · rename_i spec called restarting
    cases called
    cases restarting
    cases done
    exact tearDown_good rfl .refl careful
  · cases done

theorem honest_step {taken : Step} {tunnel next : HostTunnel} (honest : tunnel.Honest)
    (careful : Careful taken tunnel) (happens : step taken tunnel = some next) : next.Honest := by
  obtain ⟨performed, done, rfl⟩ := Option.map_eq_some_iff.mp happens
  exact (perform_good honest careful done).honest

/-- In a run of careful calls every moment of the next one is covered, for the configuration that
it reads. -/
theorem approval_isolated {steps : List Step} {tunnel : HostTunnel}
    (reached : Runs.run step steps {} = some tunnel)
    (careful : Runs.Along step Careful steps {}) (next : Step) (last : Careful next tunnel)
    {performed : TunnelPerformed}
    (done : perform next.works next.call tunnel = some performed) :
    ∀ moment ∈ performed.moments, CoveredFor performed.tunnel.loaded moment := by
  have honest : tunnel.Honest :=
    Runs.run_invariant Honest (fun _ _ _ holds meets happens => honest_step holds meets happens)
      (fun _ _ stopped => by cases stopped) careful reached
  exact (perform_good honest last done).covered

/-- A network with one member, who has joined and may wait for an approval. -/
def joinedNetwork (waits : Bool) : Config where
  interface := { address := Ipv4Net.slash24 0x0A630001#32 }
  peers := [
    { inviteId := some "00000000000000000000000000000001"
      inviteIssuedAt := some 1000
      inviteExpiresAt := some 4600
      inviteAcceptedAt := some 2000
      inviteDeviceId := some "00000000000000000000000000000002"
      inviteRequiresApproval := waits
      publicKey := ⟨7⟩
      allowedIps := [Ipv4Net.host 0x0A630002#32] }]

def readableKeys : TunnelSecrets where
  privateKey := .ok ⟨1⟩
  presharedKey := fun _ => .ok none

def startJoined (waits : Bool) : Step where
  call := .bringUp (some (joinedNetwork waits)) readableKeys 3000
  works := fun _ _ => true

def joinedSpec : TunnelSpec where
  listenPort := DEFAULT_LISTEN_PORT
  mtu := (joinedNetwork false).interface.mtu
  peers := [
    { publicKey := ⟨7⟩
      endpoint := none
      allowedIps := [Ipv4Net.host 0x0A630002#32]
      persistentKeepalive := none
      presharedKey := none }]

def joinedTunnel : HostTunnel where
  phase := .supervising joinedSpec (Supervisor.start joinedSpec)
  backend := { peers := joinedSpec.peers }
  loaded := some (joinedNetwork false)

theorem approval_isolated_joined :
    Runs.run step [startJoined false] {} = some joinedTunnel ∧
      ∀ performed, perform (fun _ _ => true)
          (.tick (some (joinedNetwork true)) readableKeys 3600) joinedTunnel = some performed →
        ∀ moment ∈ performed.moments, CoveredFor performed.tunnel.loaded moment := by
  have reached : Runs.run step [startJoined false] {} = some joinedTunnel := by decide
  have start : CarefulStart (fun _ _ => true) readableKeys (joinedNetwork false) 3000 {} := by
    intro spec built
    rw [if_pos rfl]
    unfold NobodyWaits
    decide
  have addresses : SameAddresses (joinedNetwork true) joinedTunnel.backend := by
    unfold SameAddresses
    decide
  have tick : CarefulTick (fun _ _ => true) (joinedNetwork true) (Supervisor.start joinedSpec)
      joinedTunnel.backend := ⟨addresses, fun _ refused => absurd refused (by decide)⟩
  have careful : Careful { call := .tick (some (joinedNetwork true)) readableKeys 3600
                           works := fun _ _ => true } joinedTunnel := fun _ => tick
  exact ⟨reached, fun performed done =>
    approval_isolated reached ⟨start, fun _ _ => trivial⟩ _ careful done⟩

/-- A start puts the member who waits on the interface, and isolates them after that. -/
theorem approval_unisolated :
    ∃ performed, perform (startJoined true).works (startJoined true).call {} = some performed ∧
      ¬ ∀ moment ∈ performed.moments, CoveredFor performed.tunnel.loaded moment := by
  have moments : ((perform (startJoined true).works (startJoined true).call {}).map
      TunnelPerformed.moments) = some [{ peers := joinedSpec.peers },
        { peers := joinedSpec.peers, isolated := [0x0A630002#32] }] := by decide
  have loaded : ((perform (startJoined true).works (startJoined true).call {}).map
      (fun performed => performed.tunnel.loaded)) = some (some (joinedNetwork true)) := by
    decide
  obtain ⟨performed, done, seen⟩ := Option.map_eq_some_iff.mp moments
  refine ⟨performed, done, fun covered => ?_⟩
  rw [done] at loaded
  have first := covered { peers := joinedSpec.peers } (seen ▸ List.mem_cons_self)
    (joinedNetwork true) (Option.some.inj loaded) _ List.mem_cons_self _ List.mem_cons_self
    rfl rfl
  obtain ⟨net, -, listed⟩ := first
  exact absurd listed List.not_mem_nil

end HostTunnel

end

end PeerCove
