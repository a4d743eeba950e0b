/-
Module: PeerCove.Proofs.KeyHandover
Layer: Proofs
Purpose: A rotation never leaves the host with a key that the member has not, in every run in which
  the host answers a repeated request like the first and handles no request of a connection that
  the member has replaced.
Trusted boundary: none
Main exports: HandoverInv, handover_step, handover_keeps_key
-/
import PeerCove.Host.KeyExchange

namespace PeerCove

open Fallible

/-! ### One request at the host -/

section Host

variable {config written : Config} {memberIp : Ipv4Addr} {newKey host : PublicKey}

theorem matches_replaceKey (old new : PublicKey) (ip : Ipv4Addr) (peer : PeerConfig) :
    (Selector.ip ip).matches (peer.replaceKey old new) = (Selector.ip ip).matches peer := rfl

/-- After a rotation that succeeds, the member is registered with the new key. -/
theorem registeredKeys_rotated {outcome : RotateOutcome}
    (done : rotatePeerKey config memberIp newKey host = .ok (outcome, written)) :
    registeredKeys written memberIp = [newKey] := by
  unfold rotatePeerKey at done
  rcases bind_ok.mp done with ⟨⟨⟩, valid, done⟩
  rcases bind_ok.mp done with ⟨target, found, done⟩
  have only := findPeer_ok.mp found
  unfold registeredKeys
  split at done
  · rename_i same
    rcases pure_ok.mp done with ⟨_, rfl⟩
    rw [only, List.map_singleton, same]
  · rcases bind_ok.mp done with ⟨⟨⟩, notHost, done⟩
    rcases bind_ok.mp done with ⟨⟨⟩, unused, done⟩
    rcases bind_ok.mp done with ⟨⟨⟩, located, done⟩
    rcases bind_ok.mp done with ⟨edited, stored, done⟩
    rcases pure_ok.mp done with ⟨_, rfl⟩
    rcases writeValidated_ok.mp stored with ⟨_, rfl⟩
    have kept : (config.replaceKey target.publicKey newKey).peers.filter
        (Selector.ip memberIp).matches = [target.replaceKey target.publicKey newKey] := by
      rw [Config.replaceKey, List.filter_map]
      have same : (Selector.ip memberIp).matches ∘ PeerConfig.replaceKey target.publicKey newKey =
          (Selector.ip memberIp).matches :=
        funext (matches_replaceKey target.publicKey newKey memberIp)
      rw [same, only, List.map_singleton]
    rw [kept, List.map_singleton]
    simp [PeerConfig.replaceKey, replaceKey]

/-- A request for the key that is registered already changes nothing. -/
theorem rotatePeerKey_known (valid : config.validate = .ok ())
    (known : registeredKeys config memberIp = [newKey]) :
    rotatePeerKey config memberIp newKey host = .ok (.unchanged, config) := by
  rcases List.map_eq_singleton_iff.mp known with ⟨target, only, same⟩
  unfold rotatePeerKey
  rw [valid, findPeer_ok.mpr only]
  exact if_pos same

/-- The answer to a request: it was carried out, or the file is as it was. -/
theorem applyRotateKey_cases (outcome : HostOutcome) (config : Config) (memberIp : Ipv4Addr)
    (newKey host : PublicKey) :
    ((applyRotateKey outcome config memberIp newKey host).1.accepted = true ∧ outcome = .ran ∧
        registeredKeys (applyRotateKey outcome config memberIp newKey host).2 memberIp =
          [newKey]) ∨
      ((applyRotateKey outcome config memberIp newKey host).1.accepted = false ∧
        (applyRotateKey outcome config memberIp newKey host).2 = config) := by
  cases outcome with
  | failed message => exact Or.inr ⟨rfl, rfl⟩
  | ran =>
      unfold applyRotateKey
      cases done : rotatePeerKey config memberIp newKey host with
      | error message => exact Or.inr ⟨rfl, rfl⟩
      | ok result =>
          rcases result with ⟨outcome, written⟩
          have registered := registeredKeys_rotated done
          cases outcome with
          | applied display => exact Or.inl ⟨rfl, rfl, registered⟩
          | unchanged => exact Or.inl ⟨rfl, rfl, registered⟩

end Host

/-! ### What a run keeps -/

namespace KeyExchange

variable {κ : Type} (publicKey : κ → PublicKey) (memberIp : Ipv4Addr) (hostPublicKey : PublicKey)

/-- Every key under which the host knows the member belongs to a private key the member stores. -/
def KeyKept (state : KeyExchange κ) : Prop :=
  ∀ key ∈ registeredKeys state.config memberIp,
    ∃ stored ∈ state.device.files.stored, publicKey stored = key

/-- The condition on an event: the member can read its new key, the host does not fail on a request
for the key that is registered already, and it carries out another request only for the member's
latest connection. -/
def Orderly (event : KeyEvent κ) (state : KeyExchange κ) : Prop :=
  match event with
  | .tick env => env.io.pendingReadable = true ∨ state.device.files.pending = none
  | .handle session outcome => match state.channels session with
    | { requests := newKey :: _, replies := _ } =>
        if registeredKeys state.config memberIp = [newKey] then
          outcome = .ran ∧ state.config.validate = .ok ()
        else
          outcome = .ran → session = state.device.link.sessionNumber
    | { requests := [], replies := _ } => True
  | _ => True

instance decidableOrderly : ∀ (event : KeyEvent κ) (state : KeyExchange κ),
    Decidable (Orderly memberIp event state)
  | .tick env, state =>
      decidable_of_iff (env.io.pendingReadable = true ∨ state.device.files.pending.isNone = true)
        (or_congr_right Option.isNone_iff_eq_none)
  | .handle session outcome, state =>
      match there : state.channels session with
      | { requests := newKey :: _, replies := _ } =>
          decidable_of_iff
            (if registeredKeys state.config memberIp = [newKey] then
              outcome = .ran ∧ state.config.validate = .ok ()
            else
              outcome = .ran → session = state.device.link.sessionNumber)
            (by simp only [Orderly, there])
      | { requests := [], replies := _ } => isTrue (by simp only [Orderly, there])
  | .restart .., _ | .reboot .., _ | .ask, _ | .receive _, _ | .connect, _ | .disconnect, _
  | .deliver, _ | .skip _, _ | .reload, _ | .edit _, _ => isTrue trivial

/-- The public key of the new key that waits. -/
def pendingKey (state : KeyExchange κ) : Option PublicKey :=
  state.device.files.pending.map publicKey

/-- An answer that the member has, or that can still reach it. -/
def Answer (state : KeyExchange κ) (reply : RotateReply) : Prop :=
  state.device.link.rotateResult = some reply ∨
    (state.device.link.outbox = .opened ∧ reply ∈ state.latest.replies)

/-- The requests and answers of the latest session. -/
def underway (state : KeyExchange κ) : Nat :=
  state.latest.requests.length + state.latest.replies.length +
    state.device.link.rotateResult.toList.length

/-- What holds between the two parties while the member is registered with a key. -/
structure HandoverInv (state : KeyExchange κ) (registered : PublicKey) : Prop where
  known : registeredKeys state.config memberIp = [registered]
  stored : ∃ key ∈ state.device.files.stored, publicKey key = registered
  once : state.underway ≤ 1
  asked : state.device.link.outbox = .opened → 0 < state.underway →
    ∃ tunnel, state.device.tunnel = some tunnel ∧ tunnel.rotation.onPending = false ∧
      tunnel.rotation.attemptedSession = some state.device.link.sessionNumber
  requested : ∀ key ∈ state.latest.requests, state.pendingKey publicKey = some key ∨
    (state.device.link.outbox ≠ .opened ∧ key = registered)
  accepted : ∀ reply, state.Answer reply → reply.accepted = true →
    ∀ key, state.pendingKey publicKey = some key → key = registered
  rejected : ∀ reply, state.Answer reply → reply.accepted = false →
    ∃ key, state.device.files.current = some key ∧ publicKey key = registered
  trying : ∀ tunnel, state.device.tunnel = some tunnel → tunnel.rotation.onPending = true →
    ∀ key, state.pendingKey publicKey = some key → key = publicKey tunnel.key
  heard : ∀ tunnel, state.device.tunnel = some tunnel → tunnel.rotation.onPending = true →
    0 < tunnel.rxBytes → ∀ key, state.pendingKey publicKey = some key → key = registered
  installed : ∀ key ∈ state.installed, state.pendingKey publicKey = some key → key = registered
  issued : registered ∈ state.issued ∧ (∀ key ∈ state.installed, key ∈ state.issued) ∧
    ∀ key, state.pendingKey publicKey = some key → key ∈ state.issued

section Events

variable {publicKey memberIp hostPublicKey}
variable {state : KeyExchange κ} {registered : PublicKey}

/-- Without the new key, the registered one is the settled one. -/
theorem HandoverInv.current (inv : HandoverInv publicKey memberIp state registered)
    (other : state.pendingKey publicKey ≠ some registered) :
    ∃ key, state.device.files.current = some key ∧ publicKey key = registered := by
  rcases inv.stored with ⟨key, stored, same⟩
  rcases List.mem_append.mp stored with settled | waiting
  · exact ⟨key, Option.mem_toList.mp settled, same⟩
  · exfalso
    apply other
    unfold pendingKey
    rw [Option.mem_toList.mp waiting, Option.map_some, same]

/-- Nothing is under way for a session in which the tunnel runs with the new key, or has not asked
yet. -/
theorem HandoverInv.idle (inv : HandoverInv publicKey memberIp state registered)
    (opened : state.device.link.outbox = .opened) {tunnel : Tunnel κ}
    (runs : state.device.tunnel = some tunnel)
    (silent : tunnel.rotation.onPending = true ∨
      tunnel.rotation.attemptedSession ≠ some state.device.link.sessionNumber) :
    state.underway = 0 := by
  by_contra busy
  rcases inv.asked opened (Nat.pos_of_ne_zero busy) with ⟨other, same, settled, attempted⟩
  obtain rfl := Option.some.inj (runs.symm.trans same)
  rcases silent with trying | fresh
  · rw [settled] at trying
    cases trying
  · exact fresh attempted

/-! ### Changes of one part -/

/-- Other files: the settled key may change, and the new key may be gone. -/
theorem HandoverInv.withFiles (inv : HandoverInv publicKey memberIp state registered)
    {files : KeyFiles κ}
    (pending : files.pending = none ∨ files.pending = state.device.files.pending)
    (stored : ∃ key ∈ files.stored, publicKey key = registered)
    (requested : ∀ key ∈ state.latest.requests, files.pending = state.device.files.pending ∨
      (state.device.link.outbox ≠ .opened ∧ key = registered))
    (rejected : ∀ reply, state.Answer reply → reply.accepted = false →
      ∃ key, files.current = some key ∧ publicKey key = registered) :
    HandoverInv publicKey memberIp
      { state with device := { state.device with files := files } } registered := by
  have fewer : ∀ key, files.pending.map publicKey = some key →
      state.pendingKey publicKey = some key := by
    intro key waits
    rcases pending with gone | same
    · rw [gone] at waits
      cases waits
    · rw [same] at waits
      exact waits
  exact
    { inv with
      stored := stored
      requested := by
        intro key asked
        rcases requested key asked with same | offline
        · rcases inv.requested key asked with waits | offline
          · refine Or.inl ?_
            unfold pendingKey at waits ⊢
            rw [same]
            exact waits
          · exact Or.inr offline
        · exact Or.inr offline
      accepted := fun reply answer yes key waits => inv.accepted reply answer yes key (fewer key waits)
      rejected := rejected
      trying := fun tunnel runs tries key waits => inv.trying tunnel runs tries key (fewer key waits)
      heard := fun tunnel runs tries bytes key waits =>
        inv.heard tunnel runs tries bytes key (fewer key waits)
      installed := fun key runs waits => inv.installed key runs (fewer key waits)
      issued := ⟨inv.issued.1, inv.issued.2.1, fun key waits => inv.issued.2.2 key (fewer key waits)⟩ }

/-- Another rotation in the same tunnel, which does not begin to run with the new key. -/
theorem HandoverInv.withRotation (inv : HandoverInv publicKey memberIp state registered)
    {tunnel : Tunnel κ} (runs : state.device.tunnel = some tunnel) {rotation : Rotation}
    (pending : rotation.onPending = true → tunnel.rotation.onPending = true)
    (attempted : tunnel.rotation.attemptedSession = some state.device.link.sessionNumber →
      rotation.attemptedSession = some state.device.link.sessionNumber) :
    HandoverInv publicKey memberIp
      { state with
        device := { state.device with
          tunnel := some { tunnel with rotation := rotation } } } registered :=
  { inv with
    asked := by
      intro opened busy
      rcases inv.asked opened busy with ⟨other, same, settled, session⟩
      obtain rfl := Option.some.inj (runs.symm.trans same)
      refine ⟨_, rfl, ?_, attempted session⟩
      cases tries : rotation.onPending with
      | false => rfl
      | true => exact absurd (pending tries) (by rw [settled]; exact Bool.false_ne_true)
    trying := by
      intro other same tries
      obtain rfl := Option.some.inj same
      exact inv.trying tunnel runs (pending tries)
    heard := by
      intro other same tries
      obtain rfl := Option.some.inj same
      exact inv.heard tunnel runs (pending tries) }

/-- More keys were in use. -/
theorem HandoverInv.withIssued (inv : HandoverInv publicKey memberIp state registered)
    (key : PublicKey) :
    HandoverInv publicKey memberIp { state with issued := key :: state.issued } registered :=
  { inv with
    issued := ⟨List.mem_cons_of_mem _ inv.issued.1,
      fun other runs => List.mem_cons_of_mem _ (inv.issued.2.1 other runs),
      fun other waits => List.mem_cons_of_mem _ (inv.issued.2.2 other waits)⟩ }

/-- The member's connection is gone. -/
theorem HandoverInv.withOutbox (inv : HandoverInv publicKey memberIp state registered)
    {outbox : Outbox} (closed : outbox ≠ .opened) :
    HandoverInv publicKey memberIp
      { state with
        device := { state.device with
          link := { state.device.link with outbox := outbox } } } registered :=
  { inv with
    asked := fun opened => absurd opened closed
    requested := by
      intro key asked
      rcases inv.requested key asked with waits | offline
      · exact Or.inl waits
      · exact Or.inr ⟨closed, offline.2⟩
    accepted := by
      intro reply answer
      apply inv.accepted reply
      rcases answer with held | ⟨opened, _⟩
      · exact Or.inl held
      · exact absurd opened closed
    rejected := by
      intro reply answer
      apply inv.rejected reply
      rcases answer with held | ⟨opened, _⟩
      · exact Or.inl held
      · exact absurd opened closed }

/-- Other messages of the latest session: no new request, and no new answer. -/
theorem HandoverInv.withMessages (inv : HandoverInv publicKey memberIp state registered)
    {channels : Nat → KeyChannel} {result : Option RotateReply}
    (requests : ∀ key ∈ (channels state.device.link.sessionNumber).requests,
      key ∈ state.latest.requests)
    (answers : ∀ reply, result = some reply ∨ (state.device.link.outbox = .opened ∧
        reply ∈ (channels state.device.link.sessionNumber).replies) → state.Answer reply)
    (fewer : (channels state.device.link.sessionNumber).requests.length +
        (channels state.device.link.sessionNumber).replies.length + result.toList.length ≤
      state.underway) :
    HandoverInv publicKey memberIp
      { state with
        channels := channels
        device := { state.device with
          link := { state.device.link with rotateResult := result } } } registered :=
  { inv with
    once := Nat.le_trans fewer inv.once
    asked := fun opened busy => inv.asked opened (Nat.lt_of_lt_of_le busy fewer)
    requested := fun key asked => inv.requested key (requests key asked)
    accepted := fun reply answer => inv.accepted reply (answers reply answer)
    rejected := fun reply answer => inv.rejected reply (answers reply answer) }

/-! ### A tick -/

/-- Where nothing is under way there is no answer. -/
theorem no_answer (idle : state.underway = 0) (reply : RotateReply) : ¬ state.Answer reply := by
  unfold underway at idle
  intro answer
  rcases answer with held | ⟨_, listed⟩
  · rw [held] at idle
    simp at idle
  · have some := List.length_pos_of_mem listed
    omega

/-- The member has taken the answer out of its link. -/
def taken (state : KeyExchange κ) : KeyExchange κ :=
  { state with
    device := { state.device with link := { state.device.link with rotateResult := none } } }

/-- The answer was the only message of its session. -/
theorem HandoverInv.take (inv : HandoverInv publicKey memberIp state registered)
    {reply : RotateReply} (held : state.device.link.rotateResult = some reply) :
    HandoverInv publicKey memberIp state.taken registered ∧ state.taken.underway = 0 := by
  have once := inv.once
  unfold underway at once
  rw [held] at once
  simp only [Option.toList_some, List.length_singleton] at once
  constructor
  · apply inv.withMessages
    · exact fun key asked => asked
    · intro other answer
      rcases answer with impossible | deliverable
      · cases impossible
      · exact Or.inr deliverable
    · exact Nat.add_le_add_left (Nat.zero_le _) _
  · change state.latest.requests.length + state.latest.replies.length + 0 = 0
    omega

/-- The new key is committed where the host has registered it, and nothing is under way on an open
connection. -/
theorem HandoverInv.commit (inv : HandoverInv publicKey memberIp state registered)
    (waits : ∀ key, state.pendingKey publicKey = some key → key = registered)
    (idle : state.device.link.outbox = .opened → state.underway = 0)
    (quiet : state.device.link.rotateResult = none) (io : FileOutcomes κ) :
    HandoverInv publicKey memberIp
      { state with
        device := { state.device with files := (commitPending io state.device.files).2 } }
      registered := by
  rcases commitPending_cases io state.device.files with same | changed
  · rw [same]
    exact inv
  · rcases changed with ⟨key, there, pending, stored⟩
    have isRegistered : publicKey key = registered := by
      apply waits
      unfold pendingKey
      rw [there]
      rfl
    apply inv.withFiles pending ⟨key, stored, isRegistered⟩
    · intro asked listed
      rcases inv.requested asked listed with waiting | offline
      · by_cases opened : state.device.link.outbox = .opened
        · have some := List.length_pos_of_mem listed
          have none := idle opened
          unfold underway at none
          omega
        · exact Or.inr ⟨opened, waits asked waiting⟩
      · exact Or.inr offline
    · intro reply answer
      rcases answer with held | ⟨opened, listed⟩
      · rw [quiet] at held
        cases held
      · exact absurd (Or.inr ⟨opened, listed⟩) (no_answer (idle opened) reply)

/-- The answer is collected: an accepted one settles the new key, a rejected one discards it. -/
theorem HandoverInv.collect (inv : HandoverInv publicKey memberIp state registered)
    (idle : state.underway = 0) (quiet : state.device.link.rotateResult = none)
    {reply : RotateReply}
    (accepted : reply.accepted = true →
      ∀ key, state.pendingKey publicKey = some key → key = registered)
    (rejected : reply.accepted = false →
      ∃ key, state.device.files.current = some key ∧ publicKey key = registered)
    (env : TickEnv κ) :
    HandoverInv publicKey memberIp
      { state with device := Device.collect env reply state.device } registered := by
  unfold Device.collect
  cases yes : reply.accepted with
  | true =>
      rw [if_pos rfl]
      have after := inv.commit (accepted yes) (fun _ => idle) quiet env.io
      cases done : commitPending env.io state.device.files with
      | mk succeeded files =>
          rw [done] at after
          cases succeeded with
          | true => exact { after with }
          | false => exact { after with }
  | false =>
      rw [if_neg Bool.false_ne_true]
      rcases rejected yes with ⟨key, settled, same⟩
      have after : HandoverInv publicKey memberIp
          { state with
            device := { state.device with files := discardPending env.io state.device.files } }
          registered := by
        apply inv.withFiles discardPending_pending
        · refine ⟨key, List.mem_append_left _ ?_, same⟩
          exact Option.mem_toList.mpr settled
        · intro asked listed
          have some := List.length_pos_of_mem listed
          unfold underway at idle
          omega
        · exact fun other answer => absurd answer (no_answer idle other)
      exact { after with }

/-- Bytes that arrive settle the new key the tunnel runs with. -/
theorem HandoverInv.tryPending (inv : HandoverInv publicKey memberIp state registered)
    (quiet : state.device.link.rotateResult = none) {tunnel : Tunnel κ}
    (runs : state.device.tunnel = some tunnel) (tries : tunnel.rotation.onPending = true)
    {env : TickEnv κ} (read : env.stats = none ∨ env.stats = some tunnel.rxBytes) :
    HandoverInv publicKey memberIp
      { state with device := Device.tryPending env tunnel state.device } registered := by
  unfold Device.tryPending
  split
  · rename_i bytes
    have arrived : 0 < tunnel.rxBytes := by
      rcases read with missing | counted
      · rw [TickEnv.rx, missing] at bytes
        exact absurd bytes (Nat.lt_irrefl 0)
      · rw [TickEnv.rx, counted] at bytes
        exact bytes
    have after := inv.commit (inv.heard tunnel runs tries arrived)
      (fun opened => inv.idle opened runs (Or.inl tries)) quiet env.io
    cases done : commitPending env.io state.device.files with
    | mk succeeded files =>
        rw [done] at after
        cases succeeded with
        | true => exact after.withRotation runs (fun settled => absurd settled Bool.false_ne_true) id
        | false => exact after
  · split
    · exact { inv with }
    · exact inv

/-- The new key is prepared, where the open connection waits for no answer. -/
theorem HandoverInv.ensure (inv : HandoverInv publicKey memberIp state registered)
    (quiet : state.device.link.rotateResult = none) {tunnel : Tunnel κ}
    (runs : state.device.tunnel = some tunnel) (settled : tunnel.rotation.onPending = false)
    (idle : state.device.link.outbox = .opened → state.underway = 0) {io : FileOutcomes κ}
    (readable : io.pendingReadable = true ∨ state.device.files.pending = none)
    (fresh : publicKey io.generated ∉ state.issued) :
    HandoverInv publicKey memberIp
      { state with
        device := { state.device with files := (ensurePending io state.device.files).2 }
        issued := publicKey io.generated :: state.issued } registered := by
  rcases ensurePending_spec readable with ⟨current, pending, _⟩
  rcases pending with same | ⟨absent, made⟩
  · have kept : HandoverInv publicKey memberIp
        { state with
          device := { state.device with files := (ensurePending io state.device.files).2 } }
        registered := by
      apply inv.withFiles (Or.inr same)
      · rcases inv.stored with ⟨key, stored, registers⟩
        refine ⟨key, ?_, registers⟩
        rw [KeyFiles.stored, current, same]
        exact stored
      · exact fun key _ => Or.inl same
      · intro reply answer no
        rw [current]
        exact inv.rejected reply answer no
    exact kept.withIssued (publicKey io.generated)
  · have before : state.pendingKey publicKey = none := by
      unfold pendingKey
      rw [absent]
      rfl
    have after (key : PublicKey)
        (waits : (ensurePending io state.device.files).2.pending.map publicKey = some key) :
        key = publicKey io.generated := by
      rw [made] at waits
      exact (Option.some.inj waits).symm
    have running (tunnel' : Tunnel κ) (same : state.device.tunnel = some tunnel') :
        ¬ tunnel'.rotation.onPending = true := by
      obtain rfl := Option.some.inj (runs.symm.trans same)
      rw [settled]
      exact Bool.false_ne_true
    have silent (reply : RotateReply) : ¬ state.Answer reply := by
      intro answer
      rcases answer with held | ⟨opened, listed⟩
      · rw [quiet] at held
        cases held
      · exact no_answer (idle opened) reply (Or.inr ⟨opened, listed⟩)
    exact
      { inv with
        stored := by
          have unpending : state.pendingKey publicKey ≠ some registered := by
            intro same
            rw [before] at same
            cases same
          rcases inv.current unpending with ⟨key, held, same⟩
          refine ⟨key, List.mem_append_left _ ?_, same⟩
          rw [current]
          exact Option.mem_toList.mpr held
        requested := by
          intro key asked
          rcases inv.requested key asked with waits | offline
          · rw [before] at waits
            cases waits
          · exact Or.inr offline
        accepted := fun reply answer => absurd answer (silent reply)
        rejected := fun reply answer => absurd answer (silent reply)
        trying := fun tunnel' same tries => absurd tries (running tunnel' same)
        heard := fun tunnel' same tries => absurd tries (running tunnel' same)
        installed := by
          intro key runs waits
          obtain rfl := after key waits
          exact absurd (inv.issued.2.1 _ runs) fresh
        issued := by
          refine ⟨List.mem_cons_of_mem _ inv.issued.1, ?_, ?_⟩
          · exact fun key runs => List.mem_cons_of_mem _ (inv.issued.2.1 key runs)
          · intro key waits
            obtain rfl := after key waits
            exact List.mem_cons_self }

/-- The only message of its session goes out, for the new key. -/
theorem HandoverInv.send (inv : HandoverInv publicKey memberIp state registered)
    (idle : state.underway = 0) {tunnel : Tunnel κ}
    (runs : state.device.tunnel = some tunnel) (settled : tunnel.rotation.onPending = false)
    {key : PublicKey} (waits : state.pendingKey publicKey = some key) :
    HandoverInv publicKey memberIp
      (post (some key) { state with
        device := { state.device with
          tunnel := some { tunnel with
            rotation := { tunnel.rotation with
              attemptedSession := some state.device.link.sessionNumber } } } }) registered := by
  have channel : (post (some key) { state with
      device := { state.device with
        tunnel := some { tunnel with
          rotation := { tunnel.rotation with
            attemptedSession := some state.device.link.sessionNumber } } } }).latest =
      { state.latest with requests := state.latest.requests ++ [key] } :=
    Function.update_self ..
  have empty : state.latest.requests = [] ∧ state.latest.replies = [] ∧
      state.device.link.rotateResult = none := by
    unfold underway at idle
    refine ⟨List.eq_nil_of_length_eq_zero (by omega), List.eq_nil_of_length_eq_zero (by omega), ?_⟩
    exact Option.toList_eq_nil_iff.mp (List.eq_nil_of_length_eq_zero (by omega))
  rcases empty with ⟨noRequests, noReplies, quiet⟩
  have rotated : HandoverInv publicKey memberIp { state with
      device := { state.device with
        tunnel := some { tunnel with
          rotation := { tunnel.rotation with
            attemptedSession := some state.device.link.sessionNumber } } } } registered :=
    inv.withRotation runs id (fun _ => rfl)
  have silent (reply : RotateReply) : ¬ (state.device.link.rotateResult = some reply ∨
      state.device.link.outbox = .opened ∧ reply ∈ state.latest.replies) :=
    no_answer idle reply
  exact
    { rotated with
      once := by
        unfold underway
        rw [channel, noRequests, noReplies]
        change 1 + 0 + state.device.link.rotateResult.toList.length ≤ 1
        rw [quiet]
        exact Nat.le_refl 1
      asked := fun _ _ => ⟨_, rfl, settled, rfl⟩
      requested := by
        intro other asked
        rw [channel, noRequests] at asked
        obtain rfl := List.mem_singleton.mp asked
        exact Or.inl waits
      accepted := by
        intro reply answer
        unfold Answer at answer
        rw [channel] at answer
        exact absurd answer (silent reply)
      rejected := by
        intro reply answer
        unfold Answer at answer
        rw [channel] at answer
        exact absurd answer (silent reply) }

/-- A request goes out in a session that has none, for a key that is in its file. -/
theorem HandoverInv.request (inv : HandoverInv publicKey memberIp state registered)
    (quiet : state.device.link.rotateResult = none) {tunnel : Tunnel κ}
    (runs : state.device.tunnel = some tunnel) (settled : tunnel.rotation.onPending = false)
    {env : TickEnv κ}
    (readable : env.io.pendingReadable = true ∨ state.device.files.pending = none)
    (fresh : publicKey env.io.generated ∉ state.issued) :
    HandoverInv publicKey memberIp
      (post (Device.request publicKey env tunnel state.device).2
        { state with
          device := (Device.request publicKey env tunnel state.device).1
          issued := publicKey env.io.generated :: state.issued }) registered := by
  have unchanged := inv.withIssued (publicKey env.io.generated)
  unfold Device.request
  split
  · exact unchanged
  split
  · exact unchanged
  rename_i session connected
  split
  · exact unchanged
  rename_i attempted
  have number : state.device.link.sessionNumber = session := by
    unfold MemberLink.session at connected
    split at connected
    · cases connected
    · exact Option.some.inj connected
  subst number
  have idle (opened : state.device.link.outbox = .opened) : state.underway = 0 :=
    inv.idle opened runs (Or.inr attempted)
  have ensured := inv.ensure quiet runs settled idle readable fresh
  rcases ensurePending_spec readable with ⟨_, _, prepared⟩
  cases done : ensurePending env.io state.device.files with
  | mk key files =>
      rw [done] at ensured prepared
      cases key with
      | none => exact ensured
      | some key =>
          simp only
          split
          · rename_i opened
            apply ensured.send (idle opened) runs settled
            unfold pendingKey
            rw [prepared key rfl]
            rfl
          · exact ensured

theorem observe_onPending (env : TickEnv κ) (rotation : Rotation) :
    (rotation.observe env).onPending = rotation.onPending := by
  unfold Rotation.observe
  split <;> rfl

theorem observe_attempted (env : TickEnv κ) (rotation : Rotation) :
    (rotation.observe env).attemptedSession = rotation.attemptedSession := by
  unfold Rotation.observe
  split <;> rfl

theorem HandoverInv.tick (inv : HandoverInv publicKey memberIp state registered)
    {tunnel : Tunnel κ} (runs : state.device.tunnel = some tunnel) {env : TickEnv κ}
    (read : env.stats = none ∨ env.stats = some tunnel.rxBytes)
    (readable : env.io.pendingReadable = true ∨ state.device.files.pending = none)
    (fresh : publicKey env.io.generated ∉ state.issued) :
    HandoverInv publicKey memberIp
      (post (state.device.tick publicKey env tunnel).2
        { state with
          device := (state.device.tick publicKey env tunnel).1
          issued := publicKey env.io.generated :: state.issued }) registered := by
  have observed : HandoverInv publicKey memberIp
      { state with
        device := { state.device with
          tunnel := some { tunnel with rotation := tunnel.rotation.observe env } } }
      registered := by
    apply inv.withRotation runs
    · rw [observe_onPending]
      exact id
    · rw [observe_attempted]
      exact id
  unfold Device.tick
  simp only
  split
  · rename_i reply held
    rcases observed.take held with ⟨took, idle⟩
    have collected := took.collect idle rfl
      (fun yes => observed.accepted reply (Or.inl held) yes)
      (fun no => observed.rejected reply (Or.inl held) no) env
    exact collected.withIssued _
  · rename_i quiet
    split
    · rename_i tries
      exact (observed.tryPending quiet rfl tries read).withIssued _
    · rename_i settled
      split
      · exact { observed.withIssued (publicKey env.io.generated) with }
      · exact observed.request quiet rfl (Bool.eq_false_iff.mpr settled) readable fresh

/-! ### The other events -/

/-- The tunnel is started again, with either key. -/
theorem HandoverInv.restart (inv : HandoverInv publicKey memberIp state registered)
    (readable usePending : Bool) (now : Nat) :
    HandoverInv publicKey memberIp
      { state with device := state.device.restart publicKey readable usePending now }
      registered := by
  have closed : (if state.device.link.outbox = .absent then Outbox.absent else .closed) ≠
      .opened := by
    split
    · exact nofun
    · exact nofun
  have stopped := inv.withOutbox closed
  exact
    { stopped with
      asked := fun opened => absurd opened closed
      trying := by
        intro tunnel runs tries key waits
        rcases Option.map_eq_some_iff.mp runs with ⟨current, _, rfl⟩
        rcases (Option.any_eq_true _ _).mp tries with ⟨loaded, there, same⟩
        change state.device.files.pending.map publicKey = some key at waits
        rw [loadPending_some there, Option.map_some] at waits
        rw [← Option.some.inj waits]
        exact of_decide_eq_true same
      heard := by
        intro tunnel runs tries bytes
        rcases Option.map_eq_some_iff.mp runs with ⟨current, _, rfl⟩
        exact absurd bytes (Nat.lt_irrefl 0) }

/-- Only the files outlive the daemon. -/
theorem HandoverInv.reboot (inv : HandoverInv publicKey memberIp state registered)
    (readable : Bool) (now : Nat) :
    HandoverInv publicKey memberIp
      { state with device := state.device.reboot publicKey readable now } registered := by
  have stopped : HandoverInv publicKey memberIp
      { state with
        device := {
          files := state.device.files
          link := { sessionNumber := state.device.link.sessionNumber } } } registered := by
    have offline : Outbox.absent ≠ .opened := nofun
    have silent : HandoverInv publicKey memberIp
        { state with
          channels := state.channels
          device := { state.device with
            link := { state.device.link with rotateResult := none } } } registered := by
      apply inv.withMessages
      · exact fun key asked => asked
      · intro reply answer
        rcases answer with impossible | deliverable
        · cases impossible
        · exact Or.inr deliverable
      · exact Nat.add_le_add_left (Nat.zero_le _) _
    exact
      { silent.withOutbox offline with
        asked := fun opened => absurd opened offline
        trying := nofun
        heard := nofun }
  exact stopped.restart readable false now

/-- Bytes arrive only with a key that the host has registered. -/
theorem HandoverInv.receive (inv : HandoverInv publicKey memberIp state registered)
    {tunnel : Tunnel κ} (runs : state.device.tunnel = some tunnel)
    (carries : publicKey tunnel.key ∈ state.installed) (bytes : Nat) :
    HandoverInv publicKey memberIp
      { state with
        device := { state.device with
          tunnel := some { tunnel with rxBytes := tunnel.rxBytes + bytes } } } registered :=
  { inv with
    asked := by
      intro opened busy
      rcases inv.asked opened busy with ⟨other, same, asked⟩
      obtain rfl := Option.some.inj (runs.symm.trans same)
      exact ⟨_, rfl, asked⟩
    trying := by
      intro other same tries
      obtain rfl := Option.some.inj same
      exact inv.trying tunnel runs tries
    heard := by
      intro other same tries _ key waits
      obtain rfl := Option.some.inj same
      have running := inv.trying tunnel runs tries key waits
      exact inv.installed key (running ▸ carries) waits }

/-- A new connection starts empty. -/
theorem HandoverInv.connect (inv : HandoverInv publicKey memberIp state registered) :
    HandoverInv publicKey memberIp
      { state with
        device := { state.device with link := state.device.link.attach }
        channels := Function.update state.channels state.device.link.attach.sessionNumber {} }
      registered := by
  have channel : latest
      { state with
        device := { state.device with link := state.device.link.attach }
        channels := Function.update state.channels state.device.link.attach.sessionNumber {} } =
      {} := Function.update_self ..
  have idle : underway
      { state with
        device := { state.device with link := state.device.link.attach }
        channels := Function.update state.channels state.device.link.attach.sessionNumber {} } =
      0 := by
    unfold underway
    rw [channel]
    rfl
  exact
    { inv with
      once := idle ▸ Nat.zero_le 1
      asked := fun _ busy => absurd busy (idle ▸ Nat.lt_irrefl 0)
      requested := by
        intro key asked
        rw [channel] at asked
        cases asked
      accepted := fun reply answer => absurd answer (no_answer idle reply)
      rejected := fun reply answer => absurd answer (no_answer idle reply) }

/-- An answer reaches the member. -/
theorem HandoverInv.deliver (inv : HandoverInv publicKey memberIp state registered)
    (opened : state.device.link.outbox = .opened) {reply : RotateReply} {rest : List RotateReply}
    (next : state.latest.replies = reply :: rest) :
    HandoverInv publicKey memberIp
      { state with
        device := { state.device with link := state.device.link.putRotateResult reply }
        channels := Function.update state.channels state.device.link.sessionNumber
          { state.latest with replies := rest } } registered := by
  apply inv.withMessages
  · rw [Function.update_self]
    exact fun key asked => asked
  · rw [Function.update_self]
    intro other answer
    refine Or.inr ⟨opened, ?_⟩
    rw [next]
    rcases answer with same | ⟨_, listed⟩
    · obtain rfl := Option.some.inj same
      exact List.mem_cons_self
    · exact List.mem_cons_of_mem _ listed
  · rw [Function.update_self]
    unfold underway
    rw [next]
    change state.latest.requests.length + rest.length + 1 ≤
      state.latest.requests.length + (rest.length + 1) + _
    omega

/-- Nothing changes for the member when messages of an earlier connection do. -/
theorem HandoverInv.elsewhere (inv : HandoverInv publicKey memberIp state registered)
    {session : Nat} (other : session ≠ state.device.link.sessionNumber) (channel : KeyChannel) :
    HandoverInv publicKey memberIp
      { state with channels := Function.update state.channels session channel } registered := by
  apply inv.withMessages
  · rw [Function.update_of_ne (Ne.symm other)]
    exact fun key asked => asked
  · rw [Function.update_of_ne (Ne.symm other)]
    exact fun reply answer => answer
  · rw [Function.update_of_ne (Ne.symm other)]
    exact Nat.le_refl _

/-- A request is passed over. -/
theorem HandoverInv.skip (inv : HandoverInv publicKey memberIp state registered) {session : Nat}
    {newKey : PublicKey} {rest : List PublicKey} {replies : List RotateReply}
    (next : state.channels session = { requests := newKey :: rest, replies := replies }) :
    HandoverInv publicKey memberIp
      { state with
        channels := Function.update state.channels session
          { requests := rest, replies := replies } } registered := by
  by_cases same : session = state.device.link.sessionNumber
  · subst same
    apply inv.withMessages
    · rw [Function.update_self]
      intro key asked
      unfold latest
      rw [next]
      exact List.mem_cons_of_mem _ asked
    · rw [Function.update_self]
      intro reply answer
      unfold Answer latest
      rw [next]
      exact answer
    · rw [Function.update_self]
      unfold underway latest
      rw [next]
      change rest.length + replies.length + state.device.link.rotateResult.toList.length ≤
        rest.length + 1 + replies.length + state.device.link.rotateResult.toList.length
      omega
  · exact inv.elsewhere same _

/-- A request of the latest connection is the only message of its session. -/
theorem HandoverInv.alone (inv : HandoverInv publicKey memberIp state registered)
    {newKey : PublicKey} {rest : List PublicKey} {replies : List RotateReply}
    (next : state.latest = { requests := newKey :: rest, replies := replies }) :
    rest = [] ∧ replies = [] ∧ state.device.link.rotateResult = none ∧ 0 < state.underway ∧
      (state.pendingKey publicKey = some newKey ∨
        (state.device.link.outbox ≠ .opened ∧ newKey = registered)) := by
  have once := inv.once
  have asked := inv.requested newKey
  unfold underway at once ⊢
  rw [next] at once asked ⊢
  simp only [List.length_cons] at once ⊢
  refine ⟨List.eq_nil_of_length_eq_zero (by omega), List.eq_nil_of_length_eq_zero (by omega),
    Option.toList_eq_nil_iff.mp (List.eq_nil_of_length_eq_zero (by omega)), by omega, ?_⟩
  exact asked List.mem_cons_self

/-- The host's answer takes the place of the request, for a member that stays registered or becomes
registered with the requested key. -/
theorem HandoverInv.answer (inv : HandoverInv publicKey memberIp state registered)
    {newKey : PublicKey} {rest : List PublicKey} {replies : List RotateReply}
    (next : state.latest = { requests := newKey :: rest, replies := replies })
    {reply : RotateReply} {config : Config} {after : PublicKey}
    (known : registeredKeys config memberIp = [after])
    (moved : after = registered ∨ after = newKey)
    (yes : reply.accepted = true → after = newKey)
    (no : reply.accepted = false → after = registered ∧ newKey ≠ registered) :
    HandoverInv publicKey memberIp
      { state with
        config := config
        channels := Function.update state.channels state.device.link.sessionNumber
          { requests := rest, replies := replies ++ [reply] } } after := by
  rcases inv.alone next with ⟨rfl, rfl, quiet, busy, asked⟩
  have channel : latest
      { state with
        config := config
        channels := Function.update state.channels state.device.link.sessionNumber
          { requests := [], replies := [] ++ [reply] } } = { requests := [], replies := [reply] } :=
    Function.update_self ..
  have only (other : RotateReply) (answer : Answer
      { state with
        config := config
        channels := Function.update state.channels state.device.link.sessionNumber
          { requests := [], replies := [] ++ [reply] } } other) :
      state.device.link.outbox = .opened ∧ other = reply := by
    unfold Answer at answer
    rw [channel] at answer
    rcases answer with held | ⟨opened, listed⟩
    · change state.device.link.rotateResult = some other at held
      rw [quiet] at held
      cases held
    · exact ⟨opened, List.mem_singleton.mp listed⟩
  -- the new key, where it is not the registered one already, is the one that was asked for
  have waiting (key : PublicKey) (waits : state.pendingKey publicKey = some key)
      (registers : key = registered) : key = after := by
    rcases moved with same | new
    · rw [registers, same]
    · rcases asked with asked | ⟨_, same⟩
      · rw [new]
        exact Option.some.inj (waits.symm.trans asked)
      · rw [registers, new, same]
  exact
    { inv with
      known := known
      stored := by
        rcases moved with rfl | rfl
        · exact inv.stored
        · rcases asked with asked | ⟨_, rfl⟩
          · rcases Option.map_eq_some_iff.mp asked with ⟨key, there, same⟩
            exact ⟨key, List.mem_append_right _ (Option.mem_toList.mpr there), same⟩
          · exact inv.stored
      once := by
        unfold underway
        rw [channel]
        change 0 + 1 + state.device.link.rotateResult.toList.length ≤ 1
        rw [quiet]
        exact Nat.le_refl 1
      asked := fun opened _ => inv.asked opened busy
      requested := by
        intro key listed
        rw [channel] at listed
        cases listed
      accepted := by
        intro other answer accepts key waits
        rcases only other answer with ⟨opened, rfl⟩
        rcases asked with asked | ⟨closed, _⟩
        · rw [yes accepts]
          exact Option.some.inj (waits.symm.trans asked)
        · exact absurd opened closed
      rejected := by
        intro other answer rejects
        rcases only other answer with ⟨opened, rfl⟩
        rcases no rejects with ⟨rfl, differ⟩
        rcases asked with asked | ⟨closed, _⟩
        · apply inv.current
          rw [asked]
          exact fun same => differ (Option.some.inj same)
        · exact absurd opened closed
      heard := fun tunnel runs tries bytes key waits =>
        waiting key waits (inv.heard tunnel runs tries bytes key waits)
      installed := fun key runs waits => waiting key waits (inv.installed key runs waits)
      issued := by
        refine ⟨?_, inv.issued.2⟩
        rcases moved with rfl | rfl
        · exact inv.issued.1
        · rcases asked with asked | ⟨_, rfl⟩
          · exact inv.issued.2.2 _ asked
          · exact inv.issued.1 }

/-- The host handles a request. -/
theorem HandoverInv.handle (inv : HandoverInv publicKey memberIp state registered) {session : Nat}
    {newKey : PublicKey} {rest : List PublicKey} {replies : List RotateReply}
    (next : state.channels session = { requests := newKey :: rest, replies := replies })
    (outcome : HostOutcome)
    (orderly : if registeredKeys state.config memberIp = [newKey] then
        outcome = .ran ∧ state.config.validate = .ok ()
      else
        outcome = .ran → session = state.device.link.sessionNumber) :
    ∃ after, HandoverInv publicKey memberIp
      { state with
        config := (applyRotateKey outcome state.config memberIp newKey hostPublicKey).2
        channels := Function.update state.channels session
          { requests := rest
            replies := replies ++
              [(applyRotateKey outcome state.config memberIp newKey hostPublicKey).1] } }
      after := by
  by_cases known : registeredKeys state.config memberIp = [newKey]
  · rw [if_pos known] at orderly
    rcases orderly with ⟨rfl, valid⟩
    obtain rfl : registered = newKey := (List.cons.inj (inv.known.symm.trans known)).1
    unfold applyRotateKey
    rw [rotatePeerKey_known valid known]
    refine ⟨registered, ?_⟩
    by_cases latest : session = state.device.link.sessionNumber
    · subst latest
      exact inv.answer next known (Or.inl rfl) (fun _ => rfl) nofun
    · exact inv.elsewhere latest _
  · rw [if_neg known] at orderly
    have differ : newKey ≠ registered := by
      intro same
      exact known (same ▸ inv.known)
    rcases applyRotateKey_cases outcome state.config memberIp newKey hostPublicKey with
      ⟨yes, ran, rotated⟩ | ⟨no, kept⟩
    · obtain rfl := orderly ran
      refine ⟨newKey, inv.answer next rotated (Or.inr rfl) (fun _ => rfl) ?_⟩
      intro no
      rw [yes] at no
      cases no
    · rw [kept]
      refine ⟨registered, ?_⟩
      by_cases latest : session = state.device.link.sessionNumber
      · subst latest
        apply inv.answer next inv.known (Or.inl rfl)
        · intro yes
          rw [no] at yes
          cases yes
        · exact fun _ => ⟨rfl, differ⟩
      · exact inv.elsewhere latest _

/-! ### Runs -/

/-- Every orderly event keeps the agreement of the two parties. -/
theorem handover_step {event : KeyEvent κ} {next : KeyExchange κ}
    (inv : HandoverInv publicKey memberIp state registered)
    (orderly : state.Orderly memberIp event)
    (happens : step publicKey memberIp hostPublicKey event state = some next) :
    ∃ after, HandoverInv publicKey memberIp next after := by
  cases event with
  | tick env =>
      simp only [step] at happens
      split at happens
      · cases happens
      rename_i tunnel runs
      split at happens
      · rename_i enabled
        cases happens
        exact ⟨registered, inv.tick runs enabled.2.1 orderly enabled.2.2⟩
      · cases happens
  | restart readable usePending now =>
      simp only [step] at happens
      split at happens
      · cases happens
        exact ⟨registered, inv.restart readable usePending now⟩
      · cases happens
  | reboot readable now =>
      cases happens
      exact ⟨registered, inv.reboot readable now⟩
  | ask =>
      cases happens
      exact ⟨registered, { inv with }⟩
  | receive bytes =>
      simp only [step] at happens
      split at happens
      · cases happens
      rename_i tunnel runs
      split at happens
      · rename_i carries
        cases happens
        exact ⟨registered, inv.receive runs carries bytes⟩
      · cases happens
  | connect =>
      simp only [step] at happens
      split at happens
      · cases happens
      · cases happens
        exact ⟨registered, inv.connect⟩
  | disconnect =>
      cases happens
      exact ⟨registered, inv.withOutbox nofun⟩
  | deliver =>
      simp only [step] at happens
      split at happens
      · rename_i reply rest opened arrives
        cases happens
        exact ⟨registered, inv.deliver opened arrives⟩
      · cases happens
  | handle session outcome =>
      simp only [step] at happens
      split at happens
      · rename_i newKey rest replies there
        cases happens
        simp only [Orderly, there] at orderly
        exact inv.handle there outcome orderly
      · cases happens
  | skip session =>
      simp only [step] at happens
      split at happens
      · rename_i newKey rest replies there
        cases happens
        exact ⟨registered, inv.skip there⟩
      · cases happens
  | reload =>
      cases happens
      refine ⟨registered, { inv with installed := ?_, issued := ⟨inv.issued.1, ?_, inv.issued.2.2⟩ }⟩
      · intro key runs _
        rw [inv.known] at runs
        exact List.mem_singleton.mp runs
      · intro key runs
        rw [inv.known] at runs
        obtain rfl := List.mem_singleton.mp runs
        exact inv.issued.1
  | edit config =>
      simp only [step] at happens
      split at happens
      · rename_i same
        cases happens
        exact ⟨registered, { inv with known := same.trans inv.known }⟩
      · cases happens

/-- The agreement at the start. -/
theorem handover_start (joined : state.Joined publicKey memberIp) :
    ∃ registered, HandoverInv publicKey memberIp state registered := by
  rcases joined.current with ⟨key, settled, known⟩
  have idle : state.underway = 0 := by
    unfold underway latest
    rw [joined.empty, joined.quiet]
    rfl
  have waitless (key : PublicKey) : state.pendingKey publicKey ≠ some key := by
    unfold pendingKey
    rw [joined.pending]
    exact nofun
  have issued (key : PublicKey)
      (used : key ∈ registeredKeys state.config memberIp ++ state.installed) :
      key ∈ state.issued := joined.issued key used
  refine ⟨publicKey key, ?_⟩
  exact
    { known := known
      stored := ⟨key, List.mem_append_left _ (Option.mem_toList.mpr settled), rfl⟩
      once := idle ▸ Nat.zero_le 1
      asked := fun _ busy => absurd busy (idle ▸ Nat.lt_irrefl 0)
      requested := by
        intro other asked
        unfold latest at asked
        rw [joined.empty] at asked
        cases asked
      accepted := fun reply answer => absurd answer (no_answer idle reply)
      rejected := fun reply answer => absurd answer (no_answer idle reply)
      trying := fun _ _ _ other waits => absurd waits (waitless other)
      heard := fun _ _ _ _ other waits => absurd waits (waitless other)
      installed := fun other _ waits => absurd waits (waitless other)
      issued := by
        refine ⟨issued _ (List.mem_append_left _ ?_), ?_, ?_⟩
        · rw [known]
          exact List.mem_cons_self
        · exact fun other runs => issued _ (List.mem_append_right _ runs)
        · exact fun other waits => absurd waits (waitless other) }

/-- In every orderly run of a rotation, in whatever order the parties act and whatever is lost, the
host knows the member by a key the member has. -/
theorem handover_keeps_key {events : List (KeyEvent κ)} {final : KeyExchange κ}
    (joined : state.Joined publicKey memberIp)
    (orderly : Runs.Along (step publicKey memberIp hostPublicKey)
      (fun event before => before.Orderly memberIp event) events state)
    (reached : Runs.run (step publicKey memberIp hostPublicKey) events state = some final) :
    final.KeyKept publicKey memberIp := by
  have held : ∃ registered, HandoverInv publicKey memberIp final registered := by
    refine Runs.run_invariant
      (fun state => ∃ registered, HandoverInv publicKey memberIp state registered)
      ?_ (handover_start joined) orderly reached
    intro event before next inv meets happens
    rcases inv with ⟨registered, inv⟩
    exact handover_step inv meets happens
  rcases held with ⟨registered, inv⟩
  intro key known
  rw [inv.known] at known
  obtain rfl := List.mem_singleton.mp known
  exact inv.stored

end Events

/-! ### Two runs -/

/-- A network with one member, at 10.7.0.2. -/
def oneMember : Config where
  interface := { address := .slash24 0x0a070001 }
  peers := [{ publicKey := ⟨1⟩, allowedIps := [Ipv4Net.host 0x0a070002] }]

/-- The member has just joined; private keys are numbers, and determine their public keys. -/
def justJoined : KeyExchange (BitVec 256) where
  device := { files := { current := some 1 } }
  config := oneMember
  installed := [⟨1⟩]
  channels := fun _ => {}
  issued := [⟨1⟩]

theorem justJoined_joined : justJoined.Joined PublicKey.mk 0x0a070002 where
  current := ⟨1, rfl, by decide⟩
  pending := rfl
  offline := rfl
  quiet := rfl
  down := rfl
  empty := fun _ => rfl
  issued := by decide

/-- A tick that hears nothing yet. -/
def quietTick (generated : BitVec 256) : KeyEvent (BitVec 256) :=
  .tick { io := { generated := generated }, now := 5, stats := none }

/-- The rotation is asked for, granted, answered and committed. -/
def plainRotation : List (KeyEvent (BitVec 256)) :=
  [.reboot true 0, .connect, quietTick 2, .handle 1 .ran, .deliver, quietTick 3]

/-- The answer is lost with its connection, and the host cannot read its file when the request
comes again. -/
def unluckyRotation : List (KeyEvent (BitVec 256)) :=
  [.reboot true 0, .connect, quietTick 2, .handle 1 .ran, .disconnect, .connect, quietTick 3,
    .handle 2 (.failed "host.toml の読み込みに失敗しました"), .deliver, quietTick 4]

/-- A plain rotation is orderly. -/
theorem handover_keeps_key_plainRotation :
    ∃ final, Runs.run (step PublicKey.mk 0x0a070002 ⟨9⟩) plainRotation justJoined = some final ∧
      final.KeyKept PublicKey.mk 0x0a070002 := by
  cases reached : Runs.run (step PublicKey.mk 0x0a070002 ⟨9⟩) plainRotation justJoined with
  | none =>
      have runs : (Runs.run (step PublicKey.mk 0x0a070002 ⟨9⟩) plainRotation justJoined).isSome =
          true := by
        decide
      rw [reached] at runs
      cases runs
  | some final =>
      have orderly : Runs.Along (step PublicKey.mk 0x0a070002 ⟨9⟩)
          (fun event before => before.Orderly 0x0a070002 event) plainRotation justJoined := by
        decide
      exact ⟨final, rfl, handover_keeps_key justJoined_joined orderly reached⟩

/-- The member gives up the key that the host has registered. -/
theorem unluckyRotation_locksOut :
    justJoined.Joined PublicKey.mk 0x0a070002 ∧
      ∃ final, Runs.run (step PublicKey.mk 0x0a070002 ⟨9⟩) unluckyRotation justJoined = some final ∧
        ¬ final.KeyKept PublicKey.mk 0x0a070002 := by
  have ends : (Runs.run (step PublicKey.mk 0x0a070002 ⟨9⟩) unluckyRotation justJoined).map
      (fun final => (registeredKeys final.config 0x0a070002, final.device.files.stored)) =
        some ([⟨2⟩], [1]) := by
    decide
  rcases Option.map_eq_some_iff.mp ends with ⟨final, reached, parts⟩
  rcases Prod.mk.inj parts with ⟨known, stored⟩
  refine ⟨justJoined_joined, final, reached, ?_⟩
  intro kept
  rcases kept ⟨2⟩ (by rw [known]; exact List.mem_singleton.mpr rfl) with ⟨key, listed, same⟩
  rw [stored] at listed
  obtain rfl := List.mem_singleton.mp listed
  exact absurd same (by decide)

end KeyExchange

end PeerCove
