/-
Module: PeerCove.Proofs.WaitingMembers
Layer: Proofs
Purpose: What a member that waits for its approval is sent: only pings, pongs and refusals, as long
  as nobody puts anything else into the queue of its connection and no ledger clears its flag before
  the approval.
Trusted boundary: none
Main exports: HostMessage.forWaiting, ControlHost.careful, ControlHost.Quiet, waiting_sent_nothing,
  broadcast_reaches_waiting
-/
import PeerCove.Host.ControlWriter

namespace PeerCove

variable {ρ : Type}

/-- What a member that waits for its approval may be sent. -/
def HostMessage.forWaiting : HostMessage ρ → Bool
  | .ping _ | .pong _ | .joinRejected _ | .removed _ => true
  | .ledger _ | .memoEvent _ | .memoResp _ _ | .result _ => false

/-- The queue has nothing that a waiting member may not be sent. -/
def ControlConnection.queueForWaiting (connection : ControlConnection ρ) : Bool :=
  connection.queue.all HostMessage.forWaiting

/-- The ledger that is published shows the member of the connection as waiting. -/
def ControlHost.showsWaiting (host : ControlHost ρ) (connection : ControlConnection ρ) : Bool :=
  host.published.members.any (fun entry => entry.ip = connection.ip && entry.awaitsApproval)

/-- The writer takes up a ledger that shows the member as waiting only when nothing else is left in
the queue, and another one only after the approval; no request of a waiting member is answered, and
no memo event is put into the queue of its connection. -/
def ControlHost.careful (host : ControlHost ρ) (event : ControlEvent ρ) : Bool :=
  match event with
  | .takeLedger id => (host.connections.get? id).all (fun connection =>
      if host.showsWaiting connection then connection.awaits || connection.queueForWaiting
      else !connection.held)
  | .answer id _ => (host.connections.get? id).all (fun connection => !connection.awaits)
  | .announce place (some _) =>
      match host.broadcasts[place]? with
      | some (id :: _) => (host.connections.get? id).all (fun connection =>
          connection.phase = .closed || !connection.awaits)
      | _ => true
  | _ => true

/-! ### The invariant -/

/-- The writer has not started. -/
def ControlPhase.early : ControlPhase → Bool
  | .accepted | .registered _ => true
  | .writing | .closed => false

/-- The queue of a waiting member has only what it may be sent.  Before the writer starts, the flag
is set for everyone who waits. -/
structure ControlConnection.Quiet (connection : ControlConnection ρ) : Prop where
  queued : connection.awaits = true →
    ∀ message ∈ connection.queue, message.forWaiting = true
  early : connection.phase.early = true → connection.held = true → connection.isolation = true

namespace ControlHost

variable {host next : ControlHost ρ} {id : Nat} {connection : ControlConnection ρ}
  {message : HostMessage ρ}

structure Quiet (host : ControlHost ρ) : Prop where
  sent : ∀ entry ∈ host.sent, entry.awaiting = true → entry.message.forWaiting = true
  connections : ∀ id connection, host.connections.get? id = some connection → connection.Quiet

theorem quiet_start (config : Config) : (start (ρ := ρ) config).Quiet where
  sent := by simp [start]
  connections := by simp [start]

/-- Only what was sent and the connections matter. -/
theorem Quiet.congr (quiet : host.Quiet) (sent : next.sent = host.sent)
    (connections : next.connections = host.connections) : next.Quiet where
  sent := sent ▸ quiet.sent
  connections := connections ▸ quiet.connections

theorem Quiet.setConnection (quiet : host.Quiet) (kept : connection.Quiet) :
    (host.setConnection id connection).Quiet where
  sent := quiet.sent
  connections := by
    intro other found same
    simp only [ControlHost.setConnection, Table.get?_insert] at same
    split at same
    · cases same
      exact kept
    · exact quiet.connections other found same

/-- What is written to a waiting member has to be for it. -/
theorem Quiet.write (quiet : host.Quiet)
    (fits : connection.awaits = true → message.forWaiting = true) :
    (host.write id connection message).Quiet where
  sent := by
    intro entry listed
    simp only [ControlHost.write, List.mem_append, List.mem_singleton] at listed
    rcases listed with before | rfl
    · exact quiet.sent entry before
    · exact fits
  connections := quiet.connections

/-- What is queued for a waiting member has to be for it, unless the connection is closed. -/
theorem Quiet.enqueue (quiet : host.Quiet)
    (fits : ∀ connection, host.connections.get? id = some connection →
      connection.phase ≠ .closed → connection.awaits = true → message.forWaiting = true) :
    (host.enqueue id message).Quiet where
  sent := quiet.sent
  connections := by
    intro other found same
    simp only [ControlHost.enqueue, Table.get?_update] at same
    split at same
    · rename_i isIt
      subst isIt
      obtain ⟨before, present, rfl⟩ := Option.map_eq_some_iff.mp same
      have kept := quiet.connections other before present
      split
      · exact kept
      · rename_i opened
        refine ⟨fun waits queued listed => ?_, kept.early⟩
        simp only [List.mem_append, List.mem_singleton] at listed
        rcases listed with already | rfl
        · exact kept.queued waits queued already
        · exact fits before present opened waits
    · exact quiet.connections other found same

/-- An edit of `host.toml` holds nobody back. -/
theorem Quiet.configure (quiet : host.Quiet) (config : Config) : (host.configure config).Quiet where
  sent := quiet.sent
  connections := by
    intro other found same
    simp only [ControlHost.configure, Table.get?_mapRows] at same
    obtain ⟨before, present, rfl⟩ := Option.map_eq_some_iff.mp same
    have kept := quiet.connections other before present
    constructor
    · intro waits
      apply kept.queued
      simp only [ControlConnection.awaits, Bool.or_eq_true, Bool.and_eq_true] at waits ⊢
      exact waits.imp_right And.left
    · intro early held
      exact kept.early early (Bool.and_eq_true _ _ ▸ held).1

theorem Quiet.publish (quiet : host.Quiet) (dist : Distribution) : (host.publish dist).Quiet := by
  unfold ControlHost.publish
  split
  · exact quiet.congr rfl rfl
  · exact quiet

/-! ### The branches of the writer and the reader -/

theorem Quiet.takeLedger (quiet : host.Quiet) (writes : connection.phase = .writing)
    (kept : connection.Quiet)
    (careful : (if host.showsWaiting connection then
      connection.awaits || connection.queueForWaiting else !connection.held) = true) :
    (host.takeLedger id connection).Quiet := by
  unfold ControlHost.takeLedger
  dsimp only
  cases shows : host.showsWaiting connection with
  | true =>
      rw [if_pos shows] at careful
      rw [showsWaiting] at shows
      rw [if_pos shows]
      refine quiet.setConnection ⟨fun _ message listed => ?_, fun early => ?_⟩
      · rcases Bool.or_eq_true _ _ ▸ careful with waits | clean
        · exact kept.queued waits message listed
        · exact List.all_eq_true.mp clean message listed
      · simp [writes, ControlPhase.early] at early
  | false =>
      -- the flag is cleared: the member was approved, or nobody had held it back
      rw [if_neg (by simp [shows])] at careful
      rw [showsWaiting] at shows
      have free : connection.held = false := by simpa using careful
      rw [shows, if_neg Bool.false_ne_true, if_neg Bool.false_ne_true]
      have idle : ({ connection with seen := host.version, isolation := false } :
          ControlConnection ρ).awaits = false := by
        simp [ControlConnection.awaits, free]
      have settled : ({ connection with seen := host.version, isolation := false } :
          ControlConnection ρ).Quiet := by
        constructor
        · intro waits
          exact absurd (idle.symm.trans waits) Bool.false_ne_true
        · intro _ held
          exact absurd (free.symm.trans held) Bool.false_ne_true
      exact (quiet.setConnection settled).write
        (fun waits => absurd (idle.symm.trans waits) Bool.false_ne_true)

theorem Quiet.takeQueued (quiet : host.Quiet) (writes : connection.phase = .writing)
    (kept : connection.Quiet) (happens : host.takeQueued id connection = some next) :
    next.Quiet := by
  unfold ControlHost.takeQueued at happens
  split at happens
  · cases happens
  · rename_i first rest queue
    cases happens
    have allowed : connection.awaits = true → ∀ message ∈ first :: rest,
        message.forWaiting = true := queue ▸ kept.queued
    refine (quiet.setConnection ⟨?_, ?_⟩).write ?_
    · exact fun waits message listed => allowed waits message (List.mem_cons_of_mem _ listed)
    · intro early
      dsimp only at early
      split at early <;> simp [writes, ControlPhase.early] at early
    · exact fun waits => allowed waits first List.mem_cons_self

theorem Quiet.readMessage (quiet : host.Quiet) (kept : connection.Quiet) (message : MemberMessage) :
    (host.readMessage id connection message).Quiet := by
  unfold ControlHost.readMessage
  split
  · exact quiet.enqueue (fun _ _ _ _ => rfl)
  · exact quiet
  · exact quiet
  · split
    · exact quiet
    · exact quiet.setConnection ⟨kept.queued, kept.early⟩

/-- What is answered goes to nobody who waits. -/
theorem Quiet.answer (quiet : host.Quiet) (kept : connection.Quiet)
    (careful : connection.awaits = false) (message : HostMessage ρ) :
    ((host.setConnection id { connection with applying := false }).enqueue id message).Quiet := by
  have answered : (host.setConnection id { connection with applying := false }).Quiet :=
    quiet.setConnection ⟨kept.queued, kept.early⟩
  refine answered.enqueue (fun found same _ waits => ?_)
  simp only [ControlHost.setConnection, Table.get?_insert_self, Option.some.injEq] at same
  subst same
  exact absurd (careful.symm.trans waits) Bool.false_ne_true

/-- An event on a connection keeps the invariant. -/
theorem Quiet.connectionStep {event : ControlEvent ρ} (quiet : host.Quiet)
    (onIt : connectionOf event = some id) (present : host.connections.get? id = some connection)
    (careful : host.careful event = true)
    (happens : host.connectionStep id connection event = some next) : next.Quiet := by
  have kept := quiet.connections id connection present
  unfold ControlHost.connectionStep at happens
  split at happens
  · -- `register`
    rename_i accepted
    cases happens
    have early := kept.early (by rw [accepted]; rfl)
    have registered : ({ connection with
        phase := .registered host.published, seen := host.version } : ControlConnection ρ).Quiet :=
      ⟨kept.queued, fun _ => early⟩
    exact (quiet.setConnection registered).congr rfl rfl
  · -- `greet`: who waits has its flag set still
    rename_i initial phase
    cases happens
    have early := kept.early (by rw [phase]; rfl)
    have started : ({ connection with phase := .writing } : ControlConnection ρ).Quiet :=
      ⟨kept.queued, fun _ => early⟩
    split
    · exact quiet.setConnection started
    · rename_i cleared
      refine (quiet.setConnection started).write (fun waits => ?_)
      rcases Bool.or_eq_true _ _ ▸ waits with flag | held
      · exact absurd flag cleared
      · exact absurd (early held) cleared
  · -- `takeLedger`
    rename_i phase
    cases onIt
    rw [ControlHost.careful, present] at careful
    split at happens
    · cases happens
    · cases happens
      exact quiet.takeLedger phase kept careful
  · -- `takeQueued`
    rename_i phase
    exact quiet.takeQueued phase kept happens
  · -- `ping`
    cases happens
    exact (quiet.write (fun _ => rfl)).congr rfl rfl
  · -- `read`, while the connection is registered
    split at happens
    · cases happens
    · cases happens
      exact quiet.readMessage kept _
  · -- `read`, while the writer runs
    split at happens
    · cases happens
    · cases happens
      exact quiet.readMessage kept _
  · -- `answer`, while the connection is registered
    cases onIt
    rw [ControlHost.careful, present] at careful
    split at happens
    · cases happens
      exact quiet.answer kept (by simpa using careful) _
    · cases happens
  · -- `answer`, while the writer runs
    cases onIt
    rw [ControlHost.careful, present] at careful
    split at happens
    · cases happens
      exact quiet.answer kept (by simpa using careful) _
    · cases happens
  all_goals
    -- `close`, and what is not enabled
    cases happens
  all_goals
    have closed : ({ connection with phase := .closed } : ControlConnection ρ).Quiet :=
      ⟨kept.queued, fun early => absurd early Bool.false_ne_true⟩
    exact (quiet.setConnection closed).congr rfl rfl

/-! ### Runs -/

theorem Quiet.hello (quiet : host.Quiet) (ip : Ipv4Addr) (capabilities : List String)
    (deviceId : Option String) (now : Nat) : (host.hello ip capabilities deviceId now).Quiet := by
  unfold ControlHost.hello
  rcases acceptInvite host.config ip now deviceId with ⟨answer, config⟩
  dsimp only
  have edited : ({ host with
      config := config, nextConnectionId := host.nextConnectionId + 1 } : ControlHost ρ).Quiet :=
    quiet.congr rfl rfl
  cases answer with
  | ok isolated =>
      refine edited.setConnection ⟨fun _ message listed => ?_, fun _ held => held⟩
      cases listed
  | error reason => exact edited.write (fun _ => rfl)

/-- A careful event keeps the invariant. -/
theorem Quiet.step {event : ControlEvent ρ} (quiet : host.Quiet)
    (careful : host.careful event = true) (happens : host.step event = some next) :
    next.Quiet := by
  unfold ControlHost.step at happens
  split at happens
  · -- `hello`
    cases happens
    exact quiet.hello _ _ _ _
  · -- `lookUp`
    cases happens
    exact quiet.congr rfl rfl
  · -- `announce`
    rename_i place event
    split at happens
    · rename_i target rest due
      have looked : ({ host with
          broadcasts := host.broadcasts.set place rest } : ControlHost ρ).Quiet :=
        quiet.congr rfl rfl
      cases event with
      | none =>
          cases happens
          exact looked
      | some event =>
          cases happens
          rw [ControlHost.careful, due] at careful
          refine looked.enqueue (fun connection present opened waits => ?_)
          have present : host.connections.get? target = some connection := present
          simp [present, opened, waits] at careful
    · cases happens
  · -- `configure`
    cases happens
    exact quiet.configure _
  · -- `load`
    cases happens
    exact quiet.congr rfl rfl
  · -- `notifyRemoved`
    split at happens
    · cases happens
      exact quiet.enqueue (fun _ _ _ _ => rfl)
    · cases happens
  · -- `publish`
    split at happens
    · cases happens
      exact quiet.publish _
    · cases happens
  · -- an event on a connection
    split at happens
    · rename_i id onIt
      obtain ⟨connection, present, happens⟩ := Option.bind_eq_some_iff.mp happens
      exact quiet.connectionStep onIt present careful happens
    · cases happens

end ControlHost

/-- In a run of careful events a member that waits for its approval is sent pings, pongs and
refusals only. -/
theorem waiting_sent_nothing {config : Config} {events : List (ControlEvent ρ)}
    {final : ControlHost ρ}
    (careful : Runs.Along ControlHost.step (fun event host => host.careful event = true) events
      (ControlHost.start config))
    (reached : Runs.run ControlHost.step events (ControlHost.start config) = some final) :
    ∀ entry ∈ final.sent, entry.awaiting = true → entry.message.forWaiting = true := by
  have quiet : final.Quiet :=
    Runs.run_invariant ControlHost.Quiet
      (fun _ _ _ before meets happens => ControlHost.Quiet.step before meets happens)
      (ControlHost.quiet_start config) careful reached
  exact quiet.sent

/-! ### Examples -/

/-- A network whose one member was invited, and has to be approved. -/
def invitedNetwork (approvedAt : Option Nat) : Config where
  interface := { address := Ipv4Net.slash24 0x0A630001#32 }
  peers := [
    { inviteId := some "00000000000000000000000000000001"
      inviteIssuedAt := some 1000
      inviteExpiresAt := some 4600
      inviteRequiresApproval := true
      inviteApprovedAt := approvedAt
      publicKey := ⟨7⟩
      allowedIps := [Ipv4Net.host 0x0A630002#32] }]

def invitedView : HostView where
  config := invitedNetwork none
  hostKey := ⟨1⟩
  software := { appVersion := none, platform := none, capabilities := [] }
  now := 3000
  stats := fun _ => none
  connected := fun _ => none
  flatten := fun _ => none
  dnsHealth := fun _ => none
  cnameHealth := fun _ => none
  deny := []
  forceRelay := []
  permGroups := []

/-- The member connects, and its writer starts. -/
def memberConnects : List (ControlEvent Unit) :=
  [.hello 0x0A630002#32 ["shared_memo"] (some "00000000000000000000000000000002") 2000,
    .register 1, .greet 1]

/-- A memo is deleted: everyone whose device knows memos is told. -/
def memoDeleted : List (ControlEvent Unit) :=
  [.lookUp, .announce 0 (some (.removed "a")), .takeQueued 1]

/-- The member is approved, and the next ledger says so. -/
def memberApproved : List (ControlEvent Unit) :=
  [.ping 1, .configure (invitedNetwork (some 2500)), .load, .publish invitedView, .takeLedger 1]

/-- What was sent while the member waited, and later. -/
def ControlHost.heard (host : ControlHost Unit) : List (Bool × Bool) :=
  host.sent.map (fun entry => (entry.awaiting, entry.message.forWaiting))

theorem waiting_sent_nothing_approved :
    ∃ final, Runs.run ControlHost.step (memberConnects ++ memberApproved ++ memoDeleted)
        (ControlHost.start (invitedNetwork none)) = some final ∧
      final.heard = [(true, true), (false, false), (false, false)] ∧
      ∀ entry ∈ final.sent, entry.awaiting = true → entry.message.forWaiting = true := by
  have careful : Runs.Along ControlHost.step
      (fun event (host : ControlHost Unit) => host.careful event = true)
      (memberConnects ++ memberApproved ++ memoDeleted)
      (ControlHost.start (invitedNetwork none)) := by
    decide
  exact ⟨_, rfl, by decide, waiting_sent_nothing careful rfl⟩

/-- The memo event reaches the member before its approval. -/
theorem broadcast_reaches_waiting :
    ∃ final, Runs.run ControlHost.step (memberConnects ++ memoDeleted)
        (ControlHost.start (invitedNetwork none)) = some final ∧
      ¬ ∀ entry ∈ final.sent, entry.awaiting = true → entry.message.forWaiting = true := by
  refine ⟨_, rfl, ?_⟩
  decide

end PeerCove
