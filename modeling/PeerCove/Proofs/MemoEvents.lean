/-
Module: PeerCove.Proofs.MemoEvents
Layer: Proofs
Purpose: Where the messages come from that wait to be sent, and that no event about a memo is sent to
  a member who has never been permitted to see it.
Trusted boundary: none
Main exports: Made, carried_turn, EventsConfidential, Confined, events_confidential
-/
import PeerCove.Proofs.ServiceEffects
import PeerCove.Proofs.ServiceRuns

namespace PeerCove

open Tasks

/-! ### Who may know of a memo -/

/-- Whether an actor can see a memo. -/
def SharedDb.visible (db : SharedDb) (actor : Actor) (id : String) : Bool :=
  (db.row? id).any (fun row => row.visibleTo actor (db.permContext id))

/-- Whether a member, named by its id, can see a memo. -/
def MemoService.memberSees (service : MemoService) (memberId : Option String) (id : String) : Bool :=
  service.config.peers.any (fun peer => peer.virtualIp.any (fun ip =>
    match memberActor service.config ip with
    | .error _ => false
    | .ok actor => actor.memberId = memberId && service.sharedStore.visible actor id))

/-- Whether the member that has an address has been permitted to see a memo so far. -/
def permittedSoFar (config : Config) (past : ServicePast) (state : ServiceSystem) (ip : Ipv4Addr)
    (id : String) : Bool :=
  match memberActor config ip with
  | .error _ => true
  | .ok actor => (observed (fun service => service) past state).any (fun service =>
      service.memberSees actor.memberId id)

/-- The memo that the event of a message identifies. -/
def Sent.memoId? (sent : Sent) : Option String :=
  match sent.message with
  | .memoEvent event => event.memoId?
  | .memoResp _ _ => none

/-- The messages that a task is about to send. -/
def ServiceTask.waiting (task : ServiceTask) : List Sent :=
  task.carries.flatMap (fun effect =>
    match effect with
    | .send sent => [sent]
    | _ => [])

/-- No event about a memo is sent to a member who has never been permitted to see it. -/
def EventsConfidential (past : ServicePast) : Prop :=
  ∀ (newer older : ServicePast) (before : ServiceSystem) (env : ServiceEnv) (task : ServiceTask)
    (sent : Sent) (id : String),
    past = newer ++ (before, .turn env task) :: older → sent ∈ task.sends →
    sent.memoId? = some id →
    permittedSoFar before.shared.config older before sent.connection.ip id = true

/-- A reader of `broadcast_changed` is known to nobody, can see the memo and is still the member
that has the address, or has been permitted to see it so far. -/
def readsFairly (past : ServicePast) (state : ServiceSystem) (id : String) (config : Config)
    (ip : Ipv4Addr) : Bool :=
  match memberActor config ip with
  | .error _ => true
  | .ok actor =>
      (memberActor state.shared.config ip = .ok actor && state.shared.sharedStore.visible actor id) ||
        permittedSoFar state.shared.config past state ip id

/-- The condition on a turn: what is announced to all connections is about a memo that each of their
members has been permitted to see, and so is what `broadcast_changed` sends to a member that cannot
see the memo; and no address passes, while an event for it waits, to a member who has never been
permitted to see the memo. -/
def Confined (past : ServicePast) (state : ServiceSystem) :
    Event ServiceEnv ServiceTask → Prop
  | .turn _ (.effects _ (.announce event _ :: _)) => ∀ id ∈ event.memoId?,
      ∀ target ∈ state.shared.memoConnections,
        permittedSoFar state.shared.config past state target.ip id = true
  | .turn _ (.changedRead id config _ target _) => readsFairly past state id config target.ip = true
  | .turn _ (.writeConfig config) => ∀ task ∈ state.tasks, ∀ sent ∈ task.waiting,
      ∀ id ∈ sent.memoId?, permittedSoFar config past state sent.connection.ip id = true
  | _ => True

instance (past : ServicePast) (state : ServiceSystem) (event : Event ServiceEnv ServiceTask) :
    Decidable (Confined past state event) := by
  unfold Confined
  split
  all_goals infer_instance

/-! ### Messages that wait -/

namespace ServiceTask

variable {env : ServiceEnv} {service : MemoService} {sent : Sent}

theorem mem_waiting {task : ServiceTask} : sent ∈ task.waiting ↔ Effect.send sent ∈ task.carries := by
  unfold waiting
  rw [List.mem_flatMap]
  constructor
  · rintro ⟨effect, carried, member⟩
    cases effect with
    | send other =>
        rw [List.mem_singleton.mp member]
        exact carried
    | _ => cases member
  · intro carried
    exact ⟨_, carried, List.mem_singleton_self sent⟩

/-- What a turn sends is a reply, or a message that has waited. -/
theorem sends_waiting {task : ServiceTask} (sends : sent ∈ task.sends) :
    sent.memoId? = none ∨ sent ∈ task.waiting := by
  cases task with
  | changedSend other id config holder targets =>
      rw [List.mem_singleton.mp sends]
      exact .inr (mem_waiting.mpr List.mem_cons_self)
  | effects origin rest =>
      cases rest with
      | nil => cases sends
      | cons effect rest =>
          cases effect with
          | send other =>
              rw [List.mem_singleton.mp sends]
              exact .inr (mem_waiting.mpr List.mem_cons_self)
          | reply reply asOf =>
              cases origin with
              | host => cases sends
              | member connection seq =>
                  rw [List.mem_singleton.mp sends]
                  exact .inl rfl
          | _ => cases sends
  | _ => cases sends

/-- How a turn makes a message that identifies a memo. -/
inductive Made (service : MemoService) : ServiceTask → Sent → Prop where
  | announce (origin : Origin) (event : SharedMemoEvent) (asOf : Nat) (rest : List Effect)
      (target : Connection) (listed : target ∈ service.memoConnections) :
      Made service (.effects origin (.announce event asOf :: rest))
        { connection := target, message := .memoEvent event, asOf := asOf }
  | changed (id : String) (config : Config) (holder : Option String) (target : Connection)
      (targets : List Connection) (event : SharedMemoEvent)
      (shown : changedEvent config holder target.ip id service.sharedStore = some event) :
      Made service (.changedRead id config holder target targets)
        { connection := target, message := .memoEvent event, asOf := service.sections }

theorem Plain.silent {tasks : List ServiceTask} (plain : Plain tasks) {task : ServiceTask}
    (member : task ∈ tasks) : sent ∉ task.waiting := by
  intro waits
  have never := plain _ (List.mem_flatMap.mpr ⟨task, member, mem_waiting.mp waits⟩)
  cases never

theorem notice_memoId? {config : Config} {ip : Ipv4Addr} {notice : Notice}
    {event : SharedMemoEvent} (made : notice.event config ip = some event) :
    event.memoId? = none := by
  unfold Notice.event at made
  split at made
  · split at made
    · cases made
    · cases made
      rfl
  · split at made
    · cases made
    · cases made
      rfl
  · split at made
    · cases made
    · split at made
      · cases made
      · cases made
        rfl

theorem silent_afterUnlock {request : Request} {id : String} {asOf : Nat} {ended : Option Nat}
    {next : ServiceTask} (member : next ∈ afterUnlock request id asOf ended) :
    sent ∉ next.waiting := by
  rw [mem_waiting]
  cases ended with
  | none =>
      rw [List.mem_singleton.mp member]
      simp [carries]
  | some since =>
      rw [List.mem_singleton.mp member]
      simp [carries, Effect.unlocked, Effect.broadcastLock]

theorem silent_endings (ended : List (String × Nat)) :
    Effect.send sent ∉ endingSnapshots ended ++ endingAnnouncements ended := by
  simp [endingSnapshots, endingAnnouncements, Effect.broadcastLock]

/-- A message after the turn of an effect. -/
theorem waiting_effect {origin : Origin} {effect : Effect} {rest : List Effect}
    {next : ServiceTask} (spawned : next ∈ (advance env (.effects origin (effect :: rest)) service).2)
    (waits : sent ∈ next.waiting) :
    sent ∈ (ServiceTask.effects origin (effect :: rest)).waiting ∨
      Made service (.effects origin (effect :: rest)) sent := by
  have left {more : List Effect} (member : next ∈ andThen origin more) :
      Effect.send sent ∈ more := by
    rw [← carries_andThen origin more]
    exact List.mem_flatMap.mpr ⟨next, member, mem_waiting.mp waits⟩
  have stays (carried : Effect.send sent ∈ rest) :
      sent ∈ (ServiceTask.effects origin (effect :: rest)).waiting :=
    mem_waiting.mpr (List.mem_cons_of_mem _ carried)
  have silent {task : ServiceTask} (nothing : task.carries = []) (same : next = task) :
      sent ∈ (ServiceTask.effects origin (effect :: rest)).waiting := by
    rw [mem_waiting, same, nothing] at waits
    cases waits
  cases effect with
  | announce event asOf =>
      rcases List.mem_append.mp (left spawned) with new | old
      · rcases List.mem_map.mp new with ⟨other, listed, same⟩
        cases same
        rcases List.mem_map.mp listed with ⟨target, there, rfl⟩
        exact .inr (.announce origin event asOf rest target there)
      · exact .inl (stays old)
  | broadcastSheetLayout sheetId =>
      rcases List.mem_append.mp (left spawned) with new | old
      · cases plain_layoutEvent _ _ _ new
      · exact .inl (stays old)
  | broadcastSheetPresence sheetId senderKey =>
      rcases List.mem_append.mp (left spawned) with new | old
      · split at new
        · cases new
        · cases List.mem_singleton.mp new
      · exact .inl (stays old)
  | broadcastChanged id =>
      rcases List.mem_cons.mp spawned with same | old
      · exact .inl (silent rfl same)
      · exact .inl (stays (left old))
  | broadcastFolders =>
      rcases List.mem_cons.mp spawned with same | old
      · exact .inl (silent rfl same)
      · exact .inl (stays (left old))
  | broadcastNotice notice =>
      rcases List.mem_cons.mp spawned with same | old
      · exact .inl (silent rfl same)
      · exact .inl (stays (left old))
  | presencePeers sheetId senderKey targets =>
      rcases List.mem_cons.mp spawned with same | old
      · exact .inl (silent rfl same)
      · exact .inl (stays (left old))
  | snapshotAfterUnlock id since => exact .inl (stays (left spawned))
  | send other => exact .inl (stays (left spawned))
  | bump => exact .inl (stays (left spawned))
  | reply reply asOf => exact .inl (stays (left spawned))

/-- A message after a turn has waited before, identifies no memo, or is made in the turn. -/
theorem waiting_turn {task next : ServiceTask} (spawned : next ∈ (advance env task service).2)
    (waits : sent ∈ next.waiting) :
    sent ∈ task.waiting ∨ sent.memoId? = none ∨ Made service task sent := by
  have carried {origin : Origin} {rest : List Effect} (member : next ∈ andThen origin rest) :
      Effect.send sent ∈ rest := by
    rw [← carries_andThen origin rest]
    exact List.mem_flatMap.mpr ⟨next, member, mem_waiting.mp waits⟩
  cases speaking : task.speaks with
  | false => exact absurd waits ((plain_turn speaking).silent spawned)
  | true =>
      cases task with
      | handle request =>
          rcases request with ⟨origin, actor, op⟩
          cases op with
          | releaseLock id => exact absurd waits (silent_afterUnlock spawned)
          | forceUnlock id =>
              change next ∈ afterForce _ id _ service.locks at spawned
              unfold afterForce at spawned
              split at spawned
              · exact absurd waits (silent_afterUnlock spawned)
              · exact absurd waits ((plain_answer _ _ _).silent spawned)
          | _ => cases speaking
      | effects origin rest =>
          cases rest with
          | nil => cases spawned
          | cons effect rest =>
              rcases waiting_effect spawned waits with old | made
              · exact .inl old
              · exact .inr (.inr made)
      | sweepExpiredLocks =>
          rcases List.mem_append.mp spawned with member | member
          · exact absurd (List.mem_append_left _ (carried member)) (silent_endings _)
          · exact absurd (List.mem_append_right _ (carried member)) (silent_endings _)
      | releaseLocks key => exact absurd (carried spawned) (silent_endings _)
      | changedRead id config holder target targets =>
          change next ∈ afterRead id config holder target targets service.sections
            (changedEvent config holder target.ip id service.sharedStore) at spawned
          cases shown : changedEvent config holder target.ip id service.sharedStore with
          | none =>
              rw [shown] at spawned
              exact absurd waits ((plain_nextTarget _ _ _ _).silent spawned)
          | some event =>
              rw [shown] at spawned
              rw [List.mem_singleton.mp spawned, mem_waiting] at waits
              cases List.mem_singleton.mp waits
              exact .inr (.inr (.changed id config holder target targets event shown))
      | foldersRead targets =>
          rcases List.mem_map.mp (carried spawned) with ⟨target, _, same⟩
          cases same
          exact .inr (.inl rfl)
      | noticeConfig notice targets =>
          rcases List.mem_filterMap.mp (carried spawned) with ⟨target, _, same⟩
          rcases Option.map_eq_some_iff.mp same with ⟨event, made, same⟩
          cases same
          exact .inr (.inl (notice_memoId? made))
      | _ => cases speaking

theorem arrives_waiting {task : ServiceTask} (allowed : task.arrives = true) : task.waiting = [] := by
  cases task with
  | effects origin rest => cases allowed
  | changedSend sent id config holder targets => cases allowed
  | _ => rfl

/-- What is left of a cancelled request sends nothing. -/
theorem cancelled_waiting {task next : ServiceTask} {rest : List ServiceTask}
    (left : cancelled task = some rest) (member : next ∈ rest) : next.waiting = [] := by
  unfold cancelled at left
  split at left
  · cases left
    cases member
  · cases left
    split at member
    · rw [List.mem_singleton.mp member]
      rfl
    · cases member
  · cases left
    rw [List.mem_singleton.mp member]
    rfl
  · cases left
    cases member
  · cases left
    rw [List.mem_singleton.mp member]
    rfl
  · cases left
    cases member
  · cases left

theorem runHandle_config (env : ServiceEnv) (request : Request) (service : MemoService) :
    (runHandle env request service).1.config = service.config := by
  unfold runHandle
  split
  all_goals rfl

theorem runStored_config (env : ServiceEnv) (request : Request) (reply : SharedMemoReply)
    (merges : List SheetMerge) (cells : List SheetCell) (asOf : Nat) (service : MemoService) :
    (runStored env request reply merges cells asOf service).1.config = service.config := by
  unfold runStored
  split
  all_goals rfl

/-- Only one kind of turn changes the configuration. -/
theorem config_turn (env : ServiceEnv) (task : ServiceTask) (service : MemoService) :
    (∃ config, task = .writeConfig config) ∨
      (advance env task service).1.config = service.config := by
  cases task with
  | writeConfig config => exact .inl ⟨config, rfl⟩
  | handle request => exact .inr (runHandle_config env request service)
  | stored request reply merges cells asOf =>
      exact .inr (runStored_config env request reply merges cells asOf service)
  | effects origin rest =>
      cases rest with
      | nil => exact .inr rfl
      | cons effect rest =>
          cases effect with
          | _ => exact .inr rfl
  | _ => exact .inr rfl

end ServiceTask

/-! ### Events over runs -/

/-- The event of `broadcast_changed` is about its memo. -/
theorem changedEvent_memoId? {config : Config} {holder : Option String} {ip : Ipv4Addr}
    {id : String} {db : SharedDb} {event : SharedMemoEvent}
    (shown : ServiceTask.changedEvent config holder ip id db = some event) :
    event.memoId? = some id := by
  unfold ServiceTask.changedEvent at shown
  split at shown
  · cases shown
  · split at shown
    · rename_i memo read
      cases shown
      exact congrArg some (SharedStore.detailIfVisible_confined (Prod.ext read rfl)).2.1
    · cases shown
      rfl
    · cases shown

/-- The member that has an address is one of the peers. -/
theorem memberActor_peer {config : Config} {ip : Ipv4Addr} {actor : Actor}
    (known : memberActor config ip = .ok actor) :
    ∃ peer ∈ config.peers, peer.virtualIp = some ip := by
  unfold memberActor actorForIp at known
  split at known
  · cases known
  · rename_i peer found
    exact ⟨peer, List.mem_of_find?_eq_some found, by simpa using List.find?_some found⟩

/-- What the member that has an address can see, it is seen to see. -/
theorem memberSees_of_visible {service : MemoService} {ip : Ipv4Addr} {actor : Actor} {id : String}
    (known : memberActor service.config ip = .ok actor)
    (sees : service.sharedStore.visible actor id = true) :
    service.memberSees actor.memberId id = true := by
  rcases memberActor_peer known with ⟨peer, listed, own⟩
  apply List.any_eq_true.mpr
  refine ⟨peer, listed, ?_⟩
  rw [own, Option.any_some, known]
  simp [sees]

section Runs

variable {config : Config} {db : SharedDb} {past : ServicePast} {state next : ServiceSystem}
  {event : Event ServiceEnv ServiceTask} {ip : Ipv4Addr} {id : String}

/-- Who has been permitted to see a memo stays so. -/
theorem permittedSoFar_cons {config : Config}
    (permitted : permittedSoFar config past state ip id = true) :
    permittedSoFar config ((state, event) :: past) next ip id = true := by
  unfold permittedSoFar at permitted ⊢
  cases known : memberActor config ip with
  | error error => rfl
  | ok actor =>
      rw [known] at permitted
      rcases List.any_eq_true.mp permitted with ⟨service, listed, sees⟩
      exact List.any_eq_true.mpr ⟨service, List.mem_cons_of_mem _ listed, sees⟩

/-- A fair reader has been permitted to see the memo. -/
theorem permitted_of_readsFairly {loaded : Config} {actor : Actor}
    (known : memberActor loaded ip = .ok actor)
    (fair : readsFairly past state id loaded ip = true) :
    permittedSoFar state.shared.config past state ip id = true := by
  unfold readsFairly at fair
  rw [known] at fair
  rcases (Bool.or_eq_true _ _).mp fair with sees | permitted
  · rcases (Bool.and_eq_true _ _).mp sees with ⟨same, visible⟩
    have current := of_decide_eq_true same
    unfold permittedSoFar
    rw [current]
    apply List.any_eq_true.mpr
    exact ⟨state.shared, List.mem_cons_self, memberSees_of_visible current visible⟩
  · exact permitted

/-- Every message that waits is for a member who has been permitted to see its memo. -/
def WaitingPermitted (past : ServicePast) (state : ServiceSystem) : Prop :=
  ∀ task ∈ state.tasks, ∀ sent ∈ task.waiting, ∀ id, sent.memoId? = some id →
    permittedSoFar state.shared.config past state sent.connection.ip id = true

/-- A message that a turn makes is for a member who has been permitted. -/
theorem made_permitted {env : ServiceEnv} {task : ServiceTask} {sent : Sent}
    (made : ServiceTask.Made state.shared task sent) (fair : Confined past state (.turn env task))
    (about : sent.memoId? = some id) :
    permittedSoFar state.shared.config past state sent.connection.ip id = true := by
  cases made with
  | announce origin event asOf rest target listed => exact fair id about target listed
  | changed memo loaded holder target targets event shown =>
      have same := (changedEvent_memoId? shown).symm.trans about
      cases same
      unfold ServiceTask.changedEvent at shown
      split at shown
      · cases shown
      · rename_i actor known
        exact permitted_of_readsFairly known fair

theorem waiting_permitted_step (permitted : WaitingPermitted past state)
    (fair : Confined past state event) (step : Step memoService state event next) :
    WaitingPermitted ((state, event) :: past) next := by
  cases step with
  | arrive task allowed =>
      intro other member sent waits id about
      rcases List.mem_append.mp member with member | member
      · exact permittedSoFar_cons (permitted other member sent waits id about)
      · rw [List.mem_singleton.mp member, ServiceTask.arrives_waiting allowed] at waits
        cases waits
  | turn env task before after there =>
      intro other member sent waits id about
      have taking : task ∈ state.tasks := by
        rw [there]
        exact List.mem_append_right _ List.mem_cons_self
      have old : other ∈ before ∨ other ∈ after → other ∈ state.tasks := by
        rw [there]
        simp only [List.mem_append, List.mem_cons]
        tauto
      rcases ServiceTask.config_turn env task state.shared with ⟨config, rfl⟩ | unchanged
      · -- the events that wait are for the members of the new configuration
        apply permittedSoFar_cons
        rw [List.append_assoc] at member
        rcases List.mem_append.mp member with member | member
        · exact fair other (old (.inl member)) sent waits id about
        · exact fair other (old (.inr member)) sent waits id about
      · change permittedSoFar (ServiceTask.advance env task state.shared).1.config _ _ _ _ = true
        rw [unchanged]
        apply permittedSoFar_cons
        rcases List.mem_append.mp member with member | member
        · rcases List.mem_append.mp member with member | member
          · exact permitted other (old (.inl member)) sent waits id about
          · rcases ServiceTask.waiting_turn member waits with waited | aside | made
            · exact permitted task taking sent waited id about
            · rw [aside] at about
              cases about
            · exact made_permitted made fair about
        · exact permitted other (old (.inr member)) sent waits id about
  | cancel task rest before after there left =>
      intro other member sent waits id about
      apply permittedSoFar_cons
      have old : other ∈ before ∨ other ∈ after → other ∈ state.tasks := by
        rw [there]
        simp only [List.mem_append, List.mem_cons]
        tauto
      rcases List.mem_append.mp member with member | member
      · rcases List.mem_append.mp member with member | member
        · exact permitted other (old (.inl member)) sent waits id about
        · rw [ServiceTask.cancelled_waiting left member] at waits
          cases waits
      · exact permitted other (old (.inr member)) sent waits id about

theorem waiting_permitted (run : Run memoService (serviceStart config db) past state)
    (fair : Throughout Confined past) : WaitingPermitted past state := by
  refine run.invariant ?_ (fun _ _ _ _ _ permitted fair step =>
    waiting_permitted_step permitted fair step) (fun _ _ _ _ split => (fair.at split).1)
  intro task member
  cases member

end Runs

/-! ### Two runs -/

/-- Bob is connected when Alice saves a memo that everyone may edit. -/
def bobIsTold : List (Choice ServiceEnv ServiceTask) :=
  [.arrive (.connect bobIp ["shared_memo"]), .turn oneSecond 0,
    .arrive (.handleForMember aliceConnection 1 (.acquireLock "m"))] ++ turns 7 oneSecond ++
  [.arrive (.handleForMember aliceConnection 2 (.update "m" 1 "t" "two"))] ++ turns 10 oneSecond

/-- One memo of Alice, which nobody else may see. -/
def privateMemo : SharedDb :=
  oneMemo.setMemo "m" (fun memo => { memo with everyone := .none })

end PeerCove
