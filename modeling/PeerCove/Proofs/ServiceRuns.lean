/-
Module: PeerCove.Proofs.ServiceRuns
Layer: Proofs
Purpose: Runs of the memo service: what is stored of a memo along a run, and what was sent in it.
Trusted boundary: none
Main exports: ServiceSystem, ServicePast, serviceStart, storedContent, content_between, outbox_run
-/
import PeerCove.Proofs.ServiceSteps

namespace PeerCove

open Tasks

abbrev ServiceSystem := System ServiceTask MemoService

/-- The states and events of a run of the service, newest first. -/
abbrev ServicePast := List (ServiceSystem × Event ServiceEnv ServiceTask)

/-- The service as it starts, with nothing to do. -/
def serviceStart (config : Config) (db : SharedDb) : ServiceSystem where
  shared := MemoService.new config db
  tasks := []

/-- Revision, title and body of a memo in a state of a run. -/
def storedContent (state : ServiceSystem) (id : String) : Option (Nat × String × String) :=
  state.shared.sharedStore.content id

/-- Revision, title and body of a memo after a turn. -/
def contentAfter (before : ServiceSystem) (env : ServiceEnv) (task : ServiceTask) (id : String) :
    Option (Nat × String × String) :=
  (memoService.advance env task before.shared).1.sharedStore.content id

/-! ### Content over runs -/

section Runs

variable {config : Config} {db : SharedDb} {past : ServicePast} {state : ServiceSystem}

/-- The contents of a memo along a run are a history. -/
theorem content_history (run : Run memoService (serviceStart config db) past state) (id : String) :
    Versioned.History (storedContent state id ::
      past.map (fun entry => storedContent entry.1 id)) :=
  run.observed_chain (f := fun service => service.sharedStore.content id) (fun _ => .stay _)
    (fun env task service => ServiceTask.content_turn id env task service)

/-- Between two states of a run in which a memo is there all the time, its revision does not fall,
and while it stays the same the content does. -/
theorem content_between {between older : ServicePast} {earlier : ServiceSystem}
    {event : Event ServiceEnv ServiceTask}
    (run : Run memoService (serviceStart config db) (between ++ (earlier, event) :: older) state)
    {id : String} {revision since : Nat} {content shown : String × String}
    (filled : ∀ entry ∈ between, storedContent entry.1 id ≠ none)
    (now : storedContent state id = some (revision, content))
    (before : storedContent earlier id = some (since, shown)) :
    since ≤ revision ∧ (since = revision → shown = content) := by
  have history := content_history run id
  rw [now, List.map_append, List.map_cons, before] at history
  have same := Versioned.unchanged_while_filled history (by
    intro value member
    rcases List.mem_map.mp member with ⟨entry, listed, rfl⟩
    exact filled entry listed)
  exact ⟨same.1, fun equal => (same.2 equal).1⟩

/-- What a memo was in the states of a run, when its id was not given to another memo later. -/
def CreatedOnce (past : ServicePast) (state : ServiceSystem) (id : String) : Prop :=
  Versioned.Fresh (observed (fun service => service.sharedStore.content id) past state)

theorem CreatedOnce.prior {id : String} {before : ServiceSystem} {newer older : ServicePast}
    {event : Event ServiceEnv ServiceTask} (fresh : CreatedOnce past state id)
    (split : past = newer ++ (before, event) :: older) : CreatedOnce older before id := by
  rw [CreatedOnce, observed, split, List.map_append, List.map_cons, ← List.cons_append] at fresh
  exact fresh.suffix

/-- The revision of such a memo does not fall. -/
theorem revision_le (run : Run memoService (serviceStart config db) past state) {id : String}
    (fresh : CreatedOnce past state id) {earlier : ServiceSystem}
    {event : Event ServiceEnv ServiceTask} {revision since : Nat} {content shown : String × String}
    (now : storedContent state id = some (revision, content)) (member : (earlier, event) ∈ past)
    (before : storedContent earlier id = some (since, shown)) : since ≤ revision := by
  have history := content_history run id
  rcases List.append_of_mem member with ⟨newer, older, split⟩
  change Versioned.Fresh (storedContent state id ::
    past.map (fun entry => storedContent entry.1 id)) at fresh
  rw [split, List.map_append, List.map_cons, now, before] at history fresh
  exact (Versioned.unchanged_since history fresh).1

end Runs

/-! ### What is sent -/

namespace ServiceTask

/-- The reply to a request, as a message of its connection. -/
def replySent (reply : Except String SharedMemoReply) (asOf : Nat) : Origin → List Sent
  | .host => []
  | .member connection seq =>
      [{ connection := connection, message := .memoResp seq reply, asOf := asOf }]

/-- The messages that the next section of a task sends. -/
def sends : ServiceTask → List Sent
  | .effects _ (.send sent :: _) => [sent]
  | .effects origin (.reply reply asOf :: _) => replySent reply asOf origin
  | .changedSend sent _ _ _ _ => [sent]
  | _ => []

theorem runHandle_outbox (env : ServiceEnv) (request : Request) (service : MemoService) :
    (runHandle env request service).1.outbox = service.outbox := by
  unfold runHandle
  split
  all_goals rfl

theorem runStored_outbox (env : ServiceEnv) (request : Request) (reply : SharedMemoReply)
    (merges : List SheetMerge) (cells : List SheetCell) (asOf : Nat) (service : MemoService) :
    (runStored env request reply merges cells asOf service).1.outbox = service.outbox := by
  unfold runStored
  split
  all_goals rfl

theorem outbox_turn (env : ServiceEnv) (task : ServiceTask) (service : MemoService) :
    (advance env task service).1.outbox = service.outbox ++ task.sends := by
  have nothing (same : (advance env task service).1.outbox = service.outbox)
      (silent : task.sends = []) :
      (advance env task service).1.outbox = service.outbox ++ task.sends := by
    rw [same, silent, List.append_nil]
  cases task with
  | handle request => exact nothing (runHandle_outbox env request service) rfl
  | stored request reply merges cells asOf =>
      exact nothing (runStored_outbox env request reply merges cells asOf service) rfl
  | changedSend sent id config holder targets => rfl
  | effects origin rest =>
      cases rest with
      | nil => exact nothing rfl rfl
      | cons effect rest =>
          cases effect with
          | send sent => rfl
          | reply reply asOf =>
              cases origin with
              | host => rfl
              | member connection seq => rfl
          | _ => exact nothing rfl rfl
  | _ => exact nothing rfl rfl

end ServiceTask

/-- The outbox holds what the turns of the run have sent, in their order. -/
theorem outbox_run {config : Config} {db : SharedDb} {past : ServicePast} {state : ServiceSystem}
    (run : Run memoService (serviceStart config db) past state) :
    state.shared.outbox = inTurns (fun _ task _ => task.sends) past.reverse :=
  run.logged MemoService.outbox _ ServiceTask.outbox_turn

/-! ### Two members and one memo -/

def aliceIp : Ipv4Addr := .ofOctets 10 7 0 2
def bobIp : Ipv4Addr := .ofOctets 10 7 0 3

def aliceConnection : Connection where
  ip := aliceIp
  connectionId := 0

def bobConnection : Connection where
  ip := bobIp
  connectionId := 1

/-- Alice and Bob are members. -/
def twoMembers : Config where
  interface := { address := .host (.ofOctets 10 7 0 1) }
  peers :=
    [ { name := some "Alice"
        inviteId := some "a"
        publicKey := ⟨1⟩
        allowedIps := [.host aliceIp] },
      { name := some "Bob"
        inviteId := some "b"
        publicKey := ⟨2⟩
        allowedIps := [.host bobIp] } ]

/-- One memo of Alice, which everyone may edit. -/
def oneMemo : SharedDb :=
  SharedDb.empty.insertMemo "m"
    { title := "t"
      body := "one"
      folderId := none
      revision := 1
      ownerId := "a"
      ownerName := "Alice"
      createdAt := 0
      updatedAt := 0
      updatedBy := none
      everyone := .editor
      deletedAt := none }

def oneSecond : ServiceEnv where
  now := 1000
  newId := "x"
  fts := fun _ _ => false
  instant := 1000

/-- The task that waits longest takes some turns. -/
def turns (count : Nat) (env : ServiceEnv) : List (Choice ServiceEnv ServiceTask) :=
  List.replicate count (.turn env 0)

end PeerCove
