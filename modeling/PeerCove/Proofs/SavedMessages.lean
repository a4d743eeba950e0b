/-
Module: PeerCove.Proofs.SavedMessages
Layer: Proofs
Purpose: When the file of the send queue has every message that was accepted and is not finished:
  as long as the queue is never read for the file while a pump has such a message in hand, and what
  is written is not older than what was accepted since.
Trusted boundary: none
Main exports: Letter, NothingLost, ReadWhole, saved_until_finished, accepted_lost
-/
import PeerCove.Proofs.SendWithdrawal

namespace PeerCove

open SendDaemon

variable {address : Ipv4Addr} {daemon next : SendDaemon} {event : SendEvent} {task : SendTask}

/-- What a message is, wherever it is kept. -/
structure Letter where
  seq : Nat
  id : String
  scope : ChatScope
  toIp : Option Ipv4Addr
  groupId : Option String
  text : String
  sentAt : Nat
deriving DecidableEq

def ChatMessageInfo.letter (entry : ChatMessageInfo) : Letter where
  seq := entry.seq
  id := entry.id
  scope := entry.scope
  toIp := entry.toIp
  groupId := entry.groupId
  text := entry.text
  sentAt := entry.sentAt

def PendingChat.letter (pending : PendingChat) : Letter where
  seq := pending.seq
  id := pending.id
  scope := pending.scope
  toIp := pending.toIp
  groupId := pending.groupId
  text := pending.text
  sentAt := pending.sentAt

def PersistedChat.letter (entry : PersistedChat) : Letter where
  seq := entry.seq
  id := entry.id
  scope := entry.scope
  toIp := entry.toIp
  groupId := entry.groupId
  text := entry.text
  sentAt := entry.sentAt

/-- Every message that `chat_send` has saved and that is neither delivered nor cancelled nor
discarded is in the file. -/
def NothingLost (daemon : SendDaemon) : Prop :=
  ∀ message ∈ daemon.issued, message.seq ∈ daemon.accepted → message.seq ∉ daemon.finished →
    message.letter ∈ daemon.file.map PersistedChat.letter

instance (daemon : SendDaemon) : Decidable (NothingLost daemon) :=
  inferInstanceAs (Decidable (∀ message ∈ daemon.issued, _ → _ → _))

/-- No pump has a message in hand that is to be in the file and is not finished, unless it is in the
queue, too. -/
def Unheld (accepting : Option Nat) (daemon : SendDaemon) : Prop :=
  ∀ pending ∈ daemon.held, pending.seq ∈ daemon.accepted ∨ accepting = some pending.seq →
    pending.seq ∈ daemon.finished ∨ pending.letter ∈ daemon.queue.map PendingChat.letter

/-- What has been accepted since the queue was read is finished, or is in what was read. -/
def UpToDate (snapshot : List PersistedChat) (known : List Nat) (daemon : SendDaemon) : Prop :=
  ∀ message ∈ daemon.issued, message.seq ∈ daemon.accepted → message.seq ∉ known →
    message.seq ∈ daemon.finished ∨ message.letter ∈ snapshot.map PersistedChat.letter

/-- The queue is read for the file when nothing to be saved is out of it, and the file is written
when nothing was accepted in between. -/
def ReadWhole : SendEvent → SendDaemon → Prop
  | .proceed, daemon =>
      match daemon.operation with
      | some (.saving accepting) => Unheld accepting daemon
      | some (.writing _ snapshot known) => UpToDate snapshot known daemon
      | _ => True
  | .turn (.saving _) _, daemon => Unheld none daemon
  | .turn (.writing _ snapshot known) _, daemon => UpToDate snapshot known daemon
  | _, _ => True

instance (accepting : Option Nat) (daemon : SendDaemon) : Decidable (Unheld accepting daemon) :=
  inferInstanceAs (Decidable (∀ pending ∈ daemon.held, _ → _))

instance (snapshot : List PersistedChat) (known : List Nat) (daemon : SendDaemon) :
    Decidable (UpToDate snapshot known daemon) :=
  inferInstanceAs (Decidable (∀ message ∈ daemon.issued, _ → _ → _))

instance : ∀ event daemon, Decidable (ReadWhole event daemon)
  | .proceed, daemon =>
      match running : daemon.operation with
      | some (.saving accepting) =>
          decidable_of_iff (Unheld accepting daemon) (by rw [ReadWhole, running])
      | some (.writing _ snapshot known) =>
          decidable_of_iff (UpToDate snapshot known daemon) (by rw [ReadWhole, running])
      | some (.pushing _ _) => isTrue (by rw [ReadWhole, running]; trivial)
      | none => isTrue (by rw [ReadWhole, running]; trivial)
  | .turn (.saving _) _, daemon => inferInstanceAs (Decidable (Unheld none daemon))
  | .turn (.writing _ snapshot known) _, daemon =>
      inferInstanceAs (Decidable (UpToDate snapshot known daemon))
  | .turn (.looking _) _, _ | .turn (.holding ..) _, _ | .turn (.transmitting ..) _, _ =>
      isTrue trivial
  | .send .., _ | .resend .., _ | .cancel _, _ | .discard _, _ | .pump _, _ => isTrue trivial

/-! ### Where a message is -/

/-- The message that `chat_send` is about to have saved. -/
def SendOperation.accepting : SendOperation → Option Nat
  | .pushing _ accepting | .saving accepting | .writing accepting _ _ => accepting

def SendDaemon.accepting (daemon : SendDaemon) : Option Nat :=
  daemon.operation.bind SendOperation.accepting

/-- What was read and is to be written, with the messages that were accepted when it was read. -/
def SendTask.unwritten : SendTask → Option (List PersistedChat × List Nat)
  | .writing _ snapshot known => some (snapshot, known)
  | _ => none

def SendOperation.unwritten : SendOperation → Option (List PersistedChat × List Nat)
  | .writing _ snapshot known => some (snapshot, known)
  | _ => none

def SendDaemon.unwritten (daemon : SendDaemon) : List (List PersistedChat × List Nat) :=
  daemon.tasks.filterMap SendTask.unwritten ++
    (daemon.operation.bind SendOperation.unwritten).toList

/-- The messages that are queued or in hand. -/
def SendDaemon.letters (inHand : List PendingChat) (daemon : SendDaemon) : List Letter :=
  (daemon.waiting inHand).map PendingChat.letter

/-- Every message is finished, or is where it has to be. -/
structure Saved (inHand : List PendingChat) (daemon : SendDaemon) : Prop where
  numbered : ∀ message ∈ daemon.issued, message.seq < daemon.log.nextSeq
  accepted : ∀ seq ∈ daemon.accepted, seq < daemon.log.nextSeq
  known : ∀ read ∈ daemon.unwritten, ∀ seq ∈ read.2, seq < daemon.log.nextSeq
  accepting : ∀ seq, daemon.accepting = some seq → seq < daemon.log.nextSeq
  somewhere : ∀ message ∈ daemon.issued, message.seq ∈ daemon.accepted →
    message.seq ∈ daemon.finished ∨ message.letter ∈ daemon.letters inHand
  coming : ∀ message ∈ daemon.issued, daemon.accepting = some message.seq →
    message.seq ∈ daemon.finished ∨ message.letter ∈ daemon.letters inHand ∨
      message.letter ∈ daemon.pushed.map PendingChat.letter
  read : ∀ read ∈ daemon.unwritten, ∀ message ∈ daemon.issued, message.seq ∈ read.2 →
    message.seq ∈ daemon.finished ∨ message.letter ∈ read.1.map PersistedChat.letter
  own : ∀ seq snapshot known, daemon.operation = some (.writing (some seq) snapshot known) →
    ∀ message ∈ daemon.issued, message.seq = seq →
      message.seq ∈ daemon.finished ∨ message.letter ∈ snapshot.map PersistedChat.letter
  file : NothingLost daemon

/-- A step that reads and writes no file and accepts nothing. -/
theorem Saved.keep {inHand inHand' : List PendingChat} (saved : Saved inHand daemon)
    (issued : next.issued = daemon.issued) (accepted : next.accepted = daemon.accepted)
    (counter : next.log.nextSeq = daemon.log.nextSeq) (file : next.file = daemon.file)
    (finished : ∀ seq ∈ daemon.finished, seq ∈ next.finished)
    (accepting : ∀ seq, next.accepting = some seq → daemon.accepting = some seq)
    (unwritten : ∀ read ∈ next.unwritten, read ∈ daemon.unwritten)
    (writing : ∀ seq snapshot known,
      next.operation = some (.writing (some seq) snapshot known) →
        daemon.operation = some (.writing (some seq) snapshot known))
    (letters : ∀ letter ∈ daemon.letters inHand,
      letter.seq ∈ next.finished ∨ letter ∈ next.letters inHand')
    (pushed : ∀ pending ∈ daemon.pushed, pending ∈ next.pushed) : Saved inHand' next := by
  constructor
  · rw [issued, counter]
    exact saved.numbered
  · rw [accepted, counter]
    exact saved.accepted
  · rw [counter]
    exact fun read listed => saved.known read (unwritten read listed)
  · rw [counter]
    exact fun seq comes => saved.accepting seq (accepting seq comes)
  · rw [issued, accepted]
    intro message listed obliged
    rcases saved.somewhere message listed obliged with done | there
    · exact Or.inl (finished _ done)
    · exact letters message.letter there
  · rw [issued]
    intro message listed comes
    rcases saved.coming message listed (accepting message.seq comes) with done | there | outside
    · exact Or.inl (finished _ done)
    · exact (letters message.letter there).imp_right Or.inl
    · obtain ⟨pending, member, same⟩ := List.mem_map.mp outside
      exact Or.inr (Or.inr (List.mem_map.mpr ⟨pending, pushed pending member, same⟩))
  · rw [issued]
    intro read listed message member knew
    exact (saved.read read (unwritten read listed) message member knew).imp_left (finished _)
  · rw [issued]
    intro seq snapshot known runs message member same
    exact (saved.own seq snapshot known (writing seq snapshot known runs) message member
      same).imp_left (finished _)
  · rw [NothingLost, issued, accepted, file]
    intro message member obliged open_
    exact saved.file message member obliged (fun done => open_ (finished _ done))

/-! ### The tasks -/

theorem unwritten_append (tasks : List SendTask) (task : SendTask) :
    (tasks ++ [task]).filterMap SendTask.unwritten
      = tasks.filterMap SendTask.unwritten ++ task.unwritten.toList := by
  rw [List.filterMap_append]
  cases taken : task.unwritten with
  | none => simp [taken]
  | some read => simp [taken]

theorem held_taken (listed : task ∈ daemon.tasks) (free : task.held = none) :
    { daemon with tasks := daemon.tasks.erase task }.held.Perm daemon.held := by
  have split := held_erase listed
  rw [free] at split
  exact split.symm

theorem saved_taken (saved : Saved [] daemon) (listed : task ∈ daemon.tasks) :
    Saved task.held.toList { daemon with tasks := daemon.tasks.erase task } := by
  refine saved.keep rfl rfl rfl rfl (fun _ done => done) (fun _ comes => comes) ?_
    (fun _ _ _ runs => runs) (fun letter there => Or.inr ?_) (fun _ member => member)
  · intro read member
    rcases List.mem_append.mp member with ofTask | ofOperation
    · refine List.mem_append_left _ ?_
      exact (List.erase_sublist.filterMap SendTask.unwritten).subset ofTask
    · exact List.mem_append_right _ ofOperation
  · obtain ⟨pending, waits, rfl⟩ := List.mem_map.mp there
    refine List.mem_map_of_mem ?_
    exact ((held_erase listed).append_left daemon.queue).mem_iff.mp waits

/-- The task goes on: what it has in hand and the queue are what they were together, but for what
is finished. -/
theorem Saved.goesOn {inHand : List PendingChat} (saved : Saved inHand daemon)
    (later : next.tasks = daemon.tasks ++ [task]) (reads : task.unwritten = none)
    (letters : ∀ pending ∈ daemon.queue ++ inHand, pending.seq ∈ next.finished ∨
      pending.letter ∈ (next.queue ++ task.held.toList).map PendingChat.letter)
    (issued : next.issued = daemon.issued) (accepted : next.accepted = daemon.accepted)
    (operation : next.operation = daemon.operation)
    (counter : next.log.nextSeq = daemon.log.nextSeq) (file : next.file = daemon.file)
    (finished : ∀ seq ∈ daemon.finished, seq ∈ next.finished) : Saved [] next := by
  have sameAccepting : next.accepting = daemon.accepting := by
    rw [SendDaemon.accepting, SendDaemon.accepting, operation]
  have samePushed : next.pushed = daemon.pushed := by
    rw [SendDaemon.pushed, SendDaemon.pushed, operation]
  refine saved.keep issued accepted counter file finished (fun _ comes => sameAccepting ▸ comes)
    ?_ (fun _ _ _ runs => operation ▸ runs) ?_ (fun _ member => samePushed ▸ member)
  · intro read member
    rw [SendDaemon.unwritten, later, unwritten_append, reads, operation] at member
    simpa [SendDaemon.unwritten] using member
  · intro letter there
    obtain ⟨pending, waits, rfl⟩ := List.mem_map.mp there
    rw [SendDaemon.letters, waiting, held, later, held_append, List.nil_append]
    rw [waiting, ← List.append_assoc] at waits
    rcases List.mem_append.mp waits with moved | elsewhere
    · rcases letters pending moved with done | there
      · exact Or.inl done
      · right
        obtain ⟨other, member, same⟩ := List.mem_map.mp there
        refine List.mem_map.mpr ⟨other, ?_, same⟩
        rcases List.mem_append.mp member with queued | taken
        · exact List.mem_append_left _ queued
        · exact List.mem_append_right _ (List.mem_append_right _ taken)
    · right
      refine List.mem_map_of_mem (List.mem_append_right _ ?_)
      exact List.mem_append_left _ elsewhere

theorem mem_letters {entries : List PendingChat} {pending : PendingChat}
    (listed : pending ∈ entries) : pending.letter ∈ entries.map PendingChat.letter :=
  List.mem_map_of_mem listed

theorem letter_snapshot (daemon : SendDaemon) :
    daemon.snapshot.map PersistedChat.letter = daemon.queue.map PendingChat.letter := by
  rw [SendDaemon.snapshot, List.map_map]
  rfl

/-- What is read from the queue has every message that is to be in the file. -/
theorem Unheld.reads {accepting : Option Nat} (unheld : Unheld accepting daemon)
    {message : ChatMessageInfo}
    (obliged : message.seq ∈ daemon.accepted ∨ accepting = some message.seq)
    (there : message.letter ∈ daemon.letters []) :
    message.seq ∈ daemon.finished ∨
      message.letter ∈ daemon.snapshot.map PersistedChat.letter := by
  rw [letter_snapshot]
  obtain ⟨pending, waits, same⟩ := List.mem_map.mp there
  have number : pending.seq = message.seq := congrArg Letter.seq same
  rcases List.mem_append.mp waits with queued | out
  · exact Or.inr (same ▸ mem_letters queued)
  · rw [← same, ← number]
    rw [← number] at obliged
    exact unheld pending out obliged

/-- A task reads the queue for the file. -/
theorem saved_reading {due : List Nat} (saved : Saved [] daemon)
    (unheld : Unheld none daemon) :
    Saved [] { daemon with
      tasks := daemon.tasks ++ [SendTask.writing due daemon.snapshot daemon.accepted] } := by
  have sameHeld : { daemon with
      tasks := daemon.tasks ++ [SendTask.writing due daemon.snapshot daemon.accepted] }.held
        = daemon.held := by
    rw [held, held_append]
    exact List.append_nil _
  have reads : ∀ read ∈ SendDaemon.unwritten { daemon with
      tasks := daemon.tasks ++ [SendTask.writing due daemon.snapshot daemon.accepted] },
      read ∈ daemon.unwritten ∨ read = (daemon.snapshot, daemon.accepted) := by
    intro read member
    rw [SendDaemon.unwritten, unwritten_append] at member
    rcases List.mem_append.mp member with ofTasks | ofOperation
    · rcases List.mem_append.mp ofTasks with old | new
      · exact Or.inl (List.mem_append_left _ old)
      · exact Or.inr (List.mem_singleton.mp new)
    · exact Or.inl (List.mem_append_right _ ofOperation)
  constructor
  · exact saved.numbered
  · exact saved.accepted
  · intro read member
    rcases reads read member with old | rfl
    · exact saved.known read old
    · exact saved.accepted
  · exact saved.accepting
  · intro message listed obliged
    rw [SendDaemon.letters, waiting, sameHeld]
    exact saved.somewhere message listed obliged
  · intro message listed comes
    rw [SendDaemon.letters, waiting, sameHeld]
    exact saved.coming message listed comes
  · intro read member message listed knew
    rcases reads read member with old | rfl
    · exact saved.read read old message listed knew
    · rcases saved.somewhere message listed knew with done | there
      · exact Or.inl done
      · exact unheld.reads (Or.inl knew) there
  · exact saved.own
  · exact saved.file

/-- The file is what a task has read. -/
theorem saved_written {due : List Nat} {snapshot : List PersistedChat}
    (saved : Saved [] daemon)
    (whole : ∀ message ∈ daemon.issued, message.seq ∈ daemon.accepted →
      message.seq ∈ daemon.finished ∨ message.letter ∈ snapshot.map PersistedChat.letter) :
    Saved [] { daemon with file := snapshot, tasks := daemon.tasks ++ [.looking due] } := by
  have looking : Saved [] { daemon with tasks := daemon.tasks ++ [.looking due] } := by
    refine saved.goesOn rfl rfl (fun pending member => Or.inr ?_) rfl rfl rfl rfl rfl
      (fun _ done => done)
    exact mem_letters member
  exact {
    numbered := looking.numbered
    accepted := looking.accepted
    known := looking.known
    accepting := looking.accepting
    somewhere := looking.somewhere
    coming := looking.coming
    read := looking.read
    own := looking.own
    file := fun message listed obliged open_ =>
      (whole message listed obliged).resolve_left open_ }

theorem saved_advance {input : TurnInput} (saved : Saved [] daemon)
    (listed : task ∈ daemon.tasks) (meets : ReadWhole (.turn task input) daemon) :
    Saved [] ({ daemon with tasks := daemon.tasks.erase task }.advance address input task) := by
  have taken := saved_taken saved listed
  cases task with
  | looking due =>
      cases due with
      | nil => exact taken
      | cons seq due =>
          simp only [SendDaemon.advance]
          split
          · refine taken.goesOn rfl rfl (fun pending member => Or.inr ?_) rfl rfl rfl rfl rfl
              (fun _ done => done)
            exact mem_letters member
          · next pending found =>
              refine taken.goesOn rfl rfl (fun other member => Or.inr ?_) rfl rfl rfl rfl rfl
                (fun _ done => done)
              have moved := (find?_eraseP_perm found).trans (List.perm_append_singleton _ _).symm
              have queued : other ∈ daemon.queue := by simpa [SendTask.held] using member
              exact mem_letters (moved.mem_iff.mp queued)
  | holding pending targets due =>
      cases targets with
      | nil =>
          simp only [SendDaemon.advance]
          split
          · refine taken.goesOn rfl rfl (fun other member => ?_) rfl rfl rfl rfl rfl
              (fun _ done => List.mem_append_left _ done)
            rcases List.mem_append.mp member with queued | inHand
            · exact Or.inr (mem_letters (List.mem_append_left _ queued))
            · rw [List.mem_singleton.mp inHand]
              exact Or.inl (List.mem_append_right _ List.mem_cons_self)
          · refine taken.goesOn rfl rfl (fun other member => Or.inr ?_) rfl rfl rfl rfl rfl
              (fun _ done => done)
            rw [List.map_append]
            rcases List.mem_append.mp member with queued | inHand
            · refine List.mem_append_left _ (mem_letters ?_)
              exact List.mem_append_left _ queued
            · rw [List.mem_singleton.mp inHand, List.map_append]
              exact List.mem_append_left _ (List.mem_append_right _ List.mem_cons_self)
      | cons target targets =>
          simp only [SendDaemon.advance]
          split <;>
          · refine taken.goesOn rfl rfl (fun other member => Or.inr ?_) rfl rfl rfl rfl rfl
              (fun _ done => done)
            exact mem_letters member
  | transmitting pending target targets due =>
      refine taken.goesOn rfl rfl (fun other member => Or.inr ?_) rfl rfl rfl rfl rfl
        (fun _ done => done)
      have same : (if input.acknowledges then pending.acknowledged target else pending).letter =
          pending.letter := by
        split <;> rfl
      rw [List.map_append]
      rcases List.mem_append.mp member with queued | inHand
      · exact List.mem_append_left _ (mem_letters queued)
      · rw [List.mem_singleton.mp inHand, ← same]
        exact List.mem_append_right _ List.mem_cons_self
  | saving due =>
      have unheld : Unheld none { daemon with tasks := daemon.tasks.erase (.saving due) } := by
        intro pending out obliged
        exact meets pending ((held_taken listed rfl).mem_iff.mp out) obliged
      exact saved_reading taken unheld
  | writing due snapshot known =>
      refine saved_written taken (fun message issued obliged => ?_)
      by_cases knew : message.seq ∈ known
      · refine saved.read (snapshot, known) ?_ message issued knew
        exact List.mem_append_left _ (List.mem_filterMap.mpr ⟨_, listed, rfl⟩)
      · exact meets message issued obliged knew

/-! ### The operations -/

theorem saved_send {draft : ChatDraft} {id : String} {sentAt now : Nat} {view : ChatView}
    (saved : Saved [] daemon) (free : daemon.operation.isSome = false) :
    Saved [] (daemon.send address draft id sentAt now view) := by
  have noOperation : daemon.operation = none :=
    Option.isNone_iff_eq_none.mp (Option.isSome_eq_false_iff.mp free)
  simp only [SendDaemon.send]
  split
  · exact saved
  · -- the new message has a number of its own
    have older : ∀ message ∈ daemon.issued, message.seq ≠ daemon.log.nextSeq :=
      fun message listed => Nat.ne_of_lt (saved.numbered message listed)
    have stillDone : ∀ seq, seq ≠ daemon.log.nextSeq → seq ∈ daemon.finished →
        seq ∈ daemon.finished.filter (fun seq => seq ≠ daemon.log.nextSeq) :=
      fun seq differ done => List.mem_filter.mpr ⟨done, decide_eq_true differ⟩
    have unwritten : ∀ read ∈ daemon.tasks.filterMap SendTask.unwritten ++ [],
        read ∈ daemon.unwritten := by
      intro read member
      rw [List.append_nil] at member
      exact List.mem_append_left _ member
    constructor
    · intro message listed
      rcases List.mem_append.mp listed with old | new
      · exact Nat.lt_succ_of_lt (saved.numbered message old)
      · rw [List.mem_singleton.mp new]
        exact Nat.lt_succ_self _
    · exact fun seq listed => Nat.lt_succ_of_lt (saved.accepted seq listed)
    · intro read member seq listed
      exact Nat.lt_succ_of_lt (saved.known read (unwritten read member) seq listed)
    · intro seq comes
      rw [← Option.some.inj comes]
      exact Nat.lt_succ_self _
    · intro message listed obliged
      rcases List.mem_append.mp listed with old | new
      · exact (saved.somewhere message old obliged).imp_left (stillDone _ (older message old))
      · rw [List.mem_singleton.mp new] at obliged
        exact absurd (saved.accepted _ obliged) (Nat.lt_irrefl _)
    · intro message listed comes
      rcases List.mem_append.mp listed with old | new
      · exact absurd (Option.some.inj comes).symm (older message old)
      · rw [List.mem_singleton.mp new]
        exact Or.inr (Or.inr List.mem_cons_self)
    · intro read member message listed knew
      rcases List.mem_append.mp listed with old | new
      · exact (saved.read read (unwritten read member) message old knew).imp_left
          (stillDone _ (older message old))
      · rw [List.mem_singleton.mp new] at knew
        exact absurd (saved.known read (unwritten read member) _ knew) (Nat.lt_irrefl _)
    · intro seq snapshot known runs
      cases runs
    · intro message listed obliged open_
      rcases List.mem_append.mp listed with old | new
      · refine saved.file message old obliged (fun done => open_ ?_)
        exact stillDone _ (older message old) done
      · rw [List.mem_singleton.mp new] at obliged
        exact absurd (saved.accepted _ obliged) (Nat.lt_irrefl _)

/-- An operation that accepts no message starts; what it takes out of the queue is finished. -/
theorem Saved.starts {operation : SendOperation} (saved : Saved [] daemon)
    (free : daemon.operation.isSome = false) (starts : next.operation = some operation)
    (quiet : operation.accepting = none) (silent : operation.unwritten = none)
    (tasks : next.tasks = daemon.tasks) (issued : next.issued = daemon.issued)
    (accepted : next.accepted = daemon.accepted)
    (counter : next.log.nextSeq = daemon.log.nextSeq) (file : next.file = daemon.file)
    (finished : ∀ seq ∈ daemon.finished, seq ∈ next.finished)
    (queue : ∀ pending ∈ daemon.queue, pending.seq ∈ next.finished ∨
      pending.letter ∈ next.queue.map PendingChat.letter) : Saved [] next := by
  have accepting : next.accepting = none := by
    rw [SendDaemon.accepting, starts]
    exact quiet
  refine saved.keep issued accepted counter file finished ?_ ?_ ?_ ?_ ?_
  · intro seq comes
    rw [accepting] at comes
    cases comes
  · intro read member
    rw [SendDaemon.unwritten, starts, tasks] at member
    rcases List.mem_append.mp member with ofTasks | ofOperation
    · exact List.mem_append_left _ ofTasks
    · rw [Option.bind_some, silent] at ofOperation
      cases ofOperation
  · intro seq snapshot known runs
    rw [starts] at runs
    rw [Option.some.inj runs] at quiet
    cases quiet
  · intro letter there
    obtain ⟨pending, waits, rfl⟩ := List.mem_map.mp there
    rw [SendDaemon.letters, waiting, held, tasks]
    rcases List.mem_append.mp waits with queued | out
    · refine (queue pending queued).imp_right (fun there => ?_)
      rw [List.map_append]
      exact List.mem_append_left _ there
    · exact Or.inr (mem_letters (List.mem_append_right _ out))
  · rw [pushed_free free]
    simp

theorem saved_resend {seq now : Nat} {view : ChatView} (saved : Saved [] daemon)
    (free : daemon.operation.isSome = false) :
    Saved [] (daemon.resend address seq now view) := by
  simp only [SendDaemon.resend]
  split
  · refine saved.starts free rfl rfl rfl rfl rfl rfl rfl rfl (fun _ done => done)
      (fun pending queued => Or.inr ?_)
    have same : (updateFirst (fun pending : PendingChat => decide (pending.seq = seq))
        (fun pending => { pending with nextAt := now }) daemon.queue).map PendingChat.letter =
          daemon.queue.map PendingChat.letter := by
      apply map_updateFirst
      intro pending
      rfl
    rw [same]
    exact mem_letters queued
  · split
    · exact saved
    · split
      · exact saved.starts free rfl rfl rfl rfl rfl rfl rfl rfl (fun _ done => done)
          (fun pending queued => Or.inr (mem_letters queued))
      · exact saved

theorem saved_cancel {seq : Nat} (saved : Saved [] daemon)
    (free : daemon.operation.isSome = false) : Saved [] (daemon.cancel seq) := by
  refine saved.starts free rfl rfl rfl rfl rfl rfl rfl rfl
    (fun _ done => List.mem_append_left _ done) (fun pending queued => ?_)
  by_cases same : pending.seq = seq
  · rw [same]
    exact Or.inl (List.mem_append_right _ List.mem_cons_self)
  · exact Or.inr (mem_letters (List.mem_filter.mpr ⟨queued, decide_eq_true same⟩))

theorem saved_discard {stale : List Ipv4Addr} (saved : Saved [] daemon) :
    Saved [] (daemon.discard stale) := by
  -- the clean-up may start a task that saves the queue
  have discarded : Saved [] { daemon.discard stale with tasks := daemon.tasks } := by
    refine saved.keep rfl rfl rfl rfl (fun _ done => List.mem_append_left _ done)
      (fun _ comes => comes) (fun _ member => member) (fun _ _ _ runs => runs)
      (fun letter there => ?_) (fun _ member => member)
    obtain ⟨pending, waits, rfl⟩ := List.mem_map.mp there
    rcases List.mem_append.mp waits with queued | out
    · cases direct : pending.isDirectTo stale with
      | true =>
          refine Or.inl (List.mem_append_right _ (List.mem_map_of_mem ?_))
          exact List.mem_filter.mpr ⟨queued, direct⟩
      | false =>
          refine Or.inr (mem_letters (List.mem_append_left _ ?_))
          exact List.mem_filter.mpr ⟨queued, by rw [direct]; rfl⟩
    · exact Or.inr (mem_letters (List.mem_append_right _ out))
  by_cases none : (daemon.queue.filter (fun pending => pending.isDirectTo stale)).isEmpty
  · have same : daemon.discard stale = { daemon.discard stale with tasks := daemon.tasks } := by
      simp [SendDaemon.discard, none]
    rw [same]
    exact discarded
  · have later : (daemon.discard stale).tasks = daemon.tasks ++ [.saving []] := by
      simp [SendDaemon.discard, none]
    refine discarded.goesOn later rfl (fun pending member => Or.inr ?_) rfl rfl rfl rfl rfl
      (fun _ done => done)
    exact mem_letters member

theorem saved_proceed {operation : SendOperation} (saved : Saved [] daemon)
    (running : daemon.operation = some operation) (meets : ReadWhole .proceed daemon) :
    Saved [] (daemon.proceed operation) := by
  rw [ReadWhole, running] at meets
  have accepting : daemon.accepting = operation.accepting := by
    rw [SendDaemon.accepting, running]
    rfl
  cases operation with
  | pushing pending accepts =>
      have comes : daemon.pushed = [pending] := by rw [SendDaemon.pushed, running]
      have grown : ∀ letter ∈ daemon.letters [],
          letter ∈ (daemon.proceed (.pushing pending accepts)).letters [] := by
        intro letter there
        obtain ⟨other, waits, rfl⟩ := List.mem_map.mp there
        refine mem_letters ?_
        rcases List.mem_append.mp waits with queued | out
        · exact List.mem_append_left _ (List.mem_append_left _ queued)
        · exact List.mem_append_right _ out
      have unwritten : ∀ read ∈ (daemon.proceed (.pushing pending accepts)).unwritten,
          read ∈ daemon.unwritten := by
        intro read member
        rcases List.mem_append.mp member with ofTasks | ofOperation
        · exact List.mem_append_left _ ofTasks
        · cases ofOperation
      exact {
        numbered := saved.numbered
        accepted := saved.accepted
        known := fun read member => saved.known read (unwritten read member)
        accepting := fun seq same => saved.accepting seq (accepting.trans same)
        somewhere := fun message listed obliged =>
          (saved.somewhere message listed obliged).imp_right (grown _)
        coming := by
          intro message listed same
          rcases saved.coming message listed (accepting.trans same) with done | there | outside
          · exact Or.inl done
          · exact Or.inr (Or.inl (grown _ there))
          · rw [comes, List.map_singleton, List.mem_singleton] at outside
            rw [outside]
            refine Or.inr (Or.inl (mem_letters ?_))
            exact List.mem_append_left _ (List.mem_append_right _ List.mem_cons_self)
        read := fun read member => saved.read read (unwritten read member)
        own := fun seq snapshot known runs => by cases runs
        file := saved.file }
  | saving accepts =>
      have free : daemon.pushed = [] := by rw [SendDaemon.pushed, running]
      have reads : ∀ read ∈ (daemon.proceed (.saving accepts)).unwritten,
          read ∈ daemon.unwritten ∨ read = (daemon.snapshot, daemon.accepted) := by
        intro read member
        rcases List.mem_append.mp member with ofTasks | ofOperation
        · exact Or.inl (List.mem_append_left _ ofTasks)
        · exact Or.inr (List.mem_singleton.mp ofOperation)
      constructor
      · exact saved.numbered
      · exact saved.accepted
      · intro read member
        rcases reads read member with old | rfl
        · exact saved.known read old
        · exact saved.accepted
      · exact fun seq same => saved.accepting seq (accepting.trans same)
      · exact saved.somewhere
      · intro message listed same
        rcases saved.coming message listed (accepting.trans same) with done | there | outside
        · exact Or.inl done
        · exact Or.inr (Or.inl there)
        · rw [free] at outside
          cases outside
      · intro read member message listed knew
        rcases reads read member with old | rfl
        · exact saved.read read old message listed knew
        · rcases saved.somewhere message listed knew with done | there
          · exact Or.inl done
          · exact Unheld.reads meets (Or.inl knew) there
      · intro seq snapshot known runs message listed same
        cases runs
        rcases saved.coming message listed (accepting.trans (congrArg some same.symm)) with
          done | there | outside
        · exact Or.inl done
        · exact Unheld.reads meets (Or.inr (congrArg some same.symm)) there
        · rw [free] at outside
          cases outside
      · exact saved.file
  | writing accepts snapshot known =>
      have free : daemon.pushed = [] := by rw [SendDaemon.pushed, running]
      have isUnwritten : (snapshot, known) ∈ daemon.unwritten := by
        rw [SendDaemon.unwritten, running]
        exact List.mem_append_right _ List.mem_cons_self
      have unwritten : ∀ read ∈ (daemon.proceed (.writing accepts snapshot known)).unwritten,
          read ∈ daemon.unwritten := by
        intro read member
        rcases List.mem_append.mp member with ofTasks | ofOperation
        · exact List.mem_append_left _ ofTasks
        · cases ofOperation
      constructor
      · exact saved.numbered
      · intro seq listed
        rcases List.mem_append.mp listed with old | new
        · exact saved.accepted seq old
        · exact saved.accepting seq (accepting.trans (Option.mem_toList.mp new))
      · exact fun read member => saved.known read (unwritten read member)
      · intro seq comes
        cases comes
      · intro message listed obliged
        rcases List.mem_append.mp obliged with old | new
        · exact saved.somewhere message listed old
        · rcases saved.coming message listed (accepting.trans (Option.mem_toList.mp new)) with
            done | there | outside
          · exact Or.inl done
          · exact Or.inr there
          · rw [free] at outside
            cases outside
      · intro message listed comes
        cases comes
      · exact fun read member => saved.read read (unwritten read member)
      · intro seq snapshot' known' runs
        cases runs
      · intro message listed obliged open_
        have present : message.seq ∈ daemon.finished ∨
            message.letter ∈ snapshot.map PersistedChat.letter := by
          rcases List.mem_append.mp obliged with old | new
          · by_cases knew : message.seq ∈ known
            · exact saved.read (snapshot, known) isUnwritten message listed knew
            · exact meets message listed old knew
          · rw [Option.mem_toList.mp new] at running
            exact saved.own message.seq snapshot known running message listed rfl
        exact present.resolve_left open_

/-! ### Runs -/

/-- A step that meets the condition leaves every message saved. -/
theorem saved_step (saved : Saved [] daemon) (meets : ReadWhole event daemon)
    (happens : daemon.step address event = some next) : Saved [] next := by
  cases event with
  | send draft id sentAt now view =>
      simp only [SendDaemon.step] at happens
      split at happens
      · cases happens
      · next free =>
          cases happens
          exact saved_send saved (Bool.eq_false_of_not_eq_true free)
  | resend seq now view =>
      simp only [SendDaemon.step] at happens
      split at happens
      · cases happens
      · next free =>
          cases happens
          exact saved_resend saved (Bool.eq_false_of_not_eq_true free)
  | cancel seq =>
      simp only [SendDaemon.step] at happens
      split at happens
      · cases happens
      · next free =>
          cases happens
          exact saved_cancel saved (Bool.eq_false_of_not_eq_true free)
  | discard stale =>
      cases happens
      exact saved_discard saved
  | pump now =>
      cases happens
      refine saved.goesOn rfl rfl (fun pending member => Or.inr ?_) rfl rfl rfl rfl rfl
        (fun _ done => done)
      exact mem_letters member
  | proceed =>
      obtain ⟨operation, running, rfl⟩ := Option.map_eq_some_iff.mp happens
      exact saved_proceed saved running meets
  | turn task input =>
      simp only [SendDaemon.step] at happens
      split at happens
      · next listed =>
          cases happens
          exact saved_advance saved listed meets
      · cases happens

theorem saved_starting (log : ChatLog) (queue : List PendingChat) :
    Saved [] (starting log queue) := by
  have nothing : (starting log queue).unwritten = [] := rfl
  constructor
  · simp [starting]
  · simp [starting]
  · simp [nothing]
  · simp [starting, SendDaemon.accepting]
  · simp [starting]
  · simp [starting]
  · simp [nothing]
  · simp [starting]
  · simp [NothingLost, starting]

namespace SendDaemon

/-- However the operations, clean-ups and pumps interleave: in every state of a run whose steps
meet the condition, the file has every message that was saved and is not finished. -/
theorem saved_until_finished {log : ChatLog} {queue : List PendingChat} {events : List SendEvent}
    {final : SendDaemon}
    (along : Runs.Along (SendDaemon.step address) ReadWhole events (starting log queue))
    (reached : Runs.run (SendDaemon.step address) events (starting log queue) = some final) :
    NothingLost final :=
  (Runs.run_invariant (Saved []) (fun _ _ _ saved meets happens => saved_step saved meets happens)
    (saved_starting log queue) along reached).file

/-- One message is sent, and a pump tries it in vain. -/
def triedInVain : List SendEvent :=
  sendHello ++ [.pump 0, .turn (.looking [1]) unanswered,
    .turn (.holding queuedHello [sendBob] []) unanswered,
    .turn (.transmitting queuedHello sendBob [] []) unanswered,
    .turn (.holding queuedHello [] []) unanswered, .turn (.saving []) unanswered]

theorem saved_until_finished_inVain :
    ∃ final, Runs.run (SendDaemon.step sendAddress) triedInVain (starting {} []) = some final ∧
      final.accepted = [1] ∧ NothingLost final := by
  have along : Runs.Along (SendDaemon.step sendAddress) ReadWhole triedInVain
      (starting {} []) := by decide
  exact ⟨_, rfl, by decide, saved_until_finished along rfl⟩

/-- The pump has message 1 in hand when another message is sent, and saved. -/
def savedWhileHeld : List SendEvent :=
  sendHello ++ [.pump 0, .turn (.looking [1]) unanswered,
    .send { scope := .direct, peer := some sendBob, groupId := none, text := "again" } "y" 0 0
      sendView, .proceed, .proceed, .proceed]

/-- The file has the second message only. -/
theorem accepted_lost :
    ∃ final, Runs.run (SendDaemon.step sendAddress) savedWhileHeld (starting {} []) = some final ∧
      final.accepted = [1, 2] ∧ final.finished = [] ∧
      final.file.map PersistedChat.seq = [2] ∧ ¬ NothingLost final :=
  ⟨_, rfl, by decide, by decide, by decide, by decide⟩

end SendDaemon

end PeerCove
