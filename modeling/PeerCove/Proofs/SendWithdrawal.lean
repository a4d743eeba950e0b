/-
Module: PeerCove.Proofs.SendWithdrawal
Layer: Proofs
Purpose: When a message that was cancelled or discarded stays out of the queue and is not sent any
  more, and no message is queued twice, over all interleavings.
Trusted boundary: none
Main exports: WithdrawsFreely, Withdrawn, SendDaemon.withdrawal_final
-/
import PeerCove.Chat.SendQueue
import PeerCove.Library.Runs

namespace PeerCove

open SendDaemon

variable {address : Ipv4Addr} {daemon next : SendDaemon} {event : SendEvent} {task : SendTask}
  {pending : PendingChat} {seq : Nat}

/-- Messages that were withdrawn are not queued and not sent, and none is there twice. -/
structure Withdrawn (daemon : SendDaemon) : Prop where
  unqueued : ∀ pending ∈ daemon.queue, pending.seq ∉ daemon.withdrawn
  unsent : daemon.late = []
  once : ((daemon.queue ++ daemon.held).map PendingChat.seq).Nodup

/-- A message is cancelled, discarded or sent again from the history while no pump has taken it out
of the queue. -/
def WithdrawsFreely : SendEvent → SendDaemon → Prop
  | .resend seq _ _, daemon =>
      (∀ pending ∈ daemon.queue, pending.seq ≠ seq) → ∀ pending ∈ daemon.held, pending.seq ≠ seq
  | .cancel seq, daemon => ∀ pending ∈ daemon.held, pending.seq ≠ seq
  | .discard stale, daemon => ∀ pending ∈ daemon.held, pending.isDirectTo stale = false
  | _, _ => True

instance : ∀ event daemon, Decidable (WithdrawsFreely event daemon)
  | .resend seq _ _, daemon =>
      inferInstanceAs (Decidable ((∀ pending ∈ daemon.queue, pending.seq ≠ seq) →
        ∀ pending ∈ daemon.held, pending.seq ≠ seq))
  | .cancel seq, daemon =>
      inferInstanceAs (Decidable (∀ pending ∈ daemon.held, pending.seq ≠ seq))
  | .discard stale, daemon =>
      inferInstanceAs (Decidable (∀ pending ∈ daemon.held, pending.isDirectTo stale = false))
  | .send .., _ | .pump _, _ | .proceed, _ | .turn .., _ => isTrue trivial

/-! ### Entries that are somewhere -/

/-- The entries of the queue and those out of it; `inHand` is what a task in the middle of its step
has. -/
def SendDaemon.waiting (inHand : List PendingChat) (daemon : SendDaemon) : List PendingChat :=
  daemon.queue ++ (inHand ++ daemon.held)

/-- No message is anywhere twice, and those withdrawn are nowhere. -/
structure Tidy (inHand : List PendingChat) (daemon : SendDaemon) : Prop where
  distinct : ((daemon.waiting inHand ++ daemon.pushed).map PendingChat.seq).Nodup
  numbered : ∀ pending ∈ daemon.waiting inHand ++ daemon.pushed, pending.seq < daemon.log.nextSeq
  recorded : ∀ seq ∈ daemon.log.entries.map ChatMessageInfo.seq, seq < daemon.log.nextSeq
  clean : ∀ pending ∈ daemon.waiting inHand, pending.seq ∉ daemon.withdrawn
  unsent : daemon.late = []

/-- A task that is taken off the list leaves what it has in hand. -/
theorem held_erase (listed : task ∈ daemon.tasks) :
    daemon.held.Perm
      (task.held.toList ++ { daemon with tasks := daemon.tasks.erase task }.held) := by
  have split := (List.perm_cons_erase listed).filterMap SendTask.held
  rw [List.filterMap_cons] at split
  cases taken : task.held with
  | none =>
      rw [taken] at split
      exact split
  | some pending =>
      rw [taken] at split
      exact split

theorem held_append (tasks : List SendTask) (task : SendTask) :
    (tasks ++ [task]).filterMap SendTask.held =
      tasks.filterMap SendTask.held ++ task.held.toList := by
  rw [List.filterMap_append]
  rfl

theorem find?_eraseP_perm {α : Type} {fits : α → Bool} {entries : List α} {found : α}
    (first : entries.find? fits = some found) :
    entries.Perm (found :: entries.eraseP fits) := by
  induction entries with
  | nil => cases first
  | cons entry rest ih =>
      cases here : fits entry with
      | true =>
          rw [List.find?_cons_of_pos here] at first
          rw [List.eraseP_cons_of_pos here, Option.some.inj first]
      | false =>
          rw [List.find?_cons_of_neg (by rw [here]; exact Bool.false_ne_true)] at first
          rw [List.eraseP_cons_of_neg (by rw [here]; exact Bool.false_ne_true)]
          exact ((ih first).cons entry).trans (List.Perm.swap found entry _)

/-- Nothing comes in where the messages that wait are some of those before. -/
theorem Tidy.shrink {inHand inHand' : List PendingChat} (tidy : Tidy inHand daemon)
    (fewer : ((next.waiting inHand').map PendingChat.seq).Subperm
      ((daemon.waiting inHand).map PendingChat.seq))
    (pushed : next.pushed = daemon.pushed) (counter : next.log.nextSeq = daemon.log.nextSeq)
    (listed : next.log.entries.map ChatMessageInfo.seq =
      daemon.log.entries.map ChatMessageInfo.seq)
    (withdrawn : ∀ pending ∈ next.waiting inHand', pending.seq ∈ next.withdrawn →
      pending.seq ∈ daemon.withdrawn)
    (late : next.late = daemon.late) : Tidy inHand' next := by
  have sub : ∀ pending ∈ next.waiting inHand',
      ∃ old ∈ daemon.waiting inHand, old.seq = pending.seq := by
    intro pending member
    exact List.mem_map.mp (fewer.subset (List.mem_map_of_mem member))
  constructor
  · have all : ((next.waiting inHand' ++ next.pushed).map PendingChat.seq).Subperm
        ((daemon.waiting inHand ++ daemon.pushed).map PendingChat.seq) := by
      rw [List.map_append, List.map_append, pushed]
      exact (List.subperm_append_right _).mpr fewer
    obtain ⟨some_, same, part⟩ := all
    exact same.nodup_iff.mp (part.nodup tidy.distinct)
  · intro pending member
    rw [counter]
    rcases List.mem_append.mp member with waits | comes
    · obtain ⟨old, there, same⟩ := sub pending waits
      rw [← same]
      exact tidy.numbered old (List.mem_append_left _ there)
    · rw [pushed] at comes
      exact tidy.numbered pending (List.mem_append_right _ comes)
  · rw [listed, counter]
    exact tidy.recorded
  · intro pending member
    obtain ⟨old, there, same⟩ := sub pending member
    exact fun gone => tidy.clean old there (same ▸ withdrawn pending member gone)
  · rw [late]
    exact tidy.unsent

/-! ### The tasks -/

theorem tidy_taken (tidy : Tidy [] daemon) (listed : task ∈ daemon.tasks) :
    Tidy task.held.toList { daemon with tasks := daemon.tasks.erase task } := by
  refine tidy.shrink ?_ rfl rfl rfl (fun _ _ => id) rfl
  exact (((held_erase listed).symm.append_left daemon.queue).map PendingChat.seq).subperm

/-- The task goes on: what it has in hand and the queue are some of what they were together. -/
theorem Tidy.goesOn {inHand : List PendingChat} (tidy : Tidy inHand daemon)
    (later : next.tasks = daemon.tasks ++ [task])
    (fewer : ((next.queue ++ task.held.toList).map PendingChat.seq).Subperm
      ((daemon.queue ++ inHand).map PendingChat.seq))
    (operation : next.operation = daemon.operation)
    (counter : next.log.nextSeq = daemon.log.nextSeq)
    (listed : next.log.entries.map ChatMessageInfo.seq =
      daemon.log.entries.map ChatMessageInfo.seq)
    (withdrawn : next.withdrawn = daemon.withdrawn) (late : next.late = daemon.late) :
    Tidy [] next := by
  have pushed : next.pushed = daemon.pushed := by
    rw [SendDaemon.pushed, SendDaemon.pushed, operation]
  refine tidy.shrink ?_ pushed counter listed (fun _ _ gone => withdrawn ▸ gone) late
  have after : (next.waiting []).Perm ((next.queue ++ task.held.toList) ++ daemon.held) := by
    rw [waiting, held, later, held_append, List.nil_append, List.append_assoc]
    exact List.perm_append_comm.append_left next.queue
  have before : daemon.waiting inHand = (daemon.queue ++ inHand) ++ daemon.held :=
    (List.append_assoc _ _ _).symm
  refine (after.map PendingChat.seq).subperm.trans ?_
  rw [before]
  simp only [List.map_append] at fewer ⊢
  exact (List.subperm_append_right _).mpr fewer

theorem tidy_advance {input : TurnInput} (tidy : Tidy task.held.toList daemon) :
    Tidy [] (daemon.advance address input task) := by
  cases task with
  | looking due =>
      cases due with
      | nil => exact tidy
      | cons seq due =>
          simp only [SendDaemon.advance]
          split
          · exact tidy.goesOn rfl (List.Subperm.refl _) rfl rfl rfl rfl rfl
          · next pending found =>
              refine tidy.goesOn rfl ?_ rfl rfl rfl rfl rfl
              have moved := (find?_eraseP_perm found).trans (List.perm_append_singleton _ _).symm
              have same : daemon.queue ++ (SendTask.looking (seq :: due)).held.toList =
                  daemon.queue := List.append_nil _
              rw [same]
              exact (moved.symm.map PendingChat.seq).subperm
  | holding pending targets due =>
      cases targets with
      | nil =>
          simp only [SendDaemon.advance]
          split
          · refine tidy.goesOn rfl ?_ rfl rfl (daemon.log.setFailed_seqs _ false) rfl rfl
            rw [List.map_append, List.map_append]
            exact (List.subperm_append_left _).mpr (List.nil_subperm)
          · refine tidy.goesOn rfl ?_ rfl rfl (daemon.log.setFailed_seqs _ true) rfl rfl
            simp only [List.map_append]
            exact (List.Perm.of_eq (List.append_nil _)).subperm
      | cons target targets =>
          simp only [SendDaemon.advance]
          split
          · exact tidy.goesOn rfl (List.Subperm.refl _) rfl rfl rfl rfl rfl
          · refine tidy.goesOn rfl (List.Subperm.refl _) rfl rfl rfl rfl ?_
            have kept : pending.seq ∉ daemon.withdrawn :=
              tidy.clean pending (List.mem_append_right _ (List.mem_append_left _
                List.mem_cons_self))
            exact if_neg kept
  | transmitting pending target targets due =>
      refine tidy.goesOn rfl ?_ rfl rfl rfl rfl rfl
      have same : (if input.acknowledges then pending.acknowledged target else pending).seq =
          pending.seq := by
        split
        · rfl
        · rfl
      simp only [SendTask.held, Option.toList_some, List.map_append, List.map_singleton, same]
      exact List.Subperm.refl _
  | saving due => exact tidy.goesOn rfl (List.Subperm.refl _) rfl rfl rfl rfl rfl
  | writing due snapshot known => exact tidy.goesOn rfl (List.Subperm.refl _) rfl rfl rfl rfl rfl

/-! ### The operations -/

theorem pushed_free (free : daemon.operation.isSome = false) : daemon.pushed = [] := by
  rw [SendDaemon.pushed, Option.isSome_eq_false_iff.mp free |> Option.isNone_iff_eq_none.mp]

/-- An operation that is about to put a message into the queue that is nowhere. -/
theorem Tidy.bring (tidy : Tidy [] daemon) (free : daemon.pushed = [])
    (waits : next.waiting [] = daemon.waiting []) (pushed : next.pushed = [pending])
    (new : ∀ other ∈ daemon.waiting [], other.seq ≠ pending.seq)
    (counter : daemon.log.nextSeq ≤ next.log.nextSeq)
    (numbered : pending.seq < next.log.nextSeq)
    (recorded : ∀ seq ∈ next.log.entries.map ChatMessageInfo.seq, seq < next.log.nextSeq)
    (withdrawn : next.withdrawn = daemon.withdrawn) (late : next.late = daemon.late) :
    Tidy [] next := by
  have distinct := tidy.distinct
  rw [free, List.append_nil] at distinct
  constructor
  · rw [waits, pushed, List.map_append, List.nodup_append]
    refine ⟨distinct, List.pairwise_singleton _ _, ?_⟩
    intro one listed other newest same
    obtain ⟨waiting, member, rfl⟩ := List.mem_map.mp listed
    rw [List.map_singleton, List.mem_singleton] at newest
    exact new waiting member (same.trans newest)
  · intro other member
    rw [waits, pushed] at member
    rcases List.mem_append.mp member with old | newest
    · exact Nat.lt_of_lt_of_le (tidy.numbered other (List.mem_append_left _ old)) counter
    · rw [List.mem_singleton.mp newest]
      exact numbered
  · exact recorded
  · rw [waits, withdrawn]
    exact tidy.clean
  · rw [late]
    exact tidy.unsent

theorem tidy_send {draft : ChatDraft} {id : String} {sentAt now : Nat} {view : ChatView}
    (tidy : Tidy [] daemon) (free : daemon.pushed = []) :
    Tidy [] (daemon.send address draft id sentAt now view) := by
  simp only [SendDaemon.send]
  split
  · exact tidy
  · refine tidy.bring free rfl rfl (fun other member => ?_) (Nat.le_succ _) (Nat.lt_succ_self _)
      (fun seq listed => ?_) rfl rfl
    · exact Nat.ne_of_lt (tidy.numbered other (List.mem_append_left _ member))
    · obtain ⟨entry, member, rfl⟩ := List.mem_map.mp listed
      rcases ChatLog.mem_append member with old | new
      · exact Nat.lt_succ_of_lt (tidy.recorded entry.seq (List.mem_map_of_mem old))
      · rw [new]
        exact Nat.lt_succ_self _

theorem tidy_resend {now : Nat} {view : ChatView} (tidy : Tidy [] daemon)
    (free : daemon.pushed = [])
    (meets : (∀ pending ∈ daemon.queue, pending.seq ≠ seq) →
      ∀ pending ∈ daemon.held, pending.seq ≠ seq) :
    Tidy [] (daemon.resend address seq now view) := by
  simp only [SendDaemon.resend]
  split
  · refine tidy.shrink ?_ free.symm rfl rfl (fun _ _ => id) rfl
    have seqs : (updateFirst (fun pending : PendingChat => decide (pending.seq = seq))
        (fun pending => { pending with nextAt := now }) daemon.queue).map PendingChat.seq =
          daemon.queue.map PendingChat.seq := by
      apply map_updateFirst
      intro pending
      rfl
    simp only [waiting, held, List.map_append, seqs]
    exact List.Subperm.refl _
  · next absent =>
      have queued : ∀ pending ∈ daemon.queue, pending.seq ≠ seq := by
        intro pending member same
        exact absent (List.any_eq_true.mpr ⟨pending, member, decide_eq_true same⟩)
      split
      · exact tidy
      · next entry found =>
          split
          · obtain ⟨listed, number⟩ := ChatLog.get_some found
            refine tidy.bring free rfl rfl (fun other member => ?_) (Nat.le_refl _)
              (tidy.recorded entry.seq (List.mem_map_of_mem listed)) tidy.recorded rfl rfl
            change other.seq ≠ entry.seq
            rw [number]
            rcases List.mem_append.mp member with inQueue | out
            · exact queued other inQueue
            · exact meets queued other out
          · exact tidy

theorem tidy_cancel (tidy : Tidy [] daemon) (free : daemon.pushed = [])
    (meets : ∀ pending ∈ daemon.held, pending.seq ≠ seq) : Tidy [] (daemon.cancel seq) := by
  refine tidy.shrink ?_ free.symm rfl (daemon.log.setFailed_seqs _ true) ?_ rfl
  · exact ((List.filter_sublist.append_right _).map PendingChat.seq).subperm
  · intro pending member gone
    rcases List.mem_append.mp gone with before | now
    · exact before
    · have same : pending.seq = seq := List.mem_singleton.mp now
      rcases List.mem_append.mp member with inQueue | out
      · exact absurd same (of_decide_eq_true (List.mem_filter.mp inQueue).2)
      · exact absurd same (meets pending out)

theorem tidy_discard {stale : List Ipv4Addr} (tidy : Tidy [] daemon)
    (meets : ∀ pending ∈ daemon.held, pending.isDirectTo stale = false) :
    Tidy [] (daemon.discard stale) := by
  have held : (daemon.discard stale).held = daemon.held := by
    simp only [SendDaemon.discard, SendDaemon.held]
    split
    · rfl
    · rw [held_append]
      exact List.append_nil _
  have waits : (daemon.discard stale).waiting [] =
      daemon.queue.filter (fun pending => !pending.isDirectTo stale) ++ daemon.held := by
    rw [waiting, held]
    rfl
  have distinct : ((daemon.queue ++ daemon.held).map PendingChat.seq).Nodup := by
    have all := tidy.distinct
    rw [List.map_append] at all
    exact (List.nodup_append.mp all).1
  refine tidy.shrink ?_ rfl rfl rfl ?_ rfl
  · rw [waits]
    exact ((List.filter_sublist.append_right _).map PendingChat.seq).subperm
  · intro pending member gone
    rcases List.mem_append.mp gone with before | now
    · exact before
    · obtain ⟨other, meant, same⟩ := List.mem_map.mp now
      have none_ : daemon.held.filter (fun pending => pending.isDirectTo stale) = [] :=
        List.filter_eq_nil_iff.mpr (fun other out => by rw [meets other out]; simp)
      rw [none_, List.append_nil] at meant
      obtain ⟨queued, direct⟩ := List.mem_filter.mp meant
      rw [waits] at member
      have there : pending ∈ daemon.queue ++ daemon.held := by
        rcases List.mem_append.mp member with inQueue | out
        · exact List.mem_append_left _ (List.mem_filter.mp inQueue).1
        · exact List.mem_append_right _ out
      have equal : pending = other := List.inj_on_of_nodup_map distinct there
        (List.mem_append_left _ queued) same.symm
      rw [equal] at member
      rcases List.mem_append.mp member with inQueue | out
      · have kept := (List.mem_filter.mp inQueue).2
        rw [direct] at kept
        cases kept
      · rw [meets other out] at direct
        cases direct

theorem tidy_proceed {operation : SendOperation} (tidy : Tidy [] daemon)
    (running : daemon.operation = some operation) : Tidy [] (daemon.proceed operation) := by
  cases operation with
  | pushing pending accepting =>
      have comes : daemon.pushed = [pending] := by rw [SendDaemon.pushed, running]
      have moved : ((daemon.proceed (.pushing pending accepting)).waiting []).Perm
          (daemon.waiting [] ++ [pending]) := by
        change (daemon.queue ++ [pending] ++ daemon.held).Perm
          (daemon.queue ++ daemon.held ++ [pending])
        rw [List.append_assoc, List.append_assoc]
        exact List.perm_append_comm.append_left daemon.queue
      have distinct := tidy.distinct
      have numbered := tidy.numbered
      rw [comes] at distinct numbered
      constructor
      · have all : (daemon.proceed (.pushing pending accepting)).waiting [] ++
            (daemon.proceed (.pushing pending accepting)).pushed =
              (daemon.proceed (.pushing pending accepting)).waiting [] := List.append_nil _
        rw [all]
        exact ((moved.map PendingChat.seq).nodup_iff).mpr distinct
      · intro other member
        refine numbered other (moved.mem_iff.mp ?_)
        rcases List.mem_append.mp member with waits | comes
        · exact waits
        · cases comes
      · exact tidy.recorded
      · intro other member gone
        obtain ⟨before, differs⟩ := List.mem_filter.mp gone
        rcases List.mem_append.mp (moved.mem_iff.mp member) with waits | newest
        · exact tidy.clean other waits before
        · rw [List.mem_singleton.mp newest] at differs
          exact of_decide_eq_true differs rfl
      · exact tidy.unsent
  | saving accepting =>
      have free : daemon.pushed = [] := by rw [SendDaemon.pushed, running]
      exact tidy.shrink (List.Subperm.refl _) free.symm rfl rfl (fun _ _ => id) rfl
  | writing accepting snapshot known =>
      have free : daemon.pushed = [] := by rw [SendDaemon.pushed, running]
      exact tidy.shrink (List.Subperm.refl _) free.symm rfl rfl (fun _ _ => id) rfl

/-- A step that meets the condition keeps the messages tidy. -/
theorem tidy_step (tidy : Tidy [] daemon) (meets : WithdrawsFreely event daemon)
    (happens : daemon.step address event = some next) : Tidy [] next := by
  cases event with
  | send draft id sentAt now view =>
      simp only [SendDaemon.step] at happens
      split at happens
      · cases happens
      · next free =>
          cases happens
          exact tidy_send tidy (pushed_free (Bool.eq_false_of_not_eq_true free))
  | resend seq now view =>
      simp only [SendDaemon.step] at happens
      split at happens
      · cases happens
      · next free =>
          cases happens
          exact tidy_resend tidy (pushed_free (Bool.eq_false_of_not_eq_true free)) meets
  | cancel seq =>
      simp only [SendDaemon.step] at happens
      split at happens
      · cases happens
      · next free =>
          cases happens
          exact tidy_cancel tidy (pushed_free (Bool.eq_false_of_not_eq_true free)) meets
  | discard stale =>
      cases happens
      exact tidy_discard tidy meets
  | pump now =>
      cases happens
      exact tidy.goesOn rfl (List.Subperm.refl _) rfl rfl rfl rfl rfl
  | proceed =>
      obtain ⟨operation, running, rfl⟩ := Option.map_eq_some_iff.mp happens
      exact tidy_proceed tidy running
  | turn task input =>
      simp only [SendDaemon.step] at happens
      split at happens
      · next listed =>
          cases happens
          exact tidy_advance (tidy_taken tidy listed)
      · cases happens

/-! ### Runs -/

/-- A daemon that starts with what the files hold. -/
def SendDaemon.starting (log : ChatLog) (queue : List PendingChat) : SendDaemon :=
  { log := log, queue := queue, file := queue.map PendingChat.persisted }

/-- The queue has no message twice, and all numbers are below the next one of the history. -/
structure WellNumbered (log : ChatLog) (queue : List PendingChat) : Prop where
  distinct : (queue.map PendingChat.seq).Nodup
  queued : ∀ pending ∈ queue, pending.seq < log.nextSeq
  recorded : ∀ seq ∈ log.entries.map ChatMessageInfo.seq, seq < log.nextSeq

theorem tidy_starting {log : ChatLog} {queue : List PendingChat}
    (numbers : WellNumbered log queue) : Tidy [] (SendDaemon.starting log queue) := by
  have waits : (SendDaemon.starting log queue).waiting [] = queue := List.append_nil _
  constructor
  · rw [waits]
    change ((queue ++ []).map PendingChat.seq).Nodup
    rw [List.append_nil]
    exact numbers.distinct
  · rw [waits]
    intro pending member
    exact numbers.queued pending ((List.append_nil queue) ▸ member)
  · exact numbers.recorded
  · intro pending _ gone
    cases gone
  · rfl

namespace SendDaemon

/-- However the operations, clean-ups and pumps interleave: in every state of a run whose steps
meet the condition, withdrawn messages are out of the queue and not sent any more, and no message
is there twice. -/
theorem withdrawal_final {log : ChatLog} {queue : List PendingChat} (events : List SendEvent)
    {final : SendDaemon} (numbers : WellNumbered log queue)
    (reached : Runs.run (SendDaemon.step address) events (starting log queue) = some final)
    (along : Runs.Along (SendDaemon.step address) WithdrawsFreely events (starting log queue)) :
    Withdrawn final := by
  have tidy : Tidy [] final :=
    Runs.run_invariant (Tidy []) (fun _ _ _ before meets happens => tidy_step before meets happens)
      (tidy_starting numbers) along reached
  constructor
  · exact fun pending queued => tidy.clean pending (List.mem_append_left _ queued)
  · exact tidy.unsent
  · have all := tidy.distinct
    rw [List.map_append] at all
    exact (List.nodup_append.mp all).1

def sendAddress : Ipv4Addr := Ipv4Addr.ofOctets 10 0 0 1

def sendBob : Ipv4Addr := Ipv4Addr.ofOctets 10 0 0 2

/-- A device that knows no ledger yet. -/
def sendView : ChatView :=
  { ledger := none, groups := fun _ => none }

/-- `chat_send` of a direct message. -/
def sendHello : List SendEvent :=
  [.send { scope := .direct, peer := some sendBob, groupId := none, text := "hello" } "x" 0 0
    sendView, .proceed, .proceed, .proceed]

/-- Message 1 in the queue. -/
def queuedHello : PendingChat where
  seq := 1
  id := "x"
  scope := .direct
  toIp := some sendBob
  toMemberId := none
  groupId := none
  text := "hello"
  sentAt := 0
  nextAt := 0

def unanswered : TurnInput :=
  { view := sendView, now := 0, acknowledges := false }

/-- Message 1 is cancelled, sent again and cancelled again; then a pump comes. -/
def cancelledTwice : List SendEvent :=
  sendHello ++ [.cancel 1, .proceed, .proceed, .resend 1 0 sendView, .proceed, .proceed, .proceed,
    .cancel 1, .proceed, .proceed, .pump 0, .turn (.looking []) unanswered]

theorem withdrawal_final_twice :
    ∃ final, Runs.run (SendDaemon.step sendAddress) cancelledTwice (starting {} []) = some final ∧
      final.withdrawn = [1] ∧ Withdrawn final := by
  have numbers : WellNumbered {} [] :=
    ⟨List.nodup_nil, fun _ listed => (nomatch listed), fun _ listed => (nomatch listed)⟩
  have along : Runs.Along (SendDaemon.step sendAddress) WithdrawsFreely cancelledTwice
      (starting {} []) := by decide
  exact ⟨_, rfl, by decide, withdrawal_final cancelledTwice numbers rfl along⟩

/-- The pump has taken message 1 out of the queue when the message is cancelled. -/
def cancelledInHand : List SendEvent :=
  sendHello ++ [.pump 0, .turn (.looking [1]) unanswered, .cancel 1, .proceed, .proceed,
    .turn (.holding queuedHello [sendBob] []) unanswered,
    .turn (.transmitting queuedHello sendBob [] []) unanswered,
    .turn (.holding queuedHello [] []) unanswered]

/-- The pump has taken message 1 out of the queue when the user sends it again. -/
def resentInHand : List SendEvent :=
  sendHello ++ [.pump 0, .turn (.looking [1]) unanswered, .resend 1 0 sendView, .proceed,
    .turn (.holding queuedHello [sendBob] []) unanswered,
    .turn (.transmitting queuedHello sendBob [] []) unanswered,
    .turn (.holding queuedHello [] []) unanswered]

/-- After the cancelling has returned the message is sent and queued again; the other message is
queued twice. -/
theorem withdrawal_undone :
    (∃ final, Runs.run (SendDaemon.step sendAddress) cancelledInHand (starting {} []) = some final ∧
      final.late = [1] ∧ final.withdrawn = [1] ∧ final.queue.map PendingChat.seq = [1]) ∧
    ∃ final, Runs.run (SendDaemon.step sendAddress) resentInHand (starting {} []) = some final ∧
      final.queue.map PendingChat.seq = [1, 1] :=
  ⟨⟨_, rfl, by decide, by decide, by decide⟩, ⟨_, rfl, by decide⟩⟩

end SendDaemon

end PeerCove
