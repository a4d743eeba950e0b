/-
Module: PeerCove.Proofs.ReplacedMembers
Layer: Proofs
Purpose: When the direct history and the send queue of an address hold messages of its present owner
  only: as long as no address that was forgotten comes back to another member with the history of
  the former one.
Trusted boundary: none
Main exports: EntrySpec, LoopSpec, OwnConversations, NoLeftovers, own_conversations,
  history_inherited
-/
import PeerCove.Chat.Identities
import PeerCove.Library.Runs

namespace PeerCove

open Conversations

variable {selfIp ip : Ipv4Addr} {stamp : NoticeStamp} {memberId : String}

/-! ### The history -/

/-- A history has only notices, and messages of an earlier one that are with none of some
addresses. -/
def ClearedFrom (cleared : List Ipv4Addr) (before after : ChatLog) : Prop :=
  before.nextSeq ≤ after.nextSeq ∧
    ∀ entry ∈ after.entries, entry.seq < after.nextSeq ∧ entry.system = true ∨
      entry ∈ before.entries ∧ ∀ ip ∈ cleared, ChatLog.isDirectWith ip entry = false

theorem ClearedFrom.refl (log : ChatLog) : ClearedFrom [] log log :=
  ⟨Nat.le_refl _, fun _ listed => Or.inr ⟨listed, by simp⟩⟩

theorem ClearedFrom.trans {first second : List Ipv4Addr} {one two three : ChatLog}
    (earlier : ClearedFrom first one two) (later : ClearedFrom second two three) :
    ClearedFrom (first ++ second) one three := by
  refine ⟨Nat.le_trans earlier.1 later.1, fun entry listed => ?_⟩
  rcases later.2 entry listed with notice | ⟨kept, apart⟩
  · exact Or.inl notice
  · rcases earlier.2 entry kept with ⟨below, notice⟩ | ⟨old, apartToo⟩
    · exact Or.inl ⟨Nat.lt_of_lt_of_le below later.1, notice⟩
    · refine Or.inr ⟨old, fun ip member => ?_⟩
      rcases List.mem_append.mp member with member | member
      · exact apartToo ip member
      · exact apart ip member

theorem clearedFrom_appendSystem (log : ChatLog) (scope : ChatScope) (toIp : Option Ipv4Addr)
    (event : SystemEvent) (text : String) :
    ClearedFrom [] log (log.appendSystem stamp selfIp scope toIp event text) := by
  rw [ChatLog.appendSystem]
  refine ⟨Nat.le_succ _, fun entry listed => ?_⟩
  rcases ChatLog.mem_append listed with old | rfl
  · exact Or.inr ⟨old, by simp⟩
  · exact Or.inl ⟨Nat.lt_succ_self _, rfl⟩

theorem clearedFrom_clearDirect (log : ChatLog) (ip : Ipv4Addr) :
    ClearedFrom [ip] log (log.clearDirect ip) := by
  constructor
  · rw [ChatLog.clearDirect]
    split <;> exact Nat.le_refl _
  · intro entry listed
    rw [ChatLog.clearDirect_entries, List.mem_filter] at listed
    refine Or.inr ⟨listed.1, fun other member => ?_⟩
    rw [List.mem_singleton.mp member]
    simpa using listed.2

/-! ### One entry of the ledger -/

/-- What the loop's body does with an entry. -/
structure EntrySpec (selfIp : Ipv4Addr) (entry : LedgerEntry) (state next : Reconciling) :
    Prop where
  others : ∀ ip, ip ≠ entry.ip → next.ids.get? ip = state.ids.get? ip
  skipped : entry.partnerId selfIp = none → next.ids = state.ids
  known : ∀ memberId, entry.partnerId selfIp = some memberId →
    ∃ record, next.ids.get? entry.ip = some record ∧ record.id = identityOf memberId
  replaced : ∀ memberId prev, entry.partnerId selfIp = some memberId →
    state.ids.get? entry.ip = some prev → prev.id ≠ identityOf memberId →
      entry.ip ∈ next.replaced
  cleared : ∃ new, next.replaced = state.replaced ++ new ∧ ClearedFrom new state.log next.log

theorem reconcileEntry_spec (knownBefore : Bool) (state : Reconciling) (entry : LedgerEntry) :
    EntrySpec selfIp entry state (reconcileEntry stamp selfIp knownBefore state entry) := by
  rw [reconcileEntry]
  cases isPartner : entry.partnerId selfIp with
  | none =>
      exact {
        others := fun _ _ => rfl
        skipped := fun _ => rfl
        known := fun memberId same => by rw [isPartner] at same; cases same
        replaced := fun memberId prev same => by rw [isPartner] at same; cases same
        cleared := ⟨[], by simp, .refl _⟩ }
  | some memberId =>
      have only : ∀ other, entry.partnerId selfIp = some other → other = memberId := by
        intro other same
        rw [isPartner] at same
        exact (Option.some.inj same).symm
      have unskipped : entry.partnerId selfIp ≠ none := by simp [isPartner]
      cases isKnown : state.ids.get? entry.ip with
      | some prev =>
          dsimp only
          split
          · next same =>
              split
              · refine ⟨fun ip differ => ?_, fun none => absurd none unskipped, ?_, ?_, ?_⟩
                · exact Table.get?_insert_of_ne _ differ _
                · intro other isOther
                  rw [only other isOther]
                  exact ⟨_, Table.get?_insert_self _ _ _, rfl⟩
                · intro other found isOther isFound differ
                  rw [isKnown] at isFound
                  cases isFound
                  rw [only other isOther] at differ
                  exact absurd same differ
                · exact ⟨[], by simp, .refl _⟩
              · refine ⟨fun _ _ => rfl, fun none => absurd none unskipped, ?_, ?_, ?_⟩
                · intro other isOther
                  rw [only other isOther]
                  exact ⟨prev, isKnown, same⟩
                · intro other found isOther isFound differ
                  rw [isKnown] at isFound
                  cases isFound
                  rw [only other isOther] at differ
                  exact absurd same differ
                · exact ⟨[], by simp, .refl _⟩
          · refine ⟨fun ip differ => ?_, fun none => absurd none unskipped, ?_, ?_, ?_⟩
            · exact Table.get?_insert_of_ne _ differ _
            · intro other isOther
              rw [only other isOther]
              exact ⟨_, Table.get?_insert_self _ _ _, rfl⟩
            · intro other found isOther isFound differ
              exact List.mem_append_right _ List.mem_cons_self
            · exact ⟨[entry.ip], rfl,
                (clearedFrom_clearDirect _ _).trans (clearedFrom_appendSystem _ _ _ _ _)⟩
      | none =>
          refine ⟨fun ip differ => ?_, fun none => absurd none unskipped, ?_, ?_, ?_⟩
          · exact Table.get?_insert_of_ne _ differ _
          · intro other isOther
            rw [only other isOther]
            exact ⟨_, Table.get?_insert_self _ _ _, rfl⟩
          · intro other found isOther isFound
            rw [isKnown] at isFound
            cases isFound
          · refine ⟨[], by simp, ?_⟩
            dsimp only
            split
            · split
              · exact clearedFrom_appendSystem _ _ _ _ _
              · exact .refl _
            · exact .refl _

/-! ### The loop -/

/-- What the loop does with a ledger. -/
structure LoopSpec (selfIp : Ipv4Addr) (ledger : List LedgerEntry) (state next : Reconciling) :
    Prop where
  others : ∀ ip, ip ∉ ledger.map LedgerEntry.ip → next.ids.get? ip = state.ids.get? ip
  skipped : ∀ entry ∈ ledger, entry.partnerId selfIp = none →
    next.ids.get? entry.ip = state.ids.get? entry.ip
  known : ∀ entry ∈ ledger, ∀ memberId, entry.partnerId selfIp = some memberId →
    ∃ record, next.ids.get? entry.ip = some record ∧ record.id = identityOf memberId
  replaced : ∀ entry ∈ ledger, ∀ memberId prev, entry.partnerId selfIp = some memberId →
    state.ids.get? entry.ip = some prev → prev.id ≠ identityOf memberId →
      entry.ip ∈ next.replaced
  cleared : ∃ new, next.replaced = state.replaced ++ new ∧ ClearedFrom new state.log next.log

theorem reconciled_spec (knownBefore : Bool) {ledger : List LedgerEntry}
    (distinct : (ledger.map LedgerEntry.ip).Nodup) (state : Reconciling) :
    LoopSpec selfIp ledger state
      (ledger.foldl (reconcileEntry stamp selfIp knownBefore) state) := by
  induction ledger generalizing state with
  | nil =>
      exact {
        others := fun _ _ => rfl
        skipped := by simp
        known := by simp
        replaced := by simp
        cleared := ⟨[], by simp, .refl _⟩ }
  | cons entry rest ih =>
      rw [List.map_cons, List.nodup_cons] at distinct
      obtain ⟨absent, distinct⟩ := distinct
      have first : EntrySpec selfIp entry state
          (reconcileEntry stamp selfIp knownBefore state entry) :=
        reconcileEntry_spec knownBefore state entry
      have later := ih distinct (reconcileEntry stamp selfIp knownBefore state entry)
      rw [List.foldl_cons]
      generalize reconcileEntry stamp selfIp knownBefore state entry = middle at first later
      generalize rest.foldl (reconcileEntry stamp selfIp knownBefore) middle = final at later
      -- the others have other addresses
      have apart : ∀ other ∈ rest, other.ip ≠ entry.ip := by
        intro other listed same
        exact absent (same ▸ List.mem_map_of_mem listed)
      obtain ⟨newFirst, grownFirst, clearedFirst⟩ := first.cleared
      obtain ⟨newLater, grownLater, clearedLater⟩ := later.cleared
      constructor
      · intro ip unlisted
        rw [List.map_cons, List.mem_cons, not_or] at unlisted
        rw [later.others ip unlisted.2, first.others ip unlisted.1]
      · refine List.forall_mem_cons.mpr ⟨fun none => ?_, fun other listed none => ?_⟩
        · rw [later.others entry.ip absent, first.skipped none]
        · rw [later.skipped other listed none, first.others other.ip (apart other listed)]
      · refine List.forall_mem_cons.mpr ⟨fun memberId isPartner => ?_, later.known⟩
        rw [later.others entry.ip absent]
        exact first.known memberId isPartner
      · refine List.forall_mem_cons.mpr ⟨?_, ?_⟩
        · intro memberId prev isPartner isKnown differ
          rw [grownLater]
          exact List.mem_append_left _ (first.replaced memberId prev isPartner isKnown differ)
        · intro other listed memberId prev isPartner isKnown
          apply later.replaced other listed memberId prev isPartner
          rw [first.others other.ip (apart other listed)]
          exact isKnown
      · refine ⟨newFirst ++ newLater, ?_, clearedFirst.trans clearedLater⟩
        rw [grownLater, grownFirst, List.append_assoc]

/-! ### One call -/

theorem holder_some {ledger : List LedgerEntry}
    (holds : holder selfIp ledger ip = some memberId) :
    ∃ entry ∈ ledger, entry.ip = ip ∧ entry.partnerId selfIp = some memberId := by
  obtain ⟨entry, found, isPartner⟩ := Option.bind_eq_some_iff.mp holds
  have fits := List.find?_some found
  exact ⟨entry, List.mem_of_find?_eq_some found, of_decide_eq_true fits, isPartner⟩

theorem clearedFrom_departed (log : ChatLog) (gone : List (Ipv4Addr × IdentityRecord)) :
    ClearedFrom [] log (gone.foldl (departureNotice stamp selfIp) log) := by
  induction gone generalizing log with
  | nil => exact .refl log
  | cons row rest ih =>
      rw [List.foldl_cons]
      exact (clearedFrom_appendSystem _ _ _ _ _).trans (ih _)

/-- What a call does. -/
structure CallSpec (selfIp : Ipv4Addr) (ledger : List LedgerEntry)
    (state next : Conversations) : Prop where
  forgotten : ∀ ip, ip ∉ ledger.map LedgerEntry.ip → next.ids.get? ip = none
  skipped : ∀ entry ∈ ledger, entry.partnerId selfIp = none →
    next.ids.get? entry.ip = state.ids.get? entry.ip
  known : ∀ entry ∈ ledger, ∀ memberId, entry.partnerId selfIp = some memberId →
    ∃ record, next.ids.get? entry.ip = some record ∧ record.id = identityOf memberId
  ledger_eq : next.ledger = ledger
  partner_eq : next.partner = state.partner
  /-- Addresses whose direct messages are deleted. -/
  cleared : ∃ replaced stale, ClearedFrom replaced state.log next.log ∧
    next.queue = state.queue.filter (fun pending => !pending.isDirectTo stale) ∧
    (∀ entry ∈ ledger, ∀ memberId prev, entry.partnerId selfIp = some memberId →
      state.ids.get? entry.ip = some prev → prev.id ≠ identityOf memberId →
        entry.ip ∈ replaced) ∧
    (∀ ip ∈ replaced, ip ∈ stale) ∧
    ∀ ip record, ip ∉ ledger.map LedgerEntry.ip → state.ids.get? ip = some record → ip ∈ stale

theorem reconcileIdentities_spec (ledger : MemberLedger) (state : Conversations) :
    CallSpec selfIp ledger.entries state
      (state.reconcileIdentities stamp selfIp ledger.entries).1 := by
  have loop : LoopSpec selfIp ledger.entries { ids := state.ids, log := state.log }
      (state.reconciled stamp selfIp ledger.entries) :=
    reconciled_spec _ ledger.distinct _
  obtain ⟨new, grown, cleared⟩ := loop.cleared
  rw [List.nil_append] at grown
  subst grown
  have inLedger : ∀ ip, (ledger.entries.any (fun entry => entry.ip = ip)) = true ↔
      ip ∈ ledger.entries.map LedgerEntry.ip := by
    intro ip
    simp [List.any_eq_true]
  have lookup : ∀ ip, (state.reconcileIdentities stamp selfIp ledger.entries).1.ids.get? ip =
      if ip ∈ ledger.entries.map LedgerEntry.ip then
        (state.reconciled stamp selfIp ledger.entries).ids.get? ip
      else none := by
    intro ip
    rw [reconcileIdentities]
    dsimp only
    rw [Table.get?_filter]
    by_cases listed : ip ∈ ledger.entries.map LedgerEntry.ip
    · have there := (inLedger ip).mpr listed
      rw [if_pos listed]
      cases (state.reconciled stamp selfIp ledger.entries).ids.get? ip <;> simp [there]
    · have absent : ledger.entries.any (fun entry => entry.ip = ip) = false :=
        Bool.eq_false_iff.mpr (fun there => listed ((inLedger ip).mp there))
      rw [if_neg listed]
      cases (state.reconciled stamp selfIp ledger.entries).ids.get? ip <;> simp [absent]
  constructor
  · intro ip unlisted
    rw [lookup, if_neg unlisted]
  · intro entry listed none
    rw [lookup, if_pos (List.mem_map_of_mem listed)]
    exact loop.skipped entry listed none
  · intro entry listed memberId isPartner
    rw [lookup, if_pos (List.mem_map_of_mem listed)]
    exact loop.known entry listed memberId isPartner
  · rfl
  · rfl
  · refine ⟨(state.reconciled stamp selfIp ledger.entries).replaced, _, ?_, rfl, ?_, ?_, ?_⟩
    · have notices : ClearedFrom [] (state.reconciled stamp selfIp ledger.entries).log
          (state.reconcileIdentities stamp selfIp ledger.entries).1.log :=
        clearedFrom_departed _ _
      have both := cleared.trans notices
      rwa [List.append_nil] at both
    · exact loop.replaced
    · exact fun ip member => List.mem_append_left _ member
    · intro ip record unlisted isKnown
      apply List.mem_append_right
      have kept : (state.reconciled stamp selfIp ledger.entries).ids.get? ip = some record :=
        (loop.others ip unlisted).trans isKnown
      refine List.mem_map.mpr ⟨(ip, record), List.mem_filter.mpr ⟨?_, ?_⟩, rfl⟩
      · exact Table.get?_eq_some.mp kept
      · rw [Bool.not_eq_true']
        exact Bool.eq_false_iff.mpr (fun there => unlisted ((inLedger ip).mp there))

/-! ### Whose messages they are -/

theorem identityOf_injective {one two : String} (same : identityOf one = identityOf two) :
    one = two := by
  have chars := congrArg String.toList same
  simp only [identityOf, toString, String.toList_append, List.append_cancel_left_eq] at chars
  exact String.toList_injective chars

/-- All messages of the history and the queue that are exchanged with an address are with this
member; notices are no messages. -/
def AllWith (state : Conversations) (ip : Ipv4Addr) (memberId : String) : Prop :=
  (∀ entry ∈ state.log.entries, entry.system = false → ChatLog.isDirectWith ip entry = true →
      state.partner entry.seq = some memberId) ∧
    ∀ pending ∈ state.queue, pending.isDirectTo [ip] = true →
      state.partner pending.seq = some memberId

/-- Whoever holds an address has none of the messages of another member there. -/
def OwnConversations (selfIp : Ipv4Addr) (state : Conversations) : Prop :=
  ∀ ip memberId, holder selfIp state.ledger ip = some memberId → AllWith state ip memberId

/-- An address of which no identity is remembered comes into the ledger only for a member with whom
all direct messages were exchanged that the history still has of the address. -/
def NoLeftovers (selfIp : Ipv4Addr) : ConversationEvent → Conversations → Prop
  | .reconcile ledger _, state =>
      ∀ entry ∈ ledger.entries, state.ids.get? entry.ip = none →
        ∀ memberId ∈ entry.partnerId selfIp,
          ∀ message ∈ state.log.entries, message.system = false →
            ChatLog.isDirectWith entry.ip message = true →
              state.partner message.seq = some memberId
  | _, _ => True

instance (state : Conversations) (ip : Ipv4Addr) (memberId : String) :
    Decidable (AllWith state ip memberId) :=
  inferInstanceAs (Decidable (_ ∧ _))

instance : ∀ event state, Decidable (NoLeftovers selfIp event state)
  | .reconcile ledger _, state =>
      inferInstanceAs (Decidable (∀ entry ∈ ledger.entries, state.ids.get? entry.ip = none →
        ∀ memberId ∈ entry.partnerId selfIp,
          ∀ message ∈ state.log.entries, message.system = false →
            ChatLog.isDirectWith entry.ip message = true →
              state.partner message.seq = some memberId))
  | .send .., _ | .receive .., _ | .delivered _, _ | .post _, _ => isTrue trivial

/-- The side file knows every holder, and the messages are with those it knows. -/
structure Kept (selfIp : Ipv4Addr) (state : Conversations) : Prop where
  numbered : ∀ entry ∈ state.log.entries, entry.seq < state.log.nextSeq
  queued : ∀ pending ∈ state.queue, pending.seq < state.log.nextSeq
  notSelf : state.ids.get? selfIp = none
  recorded : ∀ ip memberId, holder selfIp state.ledger ip = some memberId →
    ∃ record, state.ids.get? ip = some record ∧ record.id = identityOf memberId
  listed : ∀ pending ∈ state.queue, ∀ ip, pending.isDirectTo [ip] = true →
    ∃ record, state.ids.get? ip = some record
  owned : ∀ ip record memberId, state.ids.get? ip = some record →
    record.id = identityOf memberId → AllWith state ip memberId

theorem Kept.own {state : Conversations} (kept : Kept selfIp state) :
    OwnConversations selfIp state := by
  intro ip memberId holds
  obtain ⟨record, known, same⟩ := kept.recorded ip memberId holds
  exact kept.owned ip record memberId known same

theorem isDirectTo_of_mem {pending : PendingChat} {addresses : List Ipv4Addr}
    (member : ip ∈ addresses) (direct : pending.isDirectTo [ip] = true) :
    pending.isDirectTo addresses = true := by
  simp only [PendingChat.isDirectTo, Bool.and_eq_true, Option.any_eq_true, List.mem_singleton,
    decide_eq_true_eq] at direct ⊢
  obtain ⟨scope, target, isTarget, rfl⟩ := direct
  exact ⟨scope, target, isTarget, member⟩

/-- A call that finds no leftovers. -/
theorem Kept.reconcile {state : Conversations} (kept : Kept selfIp state) {ledger : MemberLedger}
    (clean : NoLeftovers selfIp (.reconcile ledger stamp) state) :
    Kept selfIp (state.reconcileIdentities stamp selfIp ledger.entries).1 := by
  have call : CallSpec selfIp ledger.entries state
      (state.reconcileIdentities stamp selfIp ledger.entries).1 := reconcileIdentities_spec _ _
  generalize (state.reconcileIdentities stamp selfIp ledger.entries).1 = next at call
  obtain ⟨replaced, stale, cleared, queue, deleted, both, gone⟩ := call.cleared
  have queueOld : ∀ pending ∈ next.queue,
      pending ∈ state.queue ∧ pending.isDirectTo stale = false := by
    intro pending listed
    rw [queue, List.mem_filter, Bool.not_eq_true'] at listed
    exact listed
  -- messages that are still there were there before
  have still : ∀ ip memberId, AllWith state ip memberId → AllWith next ip memberId := by
    intro ip memberId before
    constructor
    · intro entry listed ordinary direct
      rw [call.partner_eq]
      rcases cleared.2 entry listed with ⟨_, notice⟩ | ⟨old, _⟩
      · rw [ordinary] at notice
        cases notice
      · exact before.1 entry old ordinary direct
    · intro pending listed direct
      rw [call.partner_eq]
      exact before.2 pending (queueOld pending listed).1 direct
  -- and those of a replaced member are not there any more
  have nothing : ∀ ip memberId, ip ∈ replaced → AllWith next ip memberId := by
    intro ip memberId member
    constructor
    · intro entry listed ordinary direct
      rcases cleared.2 entry listed with ⟨_, notice⟩ | ⟨_, apart⟩
      · rw [ordinary] at notice
        cases notice
      · rw [apart ip member] at direct
        cases direct
    · intro pending listed direct
      have away := (queueOld pending listed).2
      rw [isDirectTo_of_mem (both ip member) direct] at away
      cases away
  have inLedger : ∀ ip record, next.ids.get? ip = some record →
      ∃ entry ∈ ledger.entries, entry.ip = ip := by
    intro ip record known
    have listed : ip ∈ ledger.entries.map LedgerEntry.ip := by
      apply Classical.byContradiction
      intro unlisted
      rw [call.forgotten ip unlisted] at known
      cases known
    obtain ⟨entry, member, same⟩ := List.mem_map.mp listed
    exact ⟨entry, member, same⟩
  constructor
  · intro entry listed
    rcases cleared.2 entry listed with ⟨below, _⟩ | ⟨old, _⟩
    · exact below
    · exact Nat.lt_of_lt_of_le (kept.numbered entry old) cleared.1
  · intro pending listed
    exact Nat.lt_of_lt_of_le (kept.queued pending (queueOld pending listed).1) cleared.1
  · by_cases there : selfIp ∈ ledger.entries.map LedgerEntry.ip
    · obtain ⟨entry, member, isSelf⟩ := List.mem_map.mp there
      have skipped : entry.partnerId selfIp = none := by
        simp [LedgerEntry.partnerId, isSelf]
      have same := call.skipped entry member skipped
      rw [isSelf] at same
      exact same.trans kept.notSelf
    · exact call.forgotten selfIp there
  · intro ip memberId holds
    rw [call.ledger_eq] at holds
    obtain ⟨entry, member, rfl, isPartner⟩ := holder_some holds
    exact call.known entry member memberId isPartner
  · intro pending listed ip direct
    obtain ⟨old, away⟩ := queueOld pending listed
    obtain ⟨record, known⟩ := kept.listed pending old ip direct
    by_cases there : ip ∈ ledger.entries.map LedgerEntry.ip
    · obtain ⟨entry, member, rfl⟩ := List.mem_map.mp there
      cases isPartner : entry.partnerId selfIp with
      | none => exact ⟨record, (call.skipped entry member isPartner).trans known⟩
      | some memberId =>
          obtain ⟨other, isOther, _⟩ := call.known entry member memberId isPartner
          exact ⟨other, isOther⟩
    · have mustGo := isDirectTo_of_mem (gone ip record there known) direct
      rw [away] at mustGo
      cases mustGo
  · intro ip record memberId known same
    obtain ⟨entry, member, rfl⟩ := inLedger ip record known
    cases isPartner : entry.partnerId selfIp with
    | none =>
        rw [call.skipped entry member isPartner] at known
        exact still _ _ (kept.owned entry.ip record memberId known same)
    | some owner =>
        obtain ⟨other, isOther, isId⟩ := call.known entry member owner isPartner
        rw [known] at isOther
        cases isOther
        have isOwner : owner = memberId := identityOf_injective (isId.symm.trans same)
        subst isOwner
        cases before : state.ids.get? entry.ip with
        | none =>
            refine still _ _ ⟨clean entry member before owner isPartner, ?_⟩
            intro pending listed direct
            obtain ⟨record', isKnown⟩ := kept.listed pending listed entry.ip direct
            rw [before] at isKnown
            cases isKnown
        | some prev =>
            by_cases same' : prev.id = identityOf owner
            · exact still _ _ (kept.owned entry.ip prev owner before same')
            · exact nothing _ _ (deleted entry member owner prev isPartner before same')

/-- A direct message with a member of the current ledger. -/
theorem Kept.exchange {state : Conversations} (kept : Kept selfIp state) {peer : Ipv4Addr}
    (holds : holder selfIp state.ledger peer = some memberId) {entry : ChatMessageInfo}
    (among : ∀ ip, ChatLog.isDirectWith ip entry = true → ip = peer ∨ ip = selfIp)
    {queue : List PendingChat}
    (added : ∀ pending ∈ queue, pending ∈ state.queue ∨ pending.seq = state.log.nextSeq ∧
      ∀ ip, pending.isDirectTo [ip] = true → ip = peer) :
    Kept selfIp { state with
      log := (state.log.append entry).1
      queue := queue
      partner := Function.update state.partner state.log.nextSeq (some memberId) } := by
  obtain ⟨record, known, isRecord⟩ := kept.recorded peer memberId holds
  constructor
  · intro found listed
    rcases ChatLog.mem_append listed with old | rfl
    · exact Nat.lt_succ_of_lt (kept.numbered found old)
    · exact Nat.lt_succ_self _
  · intro pending listed
    rcases added pending listed with old | ⟨isNew, _⟩
    · exact Nat.lt_succ_of_lt (kept.queued pending old)
    · rw [isNew]
      exact Nat.lt_succ_self _
  · exact kept.notSelf
  · exact kept.recorded
  · intro pending listed ip direct
    rcases added pending listed with old | ⟨_, only⟩
    · exact kept.listed pending old ip direct
    · rw [only ip direct]
      exact ⟨record, known⟩
  · intro ip other otherId isOther isId
    have before := kept.owned ip other otherId isOther isId
    -- the new message is with whom the side file knows
    have isMember : ip = peer → memberId = otherId := by
      rintro rfl
      rw [known] at isOther
      cases isOther
      exact identityOf_injective (isRecord.symm.trans isId)
    constructor
    · intro found listed ordinary direct
      dsimp only
      rcases ChatLog.mem_append listed with old | rfl
      · rw [Function.update_of_ne (Nat.ne_of_lt (kept.numbered found old))]
        exact before.1 found old ordinary direct
      · rw [Function.update_self]
        rcases among ip direct with same | isSelf
        · rw [isMember same]
        · rw [isSelf, kept.notSelf] at isOther
          cases isOther
    · intro pending listed direct
      dsimp only
      rcases added pending listed with old | ⟨isNew, only⟩
      · rw [Function.update_of_ne (Nat.ne_of_lt (kept.queued pending old))]
        exact before.2 pending old direct
      · rw [isNew, Function.update_self, isMember (only ip direct)]

theorem Kept.step {event : ConversationEvent} {state next : Conversations}
    (kept : Kept selfIp state) (clean : NoLeftovers selfIp event state)
    (happens : Conversations.step selfIp event state = some next) : Kept selfIp next := by
  cases event with
  | reconcile ledger stamp =>
      cases happens
      exact kept.reconcile clean
  | send peer text id sentAt now =>
      obtain ⟨memberId, holds, rfl⟩ := Option.map_eq_some_iff.mp happens
      refine kept.exchange holds (fun ip direct => ?_) (fun pending listed => ?_)
      · simp only [ChatLog.isDirectWith, ChatDraft.entry, Bool.and_eq_true, Bool.or_eq_true,
          decide_eq_true_eq, if_true, Option.some.injEq] at direct
        exact direct.2.elim (fun isSelf => Or.inr isSelf.symm) (fun isPeer => Or.inl isPeer.symm)
      · rcases List.mem_append.mp listed with old | new
        · exact Or.inl old
        · rw [List.mem_singleton.mp new]
          refine Or.inr ⟨rfl, fun ip direct => ?_⟩
          simp only [PendingChat.isDirectTo, ChatMessageInfo.pending, ChatDraft.entry,
            Bool.and_eq_true, Option.any_some, if_true, List.mem_singleton,
            decide_eq_true_eq] at direct
          exact direct.2.symm
  | receive peer frame =>
      rw [Conversations.step] at happens
      split at happens
      · next isDirect =>
          obtain ⟨memberId, holds, rfl⟩ := Option.map_eq_some_iff.mp happens
          refine kept.exchange holds (fun ip direct => ?_) (fun pending listed => Or.inl listed)
          simp only [ChatLog.isDirectWith, Reception.entry, isDirect, if_true, Bool.and_eq_true,
            Bool.or_eq_true, decide_eq_true_eq, Option.some.injEq] at direct
          exact direct.2.elim (fun isPeer => Or.inl isPeer.symm) (fun isSelf => Or.inr isSelf.symm)
      · cases happens
  | delivered seq =>
      cases happens
      have fewer : ∀ pending ∈ state.queue.filter (fun pending => pending.seq ≠ seq),
          pending ∈ state.queue := fun pending listed => List.mem_of_mem_filter listed
      exact {
        numbered := kept.numbered
        queued := fun pending listed => kept.queued pending (fewer pending listed)
        notSelf := kept.notSelf
        recorded := kept.recorded
        listed := fun pending listed => kept.listed pending (fewer pending listed)
        owned := fun ip record memberId known same =>
          have before := kept.owned ip record memberId known same
          ⟨before.1, fun pending listed => before.2 pending (fewer pending listed)⟩ }
  | post entry =>
      rw [Conversations.step] at happens
      split at happens
      · cases happens
      · next elsewhere =>
          cases happens
          constructor
          · intro found listed
            rcases ChatLog.mem_append listed with old | rfl
            · exact Nat.lt_succ_of_lt (kept.numbered found old)
            · exact Nat.lt_succ_self _
          · exact fun pending listed => Nat.lt_succ_of_lt (kept.queued pending listed)
          · exact kept.notSelf
          · exact kept.recorded
          · exact kept.listed
          · intro ip record memberId known same
            have before := kept.owned ip record memberId known same
            refine ⟨fun found listed ordinary direct => ?_, before.2⟩
            rcases ChatLog.mem_append listed with old | rfl
            · exact before.1 found old ordinary direct
            · simp [ChatLog.isDirectWith, elsewhere] at direct

theorem kept_empty : Kept selfIp {} := by
  constructor
  · simp
  · simp
  · rfl
  · intro ip memberId holds
    cases holds
  · simp
  · intro ip record memberId known
    cases known

/-- In a run in which no address that is not remembered comes back with the messages of another
member, whoever holds an address has only messages of their own there. -/
theorem own_conversations {events : List ConversationEvent} {final : Conversations}
    (clean : Runs.Along (Conversations.step selfIp) (NoLeftovers selfIp) events {})
    (reached : Runs.run (Conversations.step selfIp) events {} = some final) :
    OwnConversations selfIp final :=
  (Runs.run_invariant (Kept selfIp)
    (fun _ _ _ kept clean happens => kept.step clean happens) kept_empty clean reached).own

/-! ### A member that is gone and another one -/

/-- The ledger of the device at 10.0.0.1 with one other member at 10.0.0.2. -/
def ledgerOf (memberId : String) : MemberLedger where
  entries :=
    [{ ip := .ofOctets 10 0 0 2, publicKey := ⟨2⟩, memberId := some memberId, online := true }]
  distinct := List.nodup_singleton _

def emptyLedger : MemberLedger where
  entries := []
  distinct := List.nodup_nil

def quietStamp : NoticeStamp where
  id := fun _ => "notice"
  sentAt := 0

/-- The address goes from one member to the other between two ledgers. -/
def replacedAtOnce : List ConversationEvent :=
  [.reconcile (ledgerOf "a") quietStamp, .send (.ofOctets 10 0 0 2) "secret" "m" 0 0,
    .reconcile (ledgerOf "b") quietStamp]

theorem own_conversations_replacedAtOnce :
    ∃ final, Runs.run (Conversations.step (.ofOctets 10 0 0 1)) replacedAtOnce {} = some final ∧
      OwnConversations (.ofOctets 10 0 0 1) final := by
  have clean : Runs.Along (Conversations.step (.ofOctets 10 0 0 1))
      (NoLeftovers (.ofOctets 10 0 0 1)) replacedAtOnce {} := by decide
  exact ⟨_, rfl, own_conversations clean rfl⟩

/-- The member is gone in one ledger, and another one has the address in the next. -/
theorem history_inherited :
    ∃ final, Runs.run (Conversations.step (.ofOctets 10 0 0 1))
        [.reconcile (ledgerOf "a") quietStamp, .send (.ofOctets 10 0 0 2) "secret" "m" 0 0,
          .reconcile emptyLedger quietStamp, .reconcile (ledgerOf "b") quietStamp] {}
          = some final ∧
      ¬ OwnConversations (.ofOctets 10 0 0 1) final := by
  refine ⟨_, rfl, fun own => ?_⟩
  have theirs := own (.ofOctets 10 0 0 2) "b" rfl
  exact absurd theirs (by decide)

end PeerCove
