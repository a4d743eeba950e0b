/-
Module: PeerCove.Proofs.ReplyCorrelation
Layer: Proofs
Purpose: Which requester of a member link receives the host's answers: its own while no request
  contends for a single waiting place, and somebody else's as soon as one does.
Trusted boundary: none
Main exports: replies_correlated, invite_misdelivered, contended_misdelivers
-/
import PeerCove.Member.Link

namespace PeerCove

open Correlation

variable {P : LinkPayloads}

/-! ### The waiting places of a link -/

namespace MemberLinkState

/-- Who holds a waiting place. -/
def waiting (link : MemberLinkState) : WaitingPlace → Option Waiter
  | .dnsName => link.dnsReply
  | .displayName => link.displayReply
  | .invite => link.inviteReply
  | .dnsAdmin seq => link.dnsAdminPending.get? seq
  | .admin seq => link.adminPending.get? seq
  | .memo seq => link.memoPending.get? seq

/-- The place has come into use: single ones always are, numbered ones from their number on. -/
def InUse (link : MemberLinkState) : WaitingPlace → Prop
  | .dnsName | .displayName | .invite => True
  | .dnsAdmin seq => seq ≤ link.dnsAdminSeq
  | .admin seq => seq ≤ link.adminSeq
  | .memo seq => seq ≤ link.memoSeq

/-- A request counts its number up and leaves the other places in use. -/
theorem request_inUse (call : LinkCall P) (who : Waiter) (link : MemberLinkState)
    {place : WaitingPlace} (used : link.InUse place) :
    (call.request who link).2.InUse place := by
  cases call <;>
    simp only [LinkCall.request, requestDnsName, requestDisplayName, requestCreateInvite,
      requestDnsAdmin, requestAdminOp, requestMemo, request] <;>
    split <;> cases place <;> simp only [InUse] at used ⊢ <;> omega

/-- A request that cannot be sent takes no place. -/
theorem request_unsent (call : LinkCall P) (who : Waiter) {link : MemberLinkState}
    (shut : link.outbox ≠ .opened) :
    (call.request who link).1 = none ∧ (call.request who link).2.waiting = link.waiting := by
  cases call <;>
    simp only [LinkCall.request, requestDnsName, requestDisplayName, requestCreateInvite,
      requestDnsAdmin, requestAdminOp, requestMemo, request, if_neg shut, true_and] <;>
    funext place <;> cases place <;> rfl

/-- A request that is sent takes its place, which is the single one of its kind or has not been in
use before. -/
theorem request_sent (call : LinkCall P) (who : Waiter) {link : MemberLinkState}
    (opened : link.outbox = .opened) :
    ∃ message, (call.request who link).1 = some message ∧
      (call.request who link).2.waiting =
        Function.update link.waiting message.place (some who) ∧
      (call.request who link).2.InUse message.place ∧
      (call.singlePlace = some message.place ∨ ¬ link.InUse message.place) := by
  cases call <;>
    simp only [LinkCall.request, requestDnsName, requestDisplayName, requestCreateInvite,
      requestDnsAdmin, requestAdminOp, requestMemo, request, if_pos opened] <;>
    refine ⟨_, rfl, ?_, ?_, ?_⟩ <;>
    first
      | (funext place
         cases place <;>
          simp [waiting, LinkRequest.place, Function.update_apply, Table.get?_insert])
      | simp [InUse, LinkRequest.place, LinkCall.singlePlace]

theorem singlePlace_of_sent {call : LinkCall P} {who : Waiter} {link : MemberLinkState}
    {message : LinkRequest P} {place : WaitingPlace}
    (sent : (call.request who link).1 = some message) (single : place ∈ call.singlePlace) :
    message.place = place := by
  cases call <;>
    simp only [LinkCall.request, requestDnsName, requestDisplayName, requestCreateInvite,
      requestDnsAdmin, requestAdminOp, requestMemo, request, LinkCall.singlePlace] at sent single <;>
    split at sent <;> cases sent <;> cases single <;> rfl

/-- An answer goes to whoever holds its place, and empties it. -/
theorem memberReader_place (reply : LinkReply P) (link : MemberLinkState) :
    (link.memberReader reply).1 = link.waiting reply.place ∧
      (link.memberReader reply).2.waiting = Function.update link.waiting reply.place none := by
  cases reply <;> refine ⟨rfl, ?_⟩ <;> funext place <;> cases place <;>
    simp [memberReader, putDnsResult, putDisplayResult, putInviteResult, putDnsAdminResult,
      putAdminOpResult, putMemoResult, waiting, LinkReply.place, Function.update_apply,
      Table.get?_erase]

theorem memberReader_inUse (reply : LinkReply P) (link : MemberLinkState) {place : WaitingPlace}
    (used : link.InUse place) : (link.memberReader reply).2.InUse place := by
  cases reply <;> cases place <;> exact used

end MemberLinkState

/-- An answer is put into the place of the request it answers. -/
theorem hostAnswers_place {request : LinkRequest P} {reply : LinkReply P}
    (answers : hostAnswers request reply = true) : reply.place = request.place := by
  cases request <;> cases reply <;>
    simp_all [hostAnswers, LinkReply.place, LinkRequest.place]

/-! ### The invariant -/

namespace LinkSystem

/-- Whoever waits in a place an answer is still to come for has made that request, so far every
answer has reached the request's own maker, and unanswered requests have places in use. -/
structure Correlated (system : LinkSystem P) : Prop where
  agree : Agree system.link.waiting system.unanswered
  inUse : ∀ entry ∈ system.unanswered, system.link.InUse entry.2
  own : ∀ delivery ∈ system.delivered, delivery.receiver = delivery.asker

theorem unanswered_ask (system : LinkSystem P) (message : LinkRequest P) (link : MemberLinkState)
    (asked : Nat) :
    ({ system with
        link := link
        asked := asked
        atHost := system.atHost ++ [(system.asked, message)] } : LinkSystem P).unanswered =
      system.unanswered ++ [(system.asked, message.place)] := by
  simp [unanswered, List.append_assoc]

theorem unanswered_answer (system : LinkSystem P) {asker : Waiter} {request : LinkRequest P}
    {reply : LinkReply P} {rest : List (Waiter × LinkRequest P)}
    (queued : system.atHost = (asker, request) :: rest) (same : reply.place = request.place) :
    ({ system with atHost := rest, replies := system.replies ++ [(asker, reply)] } :
        LinkSystem P).unanswered = system.unanswered := by
  simp [unanswered, queued, same]

theorem unanswered_ignore {system : LinkSystem P} {first : Waiter × LinkRequest P}
    {rest : List (Waiter × LinkRequest P)} (queued : system.atHost = first :: rest) :
    ∀ entry ∈ ({ system with atHost := rest } : LinkSystem P).unanswered,
      entry ∈ system.unanswered := by
  intro entry member
  unfold unanswered at member ⊢
  rw [queued]
  rcases List.mem_append.mp member with replied | waiting
  · exact List.mem_append_left _ replied
  · exact List.mem_append_right _ (List.mem_cons_of_mem _ waiting)

theorem unanswered_receive (system : LinkSystem P) {asker : Waiter} {reply : LinkReply P}
    {rest : List (Waiter × LinkReply P)} (queued : system.replies = (asker, reply) :: rest)
    (link : MemberLinkState) (delivered : List (Delivery P)) :
    system.unanswered =
      (asker, reply.place) ::
        ({ system with link := link, replies := rest, delivered := delivered } :
          LinkSystem P).unanswered := by
  simp [unanswered, queued]

theorem Correlated.initial : ({} : LinkSystem P).Correlated where
  agree := agree_nil
  inUse := by
    intro entry member
    cases member
  own := by
    intro delivery member
    cases member

/-- A new connection, or none, has nothing unanswered. -/
theorem Correlated.cleared {system : LinkSystem P} (before : system.Correlated)
    (link : MemberLinkState) :
    ({ system with link := link, atHost := [], replies := [] } : LinkSystem P).Correlated where
  agree := agree_nil
  inUse := by
    intro entry member
    cases member
  own := before.own

theorem Correlated.ask {system : LinkSystem P} (before : system.Correlated) (call : LinkCall P)
    (fair : Uncontended (.ask call) system) {next : LinkSystem P}
    (happens : linkStep (.ask call) system = some next) : next.Correlated := by
  simp only [linkStep, Option.some.injEq] at happens
  subst happens
  by_cases opened : system.link.outbox = .opened
  · obtain ⟨message, sent, waits, used, free⟩ :=
      MemberLinkState.request_sent call system.asked opened
    -- the place is one that no unanswered request has
    have fresh : ∀ entry ∈ system.unanswered, entry.2 ≠ message.place := by
      intro entry member
      rcases free with single | unused
      · exact fair opened message.place single entry member
      · intro same
        rw [← same] at unused
        exact unused (before.inUse entry member)
    rw [sent, Option.map_some, Option.toList_some]
    refine ⟨?_, ?_, before.own⟩
    · rw [unanswered_ask, waits]
      exact before.agree.claim fresh
    · rw [unanswered_ask]
      intro entry member
      rcases List.mem_append.mp member with earlier | new
      · exact MemberLinkState.request_inUse call system.asked system.link
          (before.inUse entry earlier)
      · obtain rfl := List.mem_singleton.mp new
        exact used
  · obtain ⟨unsent, waits⟩ := MemberLinkState.request_unsent call system.asked opened
    rw [unsent, Option.map_none, Option.toList_none, List.append_nil]
    refine ⟨?_, ?_, before.own⟩
    · rw [waits]
      exact before.agree
    · intro entry member
      exact MemberLinkState.request_inUse call system.asked system.link (before.inUse entry member)

theorem Correlated.receive {system : LinkSystem P} (before : system.Correlated) {asker : Waiter}
    {reply : LinkReply P} {rest : List (Waiter × LinkReply P)}
    (queued : system.replies = (asker, reply) :: rest) :
    ({ system with
        link := (system.link.memberReader reply).2
        replies := rest
        delivered := system.delivered ++
          system.hand asker reply (system.link.memberReader reply).1 } :
      LinkSystem P).Correlated := by
  obtain ⟨gets, waits⟩ := MemberLinkState.memberReader_place reply system.link
  have coming := unanswered_receive system queued (system.link.memberReader reply).2
    (system.delivered ++ system.hand asker reply (system.link.memberReader reply).1)
  have agree := before.agree
  rw [coming] at agree
  refine ⟨?_, ?_, ?_⟩
  · rw [waits]
    exact agree.take
  · intro entry member
    apply MemberLinkState.memberReader_inUse
    apply before.inUse
    rw [coming]
    exact List.mem_cons_of_mem _ member
  · intro delivery member
    rcases List.mem_append.mp member with earlier | new
    · exact before.own delivery earlier
    · rw [gets] at new
      unfold hand at new
      split at new
      · rename_i who held
        split at new
        · cases new
        · obtain rfl := List.mem_singleton.mp new
          exact agree _ List.mem_cons_self who held
      · cases new

theorem Correlated.step {event : LinkEvent P} {system next : LinkSystem P}
    (before : system.Correlated) (fair : Uncontended event system)
    (happens : linkStep event system = some next) : next.Correlated := by
  cases event with
  | ask call => exact before.ask call fair happens
  | answer reply =>
      simp only [linkStep] at happens
      split at happens
      · rename_i asker request rest queued
        split at happens
        · rename_i answers
          cases happens
          have same := unanswered_answer system queued (hostAnswers_place answers)
          exact ⟨same ▸ before.agree, same ▸ before.inUse, before.own⟩
        · cases happens
      · cases happens
  | ignore =>
      simp only [linkStep] at happens
      split at happens
      · rename_i entry rest queued
        cases happens
        have part := unanswered_ignore queued
        exact ⟨before.agree.subset part, fun entry member => before.inUse entry (part entry member),
          before.own⟩
      · cases happens
  | receive =>
      simp only [linkStep] at happens
      split at happens
      · rename_i asker reply rest queued
        cases happens
        exact before.receive queued
      · cases happens
  | timeout who =>
      simp only [linkStep] at happens
      split at happens
      · cases happens
        exact ⟨before.agree, before.inUse, before.own⟩
      · cases happens
  | attach =>
      cases happens
      exact before.cleared system.link.attach
  | detach =>
      cases happens
      exact before.cleared system.link.detach
  | writerEnds =>
      cases happens
      exact ⟨before.agree, before.inUse, before.own⟩

end LinkSystem

/-! ### Answers reach their own requesters -/

/-- In every run in which no request contends for a single waiting place with an earlier one that is
unanswered over the same connection, each answer is received by the requester of the request it
answers, whatever the host leaves out, whichever requesters give up, and however often the member
reconnects. -/
theorem replies_correlated {events : List (LinkEvent P)} {final : LinkSystem P}
    (fair : Runs.Along linkStep Uncontended events {})
    (reached : Runs.run linkStep events {} = some final) :
    ∀ delivery ∈ final.delivered, delivery.receiver = delivery.asker :=
  (Runs.run_invariant LinkSystem.Correlated
    (fun _ _ _ before fair happens => before.step fair happens)
    LinkSystem.Correlated.initial fair reached).own

/-- Payloads that say nothing. -/
abbrev plainPayloads : LinkPayloads where
  DnsOp := Unit
  AdminOp := Unit
  AdminData := Unit
  MemoOp := Unit
  MemoReply := Unit

/-- An invitation with a token. -/
def tokenReply (token : String) : LinkReply plainPayloads :=
  .createInviteResult
    { accepted := true, message := "", token := some token, name := none, expiresAt := none }

/-- Two invitations one after the other, with a list of memos between them and a new connection. -/
def orderlyRequests : List (LinkEvent plainPayloads) :=
  [.attach, .ask (.createInvite none none), .ask (.memo ()), .answer (tokenReply "first"),
    .receive, .attach, .ask (.memo ()), .ask (.createInvite none none), .answer (.memoResp 2 ()),
    .answer (tokenReply "second"), .timeout 2, .receive, .receive]

/-- The last invitation reaches its own requester. -/
theorem replies_correlated_orderly :
    ∃ final, Runs.run linkStep orderlyRequests {} = some final ∧
      (∀ delivery ∈ final.delivered, delivery.receiver = delivery.asker) ∧
      final.delivered = [⟨0, 0, tokenReply "first"⟩, ⟨3, 3, tokenReply "second"⟩] := by
  have fair : Runs.Along linkStep Uncontended orderlyRequests {} := by decide
  exact ⟨_, rfl, replies_correlated fair rfl, rfl⟩

/-- Two invitations asked for at the same time: the second requester is given the token that was
made for the first. -/
theorem invite_misdelivered :
    ¬ ∀ (events : List (LinkEvent plainPayloads)) final,
      Runs.run linkStep events {} = some final →
        ∀ delivery ∈ final.delivered, delivery.receiver = delivery.asker := by
  intro correlated
  have wrong := correlated
    [.attach, .ask (.createInvite none none), .ask (.createInvite none none),
      .answer (tokenReply "first"), .receive] _ rfl ⟨1, 0, tokenReply "first"⟩
    List.mem_cons_self
  exact absurd wrong (by decide)

/-! ### A contended place -/

namespace LinkSystem

/-- Requests are numbered in the order they are made. -/
structure Numbered (system : LinkSystem P) : Prop where
  unanswered : ∀ entry ∈ system.unanswered, entry.1 < system.asked
  gone : ∀ who ∈ system.gone, who < system.asked

theorem Numbered.step {event : LinkEvent P} {system next : LinkSystem P}
    (before : system.Numbered) (happens : linkStep event system = some next) : next.Numbered := by
  cases event with
  | ask call =>
      simp only [linkStep, Option.some.injEq] at happens
      subst happens
      refine ⟨?_, fun who member => Nat.lt_succ_of_lt (before.gone who member)⟩
      cases sent : (call.request system.asked system.link).1 with
      | none =>
          rw [Option.map_none, Option.toList_none, List.append_nil]
          exact fun entry member => Nat.lt_succ_of_lt (before.unanswered entry member)
      | some message =>
          rw [Option.map_some, Option.toList_some, unanswered_ask]
          intro entry member
          rcases List.mem_append.mp member with earlier | new
          · exact Nat.lt_succ_of_lt (before.unanswered entry earlier)
          · obtain rfl := List.mem_singleton.mp new
            exact Nat.lt_succ_self _
  | answer reply =>
      simp only [linkStep] at happens
      split at happens
      · rename_i asker request rest queued
        split at happens
        · rename_i answers
          cases happens
          have same := unanswered_answer system queued (hostAnswers_place answers)
          exact ⟨same ▸ before.unanswered, before.gone⟩
        · cases happens
      · cases happens
  | ignore =>
      simp only [linkStep] at happens
      split at happens
      · rename_i entry rest queued
        cases happens
        exact ⟨fun entry member => before.unanswered entry (unanswered_ignore queued entry member),
          before.gone⟩
      · cases happens
  | receive =>
      simp only [linkStep] at happens
      split at happens
      · rename_i asker reply rest queued
        cases happens
        refine ⟨fun entry member => before.unanswered entry ?_, before.gone⟩
        rw [unanswered_receive system queued]
        exact List.mem_cons_of_mem _ member
      · cases happens
  | timeout who =>
      simp only [linkStep] at happens
      split at happens
      · rename_i made
        cases happens
        refine ⟨before.unanswered, ?_⟩
        intro other member
        rcases List.mem_cons.mp member with rfl | member
        · exact made
        · exact before.gone other member
      · cases happens
  | attach | detach =>
      cases happens
      refine ⟨?_, before.gone⟩
      intro entry member
      cases member
  | writerEnds =>
      cases happens
      exact ⟨before.unanswered, before.gone⟩

/-- Every request has an answer of its kind. -/
theorem exists_answer (memoReply : P.MemoReply) (request : LinkRequest P) :
    ∃ reply, hostAnswers request reply = true := by
  cases request with
  | setDnsName name => exact ⟨.setDnsNameResult true "", rfl⟩
  | setDisplayName name => exact ⟨.setDisplayNameResult true "", rfl⟩
  | createInvite name expiresInSecs =>
      exact ⟨.createInviteResult ⟨true, "", none, none, none⟩, rfl⟩
  | adminDnsOp seq op => exact ⟨.adminDnsResult seq true "", decide_eq_true rfl⟩
  | adminOp seq op => exact ⟨.adminOpResult seq ⟨true, "", none⟩, decide_eq_true rfl⟩
  | memoReq seq op => exact ⟨.memoResp seq memoReply, decide_eq_true rfl⟩

/-- The host can answer everything it has been asked. -/
theorem answers_all (memoReply : P.MemoReply) (system : LinkSystem P) :
    ∃ events next, Runs.run linkStep events system = some next ∧ next.atHost = [] ∧
      next.unanswered = system.unanswered ∧ next.link = system.link ∧
      next.gone = system.gone := by
  generalize queued : system.atHost = requests
  induction requests generalizing system with
  | nil => exact ⟨[], system, rfl, queued, rfl, rfl, rfl⟩
  | cons entry rest ih =>
      obtain ⟨asker, request⟩ := entry
      obtain ⟨reply, answers⟩ := exists_answer memoReply request
      obtain ⟨events, next, reached, emptied, same, link, gone⟩ :=
        ih { system with atHost := rest, replies := system.replies ++ [(asker, reply)] } rfl
      refine ⟨.answer reply :: events, next, ?_, emptied, ?_, link, gone⟩
      · rw [Runs.run_cons]
        refine ⟨_, ?_, reached⟩
        simp only [linkStep, queued, answers, if_true]
      · rw [same, unanswered_answer system queued (hostAnswers_place answers)]

/-- Once all answers are read, each has been received by whoever held its place. -/
theorem receives_all (system : LinkSystem P) :
    ∃ events final, Runs.run linkStep events system = some final ∧
      (∀ delivery ∈ system.delivered, delivery ∈ final.delivered) ∧
      ∀ pair ∈ handedOut system.link.waiting
          (system.replies.map (fun entry => (entry.1, entry.2.place))),
        pair.1 ∉ system.gone →
          ∃ delivery ∈ final.delivered, (delivery.receiver, delivery.asker) = pair := by
  generalize queued : system.replies = replies
  induction replies generalizing system with
  | nil =>
      refine ⟨[], system, rfl, fun _ member => member, ?_⟩
      intro pair member
      cases member
  | cons entry rest ih =>
      obtain ⟨asker, reply⟩ := entry
      obtain ⟨gets, waits⟩ := MemberLinkState.memberReader_place reply system.link
      obtain ⟨events, final, reached, kept, handed⟩ :=
        ih
          { system with
            link := (system.link.memberReader reply).2
            replies := rest
            delivered := system.delivered ++
              system.hand asker reply (system.link.memberReader reply).1 } rfl
      refine ⟨.receive :: events, final, ?_, ?_, ?_⟩
      · rw [Runs.run_cons]
        refine ⟨_, ?_, reached⟩
        simp only [linkStep, queued]
      · exact fun delivery member => kept delivery (List.mem_append_left _ member)
      · intro pair member waits'
        rcases List.mem_append.mp member with now | later
        · cases held : system.link.waiting reply.place with
          | none =>
              simp [held] at now
          | some who =>
              obtain rfl : pair = (who, asker) := by simpa [held] using now
              refine ⟨⟨who, asker, reply⟩, kept _ (List.mem_append_right _ ?_), rfl⟩
              simp [hand, gets, held, waits']
        · rw [← waits] at later
          exact handed pair later waits'

end LinkSystem

/-- Whenever a request contends for a single waiting place, the run can go on so that its requester
receives the answer to an earlier request. -/
theorem contended_misdelivers {events : List (LinkEvent P)} {system : LinkSystem P}
    (reached : Runs.run linkStep events {} = some system) {call : LinkCall P}
    (contends : ¬ Uncontended (.ask call) system) (memoReply : P.MemoReply) :
    ∃ later final, Runs.run linkStep (.ask call :: later) system = some final ∧
      ∃ delivery ∈ final.delivered, delivery.receiver ≠ delivery.asker := by
  have numbered : system.Numbered := by
    refine Runs.run_keeps LinkSystem.Numbered (fun _ _ _ before happens => before.step happens)
      ⟨?_, ?_⟩ reached
    · intro entry member
      cases member
    · intro who member
      cases member
  -- the place of the new request is already that of an earlier one
  simp only [Uncontended, not_forall, not_not] at contends
  obtain ⟨opened, place, single, entry, earlier, same⟩ := contends
  obtain ⟨message, sent, waits, _, claimed⟩ :=
    MemberLinkState.request_sent call system.asked opened
  have single : message.place = place := MemberLinkState.singlePlace_of_sent sent single
  have happens : linkStep (.ask call) system = some
      { system with
        link := (call.request system.asked system.link).2
        asked := system.asked + 1
        atHost := system.atHost ++ [(system.asked, message)] } := by
    simp only [linkStep, sent, Option.map_some, Option.toList_some]
  obtain ⟨answering, next, answered, emptied, unanswered, link, gone⟩ :=
    LinkSystem.answers_all memoReply
      { system with
        link := (call.request system.asked system.link).2
        asked := system.asked + 1
        atHost := system.atHost ++ [(system.asked, message)] }
  obtain ⟨reading, final, read, _, handed⟩ := next.receives_all
  refine ⟨answering ++ reading, final, ?_, ?_⟩
  · rw [Runs.run_cons]
    exact ⟨_, happens, Runs.run_append.mpr ⟨next, answered, read⟩⟩
  · have coming : next.replies.map (fun entry => (entry.1, entry.2.place)) =
        system.unanswered ++ [(system.asked, message.place)] := by
      rw [← LinkSystem.unanswered_ask, ← unanswered, LinkSystem.unanswered, emptied, List.map_nil,
        List.append_nil]
    have held : next.link.waiting message.place = some system.asked := by
      rw [link, waits, Function.update_self]
    obtain ⟨other, member, differ⟩ := exists_misdelivered held
      ⟨entry, earlier, same.trans single.symm⟩
      (fun entry member => Nat.ne_of_lt (numbered.unanswered entry member))
    obtain ⟨delivery, received, pair⟩ := handed (system.asked, other) (coming ▸ member) (by
      rw [gone]
      exact fun gives => Nat.lt_irrefl _ (numbered.gone _ gives))
    refine ⟨delivery, received, ?_⟩
    intro equal
    have parts := Prod.mk.inj pair
    exact differ (parts.2.symm.trans (equal.symm.trans parts.1))

end PeerCove
