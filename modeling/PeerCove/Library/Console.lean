/-
Module: PeerCove.Library.Console
Layer: Library
Purpose: Commands issued one at a time to a system that may refuse any of them, with every state
  the system is in between two of them.
Trusted boundary: none
Main exports: Console.Session, Console.command, Console.each, Console.inOrder,
  Console.Session.Passes, Console.each_passes, Console.accepted, Console.inOrder_accepted,
  Console.inOrder_seen, Console.issue, Console.issue_passes
-/
import Mathlib.Data.List.Basic

namespace Console

variable {κ σ : Type}

/-- What has happened so far.  `seen` are the states after each command. -/
structure Session (σ : Type) where
  issued : Nat := 0
  state : σ
  seen : List σ := []

section
variable (apply : κ → σ → Option σ) (works : Nat → κ → Bool)

/-- The effect of a command, where it is neither refused nor impossible. -/
def attempt (request : κ) (session : Session σ) : Option σ :=
  if works session.issued request then apply request session.state else none

def command (request : κ) (session : Session σ) : Bool × Session σ :=
  let effect := attempt apply works request session
  let state := effect.getD session.state
  (effect.isSome,
    { issued := session.issued + 1, state := state, seen := session.seen ++ [state] })

/-- One command after another, whatever becomes of them. -/
def each (requests : List κ) (session : Session σ) : Session σ :=
  requests.foldl (fun session request => (command apply works request session).2) session

/-- One command after another up to the first that fails, with those that succeeded. -/
def inOrder : List κ → Session σ → (List κ × Bool) × Session σ
  | [], session => (([], true), session)
  | request :: rest, session =>
      match command apply works request session with
      | (false, after) => (([], false), after)
      | (true, after) =>
          let later := inOrder rest after
          ((request :: later.1.1, later.1.2), later.2)

end

variable {apply : κ → σ → Option σ} {works : Nat → κ → Bool}

/-! ### What holds in between -/

/-- From one session to a later one, every state seen on the way is good. -/
def Session.Passes (good : σ → Prop) (before after : Session σ) : Prop :=
  ∃ later, after.seen = before.seen ++ later ∧ ∀ state ∈ later, good state

namespace Session

variable {good : σ → Prop} {one two three : Session σ}

theorem Passes.refl : Passes good one one :=
  ⟨[], by simp, fun _ listed => absurd listed List.not_mem_nil⟩

theorem Passes.trans (first : Passes good one two) (second : Passes good two three) :
    Passes good one three := by
  obtain ⟨early, seen, earlyGood⟩ := first
  obtain ⟨late, seenLater, lateGood⟩ := second
  refine ⟨early ++ late, by rw [seenLater, seen, List.append_assoc], ?_⟩
  intro state listed
  rcases List.mem_append.mp listed with listed | listed
  · exact earlyGood state listed
  · exact lateGood state listed

theorem Passes.imp {better : σ → Prop} (weaker : ∀ state, good state → better state)
    (passes : Passes good one two) : Passes better one two := by
  obtain ⟨later, seen, allGood⟩ := passes
  exact ⟨later, seen, fun state listed => weaker state (allGood state listed)⟩

/-- What was seen earlier stays seen. -/
theorem Passes.seen (passes : Passes good one two) {state : σ} (before : state ∈ one.seen) :
    state ∈ two.seen := by
  obtain ⟨later, seen, -⟩ := passes
  rw [seen]
  exact List.mem_append_left _ before

/-- What is seen after a session that began with nothing seen is good. -/
theorem Passes.all (passes : Passes good one two) (fresh : one.seen = []) :
    ∀ state ∈ two.seen, good state := by
  obtain ⟨later, seen, allGood⟩ := passes
  rw [seen, fresh, List.nil_append]
  exact allGood

end Session

/-! ### Refusals -/

/-- The first commands, up to one that is refused. -/
def accepted (works : Nat → κ → Bool) : Nat → List κ → List κ
  | _, [] => []
  | issued, request :: rest =>
      if works issued request then request :: accepted works (issued + 1) rest else []

theorem accepted_initial (works : Nat → κ → Bool) (issued : Nat) (requests : List κ) :
    accepted works issued requests <+: requests := by
  induction requests generalizing issued with
  | nil => exact List.prefix_rfl
  | cons request rest ih =>
      rw [accepted]
      split
      · exact List.cons_prefix_cons.mpr ⟨rfl, ih (issued + 1)⟩
      · exact List.nil_prefix

/-! ### Invariants -/

variable {good : σ → Prop}

/-- A state is kept good by a list of commands. -/
def Keeps (apply : κ → σ → Option σ) (good : σ → Prop) (requests : List κ) : Prop :=
  ∀ request ∈ requests, ∀ state next, good state → apply request state = some next → good next

theorem Keeps.tail {request : κ} {rest : List κ} (keeps : Keeps apply good (request :: rest)) :
    Keeps apply good rest :=
  fun other listed => keeps other (List.mem_cons_of_mem _ listed)

theorem attempt_good (works : Nat → κ → Bool) {request : κ} {session : Session σ}
    (keep : ∀ next, apply request session.state = some next → good next)
    (now : good session.state) :
    good ((attempt apply works request session).getD session.state) := by
  unfold attempt
  split
  · cases effect : apply request session.state with
    | none => exact now
    | some next => exact keep next effect
  · exact now

theorem command_passes (works : Nat → κ → Bool) {request : κ} (session : Session σ)
    (keep : ∀ next, apply request session.state = some next → good next)
    (now : good session.state) :
    session.Passes good (command apply works request session).2 ∧
      good (command apply works request session).2.state := by
  have after := attempt_good works keep now
  refine ⟨⟨[_], rfl, ?_⟩, after⟩
  intro state listed
  rw [List.mem_singleton] at listed
  exact listed ▸ after

theorem each_passes (works : Nat → κ → Bool) {requests : List κ} {session : Session σ}
    (keeps : Keeps apply good requests) (now : good session.state) :
    session.Passes good (each apply works requests session) ∧
      good (each apply works requests session).state := by
  induction requests generalizing session with
  | nil => exact ⟨.refl, now⟩
  | cons request rest ih =>
      have first := command_passes works session
        (fun next => keeps request List.mem_cons_self _ next now) now
      have later := ih keeps.tail first.2
      exact ⟨first.1.trans later.1, later.2⟩

/-- What keeps a state good are the commands that are issued. -/
theorem inOrder_passes (works : Nat → κ → Bool) {requests : List κ} (session : Session σ)
    (keeps : Keeps apply good (accepted works session.issued requests))
    (now : good session.state) :
    session.Passes good (inOrder apply works requests session).2 ∧
      good (inOrder apply works requests session).2.state := by
  induction requests generalizing session with
  | nil => exact ⟨.refl, now⟩
  | cons request rest ih =>
      cases granted : works session.issued request with
      | false =>
          have refused : command apply works request session =
              (false, { session with
                issued := session.issued + 1
                seen := session.seen ++ [session.state] }) := by
            simp [command, attempt, granted]
          rw [inOrder, refused]
          refine ⟨⟨[session.state], rfl, fun state listed => ?_⟩, now⟩
          rw [List.mem_singleton] at listed
          exact listed ▸ now
      | true =>
          rw [accepted, if_pos granted] at keeps
          have first := command_passes works session
            (fun next => keeps request List.mem_cons_self _ next now) now
          unfold inOrder
          split
          · rename_i after refused
            rw [refused] at first
            exact first
          · rename_i after done
            have issued : after.issued = session.issued + 1 := by
              rw [show after = (command apply works request session).2 by rw [done]]
              rfl
            rw [done] at first
            have later := ih after (issued ▸ keeps.tail) first.2
            exact ⟨first.1.trans later.1, later.2⟩

theorem Keeps.accepted {requests : List κ} (keeps : Keeps apply good requests) (issued : Nat) :
    Keeps apply good (accepted works issued requests) :=
  fun request listed => keeps request ((accepted_initial works issued requests).subset listed)

/-! ### Commands that are never impossible -/

theorem accepted_map {ι : Type} (works : Nat → κ → Bool) (issued : Nat) (request : ι → κ)
    (values : List ι) :
    accepted works issued (values.map request) =
      (accepted (fun place value => works place (request value)) issued values).map request := by
  induction values generalizing issued with
  | nil => rfl
  | cons value rest ih =>
      rw [List.map_cons, accepted, accepted]
      split
      · rw [ih, List.map_cons]
      · rfl

/-- The effects of some commands, one after the other. -/
def effects (effect : κ → σ → σ) (requests : List κ) (state : σ) : σ :=
  requests.foldl (fun state request => effect request state) state

section
variable (works) {effect : κ → σ → σ} {requests : List κ} (session : Session σ)

/-- Where every command has an effect, those that succeed are those up to the first refusal. -/
theorem inOrder_accepted
    (possible : ∀ request ∈ requests, ∀ state, apply request state = some (effect request state)) :
    inOrder apply works requests session =
      ((accepted works session.issued requests,
        decide ((accepted works session.issued requests).length = requests.length)),
        (inOrder apply works requests session).2) ∧
      (inOrder apply works requests session).2.state =
        effects effect (accepted works session.issued requests) session.state ∧
      ((accepted works session.issued requests).length ≠ requests.length →
        (inOrder apply works requests session).2.issued =
          session.issued + (accepted works session.issued requests).length + 1) := by
  induction requests generalizing session with
  | nil => exact ⟨rfl, rfl, fun more => absurd rfl more⟩
  | cons request rest ih =>
      have here := possible request List.mem_cons_self session.state
      cases granted : works session.issued request with
      | false =>
          have refused : command apply works request session =
              (false, (command apply works request session).2) := by
            simp [command, attempt, granted]
          have state : (command apply works request session).2.state = session.state := by
            simp [command, attempt, granted]
          rw [inOrder, refused, accepted, if_neg (by simp [granted])]
          exact ⟨by simp, state, fun _ => rfl⟩
      | true =>
          have done : command apply works request session =
              (true, (command apply works request session).2) := by
            simp [command, attempt, granted, here]
          have state : (command apply works request session).2.state =
              effect request session.state := by
            simp [command, attempt, granted, here]
          have issued : (command apply works request session).2.issued = session.issued + 1 := rfl
          obtain ⟨result, final, places⟩ := ih (command apply works request session).2
            (fun other listed => possible other (List.mem_cons_of_mem request listed))
          rw [state, issued] at final
          rw [issued] at result places
          rw [inOrder, done, accepted, if_pos granted]
          refine ⟨?_, final, fun more => ?_⟩
          · dsimp only
            rw [result]
            simp
          · dsimp only
            rw [places (fun same => more (congrArg (· + 1) same)), List.length_cons]
            omega

/-- What is seen on the way are the effects of the commands so far. -/
theorem inOrder_seen
    (possible : ∀ request ∈ requests, ∀ state, apply request state = some (effect request state)) :
    session.Passes
        (fun state => ∃ sofar, sofar <+: accepted works session.issued requests ∧
          state = effects effect sofar session.state)
        (inOrder apply works requests session).2 ∧
      ∀ sofar, sofar ≠ [] → sofar <+: accepted works session.issued requests →
        effects effect sofar session.state ∈ (inOrder apply works requests session).2.seen := by
  induction requests generalizing session with
  | nil => exact ⟨.refl, fun sofar some below => absurd (List.prefix_nil.mp below) some⟩
  | cons request rest ih =>
      have here := possible request List.mem_cons_self session.state
      cases granted : works session.issued request with
      | false =>
          have refused : command apply works request session =
              (false, { session with
                issued := session.issued + 1
                seen := session.seen ++ [session.state] }) := by
            simp [command, attempt, granted]
          rw [inOrder, refused, accepted, if_neg (by simp [granted])]
          refine ⟨⟨[session.state], rfl, ?_⟩, ?_⟩
          · intro state listed
            rw [List.mem_singleton] at listed
            exact ⟨[], List.nil_prefix, listed⟩
          · exact fun sofar some below => absurd (List.prefix_nil.mp below) some
      | true =>
          have done : command apply works request session =
              (true, { issued := session.issued + 1
                       state := effect request session.state
                       seen := session.seen ++ [effect request session.state] }) := by
            simp [command, attempt, granted, here]
          obtain ⟨passes, complete⟩ := ih
            { issued := session.issued + 1
              state := effect request session.state
              seen := session.seen ++ [effect request session.state] }
            (fun other listed => possible other (List.mem_cons_of_mem request listed))
          rw [inOrder, done, accepted, if_pos granted]
          have first : session.Passes
              (fun state => ∃ sofar,
                sofar <+: request :: accepted works (session.issued + 1) rest ∧
                  state = effects effect sofar session.state)
              { issued := session.issued + 1
                state := effect request session.state
                seen := session.seen ++ [effect request session.state] } := by
            refine ⟨[effect request session.state], rfl, fun state listed => ?_⟩
            rw [List.mem_singleton] at listed
            exact ⟨[request], List.cons_prefix_cons.mpr ⟨rfl, List.nil_prefix⟩, listed⟩
          refine ⟨first.trans (passes.imp ?_), fun sofar some isPrefix => ?_⟩
          · rintro state ⟨sofar, below, rfl⟩
            exact ⟨request :: sofar, List.cons_prefix_cons.mpr ⟨rfl, below⟩, rfl⟩
          · cases sofar with
            | nil => exact absurd rfl some
            | cons top more =>
                obtain ⟨rfl, below⟩ := List.cons_prefix_cons.mp isPrefix
                by_cases last : more = []
                · rw [last]
                  exact passes.seen (List.mem_append_right _ List.mem_cons_self)
                · exact complete more last below

end

/-! ### Operations that fail in their own way -/

/-- An operation whose effect depends on whether it succeeds. -/
def issue (effect : κ → Bool → σ → σ) (works : Nat → κ → Bool) (request : κ)
    (session : Session σ) : Bool × Session σ :=
  let done := works session.issued request
  let state := effect request done session.state
  (done, { issued := session.issued + 1, state := state, seen := session.seen ++ [state] })

theorem issue_passes {effect : κ → Bool → σ → σ} (works : Nat → κ → Bool) {request : κ}
    {session : Session σ}
    (keep : good (effect request (works session.issued request) session.state)) :
    session.Passes good (issue effect works request session).2 ∧
      good (issue effect works request session).2.state := by
  refine ⟨⟨[_], rfl, fun state listed => ?_⟩, keep⟩
  rw [List.mem_singleton.mp listed]
  exact keep

end Console
