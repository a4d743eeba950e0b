/-
Module: PeerCove.Library.Stateful
Layer: Library
Purpose: Steps on a state that may fail part way, keeping what they have written, and the rules
  by which a chain of them is read-only, or leaves the state alone when it fails.
Trusted boundary: none
Main exports: Stateful, Stateful.transaction, Stateful.ok_bind, Stateful.Atomic,
  Stateful.AtomicAt, Stateful.ReadOnly, Stateful.Keeps
-/
import Mathlib.Data.List.Basic

/-- A step: the result, or an error, and the state it leaves in either case. -/
def Stateful (σ ε α : Type) : Type :=
  σ → Except ε α × σ

namespace Stateful

variable {σ ε α β : Type}

instance : Monad (Stateful σ ε) where
  pure value := fun state => (.ok value, state)
  bind first next := fun state =>
    match first state with
    | (.ok value, after) => next value after
    | (.error error, after) => (.error error, after)

/-- Read from the state. -/
def query (f : σ → α) : Stateful σ ε α :=
  fun state => (.ok (f state), state)

/-- Change the state. -/
def execute (f : σ → σ) : Stateful σ ε Unit :=
  fun state => (.ok (), f state)

/-- A result that does not depend on the state. -/
def lift (result : Except ε α) : Stateful σ ε α :=
  fun state => (result, state)

/-- Fail with `error` when `bad` holds. -/
def refuse (bad : Prop) [Decidable bad] (error : ε) : Stateful σ ε Unit :=
  fun state => if bad then (.error error, state) else (.ok (), state)

/-- The value, or fail with `error`. -/
def expect (value : Option α) (error : ε) : Stateful σ ε α :=
  fun state =>
    match value with
    | some value => (.ok value, state)
    | none => (.error error, state)

/-- Run `body`; undo what it has written when it fails. -/
def transaction (body : Stateful σ ε α) : Stateful σ ε α :=
  fun state =>
    match body state with
    | (.ok value, after) => (.ok value, after)
    | (.error error, _) => (.error error, state)

/-! ### Success -/

@[simp] theorem ok_pure {value result : α} {s s' : σ} :
    (pure value : Stateful σ ε α) s = (.ok result, s') ↔ value = result ∧ s = s' := by
  simp [pure]

/-- A chain succeeds when its first step does and the rest does from there. -/
@[simp] theorem ok_bind {first : Stateful σ ε α} {next : α → Stateful σ ε β} {result : β}
    {s s' : σ} :
    (first >>= next) s = (.ok result, s') ↔
      ∃ value mid, first s = (.ok value, mid) ∧ next value mid = (.ok result, s') := by
  simp only [bind]
  cases first s with
  | mk outcome after => cases outcome with
    | error error => simp
    | ok value => simp

@[simp] theorem ok_query {f : σ → α} {result : α} {s s' : σ} :
    (query f : Stateful σ ε α) s = (.ok result, s') ↔ f s = result ∧ s = s' := by
  simp [query]

@[simp] theorem ok_execute {f : σ → σ} {result : Unit} {s s' : σ} :
    (execute f : Stateful σ ε Unit) s = (.ok result, s') ↔ f s = s' := by
  simp [execute]

@[simp] theorem ok_lift {outcome : Except ε α} {result : α} {s s' : σ} :
    (lift outcome : Stateful σ ε α) s = (.ok result, s') ↔ outcome = .ok result ∧ s = s' := by
  simp [lift]

@[simp] theorem ok_refuse {bad : Prop} [Decidable bad] {error : ε} {result : Unit} {s s' : σ} :
    (refuse bad error : Stateful σ ε Unit) s = (.ok result, s') ↔ ¬ bad ∧ s = s' := by
  by_cases h : bad
  · simp [refuse, h]
  · simp [refuse, h]

@[simp] theorem ok_expect {value : Option α} {error : ε} {result : α} {s s' : σ} :
    (expect value error : Stateful σ ε α) s = (.ok result, s') ↔ value = some result ∧ s = s' := by
  cases value with
  | none => simp [expect]
  | some value => simp [expect]

@[simp] theorem ok_transaction {body : Stateful σ ε α} {result : α} {s s' : σ} :
    transaction body s = (.ok result, s') ↔ body s = (.ok result, s') := by
  unfold transaction
  cases body s with
  | mk outcome after => cases outcome with
    | error error => simp
    | ok value => simp

/-- Mapping the result does not change what happens. -/
theorem run_map (f : α → β) (step : Stateful σ ε α) (s : σ) :
    (f <$> step) s = ((step s).1.map f, (step s).2) := by
  simp only [Functor.map]
  cases step s with
  | mk outcome after => cases outcome with
    | error error => rfl
    | ok value => rfl

theorem run_map_snd (f : α → β) (step : Stateful σ ε α) (s : σ) :
    ((f <$> step) s).2 = (step s).2 :=
  congrArg Prod.snd (run_map f step s)

@[simp] theorem ok_map {f : α → β} {step : Stateful σ ε α} {result : β} {s s' : σ} :
    (f <$> step) s = (.ok result, s') ↔ ∃ value, step s = (.ok value, s') ∧ f value = result := by
  rw [run_map]
  cases step s with
  | mk outcome after => cases outcome with
    | error error => simp [Except.map]
    | ok value => simp [Except.map, and_comm]

/-! ### A check or a reading comes first -/

theorem ok_bind_refuse {bad : Prop} [Decidable bad] {error : ε} {next : Unit → Stateful σ ε β}
    {result : β} {s s' : σ} :
    (refuse bad error >>= next) s = (.ok result, s') ↔ ¬ bad ∧ next () s = (.ok result, s') := by
  rw [ok_bind]
  constructor
  · rintro ⟨_, _, passed, done⟩
    obtain ⟨fine, rfl⟩ := ok_refuse.mp passed
    exact ⟨fine, done⟩
  · exact fun both => ⟨(), s, ok_refuse.mpr ⟨both.1, rfl⟩, both.2⟩

theorem ok_bind_lift {outcome : Except ε α} {next : α → Stateful σ ε β} {result : β} {s s' : σ} :
    (lift outcome >>= next) s = (.ok result, s') ↔
      ∃ value, outcome = .ok value ∧ next value s = (.ok result, s') := by
  rw [ok_bind]
  constructor
  · rintro ⟨value, _, lifted, done⟩
    obtain ⟨fine, rfl⟩ := ok_lift.mp lifted
    exact ⟨value, fine, done⟩
  · exact fun ⟨value, fine, done⟩ => ⟨value, s, ok_lift.mpr ⟨fine, rfl⟩, done⟩

theorem ok_bind_query {f : σ → α} {next : α → Stateful σ ε β} {result : β} {s s' : σ} :
    (query f >>= next) s = (.ok result, s') ↔
      ∃ value, f s = value ∧ next value s = (.ok result, s') := by
  rw [ok_bind]
  constructor
  · rintro ⟨value, _, looked, done⟩
    obtain ⟨same, rfl⟩ := ok_query.mp looked
    exact ⟨value, same, done⟩
  · exact fun ⟨value, same, done⟩ => ⟨value, s, ok_query.mpr ⟨same, rfl⟩, done⟩

/-- A step whose result is only put into a reply. -/
theorem ok_reply {reply : α → β} {step : Stateful σ ε α} {result : β} {s s' : σ} :
    (step >>= fun value => pure (reply value)) s = (.ok result, s') ↔
      ∃ value, step s = (.ok value, s') ∧ reply value = result := by
  rw [ok_bind]
  constructor
  · rintro ⟨value, _, done, last⟩
    obtain ⟨same, rfl⟩ := ok_pure.mp last
    exact ⟨value, done, same⟩
  · rintro ⟨value, done, same⟩
    exact ⟨value, s', done, ok_pure.mpr ⟨same, rfl⟩⟩

/-! ### Failure -/

/-- A chain fails when its first step does, or the rest does from there. -/
theorem error_bind {first : Stateful σ ε α} {next : α → Stateful σ ε β} {error : ε} {s s' : σ} :
    (first >>= next) s = (.error error, s') ↔
      first s = (.error error, s') ∨
        ∃ value mid, first s = (.ok value, mid) ∧ next value mid = (.error error, s') := by
  simp only [bind]
  cases first s with
  | mk outcome after => cases outcome with
    | error error => simp
    | ok value => simp

/-- The state is the same afterwards, whatever the outcome. -/
def ReadOnly (step : Stateful σ ε α) : Prop :=
  ∀ s, (step s).2 = s

/-- The state is the same after a failure. -/
def Atomic (step : Stateful σ ε α) : Prop :=
  ∀ s error s', step s = (.error error, s') → s' = s

/-- The state is the same after a failure that starts from it. -/
def AtomicAt (step : Stateful σ ε α) (s : σ) : Prop :=
  ∀ error s', step s = (.error error, s') → s' = s

theorem ReadOnly.same {step : Stateful σ ε α} (readOnly : ReadOnly step) {outcome : Except ε α}
    {s s' : σ} (done : step s = (outcome, s')) : s' = s := by
  have same := readOnly s
  rw [done] at same
  exact same

theorem ReadOnly.atomic {step : Stateful σ ε α} (readOnly : ReadOnly step) : Atomic step :=
  fun _ _ _ failed => readOnly.same failed

theorem readOnly_pure (value : α) : ReadOnly (pure value : Stateful σ ε α) := fun _ => rfl

theorem readOnly_query (f : σ → α) : ReadOnly (query f : Stateful σ ε α) := fun _ => rfl

theorem readOnly_lift (outcome : Except ε α) : ReadOnly (lift outcome : Stateful σ ε α) :=
  fun _ => rfl

theorem readOnly_refuse (bad : Prop) [Decidable bad] (error : ε) :
    ReadOnly (refuse bad error : Stateful σ ε Unit) := by
  intro s
  by_cases h : bad
  · simp [refuse, h]
  · simp [refuse, h]

theorem readOnly_expect (value : Option α) (error : ε) :
    ReadOnly (expect value error : Stateful σ ε α) := by
  intro s
  cases value with
  | none => rfl
  | some value => rfl

theorem ReadOnly.bind {first : Stateful σ ε α} {next : α → Stateful σ ε β}
    (one : ReadOnly first) (two : ∀ value, ReadOnly (next value)) : ReadOnly (first >>= next) := by
  intro s
  have same := one s
  simp only [Bind.bind]
  cases outcome : first s with
  | mk result after =>
      rw [outcome] at same
      obtain rfl := same
      cases result with
      | error error => rfl
      | ok value => exact two value after

theorem ReadOnly.reply {step : Stateful σ ε α} (readOnly : ReadOnly step) (reply : α → β) :
    ReadOnly (step >>= fun value => pure (reply value)) :=
  readOnly.bind (fun _ => readOnly_pure _)

/-- What `f` reads from the state is the same afterwards, whatever the outcome. -/
def Keeps {γ : Type} (f : σ → γ) (step : Stateful σ ε α) : Prop :=
  ∀ s, f (step s).2 = f s

theorem ReadOnly.keeps {γ : Type} {step : Stateful σ ε α} (readOnly : ReadOnly step) (f : σ → γ) :
    Keeps f step := by
  intro s
  rw [readOnly s]

theorem keeps_execute {γ : Type} {f : σ → γ} {change : σ → σ} (same : ∀ s, f (change s) = f s) :
    Keeps f (execute change : Stateful σ ε Unit) := same

theorem Keeps.bind {γ : Type} {f : σ → γ} {first : Stateful σ ε α} {next : α → Stateful σ ε β}
    (one : Keeps f first) (two : ∀ value, Keeps f (next value)) : Keeps f (first >>= next) := by
  intro s
  have same := one s
  simp only [Bind.bind]
  cases outcome : first s with
  | mk result after =>
      rw [outcome] at same
      cases result with
      | error error => exact same
      | ok value => exact (two value after).trans same

/-- The step leads along a relation, whatever the outcome. -/
def Moves (rel : σ → σ → Prop) (step : Stateful σ ε α) : Prop :=
  ∀ s, rel s (step s).2

section Moves

variable {rel : σ → σ → Prop}

theorem ReadOnly.moves {step : Stateful σ ε α} (readOnly : ReadOnly step)
    (refl : ∀ s, rel s s) : Moves rel step := by
  intro s
  rw [readOnly s]
  exact refl s

theorem moves_execute {change : σ → σ} (leads : ∀ s, rel s (change s)) :
    Moves rel (execute change : Stateful σ ε Unit) := leads

theorem Moves.bind {first : Stateful σ ε α} {next : α → Stateful σ ε β}
    (trans : ∀ a b c, rel a b → rel b c → rel a c) (one : Moves rel first)
    (two : ∀ value, Moves rel (next value)) : Moves rel (first >>= next) := by
  intro s
  have leads := one s
  simp only [Bind.bind]
  cases outcome : first s with
  | mk result after =>
      rw [outcome] at leads
      cases result with
      | error error => exact leads
      | ok value => exact trans _ _ _ leads (two value after)

/-- Checks and reads first: the rest leads from the same state. -/
theorem Moves.after_readOnly {first : Stateful σ ε α} {next : α → Stateful σ ε β}
    (refl : ∀ s, rel s s) (one : ReadOnly first) (two : ∀ value, Moves rel (next value)) :
    Moves rel (first >>= next) := by
  intro s
  have same := one s
  simp only [Bind.bind]
  cases outcome : first s with
  | mk result after =>
      rw [outcome] at same
      obtain rfl : after = s := same
      cases result with
      | error error => exact refl after
      | ok value => exact two value after

/-- A check first: the rest only has to lead along the relation when it is passed. -/
theorem Moves.after_refuse {bad : Prop} [Decidable bad] {error : ε}
    {next : Unit → Stateful σ ε β} (refl : ∀ s, rel s s) (rest : ¬ bad → Moves rel (next ())) :
    Moves rel (refuse bad error >>= next) := by
  intro s
  by_cases refused : bad
  · simp only [Bind.bind, refuse, if_pos refused]
    exact refl s
  · simp only [Bind.bind, refuse, if_neg refused]
    exact rest refused s

/-- What fails leads nowhere. -/
theorem Moves.transaction {body : Stateful σ ε α} (refl : ∀ s, rel s s) (moves : Moves rel body) :
    Moves rel (transaction body) := by
  intro s
  have leads := moves s
  unfold Stateful.transaction
  cases outcome : body s with
  | mk result after =>
      rw [outcome] at leads
      cases result with
      | error error => exact refl s
      | ok value => exact leads

theorem Moves.map {step : Stateful σ ε α} (moves : Moves rel step) (g : α → β) :
    Moves rel (g <$> step) := by
  intro s
  rw [run_map]
  exact moves s

end Moves

theorem atomic_execute (f : σ → σ) : Atomic (execute f : Stateful σ ε Unit) := by
  intro s error s' failed
  simp [execute] at failed

/-- Undoing what was written makes any step atomic. -/
theorem atomic_transaction (body : Stateful σ ε α) : Atomic (transaction body) := by
  intro s error s' failed
  unfold transaction at failed
  cases outcome : body s with
  | mk result after => cases result with
    | error other => simp_all
    | ok value => simp [outcome] at failed

/-- Checks first: a chain is atomic when it only reads before a step that is. -/
theorem Atomic.after_readOnly {first : Stateful σ ε α} {next : α → Stateful σ ε β}
    (one : ReadOnly first) (two : ∀ value, Atomic (next value)) : Atomic (first >>= next) := by
  intro s error s' failed
  rcases error_bind.mp failed with here | ⟨value, mid, passed, later⟩
  · exact one.atomic s error s' here
  · have same := one s
    rw [passed] at same
    rw [two value mid error s' later]
    exact same

/-- A check whose outcome the rest may rely on. -/
theorem AtomicAt.check {first : Stateful σ ε α} {next : α → Stateful σ ε β} {s : σ}
    (one : ReadOnly first)
    (two : ∀ value, first s = (.ok value, s) → AtomicAt (next value) s) :
    AtomicAt (first >>= next) s := by
  intro error s' failed
  rcases error_bind.mp failed with here | ⟨value, mid, passed, later⟩
  · exact one.atomic s error s' here
  · have same := one s
    rw [passed] at same
    obtain rfl : mid = s := same
    exact two value passed error s' later

/-- A step that does not fail. -/
theorem AtomicAt.of_ok {step : Stateful σ ε α} {value : α} {s s' : σ}
    (done : step s = (.ok value, s')) : AtomicAt step s := by
  intro error after failed
  rw [done] at failed
  cases failed

/-! ### Running a chain -/

/-- A chain goes on from where its first step succeeds. -/
theorem run_bind {first : Stateful σ ε α} {next : α → Stateful σ ε β} {value : α} {s mid : σ}
    (done : first s = (.ok value, mid)) : (first >>= next) s = next value mid := by
  simp only [bind, done]

theorem run_refuse {bad : Prop} [Decidable bad] (fine : ¬ bad) (error : ε) (s : σ) :
    (refuse bad error : Stateful σ ε Unit) s = (.ok (), s) :=
  ok_refuse.mpr ⟨fine, rfl⟩

@[simp] theorem run_execute (f : σ → σ) (s : σ) :
    (execute f : Stateful σ ε Unit) s = (.ok (), f s) := rfl

end Stateful
