/-
Module: PeerCove.Library.FilePrograms
Layer: Library
Purpose: Programs that look at a shared file, prepare an edit from what they saw, and carry it out
  under the lock of the file, while others edit the file between their steps; and the rules that say
  what such a program does to the file as long as the others keep a promise.
Trusted boundary: none
Main exports: FilePrograms.Program, Program.step, Program.alone, Program.Looks, Program.Edits,
  Program.Settles, Program.Edits.bind, Program.Edits.step, Program.alone_bind_ok
-/
import Mathlib.Logic.Function.Basic

namespace FilePrograms

variable {φ ε α β : Type}

/-- What is left to do of a program on a file. -/
inductive Program (φ ε α : Type) where
  | finish (result : Except ε α)
  | look (next : φ → Program φ ε α)
  /-- The file is read and written in one step; an error is the answer of the program. -/
  | edit (change : φ → Except ε φ) (next : Program φ ε α)

namespace Program

def bind : Program φ ε α → (α → Program φ ε β) → Program φ ε β
  | .finish (.ok value), rest => rest value
  | .finish (.error error), _ => .finish (.error error)
  | .look next, rest => .look (fun file => (next file).bind rest)
  | .edit change next, rest => .edit change (next.bind rest)

instance : Monad (Program φ ε) where
  pure value := .finish (.ok value)
  bind := bind

/-- A fallible computation touches no file. -/
instance : MonadLift (Except ε) (Program φ ε) where
  monadLift := .finish

def fail (error : ε) : Program φ ε α :=
  .finish (.error error)

/-- The contents of the file. -/
def read : Program φ ε φ :=
  .look (fun file => .finish (.ok file))

/-- Edit the file under its lock. -/
def write (change : φ → Except ε φ) : Program φ ε Unit :=
  .edit change (.finish (.ok ()))

/-- One step, with the file it leaves. -/
def step : Program φ ε α → φ → Option (Program φ ε α × φ)
  | .finish _, _ => none
  | .look next, file => some (next file, file)
  | .edit change next, file =>
      match change file with
      | .error error => some (.finish (.error error), file)
      | .ok written => some (next, written)

/-- The program when nobody else touches the file. -/
def alone : Program φ ε α → φ → Except ε α × φ
  | .finish result, file => (result, file)
  | .look next, file => (next file).alone file
  | .edit change next, file =>
      match change file with
      | .error error => (.error error, file)
      | .ok written => next.alone written

/-! ### What a program does -/

/-- It leaves the file alone, and what it finds out of files with `rely` has the property `post`. -/
inductive Looks (rely : φ → Prop) (post : α → Prop) : Program φ ε α → Prop where
  | ok {value : α} (found : post value) : Looks rely post (.finish (.ok value))
  | error {error : ε} : Looks rely post (.finish (.error error))
  | look {next : φ → Program φ ε α} (after : ∀ file, rely file → Looks rely post (next file)) :
      Looks rely post (.look next)

/-- It leaves the file alone and succeeds, as long as the file keeps `rely`. -/
inductive Settles (rely : φ → Prop) : Program φ ε α → Prop where
  | ok {value : α} : Settles rely (.finish (.ok value))
  | look {next : φ → Program φ ε α} (after : ∀ file, rely file → Settles rely (next file)) :
      Settles rely (.look next)

/-- It edits the file once at most.  While the file keeps `rely`, the edit has the given effect;
once it is made, the file has the property `later`, and the program succeeds as long as that
lasts. -/
inductive Edits (rely later : φ → Prop) (effect : φ → φ → Prop) : Program φ ε α → Prop where
  | finish {result : Except ε α} : Edits rely later effect (.finish result)
  | look {next : φ → Program φ ε α}
      (after : ∀ file, rely file → Edits rely later effect (next file)) :
      Edits rely later effect (.look next)
  | edit {change : φ → Except ε φ} {next : Program φ ε α}
      (makes : ∀ file written, rely file → change file = .ok written →
        effect file written ∧ later written) (settles : Settles later next) :
      Edits rely later effect (.edit change next)

variable {rely later : φ → Prop} {effect : φ → φ → Prop}

/-! ### Steps of a program -/

theorem Settles.of_look {next : φ → Program φ ε α} (settles : (Program.look next).Settles rely)
    {file : φ} (kept : rely file) : (next file).Settles rely := by
  cases settles with
  | look after => exact after file kept

theorem not_settles_edit {change : φ → Except ε φ} {next : Program φ ε α} :
    ¬ (Program.edit change next).Settles rely :=
  nofun

theorem not_settles_error {error : ε} :
    ¬ (Program.finish (.error error) : Program φ ε α).Settles rely :=
  nofun

theorem Edits.of_look {next : φ → Program φ ε α}
    (edits : (Program.look next).Edits rely later effect) {file : φ} (kept : rely file) :
    (next file).Edits rely later effect := by
  cases edits with
  | look after => exact after file kept

theorem Edits.of_edit {change : φ → Except ε φ} {next : Program φ ε α}
    (edits : (Program.edit change next).Edits rely later effect) {file written : φ}
    (kept : rely file) (changed : change file = .ok written) :
    effect file written ∧ later written ∧ next.Settles later := by
  cases edits with
  | edit makes settles =>
      rcases makes file written kept changed with ⟨made, lasts⟩
      exact ⟨made, lasts, settles⟩

/-- A program that has made its edit leaves the file as it is. -/
theorem Settles.step {program next : Program φ ε α} {file after : φ}
    (settles : program.Settles rely) (kept : rely file)
    (happens : program.step file = some (next, after)) :
    after = file ∧ next.Settles rely := by
  cases program with
  | finish result => cases happens
  | look continue_ =>
      cases happens
      exact ⟨rfl, settles.of_look kept⟩
  | edit change continue_ => exact absurd settles not_settles_edit

/-- A step leaves the file alone or is the edit. -/
theorem Edits.step {program next : Program φ ε α} {file after : φ}
    (edits : program.Edits rely later effect) (kept : rely file)
    (happens : program.step file = some (next, after)) :
    (after = file ∧ next.Edits rely later effect) ∨
      (effect file after ∧ later after ∧ next.Settles later) := by
  cases program with
  | finish result => cases happens
  | look continue_ =>
      cases happens
      exact Or.inl ⟨rfl, edits.of_look kept⟩
  | edit change continue_ =>
      simp only [Program.step] at happens
      cases changed : change file with
      | error error =>
          rw [changed] at happens
          cases happens
          exact Or.inl ⟨rfl, .finish⟩
      | ok written =>
          rw [changed] at happens
          cases happens
          exact Or.inr (edits.of_edit kept changed)

/-! ### Composition -/

theorem Edits.imp {effect' : φ → φ → Prop} {program : Program φ ε α}
    (edits : program.Edits rely later effect)
    (weaker : ∀ before after, effect before after → effect' before after) :
    program.Edits rely later effect' := by
  induction edits with
  | finish => exact .finish
  | look _ ih => exact .look ih
  | edit makes settles =>
      refine .edit (fun file written kept changed => ?_) settles
      rcases makes file written kept changed with ⟨made, lasts⟩
      exact ⟨weaker file written made, lasts⟩

theorem Looks.bind {post : α → Prop} {post' : β → Prop} {program : Program φ ε α}
    {rest : α → Program φ ε β} (looks : program.Looks rely post)
    (then_ : ∀ value, post value → (rest value).Looks rely post') :
    (program >>= rest).Looks rely post' := by
  change (program.bind rest).Looks rely post'
  induction looks with
  | ok found => exact then_ _ found
  | error => exact .error
  | look _ ih => exact .look ih

theorem looks_pure {post : α → Prop} {value : α} (found : post value) :
    (pure value : Program φ ε α).Looks rely post :=
  .ok found

theorem looks_read : (read : Program φ ε φ).Looks rely rely :=
  .look (fun _ kept => .ok kept)

theorem looks_lift {post : α → Prop} {outcome : Except ε α}
    (found : ∀ value, outcome = .ok value → post value) :
    (liftM outcome : Program φ ε α).Looks rely post := by
  cases outcome with
  | error error => exact .error
  | ok value => exact .ok (found value rfl)

/-- Look first, edit afterwards. -/
theorem Edits.bind {post : α → Prop} {program : Program φ ε α} {rest : α → Program φ ε β}
    (looks : program.Looks rely post)
    (then_ : ∀ value, post value → (rest value).Edits rely later effect) :
    (program >>= rest).Edits rely later effect := by
  change (program.bind rest).Edits rely later effect
  induction looks with
  | ok found => exact then_ _ found
  | error => exact .finish
  | look _ ih => exact .look ih

theorem Settles.bind {program : Program φ ε α} {rest : α → Program φ ε β}
    (settles : program.Settles rely) (then_ : ∀ value, (rest value).Settles rely) :
    (program >>= rest).Settles rely := by
  change (program.bind rest).Settles rely
  induction settles with
  | ok => exact then_ _
  | look _ ih => exact .look ih

/-- Edit first; what follows leaves the file alone. -/
theorem Edits.then_settles {program : Program φ ε α} {rest : α → Program φ ε β}
    (edits : program.Edits rely later effect)
    (idle : ∀ value, (rest value).Edits rely later effect)
    (settles : ∀ value, (rest value).Settles later) :
    (program >>= rest).Edits rely later effect := by
  change (program.bind rest).Edits rely later effect
  induction edits with
  | @finish result =>
      cases result with
      | error error => exact .finish
      | ok value => exact idle value
  | look _ ih => exact .look ih
  | edit makes done => exact .edit makes (done.bind settles)

/-! ### Programs alone -/

theorem alone_bind (program : Program φ ε α) (rest : α → Program φ ε β) (file : φ) :
    (program >>= rest).alone file =
      match program.alone file with
      | (.ok value, left) => (rest value).alone left
      | (.error error, left) => (.error error, left) := by
  change (program.bind rest).alone file = _
  induction program generalizing file with
  | finish result =>
      cases result with
      | error error => rfl
      | ok value => rfl
  | look next ih => exact ih file file
  | edit change next ih =>
      simp only [bind, alone]
      cases change file with
      | error error => rfl
      | ok written => exact ih written

/-- A program in two parts succeeds when the second does after the first. -/
theorem alone_bind_ok {program : Program φ ε α} {rest : α → Program φ ε β} {file written : φ}
    {value : β} : (program >>= rest).alone file = (.ok value, written) ↔
      ∃ found left, program.alone file = (.ok found, left) ∧
        (rest found).alone left = (.ok value, written) := by
  rw [alone_bind]
  cases program.alone file with
  | mk result left =>
      cases result with
      | error error => simp
      | ok found =>
          constructor
          · exact fun done => ⟨found, left, rfl, done⟩
          · rintro ⟨_, _, same, done⟩
            cases same
            exact done

theorem alone_pure_ok {file written : φ} {found value : α} :
    (pure found : Program φ ε α).alone file = (.ok value, written) ↔
      found = value ∧ file = written := by
  change (Except.ok found, file) = (.ok value, written) ↔ _
  rw [Prod.mk.injEq, Except.ok.injEq]

theorem alone_lift_ok {outcome : Except ε α} {file written : φ} {value : α} :
    (liftM outcome : Program φ ε α).alone file = (.ok value, written) ↔
      outcome = .ok value ∧ file = written := by
  change (outcome, file) = (.ok value, written) ↔ _
  rw [Prod.mk.injEq]

theorem alone_read_ok {file written value : φ} :
    (read : Program φ ε φ).alone file = (.ok value, written) ↔ file = value ∧ file = written := by
  change (Except.ok file, file) = (.ok value, written) ↔ _
  rw [Prod.mk.injEq, Except.ok.injEq]

theorem alone_write_ok {change : φ → Except ε φ} {file written : φ} {value : Unit} :
    (write change).alone file = (.ok value, written) ↔ change file = .ok written := by
  simp only [write, alone]
  cases change file with
  | error error => simp
  | ok changed => simp

theorem edits_write {change : φ → Except ε φ}
    (makes : ∀ file written, rely file → change file = .ok written →
      effect file written ∧ later written) : (write change).Edits rely later effect :=
  .edit makes .ok

end Program

end FilePrograms
