/-
Module: PeerCove.Ops.KeyFiles
Layer: Operations
Purpose: The key files of a device: the settled private key, and the new one that waits for the
  host's answer.
Trusted boundary: what a read or a write of a file comes to is an input
Main exports: KeyFiles, FileOutcomes, loadPending, ensurePending, commitPending, discardPending
-/
import PeerCove.Core.Config

namespace PeerCove

/-- Where the device's private key comes from. -/
inductive KeySource where
  | token
  | selfGenerated
deriving Repr, DecidableEq

/-- `member.key`, `member.key.new`, and the `key_source` of `member.toml`.  A file that is not
there, or holds no key, is `none`. -/
structure KeyFiles (κ : Type) where
  current : Option κ
  pending : Option κ := none
  keySource : Option KeySource := none

/-- The private keys a device still has. -/
def KeyFiles.stored {κ : Type} (files : KeyFiles κ) : List κ :=
  files.current.toList ++ files.pending.toList

/-- What comes of `write_secret_file`: the file is truncated before it is written. -/
inductive FileWrite where
  | done
  | untouched
  | torn
deriving Repr, DecidableEq

/-- What the next accesses to the files come to, and the key that `PrivateKey::generate` draws. -/
structure FileOutcomes (κ : Type) where
  generated : κ
  /-- `member.key.new` can be read when it is there. -/
  pendingReadable : Bool := true
  pendingWrite : FileWrite := .done
  currentWrite : FileWrite := .done
  pendingRemoved : Bool := true
  /-- `mark_key_self` succeeds. -/
  sourceMarked : Bool := true

section

variable {κ : Type}

/-- The new key, unless it is absent or cannot be read. -/
def loadPending (readable : Bool) (files : KeyFiles κ) : Option κ :=
  if readable then files.pending else none

variable (io : FileOutcomes κ)

/-- The new key: the one that waits already, or else a fresh one. -/
def ensurePending (files : KeyFiles κ) : Option κ × KeyFiles κ :=
  match loadPending io.pendingReadable files with
  | some key => (some key, files)
  | none => match io.pendingWrite with
    | .done => (some io.generated, { files with pending := some io.generated })
    | .untouched => (none, files)
    | .torn => (none, { files with pending := none })

/-- The new key becomes the settled one. -/
def commitPending (files : KeyFiles κ) : Bool × KeyFiles κ :=
  match loadPending io.pendingReadable files with
  | none => (false, files)
  | some key => match io.currentWrite with
    | .done => (true, {
        current := some key
        pending := if io.pendingRemoved then none else files.pending
        keySource := if io.sourceMarked then some .selfGenerated else files.keySource })
    | .untouched => (false, files)
    | .torn => (false, { files with current := none })

/-- The new key is given up. -/
def discardPending (files : KeyFiles κ) : KeyFiles κ :=
  { files with pending := if io.pendingRemoved then none else files.pending }

end

/-! ### What is left in the files -/

section

variable {κ : Type} {io : FileOutcomes κ} {files : KeyFiles κ}

theorem loadPending_some {readable : Bool} {key : κ}
    (loaded : loadPending readable files = some key) :
    files.pending = some key := by
  unfold loadPending at loaded
  split at loaded
  · exact loaded
  · cases loaded

theorem loadPending_readable (readable : io.pendingReadable = true ∨ files.pending = none) :
    loadPending io.pendingReadable files = files.pending := by
  unfold loadPending
  rcases readable with readable | absent
  · rw [if_pos readable]
  · rw [absent, ite_self]

/-- A readable new key is used again; otherwise only a fresh key takes its place. -/
theorem ensurePending_spec (readable : io.pendingReadable = true ∨ files.pending = none) :
    (ensurePending io files).2.current = files.current ∧
      ((ensurePending io files).2.pending = files.pending ∨
        files.pending = none ∧ (ensurePending io files).2.pending = some io.generated) ∧
      ∀ key, (ensurePending io files).1 = some key →
        (ensurePending io files).2.pending = some key := by
  unfold ensurePending
  rw [loadPending_readable readable]
  cases there : files.pending with
  | some key =>
      refine ⟨rfl, Or.inl there, ?_⟩
      intro other same
      rw [there]
      exact same
  | none =>
      cases io.pendingWrite with
      | done => exact ⟨rfl, Or.inr ⟨rfl, rfl⟩, fun key same => same⟩
      | untouched => exact ⟨rfl, Or.inl there, nofun⟩
      | torn => exact ⟨rfl, Or.inl rfl, nofun⟩

/-- The files after a commit: unchanged, or without a settled key, or with the new key as the
settled one. -/
theorem commitPending_cases (io : FileOutcomes κ) (files : KeyFiles κ) :
    (commitPending io files).2 = files ∨
      ∃ key, files.pending = some key ∧
        ((commitPending io files).2.pending = none ∨
          (commitPending io files).2.pending = files.pending) ∧
        key ∈ (commitPending io files).2.stored := by
  unfold commitPending
  cases loaded : loadPending io.pendingReadable files with
  | none => exact Or.inl rfl
  | some key =>
      have there := loadPending_some loaded
      cases io.currentWrite with
      | done =>
          refine Or.inr ⟨key, there, ?_, List.mem_cons_self⟩
          cases io.pendingRemoved with
          | false => exact Or.inr rfl
          | true => exact Or.inl rfl
      | untouched => exact Or.inl rfl
      | torn =>
          refine Or.inr ⟨key, there, Or.inr rfl, ?_⟩
          simp [KeyFiles.stored, there]

theorem discardPending_pending :
    (discardPending io files).pending = none ∨
      (discardPending io files).pending = files.pending := by
  unfold discardPending
  cases io.pendingRemoved with
  | false => exact Or.inr rfl
  | true => exact Or.inl rfl

end

end PeerCove
