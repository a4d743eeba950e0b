/-
Module: PeerCove.Ops.QualityStore
Layer: Ops
Purpose: The history of connection quality that a device keeps: samples of one minute, in memory and
  in one file for each local day, and what is pruned of both.
Trusted boundary: the measured figures, how they are gathered and the length of a line are
  parameters; file operations succeed; `finished`, `deleted` and `clock` are history
Main exports: localDate, civilDate, QualityStore.observe, QualityStore.load, QualityStore.prune,
  QualityStore.step
-/
import PeerCove.Library.PaddedDecimal
import PeerCove.Library.Table
import Mathlib.Data.List.Sort

namespace PeerCove

def WINDOW_MS : Nat := 60000

def RETENTION_DAYS : Nat := 7

def RETENTION_MS : Nat := RETENTION_DAYS * 24 * 60 * 60 * 1000

def MAX_TOTAL_BYTES : Nat := 32 * 1024 * 1024

def DAY_LENGTH_MS : Nat := 86400000

/-! ### Local dates -/

structure CivilDay where
  year : Nat
  month : Nat
  day : Nat
deriving DecidableEq, Repr

/-- The fields of `civil_date`, whose days are never before 1970. -/
def civilDay (unixMs : Nat) : CivilDay :=
  let days := unixMs / DAY_LENGTH_MS
  let z := days + 719468
  let era := z / 146097
  let doe := z - era * 146097
  let yoe := (doe - doe / 1460 + doe / 36524 - doe / 146096) / 365
  let year := yoe + era * 400
  let doy := doe - (365 * yoe + yoe / 4 - yoe / 100)
  let mp := (5 * doy + 2) / 153
  let day := doy - (153 * mp + 2) / 5 + 1
  let month := if mp < 10 then mp + 3 else mp - 9
  { year := if month ≤ 2 then year + 1 else year, month, day }

/-- `YYYY-MM-DD`. -/
def CivilDay.text (date : CivilDay) : String :=
  String.ofList (PaddedDecimal.padded 4 date.year ++ '-' :: PaddedDecimal.padded 2 date.month
    ++ '-' :: PaddedDecimal.padded 2 date.day)

def civilDate (unixMs : Nat) : String :=
  (civilDay unixMs).text

/-- A time by the clock of the time zone, not before 1970. -/
def localTime (offset : Int) (unixMs : Nat) : Nat :=
  (max (unixMs + offset) 0).toNat

def localDate (offset : Int) (unixMs : Nat) : String :=
  civilDate (localTime offset unixMs)

/-! ### The store -/

/-- A line of the history; its other figures are of no concern here. -/
structure QualitySample (φ : Type) where
  windowStartUnixMs : Nat
  publicKey : String
  figures : φ
deriving DecidableEq

/-- The window and the peer of a sample. -/
def QualitySample.pair {φ : Type} (sample : QualitySample φ) : Nat × String :=
  (sample.windowStartUnixMs, sample.publicKey)

/-- How readings of one peer are gathered over a window, and the length of a line in its file. -/
structure QualityMeasure (α ρ φ : Type) where
  fresh : α
  absorb : α → ρ → α
  sample : α → Nat → Nat → φ
  bytes : QualitySample φ → Nat

structure QualityStore (α φ : Type) where
  entries : List (QualitySample φ) := []
  currentWindow : Option Nat := none
  current : Table String α := Table.empty
  /-- The lines of each file of the directory, by the stem of its name. -/
  files : Table String (List (QualitySample φ)) := Table.empty
  /-- Every sample whose window was completed. -/
  finished : List (QualitySample φ) := []
  /-- The files that were pruned, with the time they were pruned for. -/
  deleted : List (Nat × List (QualitySample φ)) := []
  /-- The time of the last call. -/
  clock : Nat := 0

namespace QualityStore

variable {α ρ φ : Type} (measure : QualityMeasure α ρ φ) (offset : Int)

/-- All lines of the files of a directory. -/
def lines (store : QualityStore α φ) : List (QualitySample φ) :=
  store.files.rows.flatMap (fun file => file.2)

def fileSize (file : List (QualitySample φ)) : Nat :=
  file.foldr (fun sample total => measure.bytes sample + total) 0

def totalSize (files : List (String × List (QualitySample φ))) : Nat :=
  files.foldr (fun file total => fileSize measure file.2 + total) 0

def cutoff (now : Nat) : Nat :=
  now - RETENTION_MS

/-- The last loop of `prune`: the oldest files, until the rest is small enough. -/
def oversize : Nat → List (String × List (QualitySample φ)) → List (String × List (QualitySample φ))
  | _, [] => []
  | total, file :: rest =>
      if total ≤ MAX_TOTAL_BYTES then []
      else file :: oversize (total - fileSize measure file.2) rest

def sortedFiles (store : QualityStore α φ) : List (String × List (QualitySample φ)) :=
  store.files.rows.insertionSort (fun one two => one.1 ≤ two.1)

/-- The files of the days before the cut-off day. -/
def outdated (store : QualityStore α φ) (now : Nat) : List (String × List (QualitySample φ)) :=
  store.sortedFiles.filter (fun file => file.1 < localDate offset (cutoff now))

/-- The files of the days from the cut-off day on. -/
def remaining (store : QualityStore α φ) (now : Nat) : List (String × List (QualitySample φ)) :=
  store.sortedFiles.filter (fun file => ¬ file.1 < localDate offset (cutoff now))

def removeFile (store : QualityStore α φ) (now : Nat) (file : String × List (QualitySample φ)) :
    QualityStore α φ :=
  { store with
    files := store.files.erase file.1
    deleted := store.deleted ++ [(now, file.2)] }

def prune (store : QualityStore α φ) (now : Nat) : QualityStore α φ :=
  let left := remaining offset store now
  let gone := outdated offset store now ++ oversize measure (totalSize measure left) left
  gone.foldl (fun store file => store.removeFile now file)
    { store with
      entries := store.entries.filter (fun sample => sample.windowStartUnixMs ≥ cutoff now) }

/-- One line at the end of the file of the day of its window. -/
def append (store : QualityStore α φ) (sample : QualitySample φ) : QualityStore α φ :=
  let name := localDate offset sample.windowStartUnixMs
  { store with files := store.files.insert name ((store.files.get? name).getD [] ++ [sample]) }

/-- The samples of the window that ends. -/
def finishedSamples (store : QualityStore α φ) (window : Nat) : List (QualitySample φ) :=
  store.current.rows.map (fun entry =>
    { windowStartUnixMs := window, publicKey := entry.1,
      figures := measure.sample entry.2 window (window + WINDOW_MS) })

/-- What `finish_window` does before it prunes. -/
def writeWindow (store : QualityStore α φ) (window next : Nat) : QualityStore α φ :=
  let finished := finishedSamples measure store window
  let written := finished.foldl (append offset) store
  { written with
    entries := written.entries ++ finished
    current := Table.empty
    currentWindow := some next
    finished := written.finished ++ finished }

def finishWindow (store : QualityStore α φ) (next : Nat) : QualityStore α φ :=
  match store.currentWindow with
  | none => store
  | some window => prune measure offset (writeWindow measure offset store window next) next

/-- A reading goes to the aggregate of its peer. -/
def gather (current : Table String α) (reading : String × ρ) : Table String α :=
  current.insert reading.1
    (measure.absorb ((current.get? reading.1).getD measure.fresh) reading.2)

def windowOf (now : Nat) : Nat :=
  now / WINDOW_MS * WINDOW_MS

/-- One tick, with a reading for each peer of the ledger but the device itself. -/
def observe (store : QualityStore α φ) (now : Nat) (readings : List (String × ρ)) :
    QualityStore α φ :=
  let window := windowOf now
  let store :=
    if store.currentWindow.any (fun current => current ≠ window) then
      finishWindow measure offset store window
    else store
  { store with
    currentWindow := some (store.currentWindow.getD window)
    current := readings.foldl (gather measure) store.current
    clock := now }

/-- The history as the files have it, when the daemon starts. -/
def readHistory (store : QualityStore α φ) (now : Nat) : QualityStore α φ :=
  let read := store.lines.filter (fun sample => sample.windowStartUnixMs ≥ cutoff now)
  prune measure offset
    { store with
      entries := (store.entries ++ read).insertionSort
        (fun one two => one.windowStartUnixMs ≤ two.windowStartUnixMs) } now

/-- A new store over the directory of this one. -/
def load (store : QualityStore α φ) (now : Nat) : QualityStore α φ :=
  readHistory measure offset
    { files := store.files, finished := store.finished, deleted := store.deleted, clock := now } now

end QualityStore

inductive QualityEvent (ρ : Type) where
  | observe (now : Nat) (readings : List (String × ρ))
  | load (now : Nat)

namespace QualityEvent

variable {ρ : Type}

def now : QualityEvent ρ → Nat
  | observe now _ => now
  | load now => now

end QualityEvent

namespace QualityStore

variable {α ρ φ : Type} (measure : QualityMeasure α ρ φ) (offset : Int)

def step (event : QualityEvent ρ) (store : QualityStore α φ) : Option (QualityStore α φ) :=
  match event with
  | .observe now readings => some (observe measure offset store now readings)
  | .load now => some (load measure offset store now)

/-- The files that a call of `prune` finds and leaves by their dates are within the size limit. -/
def WithinLimit (store : QualityStore α φ) (now : Nat) : Prop :=
  totalSize measure (remaining offset store now) ≤ MAX_TOTAL_BYTES

instance (store : QualityStore α φ) (now : Nat) :
    Decidable (WithinLimit measure offset store now) :=
  inferInstanceAs (Decidable (_ ≤ _))

/-- An event does not come before the last one, its local date has a year of four digits, and the
files stay within the size limit at it. -/
def Orderly (event : QualityEvent ρ) (store : QualityStore α φ) : Prop :=
  store.clock ≤ event.now ∧ (civilDay (localTime offset event.now)).year < 10000 ∧
    match event with
    | .observe now _ =>
        match store.currentWindow with
        | none => True
        | some window => window ≠ windowOf now →
            WithinLimit measure offset (writeWindow measure offset store window (windowOf now))
              (windowOf now)
    | .load now => WithinLimit measure offset store now

instance (event : QualityEvent ρ) (store : QualityStore α φ) :
    Decidable (Orderly measure offset event store) :=
  match event with
  | .load _ => inferInstanceAs (Decidable (_ ∧ _ ∧ _))
  | .observe _ _ =>
      match current : store.currentWindow with
      | none => decidable_of_iff (_ ∧ _ ∧ True) (by simp only [Orderly, current]; rfl)
      | some window =>
          decidable_of_iff (_ ∧ _ ∧ (window ≠ windowOf _ → WithinLimit measure offset
            (writeWindow measure offset store window (windowOf _)) (windowOf _)))
            (by simp only [Orderly, current]; rfl)

end QualityStore

end PeerCove
