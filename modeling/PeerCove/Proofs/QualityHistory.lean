/-
Module: PeerCove.Proofs.QualityHistory
Layer: Proofs
Purpose: What the quality history keeps over any run of ticks and restarts: after a window is
  completed, memory and files hold each recent sample once, and nothing recent was pruned.
Trusted boundary: none
Main exports: QualityStore.Sound, QualityStore.HistoryKept, history_kept, reload_differs
-/
import PeerCove.Library.Runs
import PeerCove.Proofs.QualityDates
import Mathlib.Data.List.Flatten

namespace PeerCove

namespace QualityStore

variable {α ρ φ : Type} {measure : QualityMeasure α ρ φ} {offset : Int}

/-! ### Pruning -/

theorem foldl_removeFile (now : Nat) (gone : List (String × List (QualitySample φ)))
    (store : QualityStore α φ) :
    gone.foldl (fun store file => store.removeFile now file) store =
      { store with
        files := store.files.filter (fun name _ => gone.all (fun file => file.1 ≠ name))
        deleted := store.deleted ++ gone.map (fun file => (now, file.2)) } := by
  induction gone generalizing store with
  | nil =>
      have same : store.files.filter (fun _ _ => true) = store.files :=
        Table.filter_eq_self (fun _ _ => rfl)
      simp [same]
  | cons file rest ih =>
      rw [List.foldl_cons, ih]
      have files : (store.removeFile now file).files.filter
          (fun name _ => rest.all (fun other => other.1 ≠ name))
          = store.files.filter
            (fun name _ => (file :: rest).all (fun other => other.1 ≠ name)) := by
        apply Table.ext
        simp only [removeFile, Table.filter, Table.erase, List.filter_filter, List.all_cons]
        apply List.filter_congr
        intro entry _
        rw [Bool.and_comm]
        congr 1
        simp [eq_comm]
      rw [files]
      simp [removeFile]

theorem mem_sortedFiles {store : QualityStore α φ} {file : String × List (QualitySample φ)} :
    file ∈ store.sortedFiles ↔ file ∈ store.files.rows :=
  List.mem_insertionSort _

/-- Within the size limit, `prune` removes the samples and the files before the cut-off. -/
theorem prune_eq {store : QualityStore α φ} {now : Nat}
    (room : WithinLimit measure offset store now) :
    prune measure offset store now =
      { store with
        entries := store.entries.filter (fun sample => sample.windowStartUnixMs ≥ cutoff now)
        files := store.files.filter (fun name _ => ¬ name < localDate offset (cutoff now))
        deleted := store.deleted
          ++ (outdated offset store now).map (fun file => (now, file.2)) } := by
  have none : oversize measure (totalSize measure (remaining offset store now))
      (remaining offset store now) = [] := by
    unfold WithinLimit at room
    cases left : remaining offset store now with
    | nil => rfl
    | cons file rest =>
        rw [left] at room
        exact if_pos room
  rw [prune, none, List.append_nil, foldl_removeFile]
  congr 1
  apply Table.ext
  apply List.filter_congr
  intro entry listed
  dsimp only
  by_cases old : entry.1 < localDate offset (cutoff now)
  · have isOld : entry ∈ outdated offset store now :=
      List.mem_filter.mpr ⟨mem_sortedFiles.mpr listed, decide_eq_true old⟩
    have removed : (outdated offset store now).all (fun file => file.1 ≠ entry.1) = false := by
      rw [List.all_eq_false]
      exact ⟨entry, isOld, by simp⟩
    rw [removed]
    simp [old]
  · have kept : (outdated offset store now).all (fun file => file.1 ≠ entry.1) = true := by
      rw [List.all_eq_true]
      intro file isOld
      have isBefore := of_decide_eq_true (List.mem_filter.mp isOld).2
      apply decide_eq_true
      intro same
      rw [same] at isBefore
      exact old isBefore
    rw [kept]
    simp [old]

/-! ### Writing -/

/-- What a sample adds to the lines of the directory. -/
theorem lines_append (offset : Int) (store : QualityStore α φ) (sample : QualitySample φ) :
    (append offset store sample).lines.Perm (store.lines ++ [sample]) := by
  unfold lines append
  dsimp only
  cases found : store.files.get? (localDate offset sample.windowStartUnixMs) with
  | none =>
      rw [Table.rows_insert found]
      simp
  | some file =>
      have rows := (Table.rows_perm found).flatMap_right (fun file => file.2)
      change ((store.files.erase _).rows ++ [(_, file ++ [sample])]).flatMap _ |>.Perm _
      rw [List.flatMap_append, List.flatMap_singleton, ← List.append_assoc]
      apply List.Perm.append_right
      exact List.perm_append_comm.trans rows

/-- Every file holds lines, all of the day that names it. -/
def NamedByDay (offset : Int) (store : QualityStore α φ) : Prop :=
  ∀ file ∈ store.files.rows, file.2 ≠ [] ∧
    ∀ sample ∈ file.2, localDate offset sample.windowStartUnixMs = file.1

theorem NamedByDay.append {store : QualityStore α φ} (named : NamedByDay offset store)
    (sample : QualitySample φ) : NamedByDay offset (append offset store sample) := by
  intro file listed
  change file ∈ (store.files.erase _).rows ++ [_] at listed
  rcases List.mem_append.mp listed with old | new
  · exact named file (List.mem_filter.mp old).1
  · obtain rfl := List.mem_singleton.mp new
    dsimp only
    refine ⟨by simp, fun other member => ?_⟩
    rcases List.mem_append.mp member with before | single
    · cases found : store.files.get? (localDate offset sample.windowStartUnixMs) with
      | none => simp [found] at before
      | some lines =>
          rw [found] at before
          exact (named _ (Table.get?_eq_some.mp found)).2 other before
    · rw [List.mem_singleton.mp single]

/-- Writing samples changes the files only. -/
theorem foldl_append_frame (samples : List (QualitySample φ)) (store : QualityStore α φ) :
    samples.foldl (append offset) store =
      { store with files := (samples.foldl (append offset) store).files } := by
  induction samples generalizing store with
  | nil => rfl
  | cons sample rest ih =>
      rw [List.foldl_cons, ih]
      rfl

theorem lines_foldl_append (offset : Int) (samples : List (QualitySample φ))
    (store : QualityStore α φ) :
    (samples.foldl (append offset) store).lines.Perm (store.lines ++ samples) := by
  induction samples generalizing store with
  | nil => simp
  | cons sample rest ih =>
      rw [List.foldl_cons]
      refine (ih _).trans ?_
      have first := (lines_append offset store sample).append_right rest
      rw [List.append_assoc] at first
      exact first

theorem NamedByDay.foldl_append {samples : List (QualitySample φ)} {store : QualityStore α φ}
    (named : NamedByDay offset store) :
    NamedByDay offset (samples.foldl (QualityStore.append offset) store) := by
  induction samples generalizing store with
  | nil => exact named
  | cons sample rest ih => exact ih (named.append sample)

/-! ### The invariant -/

/-- Memory and files hold each recent sample, once, where samples count as recent at a time. -/
structure Sound (offset : Int) (time : Nat) (store : QualityStore α φ) : Prop where
  before : ∀ sample ∈ store.finished, sample.windowStartUnixMs < windowOf time
  recent : ∀ sample ∈ store.finished, cutoff time ≤ sample.windowStartUnixMs →
    sample ∈ store.entries ∧ sample ∈ store.lines
  inMemory : ∀ sample ∈ store.entries, sample ∈ store.finished
  onDisk : ∀ sample ∈ store.lines, sample ∈ store.finished
  onceInMemory : (store.entries.map QualitySample.pair).Nodup
  onceOnDisk : (store.lines.map QualitySample.pair).Nodup
  named : NamedByDay offset store
  deleted : ∀ file ∈ store.deleted, ∀ sample ∈ file.2,
    sample.windowStartUnixMs < cutoff file.1

theorem windowOf_le (now : Nat) : windowOf now ≤ now :=
  Nat.div_mul_le_self now WINDOW_MS

theorem windowOf_mono {one two : Nat} (ordered : one ≤ two) : windowOf one ≤ windowOf two :=
  Nat.mul_le_mul_right _ (Nat.div_le_div_right ordered)

theorem windowOf_windowOf (now : Nat) : windowOf (windowOf now) = windowOf now := by
  rw [windowOf, windowOf, Nat.mul_div_cancel _ (by decide)]

/-- Between two different windows lies the end of the first one. -/
theorem lt_windowOf {one two : Nat} (ordered : one ≤ two) (differ : windowOf one ≠ windowOf two) :
    one < windowOf two := by
  unfold windowOf WINDOW_MS at *
  omega

theorem cutoff_mono {one two : Nat} (ordered : one ≤ two) : cutoff one ≤ cutoff two :=
  Nat.sub_le_sub_right ordered _

theorem sound_empty (time : Nat) : Sound offset time ({} : QualityStore α φ) where
  before := by simp
  recent := by simp
  inMemory := by simp
  onDisk := by simp [lines, Table.empty]
  onceInMemory := by simp
  onceOnDisk := by simp [lines, Table.empty]
  named := by simp [NamedByDay, Table.empty]
  deleted := by simp

/-- With time, fewer samples are recent. -/
theorem Sound.later {one two : Nat} {store : QualityStore α φ} (sound : Sound offset one store)
    (ordered : one ≤ two) : Sound offset two store :=
  { sound with
    before := fun sample member =>
      Nat.lt_of_lt_of_le (sound.before sample member) (windowOf_mono ordered)
    recent := fun sample member fresh =>
      sound.recent sample member (Nat.le_trans (cutoff_mono ordered) fresh) }

/-- The years of the samples have four digits, as that of the time has. -/
theorem Sound.year {time : Nat} {store : QualityStore α φ} (sound : Sound offset time store)
    (year : (civilDay (localTime offset time)).year < 10000) {sample : QualitySample φ}
    (member : sample ∈ store.finished) :
    (civilDay (localTime offset sample.windowStartUnixMs)).year < 10000 := by
  have early := Nat.lt_of_lt_of_le (sound.before sample member) (windowOf_le time)
  exact Nat.lt_of_le_of_lt (localYear_mono (Nat.le_of_lt early)) year

theorem mem_lines {store : QualityStore α φ} {sample : QualitySample φ} :
    sample ∈ store.lines ↔ ∃ file ∈ store.files.rows, sample ∈ file.2 :=
  List.mem_flatMap

/-- Pruning keeps what is recent. -/
theorem Sound.prune {now : Nat} {store : QualityStore α φ} (sound : Sound offset now store)
    (room : WithinLimit measure offset store now)
    (year : (civilDay (localTime offset now)).year < 10000) :
    Sound offset now (prune measure offset store now) := by
  rw [prune_eq room]
  have fewer : ∀ kept : Table String (List (QualitySample φ)),
      kept.rows.Sublist store.files.rows →
      (kept.rows.flatMap (fun file => file.2)).Sublist store.lines :=
    fun kept sub => sub.flatMap _
  have sub := fewer (store.files.filter (fun name _ => ¬ name < localDate offset (cutoff now)))
    List.filter_sublist
  constructor
  · exact sound.before
  · intro sample member fresh
    obtain ⟨listed, written⟩ := sound.recent sample member fresh
    refine ⟨List.mem_filter.mpr ⟨listed, decide_eq_true fresh⟩, ?_⟩
    obtain ⟨file, ofDay, inFile⟩ := mem_lines.mp written
    refine mem_lines.mpr ⟨file, List.mem_filter.mpr ⟨ofDay, ?_⟩, inFile⟩
    -- a recent sample is not of a day before the cut-off day
    have notBefore := not_localDate_lt (localDay_mono fresh) (sound.year year member)
    rw [(sound.named file ofDay).2 sample inFile] at notBefore
    exact decide_eq_true notBefore
  · exact fun sample member => sound.inMemory sample (List.mem_filter.mp member).1
  · exact fun sample member => sound.onDisk sample (sub.subset member)
  · exact sound.onceInMemory.sublist (List.filter_sublist.map _)
  · exact sound.onceOnDisk.sublist (sub.map _)
  · exact fun file member => sound.named file (List.mem_filter.mp member).1
  · intro file member sample inFile
    rcases List.mem_append.mp member with earlier | now_
    · exact sound.deleted file earlier sample inFile
    · obtain ⟨gone, isOld, rfl⟩ := List.mem_map.mp now_
      have listed := mem_sortedFiles.mp (List.mem_filter.mp isOld).1
      have isBefore := of_decide_eq_true (List.mem_filter.mp isOld).2
      rw [← (sound.named gone listed).2 sample inFile] at isBefore
      apply Nat.lt_of_not_le
      intro fresh
      have member := sound.onDisk sample (mem_lines.mpr ⟨gone, listed, inFile⟩)
      exact not_localDate_lt (localDay_mono fresh) (sound.year year member) isBefore

/-- After pruning, no file is of a day before the cut-off day. -/
theorem prune_noOldFile {now : Nat} {store : QualityStore α φ}
    (room : WithinLimit measure offset store now)
    (year : (civilDay (localTime offset now)).year < 10000)
    {file : String × List (QualitySample φ)}
    (listed : file ∈ (prune measure offset store now).files.rows) {time : Nat}
    (name : localDate offset time = file.1) :
    localDay offset (cutoff now) ≤ localDay offset time := by
  rw [prune_eq room] at listed
  have after := of_decide_eq_true (List.mem_filter.mp listed).2
  rw [← name] at after
  refine le_localDay_of_not_lt (Nat.lt_of_le_of_lt (localYear_mono ?_) year) after
  exact Nat.sub_le now _

/-- The samples of a window are of that window, one for each peer. -/
theorem finishedSamples_once (store : QualityStore α φ) (window : Nat) :
    ((finishedSamples measure store window).map QualitySample.pair).Nodup := by
  unfold finishedSamples
  rw [List.map_map]
  refine List.Nodup.of_map Prod.snd ?_
  rw [List.map_map]
  exact store.current.nodup

theorem finishedSamples_window {store : QualityStore α φ} {window : Nat}
    {sample : QualitySample φ} (member : sample ∈ finishedSamples measure store window) :
    sample.windowStartUnixMs = window := by
  obtain ⟨entry, _, rfl⟩ := List.mem_map.mp member
  rfl

/-- Pairs of samples that began before a window stay apart from those of the window. -/
theorem nodup_append_finished {store : QualityStore α φ} {window : Nat}
    {samples : List (QualitySample φ)} (once : (samples.map QualitySample.pair).Nodup)
    (before : ∀ sample ∈ samples, sample.windowStartUnixMs < window) :
    ((samples ++ finishedSamples measure store window).map QualitySample.pair).Nodup := by
  rw [List.map_append, List.nodup_append]
  refine ⟨once, finishedSamples_once store window, ?_⟩
  intro one first two second same
  obtain ⟨old, isOld, rfl⟩ := List.mem_map.mp first
  obtain ⟨new, isNew, rfl⟩ := List.mem_map.mp second
  have windows : old.windowStartUnixMs = new.windowStartUnixMs := congrArg Prod.fst same
  rw [finishedSamples_window isNew] at windows
  exact Nat.ne_of_lt (before old isOld) windows

/-- Completing a window keeps the samples before it and adds its own. -/
theorem Sound.writeWindow {time next : Nat} {store : QualityStore α φ}
    (sound : Sound offset time store) (ordered : time ≤ next)
    (differ : windowOf time ≠ windowOf next) :
    Sound offset (windowOf next)
      (writeWindow measure offset store (windowOf time) (windowOf next)) := by
  have ends := lt_windowOf ordered differ
  have perm := lines_foldl_append offset
    (finishedSamples measure store (windowOf time)) store
  unfold QualityStore.writeWindow
  dsimp only
  rw [foldl_append_frame]
  have inLines : ∀ sample,
      sample ∈ store.lines ∨ sample ∈ finishedSamples measure store (windowOf time) ↔
        sample ∈ ((finishedSamples measure store (windowOf time)).foldl
          (append offset) store).lines :=
    fun sample => by rw [perm.mem_iff, List.mem_append]
  constructor
  · intro sample member
    rw [windowOf_windowOf]
    rcases List.mem_append.mp member with old | new
    · exact Nat.lt_of_lt_of_le (sound.before sample old) (windowOf_mono ordered)
    · rw [finishedSamples_window new]
      exact Nat.lt_of_le_of_lt (windowOf_le time) ends
  · intro sample member fresh
    rcases List.mem_append.mp member with old | new
    · obtain ⟨listed, written⟩ :=
        sound.recent sample old (Nat.le_trans (cutoff_mono (Nat.le_of_lt ends)) fresh)
      exact ⟨List.mem_append_left _ listed, (inLines sample).mp (Or.inl written)⟩
    · exact ⟨List.mem_append_right _ new, (inLines sample).mp (Or.inr new)⟩
  · intro sample member
    rcases List.mem_append.mp member with old | new
    · exact List.mem_append_left _ (sound.inMemory sample old)
    · exact List.mem_append_right _ new
  · intro sample member
    rcases (inLines sample).mpr member with old | new
    · exact List.mem_append_left _ (sound.onDisk sample old)
    · exact List.mem_append_right _ new
  · exact nodup_append_finished sound.onceInMemory
      (fun sample member => sound.before sample (sound.inMemory sample member))
  · refine ((perm.map QualitySample.pair).nodup_iff).mpr ?_
    exact nodup_append_finished sound.onceOnDisk
      (fun sample member => sound.before sample (sound.onDisk sample member))
  · exact sound.named.foldl_append
  · exact sound.deleted

/-! ### Restarts -/

/-- The samples that a restart reads. -/
theorem mem_load_entries {store : QualityStore α φ} {now : Nat} {sample : QualitySample φ} :
    sample ∈ (load measure offset store now).entries ↔
      sample ∈ store.lines ∧ cutoff now ≤ sample.windowStartUnixMs := by
  have entries : (load measure offset store now).entries
      = (((store.lines.filter (fun sample => sample.windowStartUnixMs ≥ cutoff now)).insertionSort
          (fun one two => one.windowStartUnixMs ≤ two.windowStartUnixMs)).filter
          (fun sample => sample.windowStartUnixMs ≥ cutoff now)) := by
    unfold load readHistory QualityStore.prune
    rw [foldl_removeFile]
    rfl
  rw [entries, List.mem_filter, List.mem_insertionSort, List.mem_filter]
  simp

theorem Sound.load {time now : Nat} {store : QualityStore α φ} (sound : Sound offset time store)
    (ordered : time ≤ now) (room : WithinLimit measure offset store now)
    (year : (civilDay (localTime offset now)).year < 10000) :
    Sound offset now (load measure offset store now) := by
  have later := sound.later ordered
  unfold QualityStore.load QualityStore.readHistory
  refine Sound.prune ?_ room year
  have perm := List.perm_insertionSort
    (fun one two : QualitySample φ => one.windowStartUnixMs ≤ two.windowStartUnixMs)
    (store.lines.filter (fun sample => sample.windowStartUnixMs ≥ cutoff now))
  constructor
  · exact later.before
  · intro sample member fresh
    obtain ⟨_, written⟩ := later.recent sample member fresh
    exact ⟨perm.mem_iff.mpr (List.mem_filter.mpr ⟨written, decide_eq_true fresh⟩), written⟩
  · intro sample member
    exact later.onDisk sample (List.mem_filter.mp (perm.mem_iff.mp member)).1
  · exact later.onDisk
  · refine ((perm.map QualitySample.pair).nodup_iff).mpr ?_
    exact later.onceOnDisk.sublist (List.filter_sublist.map _)
  · exact later.onceOnDisk
  · exact later.named
  · exact later.deleted

/-! ### Runs -/

/-- The invariant of a run: the window that is gathered is that of the last call. -/
structure Kept (offset : Int) (store : QualityStore α φ) : Prop where
  sound : Sound offset store.clock store
  window : ∀ window, store.currentWindow = some window → window = windowOf store.clock

/-- What the gathering of a window changes is nothing to the history. -/
theorem Sound.frame {time : Nat} {store : QualityStore α φ} (sound : Sound offset time store)
    (window : Option Nat) (current : Table String α) (clock : Nat) :
    Sound offset time
      { store with currentWindow := window, current := current, clock := clock } :=
  ⟨sound.before, sound.recent, sound.inMemory, sound.onDisk, sound.onceInMemory, sound.onceOnDisk,
    sound.named, sound.deleted⟩

/-- The tick of another window completes the one before it. -/
theorem observe_completes (measure : QualityMeasure α ρ φ) (offset : Int)
    {store : QualityStore α φ} {now window : Nat}
    (current : store.currentWindow = some window) (differ : window ≠ windowOf now)
    (readings : List (String × ρ)) :
    ∃ gathered : Table String α,
      observe measure offset store now readings =
        { prune measure offset (QualityStore.writeWindow measure offset store window (windowOf now))
            (windowOf now) with
          currentWindow := some (windowOf now), current := gathered, clock := now } := by
  have changed : store.currentWindow.any (fun other => other ≠ windowOf now) = true := by
    simp [current, differ]
  have next : (prune measure offset
      (QualityStore.writeWindow measure offset store window (windowOf now))
      (windowOf now)).currentWindow = some (windowOf now) := by
    unfold QualityStore.prune
    rw [foldl_removeFile]
    rfl
  have finish : finishWindow measure offset store (windowOf now)
      = prune measure offset
        (QualityStore.writeWindow measure offset store window (windowOf now)) (windowOf now) := by
    simp only [finishWindow, current]
  unfold observe
  dsimp only
  rw [if_pos changed, finish, next]
  exact ⟨_, rfl⟩

/-- A tick of the same window, or the first one after a start, only gathers. -/
theorem observe_gathers (measure : QualityMeasure α ρ φ) (offset : Int)
    {store : QualityStore α φ} {now : Nat}
    (same : ∀ window, store.currentWindow = some window → window = windowOf now)
    (readings : List (String × ρ)) :
    ∃ gathered : Table String α,
      observe measure offset store now readings =
        { store with currentWindow := some (windowOf now), current := gathered, clock := now } := by
  have unchanged : store.currentWindow.any (fun other => other ≠ windowOf now) = false := by
    cases current : store.currentWindow with
    | none => rfl
    | some window => simp [same window current]
  have window : store.currentWindow.getD (windowOf now) = windowOf now := by
    cases current : store.currentWindow with
    | none => rfl
    | some window => exact same window current
  unfold observe
  simp only [unchanged, Bool.false_eq_true, if_false, window]
  exact ⟨_, rfl⟩

/-- What a completed window leaves, before the next readings are gathered. -/
theorem Kept.completed {store : QualityStore α φ} (kept : Kept offset store) {now window : Nat}
    {readings : List (String × ρ)} (current : store.currentWindow = some window)
    (differ : window ≠ windowOf now)
    (orderly : Orderly measure offset (.observe now readings) store) :
    WithinLimit measure offset (QualityStore.writeWindow measure offset store window (windowOf now))
        (windowOf now) ∧
      (civilDay (localTime offset (windowOf now))).year < 10000 ∧
      Sound offset (windowOf now)
        (QualityStore.writeWindow measure offset store window (windowOf now)) := by
  obtain ⟨ordered, year, limit⟩ := orderly
  have room : window ≠ windowOf now → WithinLimit measure offset
      (QualityStore.writeWindow measure offset store window (windowOf now)) (windowOf now) := by
    simpa only [current] using limit
  refine ⟨room differ, Nat.lt_of_le_of_lt (localYear_mono (windowOf_le now)) year, ?_⟩
  obtain rfl := kept.window window current
  exact kept.sound.writeWindow ordered differ

theorem Kept.step {event : QualityEvent ρ} {store next : QualityStore α φ}
    (kept : Kept offset store) (orderly : Orderly measure offset event store)
    (happens : QualityStore.step measure offset event store = some next) : Kept offset next := by
  cases event with
  | load now =>
      cases happens
      obtain ⟨ordered, year, room⟩ := orderly
      have sound : Sound offset now (QualityStore.load measure offset store now) :=
        kept.sound.load ordered room year
      have frame : (QualityStore.load measure offset store now).clock = now ∧
          (QualityStore.load measure offset store now).currentWindow = none := by
        unfold QualityStore.load readHistory QualityStore.prune
        rw [foldl_removeFile]
        exact ⟨rfl, rfl⟩
      refine ⟨?_, fun window current => ?_⟩
      · rw [frame.1]
        exact sound
      · rw [frame.2] at current
        cases current
  | observe now readings =>
      cases happens
      have goesOn : ∀ gathered : QualityStore α φ, Sound offset now gathered →
          gathered.currentWindow = some (windowOf now) → gathered.clock = now →
          Kept offset gathered := by
        intro gathered sound current clock
        refine ⟨clock.symm ▸ sound, fun window other => ?_⟩
        rw [current] at other
        rw [clock]
        exact (Option.some.inj other).symm
      by_cases same : ∀ window, store.currentWindow = some window → window = windowOf now
      · obtain ⟨gathered, result⟩ := observe_gathers measure offset same readings
        rw [result]
        exact goesOn _ ((kept.sound.later orderly.1).frame _ _ _) rfl rfl
      · push Not at same
        obtain ⟨window, current, differ⟩ := same
        obtain ⟨room, year, sound⟩ := kept.completed current differ orderly
        obtain ⟨gathered, result⟩ := observe_completes measure offset current differ
          readings
        rw [result]
        exact goesOn _ (((sound.prune room year).later (windowOf_le now)).frame _ _ _) rfl rfl

/-- What holds of a store after a window was completed and the one that began at `window` opened. -/
structure HistoryKept (measure : QualityMeasure α ρ φ) (offset : Int) (window : Nat)
    (store : QualityStore α φ) : Prop where
  recent : ∀ sample ∈ store.finished, cutoff window ≤ sample.windowStartUnixMs →
    sample ∈ store.entries ∧ sample ∈ store.lines
  onceInMemory : (store.entries.map QualitySample.pair).Nodup
  onceOnDisk : (store.lines.map QualitySample.pair).Nodup
  deletedOld : ∀ file ∈ store.deleted, ∀ sample ∈ file.2,
    sample.windowStartUnixMs < cutoff file.1
  named : ∀ file ∈ store.files.rows, ∃ sample ∈ file.2,
    localDate offset sample.windowStartUnixMs = file.1
  noOldFile : ∀ file ∈ store.files.rows, ∀ time, localDate offset time = file.1 →
    localDay offset (cutoff window) ≤ localDay offset time
  reloaded : ∀ now, window ≤ now → ∀ pair,
    pair ∈ (load measure offset store now).entries.map QualitySample.pair ↔
      ∃ sample ∈ store.entries, cutoff now ≤ sample.windowStartUnixMs ∧ sample.pair = pair

/-- A restart reads what memory holds of the samples that are recent then. -/
theorem Sound.reloaded {window now : Nat} {store : QualityStore α φ}
    (sound : Sound offset window store) (ordered : window ≤ now) (pair : Nat × String) :
    pair ∈ (QualityStore.load measure offset store now).entries.map QualitySample.pair ↔
      ∃ sample ∈ store.entries, cutoff now ≤ sample.windowStartUnixMs ∧ sample.pair = pair := by
  rw [List.mem_map]
  constructor
  · intro read
    obtain ⟨sample, member, isPair⟩ := read
    obtain ⟨written, fresh⟩ := mem_load_entries.mp member
    have recent := sound.recent sample (sound.onDisk sample written)
      (Nat.le_trans (cutoff_mono ordered) fresh)
    exact ⟨sample, recent.1, fresh, isPair⟩
  · intro held
    obtain ⟨sample, member, fresh, isPair⟩ := held
    have recent := sound.recent sample (sound.inMemory sample member)
      (Nat.le_trans (cutoff_mono ordered) fresh)
    exact ⟨sample, mem_load_entries.mpr ⟨recent.2, fresh⟩, isPair⟩

end QualityStore

open QualityStore Runs

/-- In a run of ticks and restarts whose local times have years of four digits, the tick that
completes a window leaves every recent sample in memory and on disk, each once, and no file of a day
before the cut-off day; no pruned file held a recent sample; and a restart from then on has exactly
the samples of memory that are recent when it happens. -/
theorem history_kept {α ρ φ : Type} (measure : QualityMeasure α ρ φ) (offset : Int)
    {events : List (QualityEvent ρ)} {store : QualityStore α φ}
    (orderly : Along (QualityStore.step measure offset) (Orderly measure offset) events {})
    (reached : run (QualityStore.step measure offset) events {} = some store) {now window : Nat}
    {readings : List (String × ρ)} (current : store.currentWindow = some window)
    (completes : window ≠ windowOf now)
    (next : Orderly measure offset (.observe now readings) store) :
    HistoryKept measure offset (windowOf now) (observe measure offset store now readings) := by
  have kept : Kept offset store := by
    refine run_invariant (Kept offset) ?_ ⟨sound_empty _, by simp⟩ orderly reached
    exact fun event state after holds fair happens => holds.step fair happens
  obtain ⟨room, year, sound⟩ := kept.completed current completes next
  obtain ⟨gathered, result⟩ := observe_completes measure offset current completes readings
  have pruned := (sound.prune room year).frame (some (windowOf now)) gathered now
  rw [result]
  exact
    { recent := pruned.recent
      onceInMemory := pruned.onceInMemory
      onceOnDisk := pruned.onceOnDisk
      deletedOld := pruned.deleted
      named := by
        intro file listed
        obtain ⟨filled, ofDay⟩ := pruned.named file listed
        obtain ⟨sample, member⟩ := List.exists_mem_of_ne_nil _ filled
        exact ⟨sample, member, ofDay sample member⟩
      noOldFile := fun file listed time name => prune_noOldFile room year listed name
      reloaded := fun later ordered pair => pruned.reloaded ordered pair }

/-- Measures that keep nothing but the window and the peer, in lines of 200 bytes. -/
def bareMeasure : QualityMeasure Unit Unit Unit where
  fresh := ()
  absorb := fun _ _ => ()
  sample := fun _ _ _ => ()
  bytes := fun _ => 200

/-- A peer is seen in the first minute of 1970; the next tick after it comes. -/
def firstMinute : List (QualityEvent Unit) :=
  [.observe 0 [("home", ())], .observe 60000 []]

def firstMinuteStore : QualityStore Unit Unit :=
  observe bareMeasure 0 (observe bareMeasure 0 {} 0 [("home", ())]) 60000 []

theorem history_kept_firstMinute :
    HistoryKept bareMeasure 0 (windowOf 604805000)
      (observe bareMeasure 0 firstMinuteStore 604805000 []) :=
  have orderly :
      Along (QualityStore.step bareMeasure 0) (Orderly bareMeasure 0) firstMinute {} := by
    decide
  have current : firstMinuteStore.currentWindow = some 60000 := by decide
  history_kept bareMeasure 0 orderly rfl current (by decide) (by decide)

/-- Seven days and five seconds later the tick keeps the first minute in memory, and a restart drops
it. In a time zone nine hours to the east, the file of the first day of the local year 10000 is
pruned with the sample of its first minute. -/
theorem reload_differs :
    (∃ store : QualityStore Unit Unit,
      run (QualityStore.step bareMeasure 0) (firstMinute ++ [.observe 604805000 []]) {}
          = some store ∧
        Along (QualityStore.step bareMeasure 0) (Orderly bareMeasure 0)
          (firstMinute ++ [.observe 604805000 []]) {} ∧
        store.entries.map QualitySample.pair = [(0, "home")] ∧
        (load bareMeasure 0 store 604805000).entries = []) ∧
      ∃ store : QualityStore Unit Unit,
        run (QualityStore.step bareMeasure 32400000)
          [.observe 253402268400000 [("home", ())], .observe 253402268460000 []] {} = some store ∧
          store.finished.map QualitySample.pair = [(253402268400000, "home")] ∧
          store.entries = store.finished ∧ store.lines = [] ∧
          (civilDay 253402268460000).year = 9999 := by
  refine ⟨⟨_, rfl, by decide, by decide, by decide⟩,
    ⟨_, rfl, by decide, by decide, by decide, by decide⟩⟩

end PeerCove
