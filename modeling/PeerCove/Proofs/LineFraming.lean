/-
Module: PeerCove.Proofs.LineFraming
Layer: Proofs
Purpose: When the control session of a mobile device gets exactly the lines that were sent, however
  the socket cuts them into chunks: exactly when no read timeout falls inside a character.
Trusted boundary: none
Main exports: LineReader.layout, LineReader.readUntil_reads, TimeoutsBetweenCharacters,
  handed_on_iff, character_lost
-/
import PeerCove.Member.MobileLines
import Mathlib.Data.List.TakeDrop
import Mathlib.Data.List.TakeWhile

namespace PeerCove

namespace LineReader

/-! ### What a read takes -/

def eventLayout : SocketEvent → List (Option UInt8)
  | .chunk first rest => (first :: rest).map some
  | .timeout => [none]

/-- The bytes to come, with the timeouts between them. -/
def layout (reader : LineReader) : List (Option UInt8) :=
  reader.buffer.map some ++ reader.events.flatMap eventLayout

theorem eventLayout_putBack (bytes : List UInt8) (events : List SocketEvent) :
    (putBack bytes events).flatMap eventLayout
      = bytes.map some ++ events.flatMap eventLayout := by
  cases bytes with
  | nil => rfl
  | cons first rest => rfl

/-- What filling the buffer does: nothing is lost, and the buffer is empty at the end only. -/
theorem fillWith_filled {size : Nat} {reader filled : LineReader} (positive : 0 < size)
    (fills : reader.fillWith size = .filled filled) :
    filled.layout = reader.layout ∧ filled.ending = reader.ending ∧
      filled.limit + filled.buffer.length = reader.limit + reader.buffer.length ∧
      (filled.buffer = [] →
        filled.limit = 0 ∨ filled.layout = [] ∧ reader.ending = .closed) := by
  unfold fillWith at fills
  split at fills
  · next ready =>
      cases fills
      refine ⟨rfl, rfl, rfl, fun empty => Or.inl ?_⟩
      exact ready.resolve_left (not_not_intro empty)
  · next needs =>
      rw [not_or, not_not] at needs
      obtain ⟨empty, open_⟩ := needs
      split at fills
      · next isEnd =>
          split at fills
          · next closed =>
              cases fills
              refine ⟨rfl, rfl, rfl, fun _ => Or.inr ⟨?_, closed⟩⟩
              simp [layout, empty, isEnd]
          · cases fills
      · cases fills
      · next first rest events isEvents =>
          cases fills
          have some_ : 0 < min size reader.limit := by omega
          have fits : ((first :: rest).take (min size reader.limit)).length
              ≤ reader.limit := by
            rw [List.length_take]
            omega
          refine ⟨?_, rfl, ?_, ?_⟩
          · rw [layout, layout, eventLayout_putBack, empty, isEvents, List.flatMap_cons,
              ← List.append_assoc, ← List.map_append, List.take_append_drop]
            rfl
          · dsimp only
            rw [empty, List.length_nil]
            omega
          · intro none
            rw [List.take_eq_nil_iff] at none
            rcases none with zero | nil
            · omega
            · cases nil

theorem fillBuf_filled {reader filled : LineReader} (fills : reader.fillBuf = .filled filled) :
    filled.layout = reader.layout ∧ filled.ending = reader.ending ∧
      filled.limit + filled.buffer.length = reader.limit + reader.buffer.length ∧
      (filled.buffer = [] →
        filled.limit = 0 ∨ filled.layout = [] ∧ reader.ending = .closed) :=
  fillWith_filled (by decide) fills

theorem fillWith_timedOut {size : Nat} {reader next : LineReader}
    (fills : reader.fillWith size = .timedOut next) :
    reader.buffer = [] ∧ next.buffer = [] ∧ next.limit = reader.limit ∧ reader.limit ≠ 0 ∧
      next.ending = reader.ending ∧
      (reader.layout = none :: next.layout ∨
        reader.layout = [] ∧ next.layout = [] ∧ reader.ending = .silent) := by
  unfold fillWith at fills
  split at fills
  · cases fills
  · next needs =>
      rw [not_or, not_not] at needs
      obtain ⟨empty, open_⟩ := needs
      split at fills
      · next isEnd =>
          split at fills
          · cases fills
          · next silent =>
              cases fills
              refine ⟨empty, empty, rfl, open_, rfl, Or.inr ⟨?_, ?_, silent⟩⟩ <;>
                simp [layout, empty, isEnd]
      · next events isEvents =>
          cases fills
          refine ⟨empty, empty, rfl, open_, rfl, Or.inl ?_⟩
          simp [layout, empty, isEvents, eventLayout]
      · cases fills

/-- How a call of `read_until` ended, with the bytes it got. -/
inductive Reads (reader : LineReader) (got : List UInt8) (next : LineReader) : Bool → Prop where
  | timedOut (midway : NEWLINE ∉ got) (empty : next.buffer = [])
      (layout : reader.layout = got.map some ++ none :: next.layout) : Reads reader got next true
  | silent (midway : NEWLINE ∉ got) (ending : reader.ending = .silent) (empty : next.buffer = [])
      (layout : reader.layout = got.map some) (ended : next.layout = []) (open_ : next.limit ≠ 0) :
      Reads reader got next true
  | line (front : List UInt8) (isLine : got = front ++ [NEWLINE]) (midway : NEWLINE ∉ front)
      (layout : reader.layout = got.map some ++ next.layout) : Reads reader got next false
  | ended (midway : NEWLINE ∉ got) (empty : next.buffer = [])
      (layout : reader.layout = got.map some ++ next.layout)
      (stops : next.limit = 0 ∨ next.layout = [] ∧ reader.ending = .closed) :
      Reads reader got next false

/-- Reading on after bytes without the end of a line. -/
theorem Reads.after {reader filled next : LineReader} {first got : List UInt8} {timedOut : Bool}
    (reads : Reads filled got next timedOut) (midway : NEWLINE ∉ first)
    (layout : reader.layout = first.map some ++ filled.layout)
    (ending : filled.ending = reader.ending) : Reads reader (first ++ got) next timedOut := by
  have absent : ∀ bytes : List UInt8, NEWLINE ∉ bytes → NEWLINE ∉ first ++ bytes := by
    intro bytes open_ member
    exact (List.mem_append.mp member).elim midway open_
  cases reads with
  | timedOut open_ empty rest =>
      refine .timedOut (absent _ open_) empty ?_
      rw [layout, rest, List.map_append, List.append_assoc]
  | silent open_ isSilent empty rest ended spare =>
      refine .silent (absent _ open_) (ending ▸ isSilent) empty ?_ ended spare
      rw [layout, rest, List.map_append]
  | line front isLine open_ rest =>
      refine .line (first ++ front) ?_ (absent _ open_) ?_
      · rw [isLine, List.append_assoc]
      · rw [layout, rest, List.map_append, List.append_assoc]
  | ended open_ empty rest stops =>
      refine .ended (absent _ open_) empty ?_ (ending ▸ stops)
      rw [layout, rest, List.map_append, List.append_assoc]

/-- Where `memchr` finds the end of a line. -/
theorem span_newline {bytes before rest : List UInt8} {newline : UInt8}
    (split : bytes.span (fun byte => byte ≠ NEWLINE) = (before, newline :: rest)) :
    bytes = before ++ newline :: rest ∧ newline = NEWLINE ∧ NEWLINE ∉ before := by
  rw [List.span_eq_takeWhile_dropWhile, Prod.mk.injEq] at split
  obtain ⟨front, back⟩ := split
  refine ⟨?_, ?_, ?_⟩
  · rw [← front, ← back, List.takeWhile_append_dropWhile]
  · have found := List.head_dropWhile_not (fun byte => decide (byte ≠ NEWLINE))
      (l := bytes) (by rw [back]; simp)
    simp only [back, List.head_cons, ne_eq, decide_eq_false_iff_not, not_not] at found
    exact found
  · intro member
    rw [← front] at member
    have passed := List.mem_takeWhile_imp member
    simp at passed

theorem span_nil {bytes before : List UInt8}
    (split : bytes.span (fun byte => byte ≠ NEWLINE) = (before, [])) : NEWLINE ∉ bytes := by
  rw [List.span_eq_takeWhile_dropWhile, Prod.mk.injEq] at split
  intro member
  have all := List.dropWhile_eq_nil_iff.mp split.2 NEWLINE member
  simp at all

/-- The account of a call of `read_until`. -/
theorem readUntil_reads (reader : LineReader) (read : List UInt8) :
    ∃ got, (reader.readUntil read).2.1 = read ++ got ∧
      Reads reader got (reader.readUntil read).1 (reader.readUntil read).2.2 ∧
      (reader.readUntil read).1.ending = reader.ending ∧
      (reader.readUntil read).1.limit + (reader.readUntil read).1.buffer.length + got.length
        = reader.limit + reader.buffer.length := by
  fun_induction LineReader.readUntil reader read with
  | case1 reader read next fills =>
      obtain ⟨empty, nextEmpty, limit, open_, ending, rest⟩ := fillWith_timedOut fills
      refine ⟨[], (List.append_nil read).symm, ?_, ending, by simp [empty, nextEmpty, limit]⟩
      rcases rest with layout | ⟨layout, ended, silent⟩
      · exact .timedOut List.not_mem_nil nextEmpty layout
      · exact .silent List.not_mem_nil silent nextEmpty layout ended (limit ▸ open_)
  | case2 reader read filled fills before newline rest split =>
      obtain ⟨layout, ending, limit, _⟩ := fillBuf_filled fills
      obtain ⟨buffer, isNewline, midway⟩ := span_newline split
      refine ⟨before ++ [newline], List.append_assoc read before [newline], ?_, ending, ?_⟩
      · refine .line before (by rw [isNewline]) midway ?_
        rw [← layout, LineReader.layout, LineReader.layout, buffer]
        simp
      · rw [← limit, buffer]
        simp
        omega
  | case3 reader read filled fills before split empty =>
      obtain ⟨layout, ending, limit, stops⟩ := fillBuf_filled fills
      refine ⟨[], (List.append_nil read).symm, ?_, ending, by simpa using limit⟩
      exact .ended List.not_mem_nil empty layout.symm (stops empty)
  | case4 reader read filled fills before split filledNot ih =>
      obtain ⟨layout, ending, limit, _⟩ := fillBuf_filled fills
      obtain ⟨got, appended, reads, sameEnding, sameLimit⟩ := ih
      refine ⟨filled.buffer ++ got, by rw [appended, List.append_assoc], ?_, ?_, ?_⟩
      · refine reads.after (span_nil split) ?_ ending
        rw [← layout]
        rfl
      · exact sameEnding.trans ending
      · rw [List.length_append]
        simp only [List.length_nil] at sameLimit
        omega

/-! ### One step -/

/-- The bytes of a layout. -/
def bytesOf (layout : List (Option UInt8)) : List UInt8 :=
  layout.filterMap id

@[simp] theorem bytesOf_map (bytes : List UInt8) : bytesOf (bytes.map some) = bytes := by
  simp [bytesOf]

@[simp] theorem bytesOf_append (one two : List (Option UInt8)) :
    bytesOf (one ++ two) = bytesOf one ++ bytesOf two :=
  List.filterMap_append

@[simp] theorem bytesOf_timeout (layout : List (Option UInt8)) :
    bytesOf (none :: layout) = bytesOf layout := by
  simp [bytesOf]

@[simp] theorem bytesOf_some (byte : UInt8) (layout : List (Option UInt8)) :
    bytesOf (some byte :: layout) = byte :: bytesOf layout := by
  simp [bytesOf]

/-- A reader at the start of a line has its whole limit. -/
def refreshed (reader : LineReader) : LineReader :=
  { reader with limit := MAX_LINE }

@[simp] theorem refreshed_layout (reader : LineReader) : reader.refreshed.layout = reader.layout :=
  rfl

end LineReader

open LineReader

theorem readLineStep_fresh (reader : LineReader) (line : LineBytes) :
    readLineStep reader line true = readLineStep reader.refreshed [] false := rfl

theorem readLoop_fresh (fuel : Nat) (reader : LineReader) (line : LineBytes) :
    readLoop fuel reader line true = readLoop fuel reader.refreshed [] false := by
  cases fuel with
  | zero => rfl
  | succ fuel => rfl

/-- A step that a timeout ends keeps what it read if that is text. -/
theorem readLineStep_timeout {reader next : LineReader} {line got : List UInt8}
    (result : reader.readUntil [] = (next, got, true)) (valid : Utf8.Valid got) :
    readLineStep reader line false = (next, line ++ got, .ok .timeout) := by
  simp [readLineStep, readLine, result, valid]

/-- What is not text is dropped. -/
theorem readLineStep_dropped {reader next : LineReader} {line got : List UInt8}
    (result : reader.readUntil [] = (next, got, true)) (invalid : ¬ Utf8.Valid got) :
    readLineStep reader line false = (next, line, .ok .timeout) := by
  simp [readLineStep, readLine, result, invalid]

theorem readLineStep_receive {reader next : LineReader} {line got : List UInt8}
    (result : reader.readUntil [] = (next, got, false)) (invalid : ¬ Utf8.Valid got) :
    readLineStep reader line false = (next, line, .error .receive) := by
  simp [readLineStep, readLine, result, invalid]

theorem readLineStep_line {reader next : LineReader} {line front : List UInt8}
    (result : reader.readUntil [] = (next, front ++ [NEWLINE], false))
    (valid : Utf8.Valid (front ++ [NEWLINE])) :
    readLineStep reader line false = (next, line ++ (front ++ [NEWLINE]), .ok .line) := by
  simp [readLineStep, readLine, result, valid]

/-- Without the end of a line, the stream has ended or the line is too long. -/
theorem readLineStep_ended {reader next : LineReader} {line got : List UInt8}
    (result : reader.readUntil [] = (next, got, false)) (valid : Utf8.Valid got)
    (midway : NEWLINE ∉ got) :
    readLineStep reader line false = (next, line ++ got,
      if line ++ got ≠ [] ∧ next.limit = 0 then .error .tooLong else .ok .eof) := by
  cases isGot : got with
  | nil =>
      subst isGot
      by_cases none : line = [] <;> by_cases spent : next.limit = 0 <;>
        simp [readLineStep, readLine, result, valid, none, spent]
  | cons first rest =>
      have last : (first :: rest).getLast? ≠ some NEWLINE := by
        intro found
        exact midway (isGot ▸ List.mem_of_getLast? found)
      rw [isGot] at result valid
      by_cases spent : next.limit = 0 <;>
        simp [readLineStep, readLine, result, valid, last, spent]

/-! ### One turn of a loop -/

/-- The error with which an outcome ends the reading. -/
def endsWith : Except LineError ReadOutcome → Option LineError
  | .ok .eof => some .disconnected
  | .error error => some error
  | _ => none

/-- One turn of a loop: bytes kept or dropped at a timeout, a line, or the end. -/
inductive Turn (reader : LineReader) (line : LineBytes) (got : List UInt8) (next : LineReader) :
    Prop where
  | kept (valid : Utf8.Valid got) (reads : Reads reader got next true)
      (step : readLineStep reader line false = (next, line ++ got, .ok .timeout))
  | dropped (invalid : ¬ Utf8.Valid got) (reads : Reads reader got next true)
      (step : readLineStep reader line false = (next, line, .ok .timeout))
  | line (front : List UInt8) (isLine : got = front ++ [NEWLINE]) (midway : NEWLINE ∉ front)
      (valid : Utf8.Valid got) (layout : reader.layout = got.map some ++ next.layout)
      (step : readLineStep reader line false = (next, line ++ got, .ok .line))
  | ends (error : LineError) (reads : Reads reader got next false)
      (reason : Utf8.Valid got → NEWLINE ∉ got ∧
        error = if line ++ got ≠ [] ∧ next.limit = 0 then .tooLong else .disconnected)
      (step : endsWith (readLineStep reader line false).2.2 = some error)

theorem readLoop_timeout {reader next : LineReader} {line kept : LineBytes}
    (step : readLineStep reader line false = (next, kept, .ok .timeout)) (fuel : Nat) :
    readLoop (fuel + 1) reader line false = readLoop fuel next kept false := by
  rw [readLoop, step]

theorem readLoop_line {reader next : LineReader} {line whole : LineBytes}
    (step : readLineStep reader line false = (next, whole, .ok .line)) (fuel : Nat) :
    readLoop (fuel + 1) reader line false
      = (readLoop fuel next.refreshed [] false).map
          (fun (handed, ends) => (whole :: handed, ends)) := by
  rw [readLoop, step]
  dsimp only
  rw [readLoop_fresh]

theorem readLoop_ends {reader : LineReader} {line : LineBytes} {error : LineError}
    (step : endsWith (readLineStep reader line false).2.2 = some error) (fuel : Nat) :
    readLoop (fuel + 1) reader line false = some ([], error) := by
  generalize result : readLineStep reader line false = read at step
  obtain ⟨next, kept, outcome⟩ := read
  rw [readLoop, result]
  cases outcome with
  | error reason =>
      cases step
      rfl
  | ok outcome =>
      cases outcome <;> cases step
      rfl

theorem readLineStep_turn (reader : LineReader) (line : LineBytes) :
    ∃ got next, next.ending = reader.ending ∧
      next.limit + next.buffer.length + got.length = reader.limit + reader.buffer.length ∧
      Turn reader line got next := by
  obtain ⟨got, appended, reads, ending, limit⟩ := readUntil_reads reader []
  rw [List.nil_append] at appended
  generalize result : reader.readUntil [] = read at appended reads ending limit
  obtain ⟨next, bytes, timedOut⟩ := read
  dsimp only at appended reads ending limit
  subst appended
  refine ⟨bytes, next, ending, limit, ?_⟩
  by_cases valid : Utf8.Valid bytes
  · cases timedOut with
    | true =>
        exact .kept valid reads (readLineStep_timeout result valid)
    | false =>
        cases reads with
        | line front isLine midway layout =>
            subst isLine
            exact .line front rfl midway valid layout (readLineStep_line result valid)
        | ended midway empty layout stops =>
            refine .ends _ (.ended midway empty layout stops) (fun _ => ⟨midway, rfl⟩) ?_
            rw [readLineStep_ended result valid midway]
            by_cases tooLong : line ++ bytes ≠ [] ∧ next.limit = 0
            · rw [if_pos tooLong, if_pos tooLong]
              rfl
            · rw [if_neg tooLong, if_neg tooLong]
              rfl
  · cases timedOut with
    | true =>
        exact .dropped valid reads (readLineStep_dropped result valid)
    | false =>
        refine .ends .receive reads (fun text => absurd text valid) ?_
        rw [readLineStep_receive result valid]
        rfl

/-! ### What cannot be gained -/

/-- A read takes its bytes from those to come. -/
theorem LineReader.Reads.bytes {reader next : LineReader} {got : List UInt8} {timedOut : Bool}
    (reads : Reads reader got next timedOut) :
    bytesOf reader.layout = got ++ bytesOf next.layout := by
  cases reads with
  | timedOut midway empty layout => rw [layout]; simp
  | silent midway silent empty layout ended spare => rw [layout, ended]; simp [bytesOf]
  | line front isLine midway layout => rw [layout]; simp
  | ended midway empty layout stops => rw [layout]; simp

/-- The lines that are handed on have no more bytes than there are to read. -/
theorem handed_le {fuel : Nat} {reader : LineReader} {line : LineBytes}
    {handed : List LineBytes} {ends : LineError}
    (ran : readLoop fuel reader line false = some (handed, ends)) :
    handed.flatten.length ≤ line.length + (bytesOf reader.layout).length := by
  induction fuel generalizing reader line handed with
  | zero => cases ran
  | succ fuel ih =>
      obtain ⟨got, next, _, _, turn⟩ := readLineStep_turn reader line
      cases turn with
      | kept valid reads step =>
          rw [readLoop_timeout step] at ran
          have later := ih ran
          rw [reads.bytes]
          rw [List.length_append] at later ⊢
          omega
      | dropped invalid reads step =>
          rw [readLoop_timeout step] at ran
          have later := ih ran
          rw [reads.bytes, List.length_append]
          omega
      | line front isLine midway valid layout step =>
          rw [readLoop_line step, Option.map_eq_some_iff] at ran
          obtain ⟨⟨later, laterEnds⟩, ran, same⟩ := ran
          cases same
          have rest := ih ran
          rw [layout]
          simp only [bytesOf_append, bytesOf_map, List.flatten_cons, List.length_append,
            refreshed_layout, List.length_nil] at rest ⊢
          omega
      | ends error reads reason step =>
          rw [readLoop_ends step] at ran
          cases ran
          exact Nat.zero_le _

/-- A timeout falls inside a character of what is read after some text. -/
def CutsCharacter (line : LineBytes) (layout : List (Option UInt8)) : Prop :=
  ∃ before after, layout = before ++ none :: after ∧ ¬ Utf8.Valid (line ++ bytesOf before)

/-- The bytes of a read that is not cut are read before a timeout that cuts a character. -/
theorem CutsCharacter.after {line : LineBytes} {got : List UInt8} {rest : List (Option UInt8)}
    (cuts : CutsCharacter line (got.map some ++ rest)) :
    ∃ before after, rest = before ++ none :: after ∧
      ¬ Utf8.Valid (line ++ (got ++ bytesOf before)) := by
  obtain ⟨before, after, split, invalid⟩ := cuts
  rcases List.append_eq_append_iff.mp split with ⟨more, isBefore, isRest⟩ | ⟨more, isGot, isRest⟩
  · refine ⟨more, after, isRest, ?_⟩
    rw [isBefore] at invalid
    simpa using invalid
  · cases more with
    | nil =>
        refine ⟨[], after, by simpa using isRest.symm, ?_⟩
        have same : before = got.map some := by simpa using isGot.symm
        rw [same] at invalid
        simpa [bytesOf] using invalid
    | cons first others =>
        -- a timeout is no byte of the read
        have isTimeout : first = none := by
          have heads := List.cons.inj isRest
          exact heads.1.symm
        have member : none ∈ got.map some := by
          rw [isGot, isTimeout]
          simp
        simp at member

/-- After a timeout that cuts no character, a later one does. -/
theorem CutsCharacter.kept {reader next : LineReader} {line : LineBytes} {got : List UInt8}
    (cuts : CutsCharacter line reader.layout) (text : Utf8.Valid (line ++ got))
    (reads : Reads reader got next true) : CutsCharacter (line ++ got) next.layout := by
  cases reads with
  | timedOut midway empty layout =>
      rw [layout] at cuts
      obtain ⟨before, after, split, invalid⟩ := cuts.after
      rw [← List.append_assoc] at invalid
      cases before with
      | nil => exact absurd text (by simpa [bytesOf] using invalid)
      | cons first others =>
          obtain ⟨rfl, rest⟩ := List.cons.inj split
          exact ⟨others, after, rest, by simpa using invalid⟩
  | silent midway silent empty layout ended spare =>
      rw [layout, ← List.append_nil (got.map some)] at cuts
      obtain ⟨before, after, split, _⟩ := cuts.after
      simp at split

/-- After a whole line, a later timeout cuts a character. -/
theorem CutsCharacter.line {line : LineBytes} {got : List UInt8} {rest : List (Option UInt8)}
    (cuts : CutsCharacter line (got.map some ++ rest)) (text : Utf8.Valid (line ++ got)) :
    CutsCharacter [] rest := by
  obtain ⟨before, after, split, invalid⟩ := cuts.after
  rw [← List.append_assoc, Utf8.valid_append_iff text] at invalid
  exact ⟨before, after, split, invalid⟩

theorem CutsCharacter.length_pos {line : LineBytes} {layout : List (Option UInt8)}
    (cuts : CutsCharacter line layout) : 0 < line.length + (bytesOf layout).length := by
  obtain ⟨before, after, rfl, invalid⟩ := cuts
  have some_ : line ++ bytesOf before ≠ [] := fun empty => invalid (empty ▸ Utf8.valid_nil)
  have positive := List.length_pos_iff.mpr some_
  rw [List.length_append] at positive
  rw [bytesOf_append, List.length_append]
  omega

/-- A timeout inside a character loses bytes. -/
theorem handed_lt {fuel : Nat} {reader : LineReader} {line : LineBytes}
    {handed : List LineBytes} {ends : LineError} (text : Utf8.Valid line)
    (cuts : CutsCharacter line reader.layout)
    (ran : readLoop fuel reader line false = some (handed, ends)) :
    handed.flatten.length < line.length + (bytesOf reader.layout).length := by
  induction fuel generalizing reader line handed with
  | zero => cases ran
  | succ fuel ih =>
      obtain ⟨got, next, _, _, turn⟩ := readLineStep_turn reader line
      cases turn with
      | kept valid reads step =>
          rw [readLoop_timeout step] at ran
          rw [reads.bytes]
          have whole := Utf8.valid_append text valid
          have later := ih whole (cuts.kept whole reads) ran
          rw [List.length_append] at later ⊢
          omega
      | dropped invalid reads step =>
          rw [readLoop_timeout step] at ran
          have later := handed_le ran
          have some_ : got ≠ [] := fun empty => invalid (empty ▸ Utf8.valid_nil)
          have positive := List.length_pos_iff.mpr some_
          rw [reads.bytes, List.length_append]
          omega
      | line front isLine midway valid layout step =>
          rw [readLoop_line step, Option.map_eq_some_iff] at ran
          obtain ⟨⟨later, laterEnds⟩, ran, same⟩ := ran
          cases same
          rw [layout] at cuts
          have still : CutsCharacter [] next.refreshed.layout :=
            cuts.line (Utf8.valid_append text valid)
          have rest := ih Utf8.valid_nil still ran
          rw [layout]
          simp only [bytesOf_append, bytesOf_map, List.flatten_cons, List.length_append,
            refreshed_layout, List.length_nil] at rest ⊢
          omega
      | ends error reads reason step =>
          rw [readLoop_ends step] at ran
          cases ran
          exact cuts.length_pos

/-! ### What is handed on -/

/-- A message as it goes over the socket. -/
def wireLine (message : String) : LineBytes :=
  Utf8.encode message.toList ++ [NEWLINE]

theorem wireLine_valid (message : String) : Utf8.Valid (wireLine message) :=
  Utf8.valid_append (Utf8.valid_encode _) (by decide)

/-- A message without line breaks ends at the first end of a line. -/
theorem wireLine_midway {message : String} (oneLine : '\n' ∉ message.toList) :
    NEWLINE ∉ Utf8.encode message.toList :=
  Utf8.not_mem_encode (by decide) oneLine

/-- A message of one line, short enough for the reader. -/
def IsLine (message : String) : Prop :=
  '\n' ∉ message.toList ∧ (wireLine message).length ≤ MAX_LINE

/-- Before the first end of a line is the first message, and after it are the others. -/
theorem first_message {messages : List String} {front : List UInt8} {rest : List UInt8}
    (lines : ∀ message ∈ messages, IsLine message) (midway : NEWLINE ∉ front)
    (same : front ++ NEWLINE :: rest = messages.flatMap wireLine) :
    ∃ message others, messages = message :: others ∧ front ++ [NEWLINE] = wireLine message ∧
      rest = others.flatMap wireLine := by
  cases messages with
  | nil => simp at same
  | cons message others =>
      have open_ := wireLine_midway (lines message List.mem_cons_self).1
      rw [List.flatMap_cons, wireLine, List.append_assoc, List.singleton_append] at same
      have fronts : front = Utf8.encode message.toList := by
        have one := congrArg (List.takeWhile (fun byte => byte ≠ NEWLINE)) same
        rw [List.takeWhile_append_of_pos, List.takeWhile_append_of_pos] at one
        · simpa using one
        · exact fun byte member => decide_eq_true (fun isEnd => open_ (isEnd ▸ member))
        · exact fun byte member => decide_eq_true (fun isEnd => midway (isEnd ▸ member))
      subst fronts
      refine ⟨message, others, rfl, rfl, ?_⟩
      exact (List.cons.inj (List.append_cancel_left same)).2

/-- Without the end of a line no message is whole, and what there is is shorter than the first. -/
theorem no_message {messages : List String} {front rest : List UInt8}
    (midway : NEWLINE ∉ front) (same : front ++ rest = messages.flatMap wireLine)
    (lines : ∀ message ∈ messages, IsLine message) : front.length < MAX_LINE := by
  cases messages with
  | nil =>
      have empty : front = [] := (List.append_eq_nil_iff.mp (by simpa using same)).1
      rw [empty]
      decide
  | cons message others =>
      have fits := (lines message List.mem_cons_self).2
      rw [List.flatMap_cons] at same
      rcases List.append_eq_append_iff.mp same with ⟨more, whole, _⟩ | ⟨more, isFront, _⟩
      · have shorter : more ≠ [] := by
          intro empty
          rw [empty, List.append_nil] at whole
          apply midway
          rw [← whole, wireLine]
          simp
        have positive := List.length_pos_iff.mpr shorter
        rw [whole, List.length_append] at fits
        omega
      · exfalso
        apply midway
        rw [isFront, wireLine]
        simp

/-- The state in the middle of a line: what is read of it and what comes are the messages, and no
timeout cuts a character. -/
structure Midway (reader : LineReader) (line : LineBytes) (messages : List String) : Prop where
  bytes : line ++ bytesOf reader.layout = messages.flatMap wireLine
  text : Utf8.Valid line
  midway : NEWLINE ∉ line
  limit : MAX_LINE ≤ reader.limit + reader.buffer.length + line.length
  uncut : ¬ CutsCharacter line reader.layout
  closed : reader.ending = .closed

/-- A cut after some bytes is a cut of the whole. -/
theorem CutsCharacter.whole {line : LineBytes} {got : List UInt8} {rest : List (Option UInt8)}
    (cuts : CutsCharacter (line ++ got) rest) : CutsCharacter line (got.map some ++ rest) := by
  obtain ⟨before, after, rfl, invalid⟩ := cuts
  exact ⟨got.map some ++ before, after, (List.append_assoc _ _ _).symm, by simpa using invalid⟩

theorem CutsCharacter.later {line : LineBytes} {rest : List (Option UInt8)}
    (cuts : CutsCharacter line rest) : CutsCharacter line (none :: rest) := by
  obtain ⟨before, after, rfl, invalid⟩ := cuts
  exact ⟨none :: before, after, rfl, by simpa using invalid⟩

theorem CutsCharacter.of_line {line rest : List UInt8} {layout : List (Option UInt8)}
    (text : Utf8.Valid (line ++ rest)) (cuts : CutsCharacter [] layout) :
    CutsCharacter (line ++ rest) layout := by
  obtain ⟨before, after, split, invalid⟩ := cuts
  exact ⟨before, after, split, fun whole => invalid ((Utf8.valid_append_iff text).mp whole)⟩

/-- A read that a timeout ends has got text. -/
theorem Midway.text_of_timedOut {reader next : LineReader} {line : LineBytes}
    {messages : List String} {got : List UInt8} (state : Midway reader line messages)
    (layout : reader.layout = got.map some ++ none :: next.layout) : Utf8.Valid got := by
  have whole : Utf8.Valid (line ++ got) := by
    apply Classical.byContradiction
    intro invalid
    exact state.uncut ⟨got.map some, next.layout, layout, by simpa using invalid⟩
  exact (Utf8.valid_append_iff state.text).mp whole

/-- The state after a timeout. -/
theorem Midway.timedOut {reader next : LineReader} {line : LineBytes} {messages : List String}
    {got : List UInt8} (state : Midway reader line messages)
    (layout : reader.layout = got.map some ++ none :: next.layout) (midway : NEWLINE ∉ got)
    (ending : next.ending = reader.ending)
    (limit : next.limit + next.buffer.length + got.length = reader.limit + reader.buffer.length) :
    Midway next (line ++ got) messages := by
  have text := Utf8.valid_append state.text (state.text_of_timedOut layout)
  constructor
  · rw [← state.bytes, layout]
    simp
  · exact text
  · exact fun member => (List.mem_append.mp member).elim state.midway midway
  · have before := state.limit
    rw [List.length_append]
    omega
  · intro cuts
    apply state.uncut
    rw [layout]
    exact cuts.later.whole
  · exact ending.trans state.closed

/-- After a line has been handed on, the others are to come. -/
theorem Midway.line {reader next : LineReader} {line : LineBytes} {message : String}
    {others : List String} {got : List UInt8} (state : Midway reader line (message :: others))
    (layout : reader.layout = got.map some ++ next.layout)
    (isLine : line ++ got = wireLine message) (rest : bytesOf next.layout = others.flatMap wireLine)
    (ending : next.ending = reader.ending) : Midway next.refreshed [] others := by
  have text : Utf8.Valid (line ++ got) := isLine ▸ wireLine_valid message
  constructor
  · exact rest
  · exact Utf8.valid_nil
  · exact List.not_mem_nil
  · change MAX_LINE ≤ MAX_LINE + next.buffer.length + 0
    omega
  · intro cuts
    apply state.uncut
    rw [layout]
    exact (cuts.of_line text).whole
  · exact ending.trans state.closed

/-- From there all messages are handed on, until the stream ends. -/
theorem Midway.handed {reader : LineReader} {line : LineBytes} {messages : List String}
    (state : Midway reader line messages) (lines : ∀ message ∈ messages, IsLine message) :
    ∃ fuel, readLoop fuel reader line false
      = some (messages.map wireLine, .disconnected) := by
  generalize size : reader.layout.length = count
  induction count using Nat.strong_induction_on generalizing reader line messages with
  | _ count ih =>
    obtain ⟨got, next, ending, limit, turn⟩ := readLineStep_turn reader line
    cases turn with
    | kept valid reads step =>
        cases reads with
        | timedOut midway empty layout =>
            have shorter : next.layout.length < count := by
              rw [← size, layout]
              simp
              omega
            obtain ⟨fuel, ran⟩ :=
              ih _ shorter (state.timedOut layout midway ending limit) lines rfl
            exact ⟨fuel + 1, (readLoop_timeout step fuel).trans ran⟩
        | silent midway silent empty layout ended spare =>
            rw [state.closed] at silent
            cases silent
    | dropped invalid reads step =>
        cases reads with
        | timedOut midway empty layout => exact absurd (state.text_of_timedOut layout) invalid
        | silent midway silent empty layout ended spare =>
            rw [state.closed] at silent
            cases silent
    | line front isLine midway valid layout step =>
        have same : (line ++ front) ++ NEWLINE :: bytesOf next.layout
            = messages.flatMap wireLine := by
          rw [← state.bytes, layout, isLine]
          simp
        have open_ : NEWLINE ∉ line ++ front :=
          fun member => (List.mem_append.mp member).elim state.midway midway
        obtain ⟨message, others, rfl, isFirst, rest⟩ := first_message lines open_ same
        have whole : line ++ got = wireLine message := by
          rw [isLine, ← List.append_assoc, isFirst]
        have shorter : next.refreshed.layout.length < count := by
          rw [← size, layout, isLine, refreshed_layout]
          simp only [List.length_append, List.length_map, List.length_singleton]
          omega
        have otherLines : ∀ other ∈ others, IsLine other :=
          fun other member => lines other (List.mem_cons_of_mem _ member)
        obtain ⟨fuel, ran⟩ :=
          ih _ shorter (state.line layout whole rest ending) otherLines rfl
        refine ⟨fuel + 1, ?_⟩
        rw [readLoop_line step, ran, Option.map_some, whole, List.map_cons]
    | ends error reads reason step =>
        cases reads with
        | line front isLine midway layout =>
            -- the end of a line that is not handed on is not text, but it is a message
            exfalso
            have same : (line ++ front) ++ NEWLINE :: bytesOf next.layout
                = messages.flatMap wireLine := by
              rw [← state.bytes, layout, isLine]
              simp
            have open_ : NEWLINE ∉ line ++ front :=
              fun member => (List.mem_append.mp member).elim state.midway midway
            obtain ⟨message, others, _, isFirst, _⟩ := first_message lines open_ same
            have text : Utf8.Valid got := by
              rw [← Utf8.valid_append_iff state.text, isLine, ← List.append_assoc, isFirst]
              exact wireLine_valid message
            apply (reason text).1
            rw [isLine]
            simp
        | ended midway empty layout stops =>
            have open_ : NEWLINE ∉ line ++ got :=
              fun member => (List.mem_append.mp member).elim state.midway midway
            have same : (line ++ got) ++ bytesOf next.layout = messages.flatMap wireLine := by
              rw [← state.bytes, layout]
              simp
            have short := no_message open_ same lines
            have enough := state.limit
            rw [List.length_append] at short
            rw [empty, List.length_nil] at limit
            have done : next.layout = [] := by
              rcases stops with spent | ⟨done, _⟩
              · omega
              · exact done
            rw [done] at same
            cases messages with
            | nil =>
                have nothing : line ++ got = [] := by simpa [bytesOf] using same
                have text : Utf8.Valid got := by
                  rw [(List.append_eq_nil_iff.mp nothing).2]
                  exact Utf8.valid_nil
                refine ⟨1, (readLoop_ends step 0).trans ?_⟩
                rw [(reason text).2, nothing]
                simp
            | cons message others =>
                exfalso
                apply open_
                rw [show line ++ got = (message :: others).flatMap wireLine by
                  simpa [bytesOf] using same]
                simp [wireLine]

/-! ### The control session -/

/-- The reader of a new connection, on which these events come and then the end of the stream. -/
def newReader (events : List SocketEvent) : LineReader where
  events := events
  ending := .closed

/-- Every timeout comes between two characters of the bytes that the socket delivers. -/
def TimeoutsBetweenCharacters (events : List SocketEvent) : Prop :=
  ∀ before after, events = before ++ SocketEvent.timeout :: after →
    Utf8.Valid (before.flatMap chunkBytes)

theorem bytesOf_flatMap (events : List SocketEvent) :
    bytesOf (events.flatMap eventLayout) = events.flatMap chunkBytes := by
  induction events with
  | nil => rfl
  | cons event rest ih =>
      rw [List.flatMap_cons, List.flatMap_cons, bytesOf_append, ih]
      cases event with
      | chunk first others => rw [eventLayout, bytesOf_map]; rfl
      | timeout => rfl

/-- A timeout of the layout is an event. -/
theorem split_flatMap {events : List SocketEvent} {before after : List (Option UInt8)}
    (split : events.flatMap eventLayout = before ++ none :: after) :
    ∃ front back, events = front ++ SocketEvent.timeout :: back ∧
      front.flatMap eventLayout = before := by
  induction events generalizing before with
  | nil => simp at split
  | cons event rest ih =>
      cases event with
      | timeout =>
          cases before with
          | nil => exact ⟨[], rest, rfl, rfl⟩
          | cons first others =>
              have parts : none :: rest.flatMap eventLayout = first :: (others ++ none :: after) :=
                split
              obtain ⟨rfl, later⟩ := List.cons.inj parts
              obtain ⟨front, back, rfl, same⟩ := ih later
              exact ⟨.timeout :: front, back, rfl, by rw [List.flatMap_cons, same]; rfl⟩
      | chunk first others =>
          rw [List.flatMap_cons] at split
          rcases List.append_eq_append_iff.mp split with
            ⟨more, isBefore, isRest⟩ | ⟨more, isBytes, isRest⟩
          · obtain ⟨front, back, rfl, same⟩ := ih isRest
            refine ⟨.chunk first others :: front, back, rfl, ?_⟩
            rw [List.flatMap_cons, same, isBefore]
          · cases more with
            | nil =>
                have later : rest.flatMap eventLayout = [] ++ none :: after := by
                  simpa using isRest.symm
                obtain ⟨front, back, rfl, same⟩ := ih later
                refine ⟨.chunk first others :: front, back, rfl, ?_⟩
                rw [List.flatMap_cons, same, isBytes]
                simp
            | cons head tail =>
                have isTimeout := (List.cons.inj isRest).1
                have member : none ∈ eventLayout (.chunk first others) := by
                  rw [isBytes, ← isTimeout]
                  simp
                simp [eventLayout] at member

theorem cutsCharacter_iff (events : List SocketEvent) :
    CutsCharacter [] (newReader events).layout ↔ ¬ TimeoutsBetweenCharacters events := by
  have layout : (newReader events).layout = events.flatMap eventLayout := rfl
  rw [layout]
  constructor
  · intro cuts between
    obtain ⟨before, after, split, invalid⟩ := cuts
    obtain ⟨front, back, isEvents, same⟩ := split_flatMap split
    apply invalid
    rw [List.nil_append, ← same, bytesOf_flatMap]
    exact between front back isEvents
  · intro cut
    simp only [TimeoutsBetweenCharacters, not_forall] at cut
    obtain ⟨front, back, isEvents, invalid⟩ := cut
    refine ⟨front.flatMap eventLayout, back.flatMap eventLayout, ?_, ?_⟩
    · rw [isEvents, List.flatMap_append, List.flatMap_cons]
      rfl
    · rw [List.nil_append, bytesOf_flatMap]
      exact invalid

/-- The control session hands on exactly the messages that were sent, in order, until the stream
ends. -/
def HandsOn (messages : List String) (events : List SocketEvent) : Prop :=
  ∃ fuel, readLoop fuel (newReader events) [] true
    = some (messages.map wireLine, .disconnected)

/-- Where all messages are handed on, no timeout fell inside a character. -/
theorem HandsOn.between {messages : List String} {events : List SocketEvent}
    (sent : events.flatMap chunkBytes = messages.flatMap wireLine)
    (handed : HandsOn messages events) : TimeoutsBetweenCharacters events := by
  have bytes : bytesOf (newReader events).layout = messages.flatMap wireLine := by
    rw [← sent, ← bytesOf_flatMap]
    rfl
  obtain ⟨fuel, ran⟩ := handed
  apply Classical.byContradiction
  intro cut
  rw [readLoop_fresh] at ran
  have fewer : (messages.map wireLine).flatten.length
      < ([] : LineBytes).length + (bytesOf (newReader events).layout).length :=
    handed_lt Utf8.valid_nil ((cutsCharacter_iff events).mpr cut) ran
  have whole : (messages.map wireLine).flatten = messages.flatMap wireLine := rfl
  rw [bytes, whole] at fewer
  simp at fewer

/-- However the bytes of messages of one line each are cut into chunks, the control session hands on
exactly these messages if and only if no read timeout falls inside a character. -/
theorem handed_on_iff {messages : List String} {events : List SocketEvent}
    (lines : ∀ message ∈ messages, IsLine message)
    (sent : events.flatMap chunkBytes = messages.flatMap wireLine) :
    HandsOn messages events ↔ TimeoutsBetweenCharacters events := by
  refine ⟨fun handed => handed.between sent, fun between => ?_⟩
  have state : Midway (newReader events).refreshed [] messages := by
    constructor
    · rw [← sent, ← bytesOf_flatMap]
      rfl
    · exact Utf8.valid_nil
    · exact List.not_mem_nil
    · exact Nat.le_refl _
    · intro cuts
      exact (cutsCharacter_iff events).mp cuts between
    · rfl
  obtain ⟨fuel, ran⟩ := state.handed lines
  refine ⟨fuel, ?_⟩
  rw [readLoop_fresh]
  exact ran

theorem isLine_hiragana : ∀ message ∈ ["あ"], IsLine message := by
  intro message listed
  rw [List.mem_singleton.mp listed]
  exact ⟨by decide, by decide⟩

/-- The timeout comes before the end of the line. -/
theorem handed_on_hiragana :
    HandsOn ["あ"] [.chunk 0xE3 [0x81, 0x82], .timeout, .chunk NEWLINE []] := by
  refine (handed_on_iff isLine_hiragana (by decide)).mpr ?_
  intro before after split
  cases before with
  | nil => cases (List.cons.inj split).1
  | cons first others =>
      obtain ⟨rfl, later⟩ := List.cons.inj split
      cases others with
      | nil => decide
      | cons second more =>
          obtain ⟨rfl, last⟩ := List.cons.inj later
          cases more with
          | nil => cases (List.cons.inj last).1
          | cons third none => simp at last

/-- The timeout comes after the first byte of the character: that byte is lost, and the session ends
with an error when it meets the others. -/
theorem character_lost :
    (∀ message ∈ ["あ"], IsLine message) ∧
      [SocketEvent.chunk 0xE3 [], .timeout, .chunk 0x81 [0x82, NEWLINE]].flatMap chunkBytes
        = ["あ"].flatMap wireLine ∧
      readLoop 2 (newReader [.chunk 0xE3 [], .timeout, .chunk 0x81 [0x82, NEWLINE]]) [] true
        = some ([], .receive) ∧
      ¬ HandsOn ["あ"] [.chunk 0xE3 [], .timeout, .chunk 0x81 [0x82, NEWLINE]] := by
  have sent : [SocketEvent.chunk 0xE3 [], .timeout, .chunk 0x81 [0x82, NEWLINE]].flatMap chunkBytes
      = ["あ"].flatMap wireLine := by decide
  refine ⟨isLine_hiragana, sent, by decide +kernel, fun handed => ?_⟩
  have cut := handed.between sent [.chunk 0xE3 []] [.chunk 0x81 [0x82, NEWLINE]] rfl
  exact absurd cut (by decide)

end PeerCove
