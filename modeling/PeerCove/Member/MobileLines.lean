/-
Module: PeerCove.Member.MobileLines
Layer: Member
Purpose: Lines that a mobile device reads from a socket with a read timeout: the buffered reader
  with its limit, one step of reading a line, the loop of the control session, and the reads of a
  short-lived connection.
Trusted boundary: `BufRead::read_line` as the standard library documents it; a chunk is what one
  read of the socket can return at most; what the session does with a line is left out
Main exports: LineReader, LineReader.readUntil, LineReader.readLine, LineReader.readSome,
  readLineStep, readLoop, readLineBlocking, readBody
-/
import PeerCove.Library.Utf8

namespace PeerCove

def MAX_LINE : Nat := 64 * 1024

/-- The size of the buffer of a `BufReader`. -/
def BUFFER_SIZE : Nat := 8 * 1024

/-- The byte that ends a line. -/
def NEWLINE : UInt8 := 10

/-- What the socket has for a read: bytes, never none, or a timeout. -/
inductive SocketEvent where
  | chunk (first : UInt8) (rest : List UInt8)
  | timeout
deriving DecidableEq

/-- What reads get after the last event: the end of the stream, or a timeout every time. -/
inductive Ending where
  | closed
  | silent
deriving DecidableEq

/-- The lines are the bytes of Rust strings, which are valid at all times. -/
abbrev LineBytes := List UInt8

structure LineReader where
  buffer : List UInt8 := []
  /-- What `take` lets through yet. -/
  limit : Nat := MAX_LINE
  events : List SocketEvent
  ending : Ending
deriving DecidableEq

namespace LineReader

def chunkBytes : SocketEvent → List UInt8
  | .chunk first rest => first :: rest
  | .timeout => []

/-- The bytes that have not been read. -/
def unread (reader : LineReader) : List UInt8 :=
  reader.buffer ++ reader.events.flatMap chunkBytes

/-- The events when `bytes` of a chunk are left. -/
def putBack (bytes : List UInt8) (events : List SocketEvent) : List SocketEvent :=
  match bytes with
  | [] => events
  | first :: rest => .chunk first rest :: events

inductive Fill where
  | filled (reader : LineReader)
  | timedOut (reader : LineReader)

/-- A read of at most `size` bytes through the `Take`, when the buffer is empty. -/
def fillWith (size : Nat) (reader : LineReader) : Fill :=
  if reader.buffer ≠ [] ∨ reader.limit = 0 then .filled reader
  else
    match reader.events with
    | [] =>
        match reader.ending with
        | .closed => .filled reader
        | .silent => .timedOut reader
    | .timeout :: events => .timedOut { reader with events := events }
    | .chunk first rest :: events =>
        let count := min size reader.limit
        let bytes := (first :: rest).take count
        .filled
          { reader with
            buffer := bytes
            limit := reader.limit - bytes.length
            events := putBack ((first :: rest).drop count) events }

/-- `fill_buf` of a `BufReader` over a `Take`. -/
def fillBuf (reader : LineReader) : Fill :=
  reader.fillWith BUFFER_SIZE

theorem chunkBytes_putBack (bytes : List UInt8) (events : List SocketEvent) :
    (putBack bytes events).flatMap chunkBytes = bytes ++ events.flatMap chunkBytes := by
  cases bytes with
  | nil => rfl
  | cons first rest => rfl

/-- Filling the buffer leaves the unread bytes as they are. -/
theorem fillWith_unread {size : Nat} {reader filled : LineReader}
    (fills : reader.fillWith size = .filled filled) : filled.unread = reader.unread := by
  unfold fillWith at fills
  split at fills
  · cases fills
    rfl
  · next empty =>
      rw [not_or, not_not] at empty
      split at fills
      · split at fills
        · cases fills
          rfl
        · cases fills
      · cases fills
      · next first rest events isEvents =>
          cases fills
          rw [unread, unread, empty.1, isEvents, List.flatMap_cons, chunkBytes_putBack,
            ← List.append_assoc, List.take_append_drop]
          rfl

/-- `read_until` for the end of a line, with the bytes it has and whether a timeout ended it. -/
def readUntil (reader : LineReader) (read : List UInt8) : LineReader × List UInt8 × Bool :=
  match _fills : reader.fillBuf with
  | .timedOut reader => (reader, read, true)
  | .filled filled =>
      match filled.buffer.span (fun byte => byte ≠ NEWLINE) with
      | (before, newline :: rest) =>
          ({ filled with buffer := rest }, read ++ before ++ [newline], false)
      | (_, []) =>
          if _empty : filled.buffer = [] then (filled, read, false)
          else readUntil { filled with buffer := [] } (read ++ filled.buffer)
termination_by reader.unread.length
decreasing_by
  rw [← fillWith_unread _fills, unread, unread, List.length_append, List.length_append]
  have positive := List.length_pos_iff.mpr _empty
  simp only [List.length_nil]
  omega

inductive ReadError where
  | timedOut
  | invalidData
deriving DecidableEq

/-- `read_line`: the bytes of one call are appended if they are valid, and dropped if not. -/
def readLine (reader : LineReader) (line : LineBytes) :
    LineReader × LineBytes × Except ReadError Nat :=
  let (reader, appended, timedOut) := reader.readUntil []
  if Utf8.Valid appended then
    (reader, line ++ appended, if timedOut then .error .timedOut else .ok appended.length)
  else (reader, line, .error (if timedOut then .timedOut else .invalidData))

/-- `read` of at most `want` bytes, or a timeout: a large read of an empty buffer goes past it. -/
def readSome (reader : LineReader) (want : Nat) : LineReader × Option (List UInt8) :=
  let size := if reader.buffer = [] ∧ BUFFER_SIZE ≤ want then want else BUFFER_SIZE
  match reader.fillWith size with
  | .timedOut reader => (reader, none)
  | .filled filled =>
      ({ filled with buffer := filled.buffer.drop want }, some (filled.buffer.take want))

end LineReader

inductive ReadOutcome where
  | line
  | eof
  | timeout
deriving DecidableEq

inductive LineError where
  | tooLong
  | receive
  | disconnected
deriving DecidableEq

def readLineStep (reader : LineReader) (line : LineBytes) (fresh : Bool) :
    LineReader × LineBytes × Except LineError ReadOutcome :=
  let reader := if fresh then { reader with limit := MAX_LINE } else reader
  let line := if fresh then [] else line
  let (reader, line, result) := reader.readLine line
  match result with
  | .ok 0 =>
      if line = [] then (reader, line, .ok .eof)
      else if reader.limit = 0 then (reader, line, .error .tooLong)
      else (reader, line, .ok .eof)
  | .ok _ =>
      if line.getLast? = some NEWLINE then (reader, line, .ok .line)
      else if reader.limit = 0 then (reader, line, .error .tooLong)
      else (reader, line, .ok .eof)
  | .error .timedOut => (reader, line, .ok .timeout)
  | .error .invalidData => (reader, line, .error .receive)

/-- The loop of `control_session`: the lines it hands on and the error it ends with, as long as the
fuel lasts. -/
def readLoop : Nat → LineReader → LineBytes → Bool → Option (List LineBytes × LineError)
  | 0, _, _, _ => none
  | fuel + 1, reader, line, fresh =>
      match readLineStep reader line fresh with
      | (reader, line, .ok .timeout) => readLoop fuel reader line false
      | (_, _, .ok .eof) => some ([], .disconnected)
      | (reader, line, .ok .line) =>
          (readLoop fuel reader line true).map (fun (handed, ends) => (line :: handed, ends))
      | (_, _, .error error) => some ([], error)

/-- `read_line_blocking`, as long as the fuel lasts. -/
def readLineBlocking : Nat → LineReader → LineBytes → Bool →
    Option (LineReader × Except LineError LineBytes)
  | 0, _, _, _ => none
  | fuel + 1, reader, line, fresh =>
      match readLineStep reader line fresh with
      | (reader, line, .ok .line) => some (reader, .ok line)
      | (reader, _, .ok .eof) => some (reader, .error .disconnected)
      | (reader, line, .ok .timeout) => readLineBlocking fuel reader line false
      | (reader, _, .error error) => some (reader, .error error)

inductive BodyError where
  | receive
  | disconnected (remaining : Nat)
deriving DecidableEq

/-- The buffer for the body of a file. -/
def BODY_BUFFER : Nat := 64 * 1024

/-- The loop of `receive_file` over the bytes of the body; a timeout is an error. -/
def readBody (reader : LineReader) (remaining : Nat) (body : List UInt8) :
    LineReader × Except BodyError (List UInt8) :=
  if _rest : remaining = 0 then (reader, .ok body)
  else
    match reader.readSome (min remaining BODY_BUFFER) with
    | (reader, none) => (reader, .error .receive)
    | (reader, some bytes) =>
        if _empty : bytes = [] then (reader, .error (.disconnected remaining))
        else readBody reader (remaining - bytes.length) (body ++ bytes)
termination_by remaining
decreasing_by
  have positive := List.length_pos_iff.mpr _empty
  omega

end PeerCove
