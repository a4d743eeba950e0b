/-
Module: PeerCove.Proofs.SilentPeer
Layer: Proofs
Purpose: When an exchange with a peer that falls silent comes to an end: exactly when, wherever it
  waits for a frame, the peer has sent the end of a line or more than a line may have.  Otherwise
  the read timeouts go on for ever, and with them the round of the send queue.
Trusted boundary: none
Main exports: LineComes, readLineBlocking_ends_iff, Ends, Fed, ends_iff_fed, exchanges_end_iff,
  pump_hangs
-/
import PeerCove.Member.MobileExchange
import PeerCove.Proofs.LineFraming

namespace PeerCove

open LineReader

/-! ### Reading a line -/

/-- The bytes that the socket delivers yet. -/
def LineReader.toCome (reader : LineReader) : List UInt8 :=
  reader.events.flatMap chunkBytes

theorem LineReader.bytesOf_layout (reader : LineReader) :
    bytesOf reader.layout = reader.buffer ++ reader.toCome := by
  rw [layout, bytesOf_append, bytesOf_map, bytesOf_flatMap]
  rfl

/-- What a read takes from the limit it takes from the bytes to come. -/
theorem LineReader.Reads.toCome {reader next : LineReader} {got : List UInt8} {timedOut : Bool}
    (reads : Reads reader got next timedOut)
    (limit : next.limit + next.buffer.length + got.length = reader.limit + reader.buffer.length) :
    next.toCome.length + reader.limit = reader.toCome.length + next.limit := by
  have bytes := congrArg List.length reads.bytes
  rw [bytesOf_layout, bytesOf_layout] at bytes
  simp only [List.length_append] at bytes
  omega

theorem readLineBlocking_fresh (fuel : Nat) (reader : LineReader) (line : LineBytes) :
    readLineBlocking fuel reader line true = readLineBlocking fuel reader.refreshed [] false := by
  cases fuel with
  | zero => rfl
  | succ fuel => rfl

theorem readLineBlocking_timeout {reader next : LineReader} {line kept : LineBytes}
    (step : readLineStep reader line false = (next, kept, .ok .timeout)) (fuel : Nat) :
    readLineBlocking (fuel + 1) reader line false = readLineBlocking fuel next kept false := by
  rw [readLineBlocking, step]

theorem readLineBlocking_ends {reader : LineReader} {line : LineBytes} {error : LineError}
    (step : endsWith (readLineStep reader line false).2.2 = some error) (fuel : Nat) :
    readLineBlocking (fuel + 1) reader line false
      = some ((readLineStep reader line false).1, .error error) := by
  generalize result : readLineStep reader line false = read at step
  obtain ⟨next, kept, outcome⟩ := read
  rw [readLineBlocking, result]
  cases outcome with
  | error reason =>
      cases step
      rfl
  | ok outcome =>
      cases outcome <;> cases step
      rfl

/-- Neither the end of the line nor of its limit comes before the peer falls silent. -/
structure Starved (reader : LineReader) : Prop where
  silent : reader.ending = .silent
  midway : NEWLINE ∉ bytesOf reader.layout
  short : reader.toCome.length < reader.limit

/-- A timeout brings neither. -/
theorem Starved.after {reader next : LineReader} {got : List UInt8} (starved : Starved reader)
    (reads : Reads reader got next true) (ending : next.ending = reader.ending)
    (limit : next.limit + next.buffer.length + got.length = reader.limit + reader.buffer.length) :
    Starved next := by
  constructor
  · exact ending.trans starved.silent
  · intro member
    apply starved.midway
    rw [reads.bytes]
    exact List.mem_append_right _ member
  · have taken := reads.toCome limit
    have short := starved.short
    omega

/-- A read without a timeout gets the end of the line or of the limit. -/
theorem Starved.timesOut {reader next : LineReader} {got : List UInt8} (starved : Starved reader)
    (reads : Reads reader got next false)
    (limit : next.limit + next.buffer.length + got.length = reader.limit + reader.buffer.length) :
    False := by
  have taken := reads.toCome limit
  have short := starved.short
  cases reads with
  | line front isLine midway layout =>
      apply starved.midway
      rw [layout, isLine]
      simp
  | ended midway empty layout stops =>
      rcases stops with spent | ⟨_, closed⟩
      · omega
      · rw [starved.silent] at closed
        cases closed

theorem Starved.never {reader : LineReader} (starved : Starved reader) (fuel : Nat)
    (line : LineBytes) : readLineBlocking fuel reader line false = none := by
  induction fuel generalizing reader line with
  | zero => rfl
  | succ fuel ih =>
      obtain ⟨got, next, ending, limit, turn⟩ := readLineStep_turn reader line
      cases turn with
      | kept valid reads step =>
          rw [readLineBlocking_timeout step]
          exact ih (starved.after reads ending limit) (line ++ got)
      | dropped invalid reads step =>
          rw [readLineBlocking_timeout step]
          exact ih (starved.after reads ending limit) line
      | line front isLine midway valid layout step =>
          exact (starved.timesOut (.line front isLine midway layout) limit).elim
      | ends error reads reason step => exact (starved.timesOut reads limit).elim

/-- With the end of the line or of the limit to come, reading it comes to an end. -/
theorem readLineBlocking_comes {reader : LineReader} (line : LineBytes)
    (comes : NEWLINE ∈ bytesOf reader.layout ∨ reader.limit ≤ reader.toCome.length) :
    ∃ fuel outcome, readLineBlocking fuel reader line false = some outcome := by
  generalize size : reader.layout.length = count
  induction count using Nat.strong_induction_on generalizing reader line with
  | _ count ih =>
    obtain ⟨got, next, ending, limit, turn⟩ := readLineStep_turn reader line
    -- what is still to come after a timeout
    have later : ∀ kept, Reads reader got next true →
        readLineStep reader line false = (next, kept, .ok .timeout) →
        ∃ fuel outcome, readLineBlocking fuel reader line false = some outcome := by
      intro kept reads step
      have taken := reads.toCome limit
      have bytes := reads.bytes
      cases reads with
      | timedOut midway empty layout =>
          have shorter : next.layout.length < count := by
            rw [← size, layout]
            simp
            omega
          have comesNext : NEWLINE ∈ bytesOf next.layout ∨ next.limit ≤ next.toCome.length := by
            rcases comes with newline | enough
            · rw [bytes, List.mem_append] at newline
              exact Or.inl (newline.resolve_left midway)
            · right
              omega
          obtain ⟨fuel, outcome, ran⟩ := ih _ shorter kept comesNext rfl
          exact ⟨fuel + 1, outcome, (readLineBlocking_timeout step fuel).trans ran⟩
      | silent midway silent empty layout ended spare =>
          exfalso
          rcases comes with newline | enough
          · rw [layout, bytesOf_map] at newline
            exact midway newline
          · have nothing : next.toCome.length = 0 := by
              have none := bytesOf_layout next
              rw [ended, empty] at none
              rw [← List.nil_append next.toCome, ← none]
              rfl
            omega
    cases turn with
    | kept valid reads step => exact later _ reads step
    | dropped invalid reads step => exact later _ reads step
    | line front isLine midway valid layout step =>
        refine ⟨1, (next, .ok (line ++ got)), ?_⟩
        rw [readLineBlocking, step]
    | ends error reads reason step => exact ⟨1, _, readLineBlocking_ends step 0⟩

/-- The peer has sent the end of a line, or more than a line may have, before it falls silent. -/
def LineComes (reader : LineReader) : Prop :=
  NEWLINE ∈ reader.buffer ++ reader.toCome ∨ MAX_LINE ≤ reader.toCome.length

instance (reader : LineReader) : Decidable (LineComes reader) :=
  inferInstanceAs (Decidable (_ ∨ _))

theorem readLineBlocking_ends_iff {reader : LineReader} (silent : reader.ending = .silent) :
    (∃ fuel outcome, readLineBlocking fuel reader [] true = some outcome) ↔ LineComes reader := by
  simp only [readLineBlocking_fresh]
  constructor
  · rintro ⟨fuel, outcome, ran⟩
    apply Classical.byContradiction
    intro starves
    rw [LineComes, not_or] at starves
    have starved : Starved reader.refreshed := by
      constructor
      · exact silent
      · rw [refreshed_layout, bytesOf_layout]
        exact starves.1
      · exact Nat.lt_of_not_le starves.2
    rw [starved.never] at ran
    cases ran
  · intro comes
    apply readLineBlocking_comes
    rw [refreshed_layout, bytesOf_layout]
    exact comes

/-! ### The connection stays as it is -/

theorem LineReader.readUntil_ending (reader : LineReader) (read : List UInt8) :
    (reader.readUntil read).1.ending = reader.ending := by
  obtain ⟨got, _, _, ending, _⟩ := readUntil_reads reader read
  exact ending

theorem readLineStep_ending (reader : LineReader) (line : LineBytes) (fresh : Bool) :
    (readLineStep reader line fresh).1.ending = reader.ending := by
  have read : ∀ reader : LineReader, ∀ line,
      (readLineStep reader line false).1 = (reader.readUntil []).1 := by
    intro reader line
    simp only [readLineStep, readLine, Bool.false_eq_true, if_false]
    repeat' split
    all_goals rfl
  cases fresh with
  | false => rw [read, readUntil_ending]
  | true =>
      rw [readLineStep_fresh, read, readUntil_ending]
      rfl

theorem readLineBlocking_ending {fuel : Nat} {reader next : LineReader} {line : LineBytes}
    {fresh : Bool} {result : Except LineError LineBytes}
    (ran : readLineBlocking fuel reader line fresh = some (next, result)) :
    next.ending = reader.ending := by
  induction fuel generalizing reader line fresh with
  | zero => cases ran
  | succ fuel ih =>
      have step := readLineStep_ending reader line fresh
      rw [readLineBlocking] at ran
      split at ran
      · next taken => cases ran; rwa [taken] at step
      · next taken => cases ran; rwa [taken] at step
      · next taken => rw [taken] at step; exact (ih ran).trans step
      · next taken => cases ran; rwa [taken] at step

theorem LineReader.fillWith_ending {size : Nat} {reader : LineReader} :
    (∀ filled, reader.fillWith size = .filled filled → filled.ending = reader.ending) ∧
      ∀ next, reader.fillWith size = .timedOut next → next.ending = reader.ending := by
  constructor <;> intro next fills
  all_goals
    unfold fillWith at fills
    repeat' split at fills
    all_goals cases fills
    all_goals rfl

theorem LineReader.readSome_ending (reader : LineReader) (want : Nat) :
    (reader.readSome want).1.ending = reader.ending := by
  rw [readSome]
  split
  · next next fills => exact fillWith_ending.2 next fills
  · next filled fills => exact fillWith_ending.1 filled fills

theorem readBody_ending (reader : LineReader) (remaining : Nat) (body : List UInt8) :
    (readBody reader remaining body).1.ending = reader.ending := by
  fun_induction readBody reader remaining body with
  | case1 reader body => rfl
  | case2 reader remaining body rest next reads =>
      have kept := readSome_ending reader (min remaining BODY_BUFFER)
      rwa [reads] at kept
  | case3 reader remaining body rest next reads =>
      have kept := readSome_ending reader (min remaining BODY_BUFFER)
      rwa [reads] at kept
  | case4 reader remaining body rest next bytes reads filled ih =>
      have kept := readSome_ending reader (min remaining BODY_BUFFER)
      rw [reads] at kept
      exact ih.trans kept

/-! ### Frames -/

section
variable {parse : LineBytes → Option MsgFrame}

theorem readLineBlocking_mono {fuel more : Nat} {reader : LineReader} {line : LineBytes}
    {fresh : Bool} {outcome : LineReader × Except LineError LineBytes} (enough : fuel ≤ more)
    (ran : readLineBlocking fuel reader line fresh = some outcome) :
    readLineBlocking more reader line fresh = some outcome := by
  induction fuel generalizing more reader line fresh with
  | zero => cases ran
  | succ fuel ih =>
      obtain ⟨more, rfl⟩ : ∃ less, more = less + 1 := ⟨more - 1, by omega⟩
      rw [readLineBlocking] at ran ⊢
      split at ran
      · exact ran
      · exact ran
      · exact ih (by omega) ran
      · exact ran

/-- What a line is read as. -/
def received (parse : LineBytes → Option MsgFrame) :
    LineReader × Except LineError LineBytes → LineReader × Except ExchangeError MsgFrame
  | (reader, .error error) => (reader, .error (.read error))
  | (reader, .ok line) =>
      (reader, match parse line with
        | none => .error .unparsable
        | some frame => .ok frame)

theorem readMsgFrame_eq (fuel : Nat) (reader : LineReader) :
    readMsgFrame parse fuel reader
      = (readLineBlocking fuel reader [] true).map (received parse) := by
  rw [readMsgFrame]
  cases readLineBlocking fuel reader [] true with
  | none => rfl
  | some outcome =>
      obtain ⟨next, result⟩ := outcome
      cases result with
      | error error => rfl
      | ok line =>
          dsimp only
          rw [Option.map_some, received]
          cases parse line <;> rfl

theorem readMsgFrame_ends_iff {reader : LineReader} (silent : reader.ending = .silent) :
    (∃ fuel outcome, readMsgFrame parse fuel reader = some outcome) ↔ LineComes reader := by
  rw [← readLineBlocking_ends_iff silent]
  simp only [readMsgFrame_eq, Option.map_eq_some_iff]
  constructor
  · rintro ⟨fuel, _, outcome, ran, _⟩
    exact ⟨fuel, outcome, ran⟩
  · rintro ⟨fuel, outcome, ran⟩
    exact ⟨fuel, _, outcome, ran, rfl⟩

theorem readMsgFrame_mono {fuel more : Nat} {reader : LineReader}
    {outcome : LineReader × Except ExchangeError MsgFrame} (enough : fuel ≤ more)
    (ran : readMsgFrame parse fuel reader = some outcome) :
    readMsgFrame parse more reader = some outcome := by
  rw [readMsgFrame_eq, Option.map_eq_some_iff] at ran ⊢
  obtain ⟨line, ran, same⟩ := ran
  exact ⟨line, readLineBlocking_mono enough ran, same⟩

theorem readMsgFrame_ending {fuel : Nat} {reader next : LineReader}
    {result : Except ExchangeError MsgFrame}
    (ran : readMsgFrame parse fuel reader = some (next, result)) :
    next.ending = reader.ending := by
  rw [readMsgFrame_eq, Option.map_eq_some_iff] at ran
  obtain ⟨⟨rest, line⟩, ran, same⟩ := ran
  have kept := readLineBlocking_ending ran
  cases line <;> cases same <;> exact kept

/-! ### Exchanges -/

/-- Every peer falls silent after what it sends, with the connection open. -/
structure Connections.Silent (connections : Connections) : Prop where
  current : ∀ reader, connections.open_ = some reader → reader.ending = .silent
  others : ∀ i reader, connections.dial i = some reader → reader.ending = .silent

theorem Connections.Silent.connect {connections : Connections} (silent : connections.Silent) :
    connections.connect.2.Silent := by
  rw [Connections.connect]
  cases dialled : connections.dial 0 with
  | none => exact ⟨silent.current, fun i => silent.others (i + 1)⟩
  | some reader =>
      refine ⟨fun _ isReader => ?_, fun i => silent.others (i + 1)⟩
      cases isReader
      exact silent.others 0 reader dialled

theorem Connections.Silent.body {connections : Connections} (silent : connections.Silent)
    (size : Nat) : (connections.body size).2.Silent := by
  rw [Connections.body]
  cases isOpen : connections.open_ with
  | none => exact silent
  | some reader =>
      refine ⟨fun _ isReader => ?_, silent.others⟩
      cases isReader
      exact (readBody_ending { reader with limit := size } size []).trans
        (silent.current reader isOpen)

theorem Connections.Silent.read {connections : Connections} (silent : connections.Silent)
    {reader next : LineReader} (isOpen : connections.open_ = some reader)
    (ending : next.ending = reader.ending) :
    Connections.Silent { connections with open_ := some next } := by
  refine ⟨fun _ isNext => ?_, silent.others⟩
  cases isNext
  exact ending.trans (silent.current reader isOpen)

theorem Exchange.run_mono {ρ : Type} {fuel more : Nat} {exchange : Exchange ρ}
    {connections : Connections} {outcome : List MsgFrame × ρ} (enough : fuel ≤ more)
    (ran : exchange.run parse fuel connections = some outcome) :
    exchange.run parse more connections = some outcome := by
  induction exchange generalizing connections outcome with
  | finish result => exact ran
  | send message next ih =>
      rw [run, Option.map_eq_some_iff] at ran ⊢
      obtain ⟨later, ran, same⟩ := ran
      exact ⟨later, ih ran, same⟩
  | frame next ih =>
      rw [run] at ran ⊢
      split at ran
      · exact ih _ ran
      · split at ran
        · cases ran
        · next reads =>
            rw [readMsgFrame_mono enough reads]
            exact ih _ ran
  | body size next ih => exact ih _ ran
  | connect target next ih => exact ih _ ran

variable (parse)

/-- The exchange comes to an end: each frame it waits for takes finitely many read timeouts. -/
def Ends {ρ : Type} (exchange : Exchange ρ) (connections : Connections) : Prop :=
  ∃ fuel outcome, exchange.run parse fuel connections = some outcome

/-- Wherever the exchange waits for a frame, a line comes. -/
def Fed {ρ : Type} : Exchange ρ → Connections → Prop
  | .finish _, _ => True
  | .send _ next, connections => Fed next connections
  | .frame next, connections =>
      match connections.open_ with
      | none => Fed (next (.error (.read .disconnected))) connections
      | some reader =>
          LineComes reader ∧
            ∀ fuel rest result, readMsgFrame parse fuel reader = some (rest, result) →
              Fed (next result) { connections with open_ := some rest }
  | .body size next, connections =>
      Fed (next (connections.body size).1) (connections.body size).2
  | .connect _ next, connections => Fed (next connections.connect.1) connections.connect.2

variable {parse}

/-- An exchange with peers that fall silent comes to an end exactly when it is fed. -/
theorem ends_iff_fed {ρ : Type} (exchange : Exchange ρ) {connections : Connections}
    (silent : connections.Silent) :
    Ends parse exchange connections ↔ Fed parse exchange connections := by
  induction exchange generalizing connections with
  | finish result =>
      rw [Fed, iff_true]
      exact ⟨0, _, rfl⟩
  | send message next ih =>
      rw [Fed, ← ih silent]
      simp only [Ends, Exchange.run, Option.map_eq_some_iff]
      constructor
      · rintro ⟨fuel, _, outcome, ran, _⟩
        exact ⟨fuel, outcome, ran⟩
      · rintro ⟨fuel, outcome, ran⟩
        exact ⟨fuel, _, outcome, ran, rfl⟩
  | frame next ih =>
      rw [Fed]
      cases isOpen : connections.open_ with
      | none =>
          dsimp only
          rw [← ih _ silent]
          simp only [Ends, Exchange.run, isOpen]
      | some reader =>
          dsimp only
          have comes : (∃ fuel outcome, readMsgFrame parse fuel reader = some outcome) ↔
              LineComes reader := readMsgFrame_ends_iff (silent.current reader isOpen)
          rw [← comes]
          constructor
          · rintro ⟨fuel, outcome, ran⟩
            rw [Exchange.run, isOpen] at ran
            dsimp only at ran
            split at ran
            · cases ran
            · next rest result reads =>
                refine ⟨⟨fuel, _, reads⟩, fun other rest' result' again => ?_⟩
                -- more fuel reads the same frame
                have first := readMsgFrame_mono (Nat.le_max_left fuel other) reads
                have second := readMsgFrame_mono (Nat.le_max_right fuel other) again
                rw [first] at second
                cases second
                exact (ih _ (silent.read isOpen (readMsgFrame_ending reads))).mp
                  ⟨fuel, outcome, ran⟩
          · rintro ⟨⟨fuel, ⟨rest, result⟩, reads⟩, fed⟩
            have kept := silent.read isOpen (readMsgFrame_ending reads)
            obtain ⟨others, outcome, ran⟩ := (ih _ kept).mpr (fed fuel rest result reads)
            refine ⟨max fuel others, outcome, ?_⟩
            rw [Exchange.run, isOpen]
            dsimp only
            rw [readMsgFrame_mono (Nat.le_max_left fuel others) reads]
            exact Exchange.run_mono (Nat.le_max_right fuel others) ran
  | body size next ih => exact ih _ (silent.body size)
  | connect target next ih => exact ih _ silent.connect

end

/-! ### The exchanges of the session -/

/-- A connection on which the peer sends this, and then nothing, without closing it. -/
def silentReader (events : List SocketEvent) : LineReader where
  events := events
  ending := .silent

/-- A connection that came in. -/
def accepted (events : List SocketEvent) : Connections where
  open_ := some (silentReader events)

/-- A connection in the middle of an exchange. -/
def resumed (buffer : List UInt8) (limit : Nat) (events : List SocketEvent) : Connections where
  open_ := some { buffer := buffer, limit := limit, events := events, ending := .silent }

/-- What the peers send that are going to be dialled; some cannot be reached. -/
def dialling (sent : Nat → Option (List SocketEvent)) : Connections where
  dial := fun i => (sent i).map silentReader

theorem silent_accepted (events : List SocketEvent) : (accepted events).Silent := by
  refine ⟨fun reader isReader => ?_, fun i reader isReader => ?_⟩ <;> cases isReader
  rfl

theorem silent_resumed (buffer : List UInt8) (limit : Nat) (events : List SocketEvent) :
    (resumed buffer limit events).Silent := by
  refine ⟨fun reader isReader => ?_, fun i reader isReader => ?_⟩ <;> cases isReader
  rfl

theorem silent_dialling (sent : Nat → Option (List SocketEvent)) : (dialling sent).Silent := by
  refine ⟨fun reader isReader => ?_, fun i reader isReader => ?_⟩
  · cases isReader
  · obtain ⟨events, _, rfl⟩ := Option.map_eq_some_iff.mp isReader
    rfl

/-- A delivery waits for one frame. -/
theorem fed_deliverChat {parse : LineBytes → Option MsgFrame} {target : Ipv4Addr}
    {frame : ChatFrame} {id : String} {events : List SocketEvent} :
    Fed parse (deliverChat target frame id .finish) (dialling (fun _ => some events)) ↔
      LineComes (silentReader events) := by
  refine ⟨fun fed => fed.1, fun comes => ⟨comes, fun fuel rest result _ => ?_⟩⟩
  cases result with
  | error error => trivial
  | ok frame =>
      cases frame with
      | chatAck acked =>
          dsimp only
          split <;> trivial
      | _ => trivial

/-- Whatever the peers send before they fall silent, an exchange comes to an end if and only if
there is a line, or more bytes than a line may have, wherever it waits for a frame. -/
theorem exchanges_end_iff (parse : LineBytes → Option MsgFrame) :
    (∀ (view : SessionView) (peerIp : Ipv4Addr) (events : List SocketEvent),
      Ends parse (view.handleConn peerIp) (accepted events) ↔
        Fed parse (view.handleConn peerIp) (accepted events)) ∧
    (∀ (view : SessionView) (peerIp : Ipv4Addr) (context : Option ChatContext)
        (id name : String) (size : Nat) (buffer : List UInt8) (limit : Nat)
        (events : List SocketEvent),
      Ends parse (view.receiveFile peerIp context id name size) (resumed buffer limit events) ↔
        Fed parse (view.receiveFile peerIp context id name size)
          (resumed buffer limit events)) ∧
    (∀ (target : Ipv4Addr) (frame : ChatFrame) (id : String) (events : List SocketEvent),
      Ends parse (deliverChat target frame id .finish) (dialling (fun _ => some events)) ↔
        NEWLINE ∈ events.flatMap chunkBytes ∨
          MAX_LINE ≤ (events.flatMap chunkBytes).length) ∧
    ∀ (due : List (Nat × AttemptView)) (state : SendState)
        (sent : Nat → Option (List SocketEvent)),
      Ends parse (pumpChatQueue due state) (dialling sent) ↔
        Fed parse (pumpChatQueue due state) (dialling sent) := by
  refine ⟨fun view peerIp events => ends_iff_fed _ (silent_accepted events), ?_, ?_,
    fun due state sent => ends_iff_fed _ (silent_dialling sent)⟩
  · intro view peerIp context id name size buffer limit events
    exact ends_iff_fed _ (silent_resumed buffer limit events)
  · intro target frame id events
    rw [ends_iff_fed _ (silent_dialling _), fed_deliverChat]
    rfl

/-- A session without a ledger yet, with a message to one address. -/
def waitingView : AttemptView where
  ownIp := 0x0a070002
  ledger := none
  groups := fun _ => none
  now := 0
  meanwhile := id

def waitingMessage (seq : Nat) (toIp : Ipv4Addr) : PendingChat where
  seq := seq
  id := "m"
  scope := .direct
  toIp := some toIp
  toMemberId := none
  groupId := none
  text := "hello"
  sentAt := 0
  nextAt := 0

/-- A peer that takes the connection and sends half a line stops the delivery, and with it the round
of the send queue: the message to the other peer, which would answer, is not attempted. -/
theorem pump_hangs :
    ¬ Ends (fun _ => some (.chatAck "m"))
        (deliverChat 0x0a070003 (waitingMessage 1 0x0a070003).frame "m" .finish)
        (dialling (fun _ => some [.chunk 0x7b []])) ∧
      ¬ Ends (fun _ => some (.chatAck "m"))
        (pumpChatQueue [(1, waitingView), (2, waitingView)]
          { queue := [waitingMessage 1 0x0a070003, waitingMessage 2 0x0a070004], chat := {} })
        (dialling (fun i =>
          some (if i = 0 then [.chunk 0x7b []] else [.chunk 0x7b [NEWLINE]]))) := by
  constructor
  · rw [ends_iff_fed _ (silent_dialling _), fed_deliverChat]
    decide
  · rw [ends_iff_fed _ (silent_dialling _)]
    intro fed
    exact absurd fed.1 (by decide)

end PeerCove
