/-
Module: PeerCove.Member.DnsBounds
Layer: Member
Purpose: The responder with every index and slice of the query checked, as the program runs it: an
  index that is out of range is an outcome of its own.
Trusted boundary: none
Main exports: OutOfRange, respondIndexed, respondIndexed_eq
-/
import PeerCove.Member.DnsResolver

namespace PeerCove

/-- The panic of an index or a slice. -/
inductive OutOfRange where
  | outOfRange
deriving Repr, DecidableEq

/-- `bytes[index]`. -/
def indexAt (bytes : List UInt8) (index : Nat) : Except OutOfRange UInt8 :=
  match bytes[index]? with
  | some byte => .ok byte
  | none => .error .outOfRange

/-- `bytes[start..stop]`. -/
def slice (bytes : List UInt8) (start stop : Nat) : Except OutOfRange (List UInt8) :=
  if start ≤ stop ∧ stop ≤ bytes.length then .ok ((bytes.take stop).drop start)
  else .error .outOfRange

/-- The loop of `parse_question`, from an offset: the name, and the offset after it. -/
def questionNameAt (query : List UInt8) :
    Nat → Nat → String → Except OutOfRange (Option (String × Nat))
  | 0, _, _ => .ok none
  | fuel + 1, pos, name =>
      match query[pos]? with
      | none => .ok none
      | some len =>
          if len = 0 then .ok (some (name, pos + 1))
          else if len.toNat > 63 ∨ pos + 1 + len.toNat > query.length then .ok none
          else do
            let label ← slice query (pos + 1) (pos + 1 + len.toNat)
            let dotted := if name = "" then name else name ++ "."
            let longer := dotted ++ String.ofList (label.map nameChar)
            if Text.len longer > 253 then .ok none
            else questionNameAt query fuel (pos + 1 + len.toNat) longer

/-- `parse_question`: the name, the two fields after it, and the offset after the section. -/
def parseQuestionAt (query : List UInt8) :
    Except OutOfRange (Option (String × UInt16 × UInt16 × Nat)) := do
  match ← questionNameAt query (query.length - 12 + 1) 12 "" with
  | none => return none
  | some (name, pos) =>
      match query[pos]?, query[pos + 1]?, query[pos + 2]?, query[pos + 3]? with
      | some t1, some t2, some c1, some c2 =>
          return some (name, be16 t1 t2, be16 c1 c2, pos + 4)
      | _, _, _, _ => return none

def respondIndexed (query : List UInt8) (zone : DnsTables) :
    Except OutOfRange (Option (List UInt8)) := do
  if query.length < 12 then return none
  let _ ← indexAt query 0
  let _ ← indexAt query 1
  let flags1 ← indexAt query 2
  if flags1 &&& 0x80 ≠ 0 then return none
  let high ← indexAt query 4
  let low ← indexAt query 5
  if (flags1 >>> 3) &&& 0x0F ≠ 0 then return some (responseHeader query RCODE_NOTIMP 0 false)
  if be16 high low ≠ 1 then return some (responseHeader query RCODE_FORMERR 0 false)
  match ← parseQuestionAt query with
  | none => return some (responseHeader query RCODE_FORMERR 0 false)
  | some (name, qtype, qclass, stop) =>
      let bytes ← slice query 12 stop
      let question : ParsedQuestion := { name, qtype, qclass, bytes }
      return some (reply query question (zone.find name))

/-! ### No index is out of range -/

theorem indexAt_ok {bytes : List UInt8} {index : Nat} (inside : index < bytes.length) :
    indexAt bytes index = .ok (bytes.getD index 0) := by
  rw [indexAt, List.getD_eq_getElem?_getD, List.getElem?_eq_getElem inside]
  rfl

theorem slice_ok {bytes : List UInt8} {start stop : Nat} (ordered : start ≤ stop)
    (inside : stop ≤ bytes.length) :
    slice bytes start stop = .ok ((bytes.drop start).take (stop - start)) := by
  rw [slice, if_pos ⟨ordered, inside⟩, List.drop_take]

theorem inRange_bind {α β : Type} (value : α) (next : α → Except OutOfRange β) :
    (Except.ok value >>= next) = next value := rfl

/-- The loop over offsets reads what the loop over the rest of the query reads. -/
theorem questionNameAt_eq (query : List UInt8) (fuel pos : Nat) (name : String) :
    (questionName fuel (query.drop pos) name = none →
      questionNameAt query fuel pos name = .ok none) ∧
    ∀ full rest, questionName fuel (query.drop pos) name = some (full, rest) →
      ∃ stop, pos ≤ stop ∧ stop ≤ query.length ∧ rest = query.drop stop ∧
        questionNameAt query fuel pos name = .ok (some (full, stop)) := by
  induction fuel generalizing pos name with
  | zero => exact ⟨fun _ => rfl, fun full rest read => nomatch read⟩
  | succ fuel ih =>
      cases here : query[pos]? with
      | none =>
          have over_ : query.drop pos = [] :=
            List.drop_eq_nil_of_le (List.getElem?_eq_none_iff.mp here)
          rw [over_]
          constructor
          · intro _
            rw [questionNameAt, here]
          · intro full rest read
            cases read
      | some len =>
          obtain ⟨inside, value⟩ := List.getElem?_eq_some_iff.mp here
          have split : query.drop pos = len :: query.drop (pos + 1) := by
            rw [List.drop_eq_getElem_cons inside, value]
          have length : (query.drop (pos + 1)).length = query.length - (pos + 1) :=
            List.length_drop
          rw [split, questionName, questionNameAt, here]
          dsimp only
          by_cases root : len = 0
          · rw [if_pos root, if_pos root]
            refine ⟨fun impossible => (nomatch impossible), fun full rest read => ?_⟩
            cases read
            exact ⟨pos + 1, Nat.le_succ _, inside, rfl, rfl⟩
          · rw [if_neg root, if_neg root]
            have same : (len.toNat > 63 ∨ len.toNat > (query.drop (pos + 1)).length) ↔
                len.toNat > 63 ∨ pos + 1 + len.toNat > query.length := by
              rw [length]
              omega
            by_cases long : len.toNat > 63 ∨ pos + 1 + len.toNat > query.length
            · rw [if_pos (same.mpr long), if_pos long]
              exact ⟨fun _ => rfl, fun full rest read => nomatch read⟩
            · rw [if_neg (fun other => long (same.mp other)), if_neg long]
              have sliced : slice query (pos + 1) (pos + 1 + len.toNat) =
                  .ok ((query.drop (pos + 1)).take len.toNat) := by
                rw [slice_ok (Nat.le_add_right _ _) (by omega), Nat.add_sub_cancel_left]
              rw [sliced, inRange_bind]
              generalize (if name = "" then name else name ++ ".") ++
                String.ofList (((query.drop (pos + 1)).take len.toNat).map nameChar) = longer
              by_cases tooLong : Text.len longer > 253
              · rw [if_pos tooLong, if_pos tooLong]
                exact ⟨fun _ => rfl, fun full rest read => (nomatch read)⟩
              · rw [if_neg tooLong, if_neg tooLong, List.drop_drop]
                obtain ⟨nothing, something⟩ := ih (pos + 1 + len.toNat) longer
                refine ⟨nothing, fun full rest read => ?_⟩
                obtain ⟨stop, after, within, left, reads⟩ := something full rest read
                exact ⟨stop, by omega, within, left, reads⟩

/-- Four more bytes are there exactly when the rest of the query has them. -/
theorem parseQuestionAt_eq (query : List UInt8) (header : 12 ≤ query.length) :
    parseQuestionAt query = .ok ((parseQuestion (query.drop 12)).map (fun question =>
      (question.name, question.qtype, question.qclass, 12 + question.bytes.length))) ∧
    ∀ question, parseQuestion (query.drop 12) = some question →
      12 + question.bytes.length ≤ query.length ∧
        question.bytes = (query.drop 12).take question.bytes.length := by
  have length : (query.drop 12).length = query.length - 12 := List.length_drop
  obtain ⟨nothing, something⟩ := questionNameAt_eq query (query.length - 12 + 1) 12 ""
  unfold parseQuestion parseQuestionAt
  rw [length]
  cases read : questionName (query.length - 12 + 1) (query.drop 12) "" with
  | none =>
      rw [nothing read]
      exact ⟨rfl, fun question parsed => nomatch parsed⟩
  | some found =>
      obtain ⟨full, rest⟩ := found
      obtain ⟨stop, after, within, left, reads⟩ := something full rest read
      rw [reads, inRange_bind]
      have at_ : ∀ index, query[stop + index]? = rest[index]? := by
        intro index
        rw [left, List.getElem?_drop]
      have first : query[stop]? = rest[0]? := at_ 0
      dsimp only
      rw [first, at_ 1, at_ 2, at_ 3]
      match rest, left with
      | [], _ => exact ⟨rfl, fun question parsed => nomatch parsed⟩
      | [_], _ => exact ⟨rfl, fun question parsed => nomatch parsed⟩
      | [_, _], _ => exact ⟨rfl, fun question parsed => nomatch parsed⟩
      | [_, _, _], _ => exact ⟨rfl, fun question parsed => nomatch parsed⟩
      | t1 :: t2 :: c1 :: c2 :: rest, left =>
          have count : rest.length + 4 = query.length - stop := by
            have sizes := congrArg List.length left
            rw [List.length_drop] at sizes
            exact sizes
          have taken : ((query.drop 12).take (query.length - 12 - rest.length)).length =
              query.length - 12 - rest.length := by
            rw [List.length_take, length]
            omega
          constructor
          · simp only [Option.map_some, taken]
            have stops : stop + 4 = 12 + (query.length - 12 - rest.length) := by omega
            rw [← stops]
            rfl
          · intro question parsed
            cases parsed
            rw [taken]
            exact ⟨by omega, rfl⟩

/-- No index and no slice of `respond` is out of range, whatever the query. -/
theorem respondIndexed_eq (query : List UInt8) (zone : DnsTables) :
    respondIndexed query zone = .ok (respond query zone) := by
  unfold respondIndexed respond
  by_cases short : query.length < 12
  · rw [if_pos short, if_pos short]
    rfl
  · rw [if_neg short]
    dsimp only
    rw [if_neg short, indexAt_ok (by omega), indexAt_ok (by omega), indexAt_ok (by omega),
      indexAt_ok (by omega), indexAt_ok (by omega)]
    simp only [inRange_bind]
    by_cases isResponse : query.getD 2 0 &&& 0x80 ≠ 0
    · rw [if_pos isResponse, if_pos isResponse]
      rfl
    · rw [if_neg isResponse, if_neg isResponse]
      by_cases opcode : (query.getD 2 0 >>> 3) &&& 0x0F ≠ 0
      · rw [if_pos opcode, if_pos opcode]
        rfl
      · rw [if_neg opcode, if_neg opcode]
        by_cases many : be16 (query.getD 4 0) (query.getD 5 0) ≠ 1
        · rw [if_pos many, if_pos many]
          rfl
        · rw [if_neg many, if_neg many]
          obtain ⟨parses, bounds⟩ := parseQuestionAt_eq query (Nat.not_lt.mp short)
          rw [parses]
          cases parsed : parseQuestion (query.drop 12) with
          | none => rfl
          | some question =>
              obtain ⟨within, echoed⟩ := bounds question parsed
              have sliced : slice query 12 (12 + question.bytes.length) = .ok question.bytes := by
                rw [slice_ok (Nat.le_add_right _ _) within, Nat.add_sub_cancel_left, ← echoed]
              rw [Option.map_some, inRange_bind]
              dsimp only
              rw [sliced]
              rfl

end PeerCove
