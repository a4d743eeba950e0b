/-
Module: PeerCove.Proofs.DnsReplies
Layer: Proofs
Purpose: Every reply of the resolver is a DNS message for its query; which well-formed questions get
  their answer.
Trusted boundary: none
Main exports: StandardQuery, SoundReply, WellAnswered, respond_wellAnswered_iff
-/
import PeerCove.Library.DnsMessage
import PeerCove.Member.DnsBounds
import PeerCove.Proofs.DnsLookup

namespace PeerCove

open Wire

variable {query reply : List UInt8} {zone : DnsTables} {question : DnsQuestion}

/-- A standard query with one question, as the format has it: labels of 1 to 63 bytes, and at most
255 bytes for a name. -/
structure StandardQuery (query : List UInt8) (question : DnsQuestion) : Prop where
  header : 12 ≤ query.length
  isQuery : query.getD 2 0 &&& 0x80 = 0
  opcode : (query.getD 2 0 >>> 3) &&& 0x0F = 0
  one : be16 (query.getD 4 0) (query.getD 5 0) = 1
  each : ∀ label ∈ question.labels, FitsWire label
  short : (wireLabels question.labels).length + 1 ≤ 255
  body : question.bytes <+: query.drop 12

/-- An address has four bytes, an alias is one name without a pointer. -/
def FitsType (record : DnsMessageRecord) : Prop :=
  (record.rtype = TYPE_A.toNat ∧ record.data.length = 4) ∨
    (record.rtype = TYPE_CNAME.toNat ∧ ∃ name : DnsName,
      name.pointer = none ∧ finish "trailing bytes" DnsName.read record.data = .ok name)

/-- A DNS message with nothing left over, which responds to the query; its records are for the name
of its question, which is at offset 12. -/
structure SoundReply (query reply : List UInt8) (message : DnsMessage) : Prop where
  parsed : finish "trailing bytes" DnsMessage.read reply = .ok message
  id : bigEndian 2 message.id = query.take 2
  response : message.isResponse = true
  qdcount : bigValue ((reply.drop 4).take 2) = message.questions.length
  ancount : bigValue ((reply.drop 6).take 2) = message.answers.length
  nscount : bigValue ((reply.drop 8).take 2) = message.authorities.length
  arcount : bigValue ((reply.drop 10).take 2) = message.additionals.length
  questions : ∀ question ∈ message.questions, question.name.pointer = none
  answers : ∀ record ∈ message.answers, FitsType record ∧
    record.name = { labels := [], pointer := some 12 } ∧ message.questions ≠ []
  others : message.authorities = [] ∧ message.additionals = []

/-- An address or an alias has the name or its wildcard. -/
def DnsTables.Lists (zone : DnsTables) (name : String) : Prop :=
  zone.Has name ∨ ∃ wildcard, wildcardName name = some wildcard ∧ zone.Has wildcard

structure WellAnswered (query : List UInt8) (zone : DnsTables) : Prop where
  inRange : respondIndexed query zone = .ok (respond query zone)
  silent : query.length < 12 ∨ query.getD 2 0 &&& 0x80 ≠ 0 → respond query zone = none
  sound : ∀ reply, respond query zone = some reply → ∃ message, SoundReply query reply message
  repeated : ∀ question, StandardQuery query question → ∃ reply message,
    respond query zone = some reply ∧ SoundReply query reply message ∧
      question.bytes <+: reply.drop 12 ∧
      (¬ zone.Lists (dottedName question.labels) → message.rcode = RCODE_NXDOMAIN.toNat) ∧
      (zone.Lists (dottedName question.labels) → message.rcode = RCODE_NOERROR.toNat)

/-- The labels as the program stores them, a byte from 128 on as two. -/
def doubledLabels (labels : List DnsLabel) : List DnsLabel :=
  labels.map (fun label =>
    label.flatMap (fun byte => if byte.toNat < 128 then [byte] else [byte, byte]))

/-! ### Lengths of names -/

/-- A dotted name has one byte less than its labels have with their lengths. -/
theorem length_dotted {parts : List (List Char)} (some_ : parts ≠ []) :
    ((['.'].intercalate parts).flatMap String.utf8EncodeChar).length + 1 =
      (DnsName.labelBytes (parts.map (fun part => part.flatMap String.utf8EncodeChar))).length := by
  induction parts with
  | nil => exact absurd rfl some_
  | cons first rest ih =>
      cases rest with
      | nil =>
          have alone : ['.'].intercalate [first] = first := by simp
          rw [alone, List.map_singleton]
          exact (congrArg Nat.succ (congrArg List.length (List.append_nil _))).symm
      | cons second rest =>
          have later := ih (List.cons_ne_nil _ _)
          have split : ['.'].intercalate (first :: second :: rest) =
              first ++ '.' :: ['.'].intercalate (second :: rest) := by simp
          have dot : (String.utf8EncodeChar '.').length = 1 := rfl
          rw [split, List.flatMap_append, List.flatMap_cons, List.length_append,
            List.length_append, dot]
          unfold DnsName.labelBytes at later ⊢
          rw [List.map_cons, List.flatMap_cons, List.length_append, List.length_cons, ← later]
          omega

theorem length_encoded (label : DnsLabel) :
    ((label.map nameChar).flatMap String.utf8EncodeChar).length =
      (label.flatMap (fun byte => if byte.toNat < 128 then [byte] else [byte, byte])).length := by
  induction label with
  | nil => rfl
  | cons byte rest ih =>
      have size : (String.utf8EncodeChar (nameChar byte)).length =
          (if byte.toNat < 128 then [byte] else [byte, byte]).length := by
        have small : byte.toNat < 256 := byte.toNat_lt
        have code := nameChar_toNat byte
        rw [foldCase_toNat] at code
        rw [String.length_utf8EncodeChar]
        by_cases ascii : byte.toNat < 128
        · rw [if_pos ascii]
          have one : (nameChar byte).toNat ≤ 127 := by
            rw [code]
            split
            · omega
            · omega
          exact Char.utf8Size_eq_one_iff.mpr (UInt32.le_iff_toNat_le.mpr one)
        · rw [if_neg ascii]
          have upper : ¬ (65 ≤ byte.toNat ∧ byte.toNat ≤ 90) := by omega
          rw [if_neg upper] at code
          have value : (nameChar byte).val.toNat = byte.toNat := code
          exact Char.utf8Size_eq_two_iff.mpr ⟨UInt32.lt_iff_toNat_lt.mpr (by
            rw [value]
            exact Nat.lt_of_lt_of_le (by decide) (Nat.not_lt.mp ascii)),
            UInt32.le_iff_toNat_le.mpr (by
              rw [value]
              exact Nat.le_trans (Nat.le_of_lt small) (by decide))⟩
      rw [List.map_cons, List.flatMap_cons, List.flatMap_cons, List.length_append,
        List.length_append, size, ih]

/-- The length of the name that a question is read as. -/
theorem len_dottedName (labels : List DnsLabel) :
    Text.len (dottedName labels) ≤ 253 ↔
      (wireLabels (doubledLabels labels)).length ≤ 254 := by
  have chars : Text.len (dottedName labels) =
      ((['.'].intercalate (labels.map (List.map nameChar))).flatMap
        String.utf8EncodeChar).length := by
    rw [← Text.utf8Bytes_length, Text.utf8Bytes, dottedName, String.toList_ofList]
  rw [chars]
  cases labels with
  | nil => exact iff_of_true (by decide) (by decide)
  | cons first rest =>
      have some_ : (first :: rest).map (List.map nameChar) ≠ [] :=
        fun none_ => List.cons_ne_nil _ _ (List.map_eq_nil_iff.mp none_)
      have dotted := length_dotted some_
      have same : ∀ labels : List DnsLabel,
          (DnsName.labelBytes ((labels.map (List.map nameChar)).map
            (fun part => part.flatMap String.utf8EncodeChar))).length =
              (wireLabels (doubledLabels labels)).length := by
        intro labels
        induction labels with
        | nil => rfl
        | cons label labels ih =>
            unfold DnsName.labelBytes wireLabels doubledLabels at ih ⊢
            simp only [List.map_cons, List.flatMap_cons, List.length_append, List.length_cons,
              length_encoded]
            rw [ih]
      rw [same] at dotted
      omega

/-! ### Questions are read in one way -/

/-- The labels in front of a root byte are found again. -/
theorem wireLabels_unique {one two : List DnsLabel} {rest rest' : List UInt8}
    (first : ∀ label ∈ one, FitsWire label) (second : ∀ label ∈ two, FitsWire label)
    (same : wireLabels one ++ 0 :: rest = wireLabels two ++ 0 :: rest') :
    one = two ∧ rest = rest' := by
  have head : ∀ {label : DnsLabel}, FitsWire label → UInt8.ofNat label.length ≠ 0 := by
    intro label fits zero
    have value : (UInt8.ofNat label.length).toNat = label.length % 256 := UInt8.toNat_ofNat'
    rw [zero] at value
    have none_ : (0 : UInt8).toNat = 0 := rfl
    obtain ⟨filled, short⟩ := fits
    omega
  induction one generalizing two with
  | nil =>
      cases two with
      | nil => exact ⟨rfl, (List.cons.inj same).2⟩
      | cons label two =>
          have bytes := (List.cons.inj same).1
          exact absurd bytes.symm (head (second label List.mem_cons_self))
  | cons label one ih =>
      have fits := first label List.mem_cons_self
      cases two with
      | nil =>
          have bytes := (List.cons.inj same).1
          exact absurd bytes (head fits)
      | cons other two =>
          have fits' := second other List.mem_cons_self
          have split : ∀ (label : DnsLabel) (labels : List DnsLabel) (rest : List UInt8),
              wireLabels (label :: labels) ++ rest =
                UInt8.ofNat label.length :: (label ++ (wireLabels labels ++ rest)) := by
            intro label labels rest
            unfold wireLabels
            rw [List.flatMap_cons]
            exact congrArg (List.cons _) (List.append_assoc _ _ _)
          rw [split, split] at same
          obtain ⟨lengths, bytes⟩ := List.cons.inj same
          have length : label.length = other.length := by
            have values := congrArg UInt8.toNat lengths
            rw [UInt8.toNat_ofNat', UInt8.toNat_ofNat'] at values
            obtain ⟨_, short⟩ := fits
            obtain ⟨_, short'⟩ := fits'
            omega
          obtain ⟨labels, tails⟩ := List.append_inj bytes length
          obtain ⟨later, rests⟩ := ih (fun label member => first label (List.mem_cons_of_mem _ member))
            (fun label member => second label (List.mem_cons_of_mem _ member)) tails
          exact ⟨by rw [labels, later], rests⟩

theorem question_unique {other : DnsQuestion} {body : List UInt8}
    (first : ∀ label ∈ question.labels, FitsWire label)
    (second : ∀ label ∈ other.labels, FitsWire label) (one : question.bytes <+: body)
    (two : other.bytes <+: body) : question = other := by
  obtain ⟨rest, rfl⟩ := one
  obtain ⟨rest', same⟩ := two
  have layout : ∀ (question : DnsQuestion) (rest : List UInt8), question.bytes ++ rest =
      wireLabels question.labels ++ 0 :: (question.qtype.1 :: question.qtype.2 ::
        question.qclass.1 :: question.qclass.2 :: rest) := by
    intro question rest
    unfold DnsQuestion.bytes
    rw [List.append_assoc]
    rfl
  rw [layout, layout] at same
  obtain ⟨labels, rests⟩ := wireLabels_unique second first same
  obtain ⟨labels', qtype, qclass⟩ := question
  obtain ⟨labels'', qtype', qclass'⟩ := other
  simp only [List.cons.injEq] at rests
  obtain ⟨t1, t2, c1, c2, _⟩ := rests
  cases labels
  rw [DnsQuestion.mk.injEq]
  exact ⟨rfl, (Prod.ext t1 t2).symm, (Prod.ext c1 c2).symm⟩

/-! ### Replies as messages -/

/-- The question as the format has it. -/
def DnsQuestion.wire (question : DnsQuestion) : DnsMessageQuestion where
  name := { labels := question.labels }
  qtype := bigValue [question.qtype.1, question.qtype.2]
  qclass := bigValue [question.qclass.1, question.qclass.2]

/-- A record for the name of the question. -/
def wireRecord (rtype : UInt16) (data : List UInt8) : DnsMessageRecord where
  name := { labels := [], pointer := some 12 }
  rtype := rtype.toNat
  rclass := CLASS_IN.toNat
  ttl := DNS_TTL_SECS
  data := data

/-- The message that a reply is. -/
def replyMessage (query : List UInt8) (rcode : UInt8) (questions : List DnsMessageQuestion)
    (answers : List DnsMessageRecord) : DnsMessage where
  id := bigValue [query.getD 0 0, query.getD 1 0]
  flags := bigValue [(0x80 : UInt8) ||| (((query.getD 2 0 >>> 3) &&& 0x0F) <<< 3) ||| 0x04 |||
    (query.getD 2 0 &&& 0x01), rcode]
  questions := questions
  answers := answers

theorem bigValue_pair (high low : UInt8) :
    bigValue [high, low] = high.toNat * 256 + low.toNat := by
  simp only [bigValue, List.foldl_cons, List.foldl_nil, Nat.zero_mul, Nat.zero_add]

theorem pair_lt (high low : UInt8) : bigValue [high, low] < 65536 := by
  have upper : high.toNat < 256 := high.toNat_lt
  have lower : low.toNat < 256 := low.toNat_lt
  rw [bigValue_pair]
  omega

theorem bigEndian_pair (high low : UInt8) : bigEndian 2 (bigValue [high, low]) = [high, low] :=
  bigEndian_bigValue [high, low]

theorem wire_bytes (question : DnsQuestion) : question.wire.bytes = question.bytes := by
  unfold DnsMessageQuestion.bytes DnsQuestion.wire DnsQuestion.bytes
  simp only [bigEndian_pair]
  exact List.append_assoc (wireLabels question.labels) [0] _

theorem wire_fits (each : ∀ label ∈ question.labels, FitsWire label)
    (short : (wireLabels question.labels).length + 1 ≤ 255) : question.wire.Fits where
  name := ⟨each, short, fun _ impossible => (nomatch impossible)⟩
  qtype := pair_lt _ _
  qclass := pair_lt _ _

theorem wireRecord_bytes (rtype : UInt16) (data : List UInt8) :
    (wireRecord rtype data).bytes = answerRecord rtype data := by
  unfold answerRecord
  simp only [List.append_assoc]
  rfl

theorem wireRecord_fits (rtype : UInt16) {data : List UInt8} (short : data.length < 65536) :
    (wireRecord rtype data).Fits where
  name := by
    refine ⟨fun _ listed => absurd listed List.not_mem_nil, ?_, fun offset same => ?_⟩
    · have root : 1 ≤ 255 := by decide
      exact root
    · cases same
      decide
  rtype := rtype.toNat_lt
  rclass := by
    have small : CLASS_IN.toNat < 65536 := by decide
    exact small
  ttl := by
    have small : DNS_TTL_SECS < 4294967296 := by decide
    exact small
  data := short

/-- The header of a reply, and what follows it. -/
theorem replyMessage_bytes (query : List UInt8) (rcode : UInt8)
    (questions : List DnsMessageQuestion) (answers : List DnsMessageRecord) :
    (replyMessage query rcode questions answers).bytes =
      [query.getD 0 0, query.getD 1 0, (0x80 : UInt8) |||
        (((query.getD 2 0 >>> 3) &&& 0x0F) <<< 3) ||| 0x04 ||| (query.getD 2 0 &&& 0x01), rcode] ++
        (bigEndian 2 questions.length ++ (bigEndian 2 answers.length ++ ([0, 0, 0, 0] ++
          (questions.flatMap DnsMessageQuestion.bytes ++
            answers.flatMap DnsMessageRecord.bytes)))) := by
  unfold DnsMessage.bytes replyMessage
  simp only [bigEndian_pair, List.flatMap_nil, List.append_nil, List.length_nil]
  rfl

/-- A header alone. -/
theorem responseHeader_bytes (query : List UInt8) (rcode : UInt8) :
    responseHeader query rcode 0 false = (replyMessage query rcode [] []).bytes := by
  rw [replyMessage_bytes, responseHeader]
  simp only [List.append_assoc, List.flatMap_nil, List.append_nil]
  rfl

/-- A header with a question and records. -/
theorem echo_bytes (query : List UInt8) (rcode : UInt8) (question : DnsQuestion)
    (records : List DnsMessageRecord) :
    responseHeader query rcode records.length true ++ question.bytes ++
        records.flatMap DnsMessageRecord.bytes =
      (replyMessage query rcode [question.wire] records).bytes := by
  rw [replyMessage_bytes, responseHeader, List.flatMap_cons, wire_bytes]
  simp only [List.append_assoc, List.flatMap_nil, List.nil_append]
  rfl

theorem echo_drop (query : List UInt8) (rcode : UInt8) (question : DnsQuestion)
    (records : List DnsMessageRecord) :
    question.bytes <+: (replyMessage query rcode [question.wire] records).bytes.drop 12 := by
  rw [← echo_bytes]
  refine ⟨records.flatMap DnsMessageRecord.bytes, ?_⟩
  have length : (responseHeader query rcode records.length true).length = 12 := rfl
  rw [List.append_assoc, List.drop_left' length]

/-- The third byte of a reply: response, operation, authoritative, recursion desired. -/
def replyFlags (query : List UInt8) : UInt8 :=
  (0x80 : UInt8) ||| (((query.getD 2 0 >>> 3) &&& 0x0F) <<< 3) ||| 0x04 ||| (query.getD 2 0 &&& 0x01)

theorem replyMessage_flags (query : List UInt8) (rcode : UInt8)
    (questions : List DnsMessageQuestion) (answers : List DnsMessageRecord) :
    (replyMessage query rcode questions answers).flags =
      (replyFlags query).toNat * 256 + rcode.toNat :=
  bigValue_pair _ _

/-- The flags say that it is a response. -/
theorem replyMessage_isResponse (query : List UInt8) (rcode : UInt8)
    (questions : List DnsMessageQuestion) (answers : List DnsMessageRecord) :
    (replyMessage query rcode questions answers).isResponse = true := by
  rw [DnsMessage.isResponse, replyMessage_flags, decide_eq_true_eq]
  have set : 128 ≤ (replyFlags query).toNat := by
    rw [replyFlags, UInt8.toNat_or, UInt8.toNat_or, UInt8.toNat_or]
    exact Nat.le_trans Nat.left_le_or (Nat.le_trans Nat.left_le_or Nat.left_le_or)
  have small : (replyFlags query).toNat < 256 := UInt8.toNat_lt _
  have code : rcode.toNat < 256 := rcode.toNat_lt
  omega

theorem replyMessage_rcode (query : List UInt8) {rcode : UInt8} (small : rcode.toNat < 16)
    (questions : List DnsMessageQuestion) (answers : List DnsMessageRecord) :
    (replyMessage query rcode questions answers).rcode = rcode.toNat := by
  rw [DnsMessage.rcode, replyMessage_flags]
  omega

theorem take_two (header : 12 ≤ query.length) :
    query.take 2 = [query.getD 0 0, query.getD 1 0] := by
  match query, header with
  | _ :: _ :: _, _ => rfl

/-- A reply with at most one question and one record is sound. -/
theorem soundReply {rcode : UInt8} {questions : List DnsMessageQuestion}
    {answers : List DnsMessageRecord} (header : 12 ≤ query.length)
    (fits : ∀ question ∈ questions, question.Fits ∧ question.name.pointer = none)
    (typed : ∀ record ∈ answers, record.Fits ∧ FitsType record ∧
      record.name = { labels := [], pointer := some 12 } ∧ questions ≠ [])
    (one : questions.length ≤ 1) (few : answers.length ≤ 1) :
    SoundReply query (replyMessage query rcode questions answers).bytes
      (replyMessage query rcode questions answers) := by
  have sizes : (replyMessage query rcode questions answers).Fits := {
    id := pair_lt _ _
    flags := pair_lt _ _
    questions := fun question listed => (fits question listed).1
    answers := fun record listed => (typed record listed).1
    authorities := fun _ listed => absurd listed List.not_mem_nil
    additionals := fun _ listed => absurd listed List.not_mem_nil
    qdcount := Nat.lt_of_le_of_lt one (by decide)
    ancount := Nat.lt_of_le_of_lt few (by decide)
    nscount := Nat.zero_lt_of_lt (Nat.lt_succ_self 65535)
    arcount := Nat.zero_lt_of_lt (Nat.lt_succ_self 65535) }
  have count : ∀ {n : Nat}, n < 65536 → bigValue (bigEndian 2 n) = n := fun small =>
    bigValue_bigEndian small
  exact {
    parsed := (DnsMessage.exact_read sizes).finish_ok _
    id := (bigEndian_pair _ _).trans (take_two header).symm
    response := replyMessage_isResponse query rcode questions answers
    qdcount := (congrArg bigValue (DnsMessage.bytes_qdcount _)).trans (count sizes.qdcount)
    ancount := (congrArg bigValue (DnsMessage.bytes_ancount _)).trans (count sizes.ancount)
    nscount := (congrArg bigValue (DnsMessage.bytes_nscount _)).trans (count sizes.nscount)
    arcount := (congrArg bigValue (DnsMessage.bytes_arcount _)).trans (count sizes.arcount)
    questions := fun question listed => (fits question listed).2
    answers := fun record listed => (typed record listed).2
    others := ⟨rfl, rfl⟩ }

/-! ### Answers as records -/

/-- What `normalize_cname_target` makes is a name of labels that a message can hold. -/
theorem normalised_target {raw target : String}
    (made : Names.normalizeCnameTarget raw = some target) :
    Names.isDnsName target = true ∧ Text.len target ≤ 253 := by
  unfold Names.normalizeCnameTarget at made
  dsimp only at made
  split at made
  · cases made
  · rename_i fine
    obtain ⟨_, others⟩ := not_or.mp fine
    obtain ⟨short, named⟩ := not_or.mp others
    rw [← Option.some.inj made]
    exact ⟨Bool.eq_true_of_not_eq_false named, Nat.not_lt.mp short⟩

/-- A label is written with one byte for each character. -/
theorem label_bytes {label : String} (fine : Names.isDnsLabel label = true) :
    0 < (Text.utf8Bytes label).length ∧ (Text.utf8Bytes label).length ≤ 63 := by
  have shape := Names.isDnsLabel_iff.mp fine
  have single : ∀ chars : List Char, (∀ c ∈ chars, Names.labelChar c = c) →
      (chars.flatMap String.utf8EncodeChar).length = chars.length := by
    intro chars mapped
    induction chars with
    | nil => rfl
    | cons c rest ih =>
        have plain : PlainChar c := .inl (mapped c List.mem_cons_self)
        rw [List.flatMap_cons, List.length_append, utf8EncodeChar_plain plain.bounds.1,
          ih (fun other listed => mapped other (List.mem_cons_of_mem _ listed)),
          List.length_singleton, List.length_cons, Nat.add_comm]
  have length : (Text.utf8Bytes label).length = label.toList.length :=
    single label.toList shape.mapped
  rw [length]
  exact ⟨List.length_pos_iff.mpr shape.nonempty, shape.length_le⟩

/-- The name that a target is written as. -/
def targetName (target : String) : DnsName where
  labels := (Text.split '.' target).map Text.utf8Bytes

theorem targetName_fits {target : String} (named : Names.isDnsName target = true)
    (short : Text.len target ≤ 253) :
    (targetName target).Fits ∧ encodeName target = (targetName target).bytes := by
  have labels : ∀ label ∈ Text.split '.' target, Names.isDnsLabel label = true := by
    unfold Names.isDnsName at named
    exact List.all_eq_true.mp (Bool.and_eq_true_iff.mp named).2
  have size : (DnsName.labelBytes (targetName target).labels).length = Text.len target + 1 := by
    have parts : Text.splitChars '.' target.toList ≠ [] := by
      intro none_
      have some_ := length_splitChars '.' target.toList
      rw [none_] at some_
      cases some_
    have dotted := length_dotted parts
    have joined : ['.'].intercalate (Text.splitChars '.' target.toList) = target.toList := by
      rw [← String.toList_ofList (l := ['.'].intercalate _), splitChars_join]
    have same : (targetName target).labels = (Text.splitChars '.' target.toList).map
        (fun part => part.flatMap String.utf8EncodeChar) := by
      unfold targetName Text.split Text.utf8Bytes
      rw [List.map_map]
      refine List.map_congr_left (fun part _ => ?_)
      rw [Function.comp_apply, String.toList_ofList]
    rw [same, ← dotted, joined, ← Text.utf8Bytes_length]
    rfl
  constructor
  · constructor
    · intro label listed
      obtain ⟨text, there, rfl⟩ := List.mem_map.mp listed
      exact label_bytes (labels text there)
    · unfold DnsName.wireLength
      omega
    · intro offset impossible
      cases impossible
  · unfold encodeName DnsName.bytes DnsName.labelBytes targetName DnsName.endBytes
    have kept : (Text.split '.' target).filter (· ≠ "") = Text.split '.' target := by
      rw [List.filter_eq_self]
      intro label listed
      rw [decide_eq_true_eq]
      rintro rfl
      have empty := (label_bytes (labels "" listed)).1
      exact absurd empty (by decide)
    rw [kept, List.flatMap_map]
    refine congrArg (· ++ [0]) (List.flatMap_congr fun label listed => ?_)
    dsimp only
    rw [List.take_of_length_le (label_bytes (labels label listed)).2]

/-- The answer is nothing or one record, which fits its type. -/
theorem answer_records (parsed : ParsedQuestion) {found : Found}
    (normalised : ∀ key target, found = .cname key target →
      ∃ raw, Names.normalizeCnameTarget raw = some target.target) :
    ∃ record : Option DnsMessageRecord, answer parsed found = record.map DnsMessageRecord.bytes ∧
      ∀ only ∈ record.toList, only.Fits ∧ FitsType only ∧
        only.name = { labels := [], pointer := some 12 } := by
  have address : ∀ ip, ∃ record : Option DnsMessageRecord,
      addressAnswer parsed ip = record.map DnsMessageRecord.bytes ∧
      ∀ only ∈ record.toList, only.Fits ∧ FitsType only ∧
        only.name = { labels := [], pointer := some 12 } := by
    intro ip
    have four : (bigEndian 4 ip.toNat).length = 4 := bigEndian_length 4 ip.toNat
    unfold addressAnswer
    split
    · refine ⟨some (wireRecord TYPE_A (bigEndian 4 ip.toNat)), ?_, ?_⟩
      · rw [Option.map_some, wireRecord_bytes]
      · intro only listed
        rw [Option.toList_some, List.mem_singleton] at listed
        subst listed
        exact ⟨wireRecord_fits _ (by rw [four]; decide), .inl ⟨rfl, four⟩, rfl⟩
    · exact ⟨none, rfl, fun _ listed => absurd listed List.not_mem_nil⟩
  cases found with
  | nothing => exact ⟨none, rfl, fun _ listed => absurd listed List.not_mem_nil⟩
  | address key ip => exact address ip
  | cname key target =>
      obtain ⟨raw, made⟩ := normalised key target rfl
      obtain ⟨target, resolved⟩ := target
      cases resolved with
      | some ip => exact address ip
      | none =>
          obtain ⟨named, short⟩ := normalised_target made
          obtain ⟨fits, bytes⟩ := targetName_fits named short
          unfold answer
          dsimp only
          split
          · refine ⟨some (wireRecord TYPE_CNAME (encodeName target)), ?_, ?_⟩
            · rw [Option.map_some, wireRecord_bytes]
            · intro only listed
              rw [Option.toList_some, List.mem_singleton] at listed
              subst listed
              refine ⟨wireRecord_fits _ ?_, .inr ⟨rfl, targetName target, rfl, ?_⟩, rfl⟩
              · have size : (encodeName target).length = (targetName target).wireLength := by
                  rw [bytes]
                  exact List.length_append
                rw [size]
                exact Nat.lt_of_le_of_lt fits.short (by decide)
              · have read := (DnsName.exact_read fits).finish_ok "trailing bytes"
                rw [← bytes] at read
                exact read
          · exact ⟨none, rfl, fun _ listed => absurd listed List.not_mem_nil⟩

/-! ### Replies -/

/-- The names that have records are those for which something is found. -/
theorem lists_iff {name : String} : zone.Lists name ↔ zone.find name ≠ .nothing := by
  rw [Ne, find_nothing_iff]
  constructor
  · intro listed found
    have under : ∃ key, (key = name ∨ wildcardName name = some key) ∧ zone.Has key := by
      rcases listed with has | ⟨wildcard, made, has⟩
      · exact ⟨name, .inl rfl, has⟩
      · exact ⟨wildcard, .inr made, has⟩
    obtain ⟨key, under, has⟩ := under
    unfold DnsTables.Has at has
    rcases has with address | alias_
    · obtain ⟨ip, row⟩ := Option.ne_none_iff_exists'.mp address
      exact lookup_isSome under row found.1
    · obtain ⟨target, row⟩ := Option.ne_none_iff_exists'.mp alias_
      exact lookup_isSome under row found.2
  · intro found
    have some_ : ∃ key, (key = name ∨ wildcardName name = some key) ∧ zone.Has key := by
      cases address : lookup zone.a name with
      | some row =>
          obtain ⟨here, under⟩ := lookup_under address
          exact ⟨row.1, under, .inl (Option.ne_none_iff_exists'.mpr ⟨row.2, here⟩)⟩
      | none =>
          cases alias_ : lookup zone.cname name with
          | some row =>
              obtain ⟨here, under⟩ := lookup_under alias_
              exact ⟨row.1, under, .inr (Option.ne_none_iff_exists'.mpr ⟨row.2, here⟩)⟩
          | none => exact absurd ⟨address, alias_⟩ found
    obtain ⟨key, under, has⟩ := some_
    rcases under with rfl | made
    · exact .inl has
    · exact .inr ⟨key, made, has⟩

/-- The aliases of a zone are normalised. -/
def NormalisedTargets (zone : DnsTables) : Prop :=
  ∀ key target, zone.cname.get? key = some target →
    ∃ raw, Names.normalizeCnameTarget raw = some target.target

theorem doubledLabels_length (labels : List DnsLabel) :
    (wireLabels labels).length ≤ (wireLabels (doubledLabels labels)).length := by
  have longer : ∀ label : DnsLabel, label.length ≤ (label.flatMap
      (fun byte => if byte.toNat < 128 then [byte] else [byte, byte])).length := by
    intro label
    induction label with
    | nil => exact Nat.le_refl _
    | cons byte rest ih =>
        rw [List.flatMap_cons, List.length_append, List.length_cons]
        split
        · rw [List.length_singleton]
          omega
        · rw [List.length_cons, List.length_singleton]
          omega
  induction labels with
  | nil => exact Nat.le_refl _
  | cons label labels ih =>
      have here := longer label
      unfold wireLabels doubledLabels at ih ⊢
      rw [List.map_cons, List.flatMap_cons, List.flatMap_cons, List.length_append,
        List.length_append, List.length_cons, List.length_cons]
      omega

/-- A header alone is a sound reply. -/
theorem header_sound (header : 12 ≤ query.length) (rcode : UInt8) :
    ∃ message, SoundReply query (responseHeader query rcode 0 false) message := by
  rw [responseHeader_bytes]
  exact ⟨_, soundReply header (fun _ listed => absurd listed List.not_mem_nil)
    (fun _ listed => absurd listed List.not_mem_nil) (Nat.zero_le _) (Nat.zero_le _)⟩

/-- The reply to a question repeats it, and says whether its name is listed. -/
theorem reply_sound (normalised : NormalisedTargets zone) (asks : Asks query question) :
    ∃ reply message, respond query zone = some reply ∧ SoundReply query reply message ∧
      question.bytes <+: reply.drop 12 ∧
      (¬ zone.Lists (dottedName question.labels) → message.rcode = RCODE_NXDOMAIN.toNat) ∧
      (zone.Lists (dottedName question.labels) → message.rcode = RCODE_NOERROR.toNat) := by
  have aliases : ∀ key target, zone.find (dottedName question.labels) = .cname key target →
      ∃ raw, Names.normalizeCnameTarget raw = some target.target := by
    intro key target found
    exact normalised key target (lookup_under (find_cname found)).1
  obtain ⟨record, answers, sound⟩ := answer_records question.parsed aliases
  have short : (wireLabels question.labels).length + 1 ≤ 255 := by
    have limit := (len_dottedName question.labels).mp asks.fits.name
    have fewer := doubledLabels_length question.labels
    omega
  have fits : ∀ asked ∈ [question.wire], asked.Fits ∧ asked.name.pointer = none := by
    intro asked listed
    rw [List.mem_singleton.mp listed]
    exact ⟨wire_fits asks.fits.each short, rfl⟩
  have typed : ∀ only ∈ record.toList, only.Fits ∧ FitsType only ∧
      only.name = { labels := [], pointer := some 12 } ∧ [question.wire] ≠ [] := by
    intro only listed
    obtain ⟨size, type, name⟩ := sound only listed
    exact ⟨size, type, name, List.cons_ne_nil _ _⟩
  have few : record.toList.length ≤ 1 := by
    cases record with
    | none => exact Nat.zero_le _
    | some record => exact Nat.le_refl _
  have bytes : ∀ rcode : UInt8, responseHeader query rcode
      (answer question.parsed (zone.find (dottedName question.labels))).toList.length true ++
        question.bytes ++
          (answer question.parsed (zone.find (dottedName question.labels))).getD [] =
      (replyMessage query rcode [question.wire] record.toList).bytes := by
    intro rcode
    rw [← echo_bytes, answers]
    cases record with
    | none => rfl
    | some record =>
        rw [Option.map_some, Option.toList_some, Option.toList_some, List.flatMap_singleton]
        rfl
  have reply_ := respond_asks asks zone
  unfold reply at reply_
  dsimp only at reply_
  by_cases nothing : zone.find (dottedName question.labels) = .nothing
  · rw [if_pos nothing] at reply_
    refine ⟨_, _, reply_.trans (congrArg some (bytes _)), soundReply asks.header fits typed
      (Nat.le_refl _) few, echo_drop _ _ _ _, fun _ => ?_, fun listed => ?_⟩
    · exact replyMessage_rcode query (by decide) _ _
    · exact absurd nothing (lists_iff.mp listed)
  · rw [if_neg nothing] at reply_
    refine ⟨_, _, reply_.trans (congrArg some (bytes _)), soundReply asks.header fits typed
      (Nat.le_refl _) few, echo_drop _ _ _ _, fun unlisted => ?_, fun _ => ?_⟩
    · exact absurd (lists_iff.mpr nothing) unlisted
    · exact replyMessage_rcode query (by decide) _ _

/-- A standard query is read as a question when its name, as it is stored, is not too long. -/
theorem standardQuery_asks (standard : StandardQuery query question)
    (short : (wireLabels (doubledLabels question.labels)).length ≤ 254) : Asks query question where
  header := standard.header
  isQuery := standard.isQuery
  opcode := standard.opcode
  one := standard.one
  fits := ⟨standard.each, (len_dottedName question.labels).mpr short⟩
  body := standard.body

/-- The question of a standard query is the only one that can be read. -/
theorem standardQuery_parse (standard : StandardQuery query question) {parsed : ParsedQuestion}
    (parses : parseQuestion (query.drop 12) = some parsed) :
    (wireLabels (doubledLabels question.labels)).length ≤ 254 := by
  obtain ⟨other, fits, body, _⟩ := parseQuestion_iff.mp parses
  have same := question_unique standard.each fits.each standard.body body
  rw [same]
  exact (len_dottedName other.labels).mp fits.name

/-- A question that is repeated has been read. -/
theorem wellAnswered_short (answered : WellAnswered query zone)
    (standard : StandardQuery query question) :
    (wireLabels (doubledLabels question.labels)).length ≤ 254 := by
  obtain ⟨bytes, _, responds, _, repeats, _⟩ := answered.repeated question standard
  cases parses : parseQuestion (query.drop 12) with
  | some parsed => exact standardQuery_parse standard parses
  | none =>
      -- A name that is too long is refused with a header alone.
      unfold respond at responds
      dsimp only at responds
      rw [if_neg (Nat.not_lt.mpr standard.header), if_neg (not_not.mpr standard.isQuery),
        if_neg (not_not.mpr standard.opcode), if_neg (not_not.mpr standard.one), parses]
        at responds
      obtain rfl := Option.some.inj responds
      have nothing : (responseHeader query RCODE_FORMERR 0 false).drop 12 = [] := rfl
      rw [nothing, List.prefix_nil] at repeats
      have some_ := congrArg List.length repeats
      unfold DnsQuestion.bytes at some_
      rw [List.length_append] at some_
      cases some_

theorem short_wellAnswered (normalised : NormalisedTargets zone)
    (short : ∀ question, StandardQuery query question →
      (wireLabels (doubledLabels question.labels)).length ≤ 254) : WellAnswered query zone := by
  refine ⟨respondIndexed_eq query zone, fun ignored => ?_, fun bytes responds => ?_,
    fun question standard =>
      reply_sound normalised (standardQuery_asks standard (short question standard))⟩
  · unfold respond
    dsimp only
    by_cases small : query.length < 12
    · rw [if_pos small]
    · rw [if_neg small, if_pos (ignored.resolve_left small)]
  · by_cases asked : ∃ question, Asks query question
    · obtain ⟨question, asks⟩ := asked
      obtain ⟨other, message, same, sound, _⟩ := reply_sound normalised asks
      rw [← Option.some.inj (same.symm.trans responds)]
      exact ⟨message, sound⟩
    · have header : 12 ≤ query.length ∧ ∃ rcode, bytes = responseHeader query rcode 0 false := by
        unfold respond at responds
        dsimp only at responds
        split at responds
        · cases responds
        · rename_i long
          split at responds
          · cases responds
          · rename_i isQuery
            refine ⟨Nat.not_lt.mp long, ?_⟩
            split at responds
            · exact ⟨_, (Option.some.inj responds).symm⟩
            · rename_i opcode
              split at responds
              · exact ⟨_, (Option.some.inj responds).symm⟩
              · rename_i one
                split at responds
                · exact ⟨_, (Option.some.inj responds).symm⟩
                · rename_i parsed parses
                  obtain ⟨question, fits, body, _⟩ := parseQuestion_iff.mp parses
                  exact absurd ⟨question, Nat.not_lt.mp long, not_not.mp isQuery,
                    not_not.mp opcode, not_not.mp one, fits, body⟩ asked
      obtain ⟨long, rcode, rfl⟩ := header
      exact header_sound long rcode

/-- The replies are well formed, and the questions of standard queries are repeated and answered
exactly when their names are not too long where every byte from 128 on counts twice. -/
theorem respond_wellAnswered_iff (query : List UInt8) {zone : DnsTables}
    (normalised : NormalisedTargets zone) :
    WellAnswered query zone ↔ ∀ question, StandardQuery query question →
      (wireLabels (doubledLabels question.labels)).length ≤ 254 :=
  ⟨fun answered _ standard => wellAnswered_short answered standard,
    fun short => short_wellAnswered normalised short⟩

/-- A query for one question is standard when the name fits. -/
theorem queryOf_standard {question : DnsQuestion}
    (each : ∀ label ∈ question.labels, FitsWire label)
    (short : (wireLabels question.labels).length + 1 ≤ 255) :
    StandardQuery (queryOf question) question where
  header := by
    rw [queryOf, List.length_append]
    exact Nat.le_add_right 12 _
  isQuery := by
    have none_ : (1 : UInt8) &&& 0x80 = 0 := by decide
    exact none_
  opcode := by
    have none_ : ((1 : UInt8) >>> 3) &&& 0x0F = 0 := by decide
    exact none_
  one := by
    have count : be16 0 1 = 1 := by decide
    exact count
  each := each
  short := short
  body := List.prefix_refl _

/-- Another standard query has another question. -/
theorem queryOf_question {question other : DnsQuestion}
    (each : ∀ label ∈ question.labels, FitsWire label)
    (standard : StandardQuery (queryOf question) other) : other = question :=
  question_unique standard.each each standard.body (List.prefix_refl _)

theorem appNetwork_normalised : NormalisedTargets (mergeZones [appNetwork]) := by
  intro key target row
  have aliases : (mergeZones [appNetwork]).cname.rows =
      [("docs.app.home.peercove.internal", { target := "docs.example.com", ip := none })] := by
    decide +kernel
  have listed := Table.get?_eq_some.mp row
  rw [aliases, List.mem_singleton] at listed
  cases listed
  exact ⟨"docs.example.com", by decide +kernel⟩

theorem respond_wellAnswered_web : WellAnswered (queryOf webQuestion) (mergeZones [appNetwork]) := by
  refine (respond_wellAnswered_iff (queryOf webQuestion) appNetwork_normalised).mpr ?_
  intro question standard
  rw [queryOf_question webQuestion_fits.each standard]
  decide

/-- A name of three labels of 63 bytes above 127 each. -/
def highQuestion : DnsQuestion where
  labels := List.replicate 3 (List.replicate 63 128)
  qtype := (0, 1)
  qclass := (0, 1)

/-- The query fits the format, but its question is not repeated. -/
theorem respond_refusesHigh : ¬ ∀ (query : List UInt8) (zone : DnsTables),
    NormalisedTargets zone → WellAnswered query zone := by
  intro claimed
  have each : ∀ label ∈ highQuestion.labels, FitsWire label := by
    intro label listed
    rw [List.eq_of_mem_replicate listed]
    exact ⟨by decide, by decide⟩
  have standard := queryOf_standard each (by decide +kernel)
  have answered := claimed (queryOf highQuestion) {} (fun key target row => by cases row)
  have short := wellAnswered_short answered standard
  exact absurd short (by decide +kernel)

end PeerCove
