/-
Module: PeerCove.Library.DnsMessage
Layer: Library
Purpose: The format of DNS messages: names of labels that may end in a pointer, questions and
  records behind a header that counts them, as a reader and the bytes it accepts.
Trusted boundary: none
Main exports: DnsMessage, DnsMessage.read, DnsMessage.bytes, DnsMessage.exact_read
-/
import PeerCove.Library.Wire

/-- The labels of a name up to the root, or up to the offset of the rest of it. -/
structure DnsName where
  labels : List (List UInt8)
  pointer : Option Nat := none
deriving DecidableEq

structure DnsMessageQuestion where
  name : DnsName
  qtype : Nat
  qclass : Nat
deriving DecidableEq

structure DnsMessageRecord where
  name : DnsName
  rtype : Nat
  rclass : Nat
  ttl : Nat
  data : List UInt8
deriving DecidableEq

structure DnsMessage where
  id : Nat
  flags : Nat
  questions : List DnsMessageQuestion := []
  answers : List DnsMessageRecord := []
  authorities : List DnsMessageRecord := []
  additionals : List DnsMessageRecord := []
deriving DecidableEq

open Wire

/-! ### Numbers -/

/-- A number of some bytes. -/
def readNumber (count : Nat) : Reader String Nat := do
  return bigValue (← Wire.take "truncated" count)

theorem exact_number {count value : Nat} (small : value < 256 ^ count) :
    Exact (readNumber count) (bigEndian count value) value := by
  have read := exact_map bigValue (exact_take "truncated" (bigEndian_length count value))
  rw [bigValue_bigEndian small] at read
  exact read

theorem exact_byte {value : Nat} (small : value < 256) :
    Exact (readNumber 1) [UInt8.ofNat value] value := by
  have read : Exact (readNumber 1) (bigEndian 1 value) value := exact_number small
  exact read

namespace DnsName

/-- Labels with their lengths. -/
def labelBytes (labels : List (List UInt8)) : List UInt8 :=
  labels.flatMap (fun label => UInt8.ofNat label.length :: label)

/-- The number of bytes of the labels and the root. -/
def wireLength (name : DnsName) : Nat :=
  (labelBytes name.labels).length + 1

/-- The end of a name: the root, or a pointer. -/
def endBytes : Option Nat → List UInt8
  | none => [0]
  | some offset => [UInt8.ofNat (192 + offset / 256), UInt8.ofNat (offset % 256)]

def bytes (name : DnsName) : List UInt8 :=
  labelBytes name.labels ++ endBytes name.pointer

/-- Labels of 1 to 63 bytes, up to the end of the name. -/
def readLabels : Nat → Reader String DnsName
  | 0 => Wire.check (.error "too many labels")
  | fuel + 1 => do
      let len ← readNumber 1
      if len = 0 then return { labels := [] }
      else if len ≤ 63 then do
        let label ← Wire.take "truncated" len
        let rest ← readLabels fuel
        return { rest with labels := label :: rest.labels }
      else if len < 192 then Wire.check (.error "reserved kind of label")
      else do
        let low ← readNumber 1
        return { labels := [], pointer := some ((len - 192) * 256 + low) }

/-- A name has at most 255 bytes, so it has no more than 127 labels. -/
def read : Reader String DnsName := do
  let name ← readLabels 128
  Wire.check (if name.wireLength ≤ 255 then .ok () else .error "name too long")
  return name

/-- A name that can be written. -/
structure Fits (name : DnsName) : Prop where
  each : ∀ label ∈ name.labels, 0 < label.length ∧ label.length ≤ 63
  short : name.wireLength ≤ 255
  offset : ∀ offset, name.pointer = some offset → offset < 16384

/-- Labels that are not empty have two bytes each. -/
theorem length_labelBytes {labels : List (List UInt8)} (filled : ∀ label ∈ labels, 0 < label.length) :
    2 * labels.length ≤ (labelBytes labels).length := by
  induction labels with
  | nil => exact Nat.le_refl _
  | cons label labels ih =>
      have here := filled label List.mem_cons_self
      have there := ih (fun other member => filled other (List.mem_cons_of_mem _ member))
      unfold labelBytes at there ⊢
      rw [List.flatMap_cons, List.length_append, List.length_cons, List.length_cons]
      omega

theorem exact_readLabels {name : DnsName}
    (each : ∀ label ∈ name.labels, 0 < label.length ∧ label.length ≤ 63)
    (offset : ∀ offset, name.pointer = some offset → offset < 16384) {fuel : Nat}
    (enough : name.labels.length < fuel) : Exact (readLabels fuel) name.bytes name := by
  obtain ⟨labels, pointer⟩ := name
  induction labels generalizing fuel with
  | nil =>
      cases fuel with
      | zero => exact absurd enough (Nat.not_lt_zero _)
      | succ fuel =>
          cases pointer with
          | none => exact exact_last (exact_byte (by decide)) (exact_pure _)
          | some target =>
              have small : target < 16384 := offset target rfl
              have high : 192 + target / 256 < 256 := by omega
              have low : target % 256 < 256 := Nat.mod_lt _ (by decide)
              have layout : DnsName.bytes { labels := [], pointer := some target } =
                  [UInt8.ofNat (192 + target / 256)] ++ [UInt8.ofNat (target % 256)] := rfl
              rw [layout]
              refine exact_bind (exact_byte high) ?_
              rw [if_neg (by omega), if_neg (by omega), if_neg (by omega)]
              have value : (192 + target / 256 - 192) * 256 + target % 256 = target := by omega
              have read := exact_map (fun low => ({
                labels := [], pointer := some ((192 + target / 256 - 192) * 256 + low) } : DnsName))
                (exact_byte low)
              rw [value] at read
              exact read
  | cons label labels ih =>
      cases fuel with
      | zero => exact absurd enough (Nat.not_lt_zero _)
      | succ fuel =>
          obtain ⟨filled, fits⟩ := each label List.mem_cons_self
          have rest := ih (fun other member => each other (List.mem_cons_of_mem _ member)) offset
            (Nat.lt_of_succ_lt_succ enough)
          have layout : DnsName.bytes { labels := label :: labels, pointer := pointer } =
              [UInt8.ofNat label.length] ++
                (label ++ DnsName.bytes { labels := labels, pointer := pointer }) := by
            unfold DnsName.bytes labelBytes
            rw [List.flatMap_cons]
            exact congrArg (List.cons _) (List.append_assoc _ _ _)
          rw [layout]
          refine exact_bind (exact_byte (by omega)) ?_
          rw [if_neg (by omega), if_pos fits]
          refine exact_bind (exact_take "truncated" rfl) ?_
          exact exact_map (fun rest : DnsName => { rest with labels := label :: rest.labels }) rest

theorem exact_read {name : DnsName} (fits : name.Fits) : Exact read name.bytes name := by
  have few : name.labels.length < 128 := by
    have all := length_labelBytes (fun label member => (fits.each label member).1)
    have short := fits.short
    unfold wireLength at short
    omega
  refine exact_last (exact_readLabels fits.each fits.offset few) ?_
  exact exact_last (exact_check (if_pos fits.short)) (exact_pure name)

end DnsName

/-! ### Questions and records -/

namespace DnsMessageQuestion

def bytes (question : DnsMessageQuestion) : List UInt8 :=
  question.name.bytes ++ (bigEndian 2 question.qtype ++ bigEndian 2 question.qclass)

def read : Reader String DnsMessageQuestion := do
  let name ← DnsName.read
  let qtype ← readNumber 2
  let qclass ← readNumber 2
  return { name := name, qtype := qtype, qclass := qclass }

structure Fits (question : DnsMessageQuestion) : Prop where
  name : question.name.Fits
  qtype : question.qtype < 65536
  qclass : question.qclass < 65536

theorem exact_read {question : DnsMessageQuestion} (fits : question.Fits) :
    Exact read question.bytes question := by
  refine exact_bind (DnsName.exact_read fits.name) ?_
  refine exact_bind (exact_number fits.qtype) ?_
  exact exact_last (exact_number fits.qclass) (exact_pure _)

end DnsMessageQuestion

namespace DnsMessageRecord

def bytes (record : DnsMessageRecord) : List UInt8 :=
  record.name.bytes ++ (bigEndian 2 record.rtype ++ (bigEndian 2 record.rclass ++
    (bigEndian 4 record.ttl ++ (bigEndian 2 record.data.length ++ record.data))))

def read : Reader String DnsMessageRecord := do
  let name ← DnsName.read
  let rtype ← readNumber 2
  let rclass ← readNumber 2
  let ttl ← readNumber 4
  let rdlength ← readNumber 2
  let data ← Wire.take "truncated" rdlength
  return { name := name, rtype := rtype, rclass := rclass, ttl := ttl, data := data }

structure Fits (record : DnsMessageRecord) : Prop where
  name : record.name.Fits
  rtype : record.rtype < 65536
  rclass : record.rclass < 65536
  ttl : record.ttl < 4294967296
  data : record.data.length < 65536

theorem exact_read {record : DnsMessageRecord} (fits : record.Fits) :
    Exact read record.bytes record := by
  refine exact_bind (DnsName.exact_read fits.name) ?_
  refine exact_bind (exact_number fits.rtype) ?_
  refine exact_bind (exact_number fits.rclass) ?_
  refine exact_bind (exact_number fits.ttl) ?_
  refine exact_bind (exact_number fits.data) ?_
  exact exact_last (exact_take "truncated" rfl) (exact_pure _)

end DnsMessageRecord

/-! ### Messages -/

namespace DnsMessage

/-- Whether the message is a response. -/
def isResponse (message : DnsMessage) : Bool :=
  message.flags / 32768 % 2 = 1

def rcode (message : DnsMessage) : Nat :=
  message.flags % 16

def bytes (message : DnsMessage) : List UInt8 :=
  bigEndian 2 message.id ++ (bigEndian 2 message.flags ++
    (bigEndian 2 message.questions.length ++ (bigEndian 2 message.answers.length ++
      (bigEndian 2 message.authorities.length ++ (bigEndian 2 message.additionals.length ++
        (message.questions.flatMap DnsMessageQuestion.bytes ++
          (message.answers.flatMap DnsMessageRecord.bytes ++
            (message.authorities.flatMap DnsMessageRecord.bytes ++
              message.additionals.flatMap DnsMessageRecord.bytes))))))))

/-- As many questions and records as the header counts. -/
def read : Reader String DnsMessage := do
  let id ← readNumber 2
  let flags ← readNumber 2
  let qdcount ← readNumber 2
  let ancount ← readNumber 2
  let nscount ← readNumber 2
  let arcount ← readNumber 2
  let questions ← Wire.times qdcount DnsMessageQuestion.read
  let answers ← Wire.times ancount DnsMessageRecord.read
  let authorities ← Wire.times nscount DnsMessageRecord.read
  let additionals ← Wire.times arcount DnsMessageRecord.read
  return {
    id := id
    flags := flags
    questions := questions
    answers := answers
    authorities := authorities
    additionals := additionals }

structure Fits (message : DnsMessage) : Prop where
  id : message.id < 65536
  flags : message.flags < 65536
  questions : ∀ question ∈ message.questions, question.Fits
  answers : ∀ record ∈ message.answers, record.Fits
  authorities : ∀ record ∈ message.authorities, record.Fits
  additionals : ∀ record ∈ message.additionals, record.Fits
  qdcount : message.questions.length < 65536
  ancount : message.answers.length < 65536
  nscount : message.authorities.length < 65536
  arcount : message.additionals.length < 65536

theorem exact_read {message : DnsMessage} (fits : message.Fits) :
    Exact read message.bytes message := by
  refine exact_bind (exact_number fits.id) ?_
  refine exact_bind (exact_number fits.flags) ?_
  refine exact_bind (exact_number fits.qdcount) ?_
  refine exact_bind (exact_number fits.ancount) ?_
  refine exact_bind (exact_number fits.nscount) ?_
  refine exact_bind (exact_number fits.arcount) ?_
  refine exact_bind (exact_times message.questions
    (fun question member => DnsMessageQuestion.exact_read (fits.questions question member))) ?_
  refine exact_bind (exact_times message.answers
    (fun record member => DnsMessageRecord.exact_read (fits.answers record member))) ?_
  refine exact_bind (exact_times message.authorities
    (fun record member => DnsMessageRecord.exact_read (fits.authorities record member))) ?_
  exact exact_last (exact_times message.additionals
    (fun record member => DnsMessageRecord.exact_read (fits.additionals record member)))
    (exact_pure message)

/-! ### The counts of the header -/

theorem bytes_qdcount (message : DnsMessage) :
    (message.bytes.drop 4).take 2 = bigEndian 2 message.questions.length := rfl

theorem bytes_ancount (message : DnsMessage) :
    (message.bytes.drop 6).take 2 = bigEndian 2 message.answers.length := rfl

theorem bytes_nscount (message : DnsMessage) :
    (message.bytes.drop 8).take 2 = bigEndian 2 message.authorities.length := rfl

theorem bytes_arcount (message : DnsMessage) :
    (message.bytes.drop 10).take 2 = bigEndian 2 message.additionals.length := rfl

end DnsMessage
