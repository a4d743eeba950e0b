/-
Module: PeerCove.Proofs.FileResume
Layer: Proofs
Purpose: A file whose transfer is interrupted again and again is stored whole, and each of its bytes
  arrives once, whatever is received in between.
Trusted boundary: a marker reads back as it was printed, and not as one of another transfer
Main exports: Sending, Sending.step, Sending.Fair, Progress, resumed_once
-/
import PeerCove.Proofs.FileTransfer

namespace PeerCove.FileTransfer

/-! ### One attempt -/

/-- The chunks of a sender hold the beginning of its bytes, all of them if it is not interrupted. -/
theorem receiveLoop_cutInto (sizes : List Nat) (bytes : List UInt8) :
    (receiveLoop bytes.length (cutInto sizes bytes)).1 <+: bytes ∧
      ((∀ size ∈ sizes, 0 < size) → bytes.length ≤ sizes.sum →
        (receiveLoop bytes.length (cutInto sizes bytes)).2 = true) := by
  induction sizes generalizing bytes with
  | nil =>
      cases bytes with
      | nil => simp [receiveLoop]
      | cons first rest => simp [cutInto, receiveLoop]
  | cons size sizes ih =>
      cases bytes with
      | nil => simp [receiveLoop]
      | cons first rest =>
          have whole : ((first :: rest).take size).take (rest.length + 1) =
              (first :: rest).take size := by
            apply List.take_of_length_le
            rw [List.length_take]
            exact Nat.min_le_right _ _
          simp only [cutInto, List.length_cons, receiveLoop]
          rw [whole]
          cases size with
          | zero => simp
          | succ size =>
              have left : rest.length + 1 - ((first :: rest).take (size + 1)).length =
                  (rest.drop size).length := by
                simp only [List.length_take, List.length_cons, List.length_drop]
                omega
              rw [if_neg (by simp), left, List.drop_succ_cons, List.take_succ_cons]
              obtain ⟨part, complete⟩ := ih (rest.drop size)
              constructor
              · rw [List.cons_append, List.cons_prefix_cons]
                refine ⟨rfl, ?_⟩
                have glued := (List.prefix_append_right_inj (rest.take size)).mpr part
                rwa [List.take_append_drop] at glued
              · intro positive enough
                refine complete (fun other member => positive other (by simp [member])) ?_
                simp only [List.sum_cons] at enough
                rw [List.length_drop]
                omega

theorem mentions_head {text part : String} {c : Char} {rest : List Char}
    (shape : part.toList = c :: rest) (absent : c ∉ text.toList) : mentions text part = false := by
  rw [mentions, List.any_eq_false]
  intro tail member begins
  rw [shape] at begins
  cases tail with
  | nil => cases begins
  | cons first others =>
      have same : c = first := by
        simp only [List.isPrefixOf, Bool.and_eq_true, beq_iff_eq] at begins
        exact begins.1
      have suffix := (List.mem_tails _ _).mp member
      have inside := suffix.subset List.mem_cons_self
      exact absent (same ▸ inside)

theorem closed_letters (received size : Nat) :
    'チ' ∉ (Stall.closed.message received size).toList := by
  have digits : ∀ number : Nat, 'チ' ∉ (toString number).toList := by
    intro number inside
    rw [Nat.toString_eq_repr, Nat.toList_repr] at inside
    have digit := Nat.isDigit_of_mem_toDigits (by decide) (by decide) inside
    exact absurd digit (by decide)
  unfold Stall.message
  simp only [String.toList_append, List.mem_append, not_or]
  exact ⟨⟨⟨⟨by decide, digits received⟩, by decide⟩, digits size⟩,
    by decide⟩

/-- An interruption is not taken for damage. -/
theorem closed_mentions (received size : Nat) :
    mentions (Stall.closed.message received size) "チェックサム" = false :=
  @mentions_head _ _ 'チ' "ェックサム".toList (by decide) (closed_letters received size)

/-! ### A file that is sent until it is there -/

/-- A file that a peer sends. -/
structure Sending where
  ip : Ipv4Addr
  peerName : String
  fileName : String
  content : List UInt8

/-- An attempt of the sender, or another transfer. -/
inductive Happening where
  | attempt (nowMs : Nat) (listing : List String) (id : String) (carried : Carried)
  | other (transfer : Transfer)

/-- What the attempts have led to: how many bytes have arrived in all of them, and the name of the
file once it is done. -/
structure Progress where
  inbox : Inbox
  total : Nat
  saved : Option String

namespace Sending

variable (tools : TransferTools) (sending : Sending)

/-- What is in the file beside an interrupted transfer of this file. -/
def marker (name : String) : ResumeMarker where
  sender := sending.ip.display
  name := name
  size := sending.content.length

def attempt (nowMs : Nat) (listing : List String) (id : String) (carried : Carried) : Transfer where
  peer := ⟨sending.ip, sending.peerName, nowMs⟩
  listing := listing
  offer := ⟨id, sending.fileName, sending.content.length, true⟩
  incoming := sendBody tools sending.content id carried

end Sending

/-- How many bytes arrive of a transfer that has been answered so. -/
def Transfer.read (transfer : Transfer) : List FileReply → Nat
  | .accept _ offset :: _ =>
      (receiveLoop (transfer.offer.size - offset) (transfer.incoming offset).chunks).1.length
  | _ => 0

namespace Sending

variable (tools : TransferTools) (sending : Sending)

def step : Happening → Progress → Option Progress
  | .attempt nowMs listing id carried, state =>
      if state.saved = none then
        let transfer := sending.attempt tools nowMs listing id carried
        let ended := transfer.carry tools state.inbox
        some { inbox := ended.1.inbox
               total := state.total + transfer.read ended.1.replies
               saved := if .done id ∈ ended.1.replies then ended.2 else none }
      else none
  | .other transfer, state =>
      some { state with inbox := (transfer.carry tools state.inbox).1.inbox }

/-- A listing is complete, and no other transfer claims to be the one of this file. -/
def Fair (name : String) : Happening → Progress → Prop
  | .attempt _ listing _ _, state => ∀ row ∈ state.inbox.rows, row.1 ∈ listing
  | .other transfer, _ =>
      ∀ other ∈ FileNames.sanitizeFileName transfer.offer.name,
        Text.endsWith other ".pcvresume" = false ∧
        (transfer.offer.resume = true →
          transfer.offer.marker transfer.peer other ≠ sending.marker name ∧
          tools.readMarker (tools.printMarker (transfer.offer.marker transfer.peer other)) ≠
            some (sending.marker name))

end Sending

/-- The file that says that the transfer goes on under a name. -/
def Marks (tools : TransferTools) (wanted : ResumeMarker) (inbox : Inbox) (base : String) : Prop :=
  (inbox.get? (resumeName base)).bind tools.readMarker = some wanted

section

variable {tools : TransferTools} {wanted : ResumeMarker} {inbox : Inbox} {transfer : Transfer}
  {name : String}

/-- No transfer makes a marker under another name than that of its file. -/
theorem Marks.before {base : String}
    (named : FileNames.sanitizeFileName transfer.offer.name = some name)
    (plain : PlainFile (transfer.place tools name inbox).1)
    (apart : base ≠ (transfer.place tools name inbox).1)
    (marks : Marks tools wanted (transfer.carry tools inbox).1.inbox base) :
    Marks tools wanted inbox base := by
  have other : resumeName base ∉ belongings (transfer.place tools name inbox).1 := by
    simp only [belongings, List.mem_cons, List.not_mem_nil, or_false, not_or]
    exact ⟨fun same => plain.resume base same.symm, (partName_ne_resumeName _ _).symm,
      (metaName_ne_resumeName _ _).symm, fun same => apart (resumeName_injective same)⟩
  rw [Marks, carry_frame named other] at marks
  rcases @placeFile_search tools inbox transfer.peer transfer.listing transfer.offer name
    (resumeName base) with kept | ⟨gone, _⟩
  · have same : ((transfer.place tools name inbox).2.2.get? (resumeName base)).bind
        tools.readMarker = (inbox.get? (resumeName base)).bind tools.readMarker :=
      congrArg (fun file => file.bind tools.readMarker) kept
    exact same.symm.trans marks
  · rw [Transfer.place, gone] at marks
    cases marks

/-- The marker of a transfer stays while others go on. -/
theorem Marks.after {base : String}
    (named : FileNames.sanitizeFileName transfer.offer.name = some name)
    (plain : PlainFile (transfer.place tools name inbox).1)
    (apart : base ≠ (transfer.place tools name inbox).1)
    (theirs : transfer.offer.resume = true → transfer.offer.marker transfer.peer name ≠ wanted)
    (marks : Marks tools wanted inbox base) :
    Marks tools wanted (transfer.carry tools inbox).1.inbox base := by
  have other : resumeName base ∉ belongings (transfer.place tools name inbox).1 := by
    simp only [belongings, List.mem_cons, List.not_mem_nil, or_false, not_or]
    exact ⟨fun same => plain.resume base same.symm, (partName_ne_resumeName _ _).symm,
      (metaName_ne_resumeName _ _).symm, fun same => apart (resumeName_injective same)⟩
  rw [Marks, carry_frame named other]
  rcases @placeFile_search tools inbox transfer.peer transfer.listing transfer.offer name
    (resumeName base) with kept | ⟨_, resumes, _, _, read⟩
  · have same : ((transfer.place tools name inbox).2.2.get? (resumeName base)).bind
        tools.readMarker = (inbox.get? (resumeName base)).bind tools.readMarker :=
      congrArg (fun file => file.bind tools.readMarker) kept
    exact same.trans marks
  · exact absurd (Option.some.inj (read.symm.trans marks)) (theirs resumes)

/-- What a transfer leaves under the name of its file says nothing of other transfers. -/
theorem unmarked_own (named : FileNames.sanitizeFileName transfer.offer.name = some name)
    (theirs : transfer.offer.resume = true →
      tools.readMarker (tools.printMarker (transfer.offer.marker transfer.peer name)) ≠
        some wanted) :
    ¬ Marks tools wanted (transfer.carry tools inbox).1.inbox
      (transfer.place tools name inbox).1 := by
  intro marks
  obtain ⟨existing, _, ⟨message, _, ends⟩ | ⟨_, _, ends⟩⟩ :=
    @carry_placed tools inbox transfer name (transfer.place tools name inbox) named rfl
  · rw [ends, Marks, keepOrDrop] at marks
    split at marks
    · rename_i keeps
      rw [Table.get?_insert_self] at marks
      exact theirs keeps.1 marks
    · rw [Table.get?_erase_self] at marks
      cases marks
  · rw [ends, Marks, finished, Table.get?_erase_self] at marks
    cases marks

end

/-! ### One attempt in its place -/

theorem eqIgnoreAsciiCase_self (text : String) : eqIgnoreAsciiCase text text = true :=
  decide_eq_true rfl

section

variable {tools : TransferTools} {sending : Sending} {inbox : Inbox} {nowMs : Nat}
  {listing : List String} {id : String} {carried : Carried} {name : String}

/-- What arrives of an attempt goes on where the part ends. -/
theorem attempt_arrived {total : Nat} (within : total ≤ sending.content.length) :
    ∃ more, (receiveLoop (sending.content.length - total)
        (sendBody tools sending.content id carried total).chunks).1.length = more ∧
      total + more ≤ sending.content.length ∧
      (sending.attempt tools nowMs listing id carried).arrived (sending.content.take total) total =
        sending.content.take (total + more) := by
  have lengths : (sending.content.drop total).length = sending.content.length - total :=
    List.length_drop
  obtain ⟨part, _⟩ := receiveLoop_cutInto carried.sizes (sending.content.drop total)
  rw [lengths] at part
  refine ⟨_, rfl, ?_, ?_⟩
  · have short := part.length_le
    rw [lengths] at short
    exact (Nat.add_le_add_left short total).trans (Nat.add_sub_cancel' within).le
  · rw [List.take_add]
    exact congrArg (List.take total sending.content ++ ·) (List.prefix_iff_eq_take.mp part)

/-- An attempt of an honest sender fails by an interruption only. -/
theorem attempt_broken {content : List UInt8} {info : FileMeta} {total : Nat} {message : String}
    (whole : (receiveLoop (info.size - total)
      (sendBody tools sending.content id carried total).chunks).2 = true →
      content = sending.content)
    (broken : Broken tools info id total (sendBody tools sending.content id carried total) content
      message) :
    mentions message "チェックサム" = false ∧
      ((receiveLoop (info.size - total)
        (sendBody tools sending.content id carried total).chunks).2 = true →
        carried.digest = false) := by
  have announces : carried.digest = true →
      announcedHash id (sendBody tools sending.content id carried total).frame =
        .ok (tools.sha256 sending.content) := by
    intro digest
    simp [sendBody, digest, announcedHash, Option.filter]
  cases broken with
  | short incomplete =>
      refine ⟨closed_mentions _ _, fun complete => ?_⟩
      rw [complete] at incomplete
      cases incomplete
  | unannounced other =>
      cases digest : carried.digest with
      | true =>
          rw [announces digest] at other
          cases other
      | false =>
          have same : announcedHash id (sendBody tools sending.content id carried total).frame =
              .error "相手が切断しました" := by
            simp [sendBody, digest, announcedHash]
          rw [same] at other
          cases other
          refine ⟨?_, fun _ => rfl⟩
          exact @mentions_head _ _ 'チ' "ェックサム".toList (by decide) (by decide)
  | damaged complete announced differs =>
      cases digest : carried.digest with
      | true =>
          rw [announces digest] at announced
          cases announced
          rw [whole complete, eqIgnoreAsciiCase_self] at differs
          cases differs
      | false =>
          simp [sendBody, digest, announcedHash] at announced

/-- A connection that carries all that is missing, and the digest. -/
structure Carried.Whole (carried : Carried) (missing : Nat) : Prop where
  positive : ∀ size ∈ carried.sizes, 0 < size
  enough : missing ≤ carried.sizes.sum
  digest : carried.digest = true

/-- What an attempt leaves that goes on with what is there. -/
theorem attempt_result {final : String} {total : Nat} {after : Inbox}
    (named : FileNames.sanitizeFileName sending.fileName = some name)
    (placed : (sending.attempt tools nowMs listing id carried).place tools name inbox =
      (final, total, after))
    (within : total ≤ sending.content.length)
    (there : 0 < total → after.get? (partName final) = some (sending.content.take total)) :
    ∃ more, total + more ≤ sending.content.length ∧
      (sending.attempt tools nowMs listing id carried).read
        ((sending.attempt tools nowMs listing id carried).carry tools inbox).1.replies = more ∧
      ((.done id ∉ ((sending.attempt tools nowMs listing id carried).carry tools inbox).1.replies ∧
          ¬ carried.Whole (sending.content.length - total) ∧
          ∃ message, mentions message "チェックサム" = false ∧
            ((sending.attempt tools nowMs listing id carried).carry tools inbox).1.inbox =
              keepOrDrop tools (sending.marker name) true final message
                (after.insert (partName final) (sending.content.take (total + more)))) ∨
        (.done id ∈ ((sending.attempt tools nowMs listing id carried).carry tools inbox).1.replies ∧
          total + more = sending.content.length ∧
          ((sending.attempt tools nowMs listing id carried).carry tools inbox).2 = some final ∧
          ((sending.attempt tools nowMs listing id carried).carry tools inbox).1.inbox =
            finished tools (sending.attempt tools nowMs listing id carried).info final
              sending.content after)) := by
  obtain ⟨existing, opens, ended⟩ := @carry_placed tools inbox
    (sending.attempt tools nowMs listing id carried) name (final, total, after) named placed
  have begins : existing = sending.content.take total := by
    have opened := opens.opened
    dsimp only at opened
    by_cases start : 0 < total
    · rw [if_pos start, there start] at opened
      exact (Option.some.inj opened).symm
    · rw [if_neg start] at opened
      rw [Nat.eq_zero_of_not_pos start, List.take_zero]
      exact (Option.some.inj opened).symm
  subst begins
  obtain ⟨more, read, inside, so_far⟩ := @attempt_arrived tools sending nowMs listing id carried
    total within
  have complete_iff : (receiveLoop (sending.content.length - total)
      (sendBody tools sending.content id carried total).chunks).2 = true →
      total + more = sending.content.length := by
    intro complete
    rw [← read, (receiveLoop_length _ _).2 complete]
    exact Nat.add_sub_cancel' within
  have whole : (receiveLoop (sending.content.length - total)
      (sendBody tools sending.content id carried total).chunks).2 = true →
      sending.content.take (total + more) = sending.content := by
    intro complete
    rw [complete_iff complete, List.take_length]
  have willing : carried.Whole (sending.content.length - total) →
      (receiveLoop (sending.content.length - total)
        (sendBody tools sending.content id carried total).chunks).2 = true := by
    intro carries
    have lengths : (sending.content.drop total).length = sending.content.length - total :=
      List.length_drop
    have complete := (receiveLoop_cutInto carried.sizes (sending.content.drop total)).2
      carries.positive (lengths ▸ carries.enough)
    rw [lengths] at complete
    exact complete
  refine ⟨more, inside, ?_, ?_⟩
  · rcases ended with ⟨message, _, ends⟩ | ⟨_, _, ends⟩
    · rw [ends]
      exact read
    · rw [ends]
      exact read
  · rcases ended with ⟨message, broken, ends⟩ | ⟨complete, _, ends⟩
    · rw [so_far] at broken ends
      obtain ⟨intact, undone⟩ := @attempt_broken tools sending id carried
        (sending.content.take (total + more)) _ total message whole broken
      refine .inl ⟨?_, ?_, message, intact, ?_⟩
      · rw [ends]
        simp
      · intro carries
        have digest := undone (willing carries)
        rw [carries.digest] at digest
        cases digest
      · rw [ends]
        rfl
    · rw [so_far, whole complete] at ends
      refine .inr ⟨?_, complete_iff complete, ?_, ?_⟩
      · rw [ends]
        exact List.mem_cons_of_mem _ List.mem_cons_self
      · rw [ends]
      · rw [ends]

/-- What is kept of an interrupted transfer: the part with its marker, if anything has arrived. -/
theorem keepOrDrop_interrupted {marker : ResumeMarker} {final message : String}
    (intact : mentions message "チェックサム" = false) (content : List UInt8) (inbox : Inbox) :
    (content ≠ [] → keepOrDrop tools marker true final message
      (inbox.insert (partName final) content) =
        (inbox.insert (partName final) content).insert (resumeName final)
          (tools.printMarker marker)) ∧
    (content = [] → (keepOrDrop tools marker true final message
      (inbox.insert (partName final) content)).get? (resumeName final) = none) := by
  unfold keepOrDrop
  rw [Table.get?_insert_self]
  constructor
  · intro filled
    refine if_pos ⟨rfl, intact, ?_⟩
    simpa using filled
  · intro empty
    rw [if_neg (by simp [empty]), Table.get?_erase_self]

end

/-! ### How far the file is -/

/-- The file has not begun, goes on under a name, or is done. -/
inductive Stage (tools : TransferTools) (sending : Sending) (name : String) : Progress → Prop where
  | waiting {inbox : Inbox} (unmarked : ∀ base, ¬ Marks tools (sending.marker name) inbox base) :
      Stage tools sending name ⟨inbox, 0, none⟩
  | going {inbox : Inbox} {total : Nat} {final : String} (begun : 0 < total)
      (within : total ≤ sending.content.length)
      (part : inbox.get? (partName final) = some (sending.content.take total))
      (marked : ∀ base, Marks tools (sending.marker name) inbox base ↔ base = final) :
      Stage tools sending name ⟨inbox, total, none⟩
  | done {inbox : Inbox} {final : String} (stored : Stored inbox final sending.content)
      (plain : PlainFile final) :
      Stage tools sending name ⟨inbox, sending.content.length, some final⟩

section

variable {tools : TransferTools} {sending : Sending} {inbox : Inbox} {nowMs : Nat}
  {listing : List String} {id : String} {carried : Carried} {name : String}

/-- An attempt that goes on where the part ends leads to the next stage. -/
theorem stage_of_attempt {final : String} {total : Nat} {after : Inbox}
    (named : FileNames.sanitizeFileName sending.fileName = some name)
    (reads : tools.readMarker (tools.printMarker (sending.marker name)) =
      some (sending.marker name))
    (placed : (sending.attempt tools nowMs listing id carried).place tools name inbox =
      (final, total, after))
    (plain : PlainFile final) (within : total ≤ sending.content.length)
    (there : 0 < total → after.get? (partName final) = some (sending.content.take total))
    (others : ∀ base, base ≠ final → ¬ Marks tools (sending.marker name) inbox base)
    {next : Progress}
    (happens : sending.step tools (.attempt nowMs listing id carried) ⟨inbox, total, none⟩ =
      some next) :
    Stage tools sending name next ∧
      (carried.Whole (sending.content.length - total) → next.saved ≠ none) := by
  obtain ⟨more, inside, read, result⟩ := attempt_result named placed within there
  rw [Sending.step, if_pos rfl] at happens
  have elsewhere : ∀ base, base ≠ final → ¬ Marks tools (sending.marker name)
      ((sending.attempt tools nowMs listing id carried).carry tools inbox).1.inbox base := by
    intro base apart marks
    refine others base apart (@Marks.before tools (sending.marker name) inbox
      (sending.attempt tools nowMs listing id carried) name base named ?_ ?_ marks)
    · rw [placed]
      exact plain
    · rw [placed]
      exact apart
  dsimp only at happens
  rw [read] at happens
  generalize (sending.attempt tools nowMs listing id carried).carry tools inbox = ended
    at happens elsewhere result
  rcases result with ⟨undone, unwilling, message, intact, left⟩ | ⟨done, whole, saved, left⟩
  · rw [if_neg undone] at happens
    rw [← Option.some.inj happens]
    refine ⟨?_, fun carries => absurd carries unwilling⟩
    have kept := @keepOrDrop_interrupted tools (sending.marker name) final message intact
      (sending.content.take (total + more)) after
    rcases Nat.eq_zero_or_pos (total + more) with nothing | some_
    · rw [nothing] at left kept ⊢
      refine .waiting (fun base marks => ?_)
      by_cases own : base = final
      · rw [own, Marks, left, kept.2 (List.take_zero)] at marks
        cases marks
      · exact elsewhere base own marks
    · have filled : sending.content.take (total + more) ≠ [] := by
        rw [← List.length_pos_iff_ne_nil, List.length_take]
        exact Nat.lt_min.mpr ⟨some_, some_.trans_le inside⟩
      have kept := kept.1 filled
      rw [kept] at left
      refine @Stage.going _ _ _ _ _ final some_ inside ?_
        (fun base => ⟨fun marks => ?_, fun own => ?_⟩)
      · rw [left, Table.get?_insert_of_ne _ (partName_ne_resumeName _ _),
          Table.get?_insert_self]
      · by_contra apart
        exact elsewhere base apart marks
      · rw [own, Marks, left, Table.get?_insert_self]
        exact reads
  · rw [if_pos done, saved, whole] at happens
    rw [← Option.some.inj happens]
    refine ⟨.done ?_ plain, fun _ => Option.some_ne_none _⟩
    rw [left]
    exact finished_stored plain

/-- Before any of it has arrived, the file gets a free name. -/
theorem attempt_waiting (unmarked : ∀ base, ¬ Marks tools (sending.marker name) inbox base) :
    ∃ final after, (sending.attempt tools nowMs listing id carried).place tools name inbox =
      (final, 0, after) := by
  rcases @placeFile_cases tools ⟨sending.ip, sending.peerName, nowMs⟩ listing
    ⟨id, sending.fileName, sending.content.length, true⟩ name inbox with
    ⟨_, found, _⟩ | ⟨_, _, zero⟩
  · exact absurd (findResumable_found found).2.2.1 (unmarked _)
  · have start : ((sending.attempt tools nowMs listing id carried).place tools name
        inbox).2.1 = 0 := zero
    generalize (sending.attempt tools nowMs listing id carried).place tools name inbox = place
      at start ⊢
    obtain ⟨final, offset, after⟩ := place
    exact ⟨final, after, by rw [← start]⟩

/-- The part is found by its marker. -/
theorem attempt_going {final : String} {total : Nat} (within : total ≤ sending.content.length)
    (part : inbox.get? (partName final) = some (sending.content.take total))
    (marked : ∀ base, Marks tools (sending.marker name) inbox base ↔ base = final)
    (complete : ∀ row ∈ inbox.rows, row.1 ∈ listing) :
    ∃ after, (sending.attempt tools nowMs listing id carried).place tools name inbox =
        (final, total, after) ∧
      after.get? (partName final) = some (sending.content.take total) := by
  have length : (sending.content.take total).length = total := by
    rw [List.length_take, Nat.min_eq_left within]
  have kept := @placeFile_frame tools inbox ⟨sending.ip, sending.peerName, nowMs⟩ listing
    ⟨id, sending.fileName, sending.content.length, true⟩ name (partName final)
    (partName_ne_resumeName final)
  rw [part] at kept
  have marks := (marked final).mpr rfl
  have listed : resumeName final ∈ listing := by
    cases there : inbox.get? (resumeName final) with
    | none =>
        rw [Marks, there] at marks
        cases marks
    | some text => exact complete _ (Table.get?_eq_some.mp there)
  rcases @placeFile_cases tools ⟨sending.ip, sending.peerName, nowMs⟩ listing
    ⟨id, sending.fileName, sending.content.length, true⟩ name inbox with
    ⟨_, found, _⟩ | ⟨nothing, _⟩
  · obtain ⟨⟨other, there, size⟩, _, marks', _⟩ := findResumable_found found
    have same := (marked _).mp marks'
    rw [same, part] at there
    cases there
    have own : ((sending.attempt tools nowMs listing id carried).place tools name inbox).1 =
        final := same
    have start : ((sending.attempt tools nowMs listing id carried).place tools name
        inbox).2.1 = total := size.symm.trans length
    have kept' : ((sending.attempt tools nowMs listing id carried).place tools name
        inbox).2.2.get? (partName final) = some (sending.content.take total) := kept
    generalize (sending.attempt tools nowMs listing id carried).place tools name inbox = place
      at own start kept' ⊢
    obtain ⟨chosen, offset, after⟩ := place
    exact ⟨after, by rw [← own, ← start], kept'⟩
  · have large := findResumable_none (nothing rfl) listed marks part
    rw [length] at large
    exact absurd within (Nat.not_le_of_lt large)

end

/-- A state that the attempts lead to. -/
structure Underway (tools : TransferTools) (sending : Sending) (name : String)
    (state : Progress) : Prop where
  orderly : Orderly PlainFile state.inbox
  stage : Stage tools sending name state

section

variable {tools : TransferTools} {sending : Sending} {inbox : Inbox} {name : String}

/-- Another transfer does not go where this file is going. -/
theorem other_place {final : String} {part : List UInt8} {transfer : Transfer} {other : String}
    (there : inbox.get? (partName final) = some part)
    (marks : Marks tools (sending.marker name) inbox final)
    (theirs : transfer.offer.resume = true →
      transfer.offer.marker transfer.peer other ≠ sending.marker name) :
    final ≠ (transfer.place tools other inbox).1 := by
  intro same
  rcases @placeFile_cases tools transfer.peer transfer.listing transfer.offer other inbox with
    ⟨resumes, found, _⟩ | ⟨_, unique, _⟩
  · have marks' := (findResumable_found found).2.2.1
    rw [← Transfer.place, ← same] at marks'
    exact theirs resumes (Option.some.inj (marks'.symm.trans marks))
  · have free := (uniquePath_free (transfer.place tools other inbox).2.2 other).2.1
    rw [Transfer.place, ← unique, ← Transfer.place, ← same, Transfer.place,
      placeFile_frame (partName_ne_resumeName final), there] at free
    cases free

/-- Other transfers leave the stage as it is. -/
theorem stage_other {transfer : Transfer} {state : Progress}
    (ready : Underway tools sending name state)
    (fair : sending.Fair tools name (.other transfer) state) :
    Underway tools sending name
      { state with inbox := (transfer.carry tools state.inbox).1.inbox } := by
  obtain ⟨inbox, total, saved⟩ := state
  obtain ⟨orderly, stage⟩ := ready
  cases named : FileNames.sanitizeFileName transfer.offer.name with
  | none =>
      dsimp only
      rw [(carry_rejected named).1]
      exact ⟨orderly, stage⟩
  | some other =>
      obtain ⟨ends, theirs⟩ := fair other (by rw [named]; rfl)
      have plain : PlainFile other := by
        refine ⟨sanitized_storable named, fun base same => ?_⟩
        rw [same, resumeName, endsWith_append] at ends
        cases ends
      have chosen : PlainFile (transfer.place tools other inbox).1 :=
        placeFile_kind orderly plain.numbered
      constructor
      · refine @carry_orderly tools inbox PlainFile (fun _ plain => plain.toStorable) orderly
          transfer (fun other' named' => ?_)
        rw [named] at named'
        exact Option.some.inj named' ▸ plain.numbered
      · have own := @unmarked_own tools (sending.marker name) inbox transfer other named
          (fun resumes => (theirs resumes).2)
        cases stage with
        | waiting unmarked =>
            refine .waiting (fun base marks => ?_)
            by_cases same : base = (transfer.place tools other inbox).1
            · exact own (same ▸ marks)
            · exact unmarked base (Marks.before named chosen same marks)
        | @going _ _ final begun within part marked =>
            have apart := @other_place tools sending inbox name final _ transfer other part
              ((marked final).mpr rfl) (fun resumes => (theirs resumes).1)
            refine @Stage.going _ _ _ _ _ final begun within ?_
              (fun base => ⟨fun marks => ?_, fun same => ?_⟩)
            · have unfinished : partName final ∉ belongings
                  (transfer.place tools other inbox).1 := by
                simp only [belongings, List.mem_cons, List.not_mem_nil, or_false, not_or]
                exact ⟨fun same => chosen.part final same.symm,
                  fun same => apart (partName_injective same), partName_ne_metaName _ _,
                  partName_ne_resumeName _ _⟩
              rw [carry_frame named unfinished]
              exact (placeFile_frame (partName_ne_resumeName final)).trans part
            · by_cases same : base = (transfer.place tools other inbox).1
              · exact absurd (same ▸ marks) own
              · exact (marked base).mp (Marks.before named chosen same marks)
            · rw [same]
              exact Marks.after named chosen apart (fun resumes => (theirs resumes).1)
                ((marked final).mpr rfl)
        | done stored plain =>
            have storable : Orderly Storable inbox :=
              fun part there => (orderly part there).toStorable
            exact .done (stored.carry storable plain transfer).1 plain

/-- Where an attempt goes on. -/
theorem attempt_place {nowMs : Nat} {listing : List String} {id : String} {carried : Carried}
    {total : Nat} (plain : PlainFile name)
    (ready : Underway tools sending name ⟨inbox, total, none⟩)
    (complete : ∀ row ∈ inbox.rows, row.1 ∈ listing) :
    ∃ final after, (sending.attempt tools nowMs listing id carried).place tools name inbox =
        (final, total, after) ∧
      PlainFile final ∧ total ≤ sending.content.length ∧
      (0 < total → after.get? (partName final) = some (sending.content.take total)) ∧
      ∀ base, base ≠ final → ¬ Marks tools (sending.marker name) inbox base := by
  obtain ⟨orderly, stage⟩ := ready
  have chosen : PlainFile
      ((sending.attempt tools nowMs listing id carried).place tools name inbox).1 :=
    placeFile_kind orderly plain.numbered
  cases stage with
  | waiting unmarked =>
      obtain ⟨final, after, placed⟩ := @attempt_waiting tools sending inbox nowMs listing id
        carried name unmarked
      rw [placed] at chosen
      exact ⟨final, after, placed, chosen, Nat.zero_le _, fun no => absurd no (Nat.lt_irrefl 0),
        fun base _ => unmarked base⟩
  | @going _ _ final begun within part marked =>
      obtain ⟨after, placed, there⟩ := @attempt_going tools sending inbox nowMs listing id carried
        name final total within part marked complete
      rw [placed] at chosen
      exact ⟨final, after, placed, chosen, within, fun _ => there,
        fun base apart marks => apart ((marked base).mp marks)⟩

/-- Whatever happens, the file is at the next stage. -/
theorem step_underway (named : FileNames.sanitizeFileName sending.fileName = some name)
    (plain : PlainFile name)
    (reads : tools.readMarker (tools.printMarker (sending.marker name)) =
      some (sending.marker name)) (event : Happening) (state next : Progress)
    (ready : Underway tools sending name state) (fair : sending.Fair tools name event state)
    (happens : sending.step tools event state = some next) :
    Underway tools sending name next := by
  cases event with
  | other transfer =>
      rw [Sending.step] at happens
      rw [← Option.some.inj happens]
      exact stage_other ready fair
  | attempt nowMs listing id carried =>
      obtain ⟨inbox, total, saved⟩ := state
      cases saved with
      | some final =>
          rw [Sending.step, if_neg (Option.some_ne_none final)] at happens
          cases happens
      | none =>
          obtain ⟨final, after, placed, chosen, within, there, others⟩ :=
            @attempt_place tools sending inbox name nowMs listing id carried total plain ready fair
          refine ⟨?_, (stage_of_attempt named reads placed chosen within there others happens).1⟩
          rw [Sending.step, if_pos rfl] at happens
          rw [← Option.some.inj happens]
          refine @carry_orderly tools inbox PlainFile (fun _ plain => plain.toStorable)
            ready.orderly (sending.attempt tools nowMs listing id carried)
            (fun other named' => ?_)
          have same : FileNames.sanitizeFileName sending.fileName = some other := named'
          rw [named] at same
          exact Option.some.inj same ▸ plain.numbered

end

/-- Five bytes. -/
def lettersSending : Sending where
  ip := .ofOctets 10 0 0 2
  peerName := "laptop"
  fileName := "a"
  content := [97, 98, 99, 100, 101]

/-- A file of the same name, from elsewhere. -/
def otherTransfer : Transfer where
  peer := ⟨.ofOctets 10 0 0 3, "phone", 1000⟩
  listing := []
  offer := ⟨"f2", "a", 5, true⟩
  incoming _ := ⟨[[120, 121]], .timedOut, .missing ""⟩

def lettersTools : TransferTools where
  printMarker marker := if marker.sender = "10.0.0.2" then [1] else [2]
  readMarker
    | [1] => some ⟨"10.0.0.2", "a", 5⟩
    | [2] => some ⟨"10.0.0.3", "a", 5⟩
    | _ => none
  printMeta _ := []
  sha256 content :=
    if content = [97, 98, 99, 100, 101] then
      "36bbe50ed96841d10443bcb670d6554f0a34b761be67ec9c4a8ad2c0c44ca42c"
    else ""

/-- Two interruptions, another transfer between them, and a last attempt. -/
def lettersRun : List Happening :=
  [.attempt 1 [] "f1" ⟨[2], true⟩, .other otherTransfer,
    .attempt 2 ["a.part", "a.pcvresume", "a (1).part", "a (1).pcvresume"] "f3" ⟨[1, 2], false⟩,
    .attempt 3 ["a (1).pcvresume", "a.pcvresume", "a (1).part", "a.part"] "f4" ⟨[], true⟩]

instance (name : String) (event : Happening) (state : Progress) :
    Decidable (lettersSending.Fair lettersTools name event state) := by
  cases event <;> unfold Sending.Fair <;> infer_instance

/-- Where these events lead, when each of them happens. -/
def lettersState : Option Progress :=
  Runs.run (lettersSending.step lettersTools) lettersRun ⟨Table.empty, 0, none⟩

theorem lettersState_isSome : lettersState.isSome = true := by decide +kernel

end PeerCove.FileTransfer
