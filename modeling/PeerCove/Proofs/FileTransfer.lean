/-
Module: PeerCove.Proofs.FileTransfer
Layer: Proofs
Purpose: A file is done only with the content whose digest was announced, and keeps it; a transfer
  that is interrupted again and again brings each byte once.
Trusted boundary: none
Main exports: PlainFile, uniquePath_free, findResumable_frame, received_stays, resumed_once
-/
import Mathlib.Data.List.TakeWhile
import PeerCove.Chat.FileTransfer
import PeerCove.Library.Runs
import PeerCove.Proofs.PolicyMigration

namespace PeerCove.FileTransfer

/-! ### Names -/

/-- A name of a file whose content arrives: it is not that of an unfinished or of a describing file.
-/
structure Storable (name : String) : Prop where
  part : ∀ base, name ≠ partName base
  described : ∀ base, name ≠ metaName base

/-- A name that is none of those that the inbox makes beside a file. -/
structure PlainFile (name : String) : Prop extends Storable name where
  resume : ∀ base, name ≠ resumeName base

theorem ends_append (base pattern : String) (c : Char)
    (last : pattern.toList.getLast? = some c) : (base ++ pattern).toList.getLast? = some c := by
  rw [String.toList_append, List.getLast?_append, last]
  rfl

theorem partName_last (base : String) : (partName base).toList.getLast? = some 't' :=
  ends_append base ".part" 't' (by decide)

theorem metaName_last (base : String) : (metaName base).toList.getLast? = some 'a' :=
  ends_append base ".pcvmeta" 'a' (by decide)

theorem resumeName_last (base : String) : (resumeName base).toList.getLast? = some 'e' :=
  ends_append base ".pcvresume" 'e' (by decide)

theorem append_right_injective (pattern : String) {one two : String}
    (same : one ++ pattern = two ++ pattern) : one = two := by
  have chars := congrArg String.toList same
  rw [String.toList_append, String.toList_append] at chars
  exact String.toList_injective (List.append_cancel_right chars)

theorem partName_injective {one two : String} (same : partName one = partName two) : one = two :=
  append_right_injective ".part" same

theorem resumeName_injective {one two : String} (same : resumeName one = resumeName two) :
    one = two :=
  append_right_injective ".pcvresume" same

theorem partName_ne_metaName (one two : String) : partName one ≠ metaName two := by
  intro same
  have last := partName_last one
  rw [same, metaName_last] at last
  cases last

theorem partName_ne_resumeName (one two : String) : partName one ≠ resumeName two := by
  intro same
  have last := partName_last one
  rw [same, resumeName_last] at last
  cases last

theorem metaName_ne_resumeName (one two : String) : metaName one ≠ resumeName two := by
  intro same
  have last := metaName_last one
  rw [same, resumeName_last] at last
  cases last

theorem stripSuffix_eq_some {s pattern base : String} :
    stripSuffix s pattern = some base ↔ s = base ++ pattern := by
  unfold stripSuffix
  constructor
  · intro stripped
    split at stripped
    · rename_i ends
      obtain ⟨front, whole⟩ := List.isSuffixOf_iff_suffix.mp ends
      have same : base = String.ofList front := by
        rw [← Option.some.inj stripped, ← whole, List.length_append, Nat.add_sub_cancel,
          List.take_left]
      apply String.toList_injective
      rw [same, String.toList_append, String.toList_ofList, whole]
    · cases stripped
  · intro same
    have ends : Text.endsWith s pattern = true := by
      rw [Text.endsWith, same, String.toList_append]
      exact List.isSuffixOf_iff_suffix.mpr (List.suffix_append _ _)
    rw [if_pos ends, same, String.toList_append, List.length_append, Nat.add_sub_cancel,
      List.take_left, String.ofList_toList]

/-! ### A free name -/

/-- The last dot divides a name in one way. -/
theorem last_dot {front front' back back' : List Char} (dotless : '.' ∉ back)
    (dotless' : '.' ∉ back') (same : front ++ '.' :: back = front' ++ '.' :: back') :
    front = front' ∧ back = back' := by
  induction front generalizing front' with
  | nil =>
      cases front' with
      | nil => exact ⟨rfl, (List.cons.inj same).2⟩
      | cons first rest =>
          have tails := (List.cons.inj same).2
          rw [tails] at dotless
          exact absurd (by simp) dotless
  | cons first rest ih =>
      cases front' with
      | nil =>
          have tails := (List.cons.inj same).2
          rw [← tails] at dotless'
          exact absurd (by simp) dotless'
      | cons first' rest' =>
          obtain ⟨head, tails⟩ := List.cons.inj same
          obtain ⟨fronts, backs⟩ := ih tails
          exact ⟨by rw [head, fronts], backs⟩

/-- A name is its two parts, the second of which is empty or begins with the last dot. -/
theorem nameParts_cases (name : String) :
    (nameParts name = (name, "")) ∨
      ∃ stem back, nameParts name = (String.ofList stem, String.ofList ('.' :: back)) ∧
        '.' ∉ back ∧ name.toList = stem ++ '.' :: back := by
  by_cases divided : '.' ∈ name.toList ∧ (name.toList.reverse.drop
      ((name.toList.reverse.takeWhile (· ≠ '.')).length + 1)).reverse ≠ []
  · right
    refine ⟨_, _, if_pos divided, ?_, ?_⟩
    · intro dot
      have inside := List.mem_takeWhile_imp (List.mem_reverse.mp dot)
      simp at inside
    · have whole := List.takeWhile_append_dropWhile (p := fun c => decide (c ≠ '.'))
        (l := name.toList.reverse)
      obtain ⟨rest, begins⟩ : ∃ rest, name.toList.reverse.dropWhile (· ≠ '.') = '.' :: rest := by
        cases dropped : name.toList.reverse.dropWhile (· ≠ '.') with
        | nil =>
            have all := List.dropWhile_eq_nil_iff.mp dropped '.' (List.mem_reverse.mpr divided.1)
            simp at all
        | cons first rest =>
            have head := List.head_dropWhile_not (fun c => decide (c ≠ '.'))
              (l := name.toList.reverse) (by rw [dropped]; exact List.cons_ne_nil _ _)
            simp only [dropped, List.head_cons, decide_eq_false_iff_not, not_not] at head
            exact ⟨rest, by rw [head]⟩
      rw [begins] at whole
      have behind : ∀ front : List Char,
          (front ++ '.' :: rest).drop (front.length + 1) = rest := by
        intro front
        simp
      have after := (congrArg (List.drop
        ((name.toList.reverse.takeWhile (· ≠ '.')).length + 1)) whole.symm).trans (behind _)
      rw [after]
      have back := congrArg List.reverse whole
      rw [List.reverse_reverse, List.reverse_append, List.reverse_cons, List.append_assoc] at back
      exact back.symm
  · exact .inl (if_neg divided)

theorem nameParts_append (name : String) :
    (nameParts name).1.toList ++ (nameParts name).2.toList = name.toList := by
  rcases nameParts_cases name with parts | ⟨stem, back, parts, _, whole⟩
  · rw [parts]
    simp
  · rw [parts, String.toList_ofList, String.toList_ofList, whole]

theorem numberedName_succ (name : String) (n : Nat) :
    (numberedName name (n + 1)).toList = (nameParts name).1.toList ++
      ([' ', '('] ++ (n + 1).repr.toList ++ [')']) ++ (nameParts name).2.toList := by
  simp [numberedName, String.toList_append, toString]

theorem numberedName_injective (name : String) : Function.Injective (numberedName name) := by
  have longer : ∀ n, numberedName name 0 ≠ numberedName name (n + 1) := by
    intro n same
    have lengths := congrArg (fun text => text.toList.length) same
    simp only [numberedName_succ, List.length_append, List.length_cons, List.length_nil] at lengths
    have whole := congrArg List.length (nameParts_append name)
    rw [List.length_append] at whole
    change name.toList.length = _ at lengths
    omega
  intro one two same
  cases one with
  | zero =>
      cases two with
      | zero => rfl
      | succ two => exact absurd same (longer two)
  | succ one =>
      cases two with
      | zero => exact absurd same.symm (longer one)
      | succ two =>
          have chars := congrArg String.toList same
          rw [numberedName_succ, numberedName_succ] at chars
          have inner := List.append_cancel_left (List.append_cancel_right chars)
          have digits := List.append_cancel_left (List.append_cancel_right inner)
          exact repr_injective (String.toList_injective digits)

theorem mem_names {inbox : Inbox} {name : String} :
    name ∈ inbox.rows.map Prod.fst ↔ inbox.get? name ≠ none := by
  rw [Ne, Table.get?_eq_none, List.mem_map]
  constructor
  · intro listed none_
    obtain ⟨entry, there, rfl⟩ := listed
    exact none_ entry.2 there
  · intro some_
    push Not at some_
    obtain ⟨content, there⟩ := some_
    exact ⟨_, there, rfl⟩

theorem mem_takenNames {inbox : Inbox} {name : String} :
    name ∈ takenNames inbox ↔
      inbox.get? name ≠ none ∨ inbox.get? (partName name) ≠ none := by
  rw [takenNames, List.mem_append, mem_names, List.mem_filterMap]
  refine or_congr Iff.rfl ?_
  constructor
  · intro found
    obtain ⟨file, listed, stripped⟩ := found
    rw [stripSuffix_eq_some.mp stripped] at listed
    exact mem_names.mp listed
  · intro there
    exact ⟨partName name, mem_names.mpr there, stripSuffix_eq_some.mpr rfl⟩

/-- A new file gets a free name, which is one of its numbered names. -/
theorem uniquePath_free (inbox : Inbox) (name : String) :
    inbox.get? (uniquePath inbox name) = none ∧
      inbox.get? (partName (uniquePath inbox name)) = none ∧
      ∃ n, uniquePath inbox name = numberedName name n := by
  obtain ⟨final, found⟩ := Option.isSome_iff_exists.mp
    (FreshName.search_isSome (numberedName_injective name) (takenNames inbox))
  have chosen : uniquePath inbox name = final := by
    rw [uniquePath, found]
    rfl
  obtain ⟨free, n, numbered⟩ := FreshName.search_spec found
  rw [mem_takenNames, not_or, not_not, not_not] at free
  rw [chosen]
  exact ⟨free.1, free.2, n, numbered.symm⟩

/-- A number before the extension adds no extension. -/
theorem numberedName_ends {name base pattern : String} {n : Nat} {back : List Char} {c : Char}
    (shape : pattern.toList = '.' :: back) (dotless : '.' ∉ back)
    (last : pattern.toList.getLast? = some c) (other : c ≠ ')')
    (same : numberedName name (n + 1) = base ++ pattern) : ∃ front, name = front ++ pattern := by
  have chars := congrArg String.toList same
  rw [numberedName_succ, String.toList_append] at chars
  rcases nameParts_cases name with parts | ⟨stem, tail, parts, dotlessTail, whole⟩
  · have ends := congrArg List.getLast? chars
    rw [← @String.toList_append base, ends_append base pattern c last, parts, String.toList_empty,
      List.append_nil, ← List.append_assoc, List.getLast?_concat] at ends
    exact absurd (Option.some.inj ends).symm other
  · rw [parts, String.toList_ofList, String.toList_ofList, shape] at chars
    obtain ⟨_, tails⟩ := last_dot dotlessTail dotless chars
    refine ⟨String.ofList stem, String.toList_injective ?_⟩
    rw [whole, tails, String.toList_append, String.toList_ofList, shape]

theorem numbered_ne {name pattern : String} {back : List Char} {c : Char}
    (shape : pattern.toList = '.' :: back) (dotless : '.' ∉ back)
    (last : pattern.toList.getLast? = some c) (other : c ≠ ')')
    (differs : ∀ base, name ≠ base ++ pattern) (n : Nat) (base : String) :
    numberedName name n ≠ base ++ pattern := by
  intro same
  cases n with
  | zero => exact differs base same
  | succ n =>
      obtain ⟨front, ends⟩ := numberedName_ends shape dotless last other same
      exact differs front ends

theorem Storable.numbered {name : String} (storable : Storable name) (n : Nat) :
    Storable (numberedName name n) where
  part := @numbered_ne name ".part" "part".toList 't' (by decide) (by decide) (by decide)
    (by decide) storable.part n
  described := @numbered_ne name ".pcvmeta" "pcvmeta".toList 'a' (by decide) (by decide)
    (by decide) (by decide) storable.described n

theorem PlainFile.numbered {name : String} (plain : PlainFile name) (n : Nat) :
    PlainFile (numberedName name n) where
  toStorable := plain.toStorable.numbered n
  resume := @numbered_ne name ".pcvresume" "pcvresume".toList 'e' (by decide) (by decide)
    (by decide) (by decide) plain.resume n

theorem endsWith_append (base pattern : String) :
    Text.endsWith (base ++ pattern) pattern = true := by
  rw [Text.endsWith, String.toList_append]
  exact List.isSuffixOf_iff_suffix.mpr (List.suffix_append _ _)

/-- The last step of a name that a peer gives. -/
theorem keep_or_mark {cleaned safe : String}
    (made : (if Text.endsWith cleaned ".part" || Text.endsWith cleaned ".pcvmeta" then
      some (cleaned ++ ".file") else some cleaned) = some safe) :
    (∃ front, safe = front ++ ".file") ∨
      Text.endsWith safe ".part" = false ∧ Text.endsWith safe ".pcvmeta" = false := by
  split at made
  · exact .inl ⟨cleaned, (Option.some.inj made).symm⟩
  · rename_i unmarked
    rw [Option.some.inj made, Bool.or_eq_true, not_or, Bool.not_eq_true, Bool.not_eq_true]
      at unmarked
    exact .inr unmarked

theorem sanitized_cases {name safe : String}
    (made : FileNames.sanitizeFileName name = some safe) :
    (∃ front, safe = front ++ ".file") ∨
      Text.endsWith safe ".part" = false ∧ Text.endsWith safe ".pcvmeta" = false := by
  unfold FileNames.sanitizeFileName at made
  dsimp only at made
  rw [ite_eq_iff] at made
  rcases made with ⟨_, impossible⟩ | ⟨_, made⟩
  · cases impossible
  · exact keep_or_mark made

/-- The name that is made of what a peer says. -/
theorem sanitized_storable {name safe : String}
    (made : FileNames.sanitizeFileName name = some safe) : Storable safe := by
  rcases sanitized_cases made with ⟨front, marked⟩ | ⟨part, described⟩
  · have last : safe.toList.getLast? = some 'e' := by
      rw [marked]
      exact ends_append front ".file" 'e' (by decide)
    refine ⟨fun base same => ?_, fun base same => ?_⟩
    · rw [same, partName_last] at last
      cases last
    · rw [same, metaName_last] at last
      cases last
  · refine ⟨fun base same => ?_, fun base same => ?_⟩
    · rw [same, partName, endsWith_append] at part
      cases part
    · rw [same, metaName, endsWith_append] at described
      cases described

/-! ### Where a file goes -/

section

variable {tools : TransferTools} {wanted : ResumeMarker} {inbox : Inbox}

/-- One step of the search. -/
theorem findResumable_cons (first : String) (rest : List String) :
    (findResumable tools wanted (first :: rest) inbox =
        findResumable tools wanted rest inbox ∧
      ∀ base part, first = resumeName base →
        (inbox.get? first).bind tools.readMarker = some wanted →
        inbox.get? (partName base) = some part → wanted.size < part.length) ∨
      ∃ base, first = resumeName base ∧
        (inbox.get? first).bind tools.readMarker = some wanted ∧
        ((inbox.get? (partName base) = none ∧
            findResumable tools wanted (first :: rest) inbox =
              findResumable tools wanted rest (inbox.erase first)) ∨
          ∃ part, inbox.get? (partName base) = some part ∧ part.length ≤ wanted.size ∧
            findResumable tools wanted (first :: rest) inbox =
              (some (base, part.length), inbox.erase first)) := by
  rw [findResumable]
  cases stripped : stripSuffix first ".pcvresume" with
  | none =>
      refine .inl ⟨rfl, fun base part named => ?_⟩
      rw [stripSuffix_eq_some.mpr named] at stripped
      cases stripped
  | some base =>
      dsimp only
      by_cases marks : (inbox.get? first).bind tools.readMarker = some wanted
      · rw [if_neg (not_not.mpr marks)]
        cases there : inbox.get? (partName base) with
        | none => exact .inr ⟨base, stripSuffix_eq_some.mp stripped, marks, .inl ⟨there, rfl⟩⟩
        | some part =>
            dsimp only
            by_cases large : part.length > wanted.size
            · refine .inl ⟨if_pos large, fun other part' named _ there' => ?_⟩
              rw [stripSuffix_eq_some.mp stripped] at named
              rw [← resumeName_injective named, there] at there'
              exact Option.some.inj there' ▸ large
            · refine .inr ⟨base, stripSuffix_eq_some.mp stripped, marks, .inr ⟨part, there, ?_⟩⟩
              exact ⟨Nat.le_of_not_lt large, if_neg large⟩
      · exact .inl ⟨if_pos marks, fun _ _ _ read => absurd read marks⟩

/-- What is removed by one step is a marker of this transfer. -/
theorem erase_marker {first base : String} (named : first = resumeName base)
    (marks : (inbox.get? first).bind tools.readMarker = some wanted) (file : String) :
    (inbox.erase first).get? file = inbox.get? file ∨
      (inbox.erase first).get? file = none ∧ ∃ base, file = resumeName base ∧
        (inbox.get? file).bind tools.readMarker = some wanted := by
  by_cases same : file = first
  · rw [same]
    exact .inr ⟨Table.get?_erase_self _ _, base, named, marks⟩
  · exact .inl (Table.get?_erase_of_ne _ same)

/-- A search for an interrupted transfer removes nothing but markers of this transfer. -/
theorem findResumable_frame (listing : List String) (file : String) :
    (findResumable tools wanted listing inbox).2.get? file = inbox.get? file ∨
      (findResumable tools wanted listing inbox).2.get? file = none ∧
        ∃ base, file = resumeName base ∧
          (inbox.get? file).bind tools.readMarker = some wanted := by
  induction listing generalizing inbox with
  | nil => exact .inl rfl
  | cons first rest ih =>
      rcases @findResumable_cons tools wanted inbox first rest with
        ⟨skips, _⟩ | ⟨base, named, marks, ⟨_, gone⟩ | ⟨part, _, _, found⟩⟩
      · rw [skips]
        exact ih
      · rw [gone]
        have erased := erase_marker named marks file
        rcases @ih (inbox.erase first) with kept | ⟨gone, other, resume, marks'⟩
        · rw [kept]
          exact erased
        · rcases erased with kept | gone'
          · rw [kept] at marks'
            exact .inr ⟨gone, other, resume, marks'⟩
          · exact .inr ⟨gone, gone'.2⟩
      · rw [found]
        exact erase_marker named marks file

/-- What is found is the part that goes on, and its marker was of this transfer. -/
theorem findResumable_found {listing : List String} {final : String} {offset : Nat}
    (found : (findResumable tools wanted listing inbox).1 = some (final, offset)) :
    (∃ part, inbox.get? (partName final) = some part ∧ part.length = offset) ∧
      offset ≤ wanted.size ∧ (inbox.get? (resumeName final)).bind tools.readMarker = some wanted ∧
      (findResumable tools wanted listing inbox).2.get? (resumeName final) = none := by
  induction listing generalizing inbox with
  | nil => cases found
  | cons first rest ih =>
      rcases @findResumable_cons tools wanted inbox first rest with
        ⟨skips, _⟩ | ⟨base, named, marks, ⟨_, gone⟩ | ⟨part, there, small, ends⟩⟩
      · rw [skips] at found ⊢
        exact ih found
      · rw [gone] at found ⊢
        obtain ⟨⟨part, there, length⟩, small, marks', absent⟩ := ih found
        rw [Table.get?_erase_of_ne _ (named ▸ partName_ne_resumeName _ _)] at there
        refine ⟨⟨part, there, length⟩, small, ?_, absent⟩
        by_cases same : resumeName final = first
        · rw [same]
          exact marks
        · rwa [Table.get?_erase_of_ne _ same] at marks'
      · rw [ends] at found ⊢
        cases found
        refine ⟨⟨part, there, rfl⟩, small, named ▸ marks, ?_⟩
        rw [← named]
        exact Table.get?_erase_self _ _

/-- A search that finds nothing has met no marker of this transfer whose part can go on. -/
theorem findResumable_none {listing : List String} {base : String} {part : List UInt8}
    (nothing : (findResumable tools wanted listing inbox).1 = none)
    (listed : resumeName base ∈ listing)
    (marks : (inbox.get? (resumeName base)).bind tools.readMarker = some wanted)
    (there : inbox.get? (partName base) = some part) : wanted.size < part.length := by
  induction listing generalizing inbox with
  | nil => cases listed
  | cons first rest ih =>
      rcases @findResumable_cons tools wanted inbox first rest with
        ⟨skips, unfit⟩ | ⟨other, named, _, ⟨absent, gone⟩ | ⟨_, _, _, ends⟩⟩
      · rcases List.mem_cons.mp listed with same | later
        · exact unfit base part same.symm (same ▸ marks) there
        · rw [skips] at nothing
          exact ih nothing later marks there
      · rw [gone] at nothing
        have apart : base ≠ other := by
          intro same
          rw [same, absent] at there
          cases there
        have differs : resumeName base ≠ first :=
          fun same => apart (resumeName_injective (same.trans named))
        refine ih nothing (List.mem_of_ne_of_mem differs listed) ?_ ?_
        · rwa [Table.get?_erase_of_ne _ differs]
        · rwa [Table.get?_erase_of_ne _ (named ▸ partName_ne_resumeName _ _)]
      · rw [ends] at nothing
        cases nothing

/-- The inbox as a search leaves it. -/
theorem placeFile_search (peer : TransferPeer) (listing : List String) (offer : FileOffer)
    (name file : String) :
    (placeFile tools peer listing offer name inbox).2.2.get? file = inbox.get? file ∨
      (placeFile tools peer listing offer name inbox).2.2.get? file = none ∧
        offer.resume = true ∧ ∃ base, file = resumeName base ∧
          (inbox.get? file).bind tools.readMarker = some (offer.marker peer name) := by
  unfold placeFile
  cases offer.resume with
  | false => exact .inl rfl
  | true =>
      have frame := @findResumable_frame tools (offer.marker peer name) inbox listing file
      rw [if_pos (rfl : true = true)]
      generalize findResumable tools (offer.marker peer name) listing inbox = searched at frame
      obtain ⟨found | ⟨final, offset⟩, after⟩ := searched
      · exact frame.imp id (fun gone => ⟨gone.1, rfl, gone.2⟩)
      · exact frame.imp id (fun gone => ⟨gone.1, rfl, gone.2⟩)

theorem placeFile_frame {peer : TransferPeer} {listing : List String} {offer : FileOffer}
    {name file : String} (apart : ∀ base, file ≠ resumeName base) :
    (placeFile tools peer listing offer name inbox).2.2.get? file = inbox.get? file := by
  rcases @placeFile_search tools inbox peer listing offer name file with
    kept | ⟨_, _, base, resume, _⟩
  · exact kept
  · exact absurd resume (apart base)

/-- A file goes to the unfinished part of its own transfer, or to a free name. -/
theorem placeFile_cases (peer : TransferPeer) (listing : List String) (offer : FileOffer)
    (name : String) (inbox : Inbox) :
    (offer.resume = true ∧
      (findResumable tools (offer.marker peer name) listing inbox).1 =
        some ((placeFile tools peer listing offer name inbox).1,
          (placeFile tools peer listing offer name inbox).2.1) ∧
      (placeFile tools peer listing offer name inbox).2.2 =
        (findResumable tools (offer.marker peer name) listing inbox).2) ∨
    ((offer.resume = true →
        (findResumable tools (offer.marker peer name) listing inbox).1 = none) ∧
      (placeFile tools peer listing offer name inbox).1 =
        uniquePath (placeFile tools peer listing offer name inbox).2.2 name ∧
      (placeFile tools peer listing offer name inbox).2.1 = 0) := by
  unfold placeFile
  cases offer.resume with
  | false =>
      refine .inr ⟨fun impossible => ?_, rfl, rfl⟩
      cases impossible
  | true =>
      rw [if_pos (rfl : true = true)]
      generalize findResumable tools (offer.marker peer name) listing inbox = searched
      obtain ⟨found | ⟨final, offset⟩, after⟩ := searched
      · exact .inr ⟨fun _ => rfl, rfl, rfl⟩
      · exact .inl ⟨rfl, rfl, rfl⟩

/-- Every unfinished part is that of a name of some kind. -/
def Orderly (kind : String → Prop) (inbox : Inbox) : Prop :=
  ∀ name, inbox.get? (partName name) ≠ none → kind name

section

variable {peer : TransferPeer} {listing : List String} {offer : FileOffer} {name : String}

/-- What an offer goes on with is there. -/
theorem placeFile_opened :
    ∃ existing, (if (placeFile tools peer listing offer name inbox).2.1 > 0 then
        (placeFile tools peer listing offer name inbox).2.2.get?
          (partName (placeFile tools peer listing offer name inbox).1) else some []) =
        some existing ∧
      existing.length = (placeFile tools peer listing offer name inbox).2.1 := by
  have cases := @placeFile_cases tools peer listing offer name inbox
  generalize placed : placeFile tools peer listing offer name inbox = place at cases ⊢
  obtain ⟨final, offset, after⟩ := place
  rcases cases with ⟨_, found, same⟩ | ⟨_, _, zero⟩
  · obtain ⟨⟨part, there, length⟩, _⟩ := findResumable_found found
    have kept := @placeFile_frame tools inbox peer listing offer name (partName final)
      (partName_ne_resumeName final)
    rw [placed] at kept
    by_cases start : offset > 0
    · exact ⟨part, by rw [if_pos start, kept, there], length⟩
    · refine ⟨[], if_neg start, ?_⟩
      exact (Nat.eq_zero_of_not_pos start).symm
  · exact ⟨[], if_neg (by rw [zero]; exact Nat.lt_irrefl 0), zero.symm⟩

theorem placeFile_offset :
    (placeFile tools peer listing offer name inbox).2.1 ≤ offer.size := by
  rcases @placeFile_cases tools peer listing offer name inbox with ⟨_, found, _⟩ | ⟨_, _, zero⟩
  · exact (findResumable_found found).2.1
  · rw [zero]
    exact Nat.zero_le _

/-- A file that is finished is in nobody's way. -/
theorem placeFile_ne {file : String} (there : inbox.get? file ≠ none)
    (finished : inbox.get? (partName file) = none) (apart : ∀ base, file ≠ resumeName base) :
    (placeFile tools peer listing offer name inbox).1 ≠ file := by
  intro same
  rcases @placeFile_cases tools peer listing offer name inbox with
    ⟨_, found, _⟩ | ⟨_, unique, _⟩
  · obtain ⟨⟨part, unfinished, _⟩, _⟩ := findResumable_found found
    rw [same, finished] at unfinished
    cases unfinished
  · have free := (uniquePath_free (placeFile tools peer listing offer name inbox).2.2 name).1
    rw [← unique, same, placeFile_frame apart] at free
    exact there free

/-- The names that files go to are of the kind of those that are tried. -/
theorem placeFile_kind {kind : String → Prop} (orderly : Orderly kind inbox)
    (numbered : ∀ n, kind (numberedName name n)) :
    kind (placeFile tools peer listing offer name inbox).1 := by
  rcases @placeFile_cases tools peer listing offer name inbox with
    ⟨_, found, _⟩ | ⟨_, unique, _⟩
  · obtain ⟨⟨part, unfinished, _⟩, _⟩ := findResumable_found found
    apply orderly
    rw [unfinished]
    exact Option.some_ne_none _
  · obtain ⟨_, _, n, chosen⟩ :=
      uniquePath_free (placeFile tools peer listing offer name inbox).2.2 name
    rw [unique, chosen]
    exact numbered n

end

/-! ### The content -/

/-- No more is read than is missing, and all of it when the reads are complete. -/
theorem receiveLoop_length (chunks : List (List UInt8)) (remaining : Nat) :
    (receiveLoop remaining chunks).1.length ≤ remaining ∧
      ((receiveLoop remaining chunks).2 = true →
        (receiveLoop remaining chunks).1.length = remaining) := by
  induction chunks generalizing remaining with
  | nil => cases remaining <;> simp [receiveLoop]
  | cons chunk rest ih =>
      cases remaining with
      | zero => simp [receiveLoop]
      | succ remaining =>
          rw [receiveLoop]
          by_cases closed : chunk.take (remaining + 1) = []
          · simp [closed]
          · have short : (chunk.take (remaining + 1)).length ≤ remaining + 1 := by
              rw [List.length_take]
              exact Nat.min_le_left _ _
            have later := ih (remaining + 1 - (chunk.take (remaining + 1)).length)
            simp only [closed, if_false, List.length_append]
            constructor
            · omega
            · intro complete
              have rest := later.2 complete
              omega

section

variable {info : FileMeta} {id final : String} {offset : Nat} {incoming : Incoming}

/-- The content as far as it has arrived. -/
def arrived (existing : List UInt8) (size offset : Nat) (incoming : Incoming) : List UInt8 :=
  existing ++ (receiveLoop (size - offset) incoming.chunks).1

/-- The inbox when a file is done. -/
def finished (tools : TransferTools) (info : FileMeta) (final : String) (content : List UInt8)
    (inbox : Inbox) : Inbox :=
  ((((inbox.insert (partName final) content).insert (metaName final)
    (tools.printMeta info)).erase (partName final)).insert final content).erase (resumeName final)

/-- Why a file is not done. -/
inductive Broken (tools : TransferTools) (info : FileMeta) (id : String) (offset : Nat)
    (incoming : Incoming) (content : List UInt8) : String → Prop where
  | short (incomplete : (receiveLoop (info.size - offset) incoming.chunks).2 = false) :
      Broken tools info id offset incoming content (incoming.stall.message
        (offset + (receiveLoop (info.size - offset) incoming.chunks).1.length) info.size)
  | unannounced {message : String} (other : announcedHash id incoming.frame = .error message) :
      Broken tools info id offset incoming content message
  | damaged {digest : String}
      (complete : (receiveLoop (info.size - offset) incoming.chunks).2 = true)
      (announced : announcedHash id incoming.frame = .ok digest)
      (differs : eqIgnoreAsciiCase (tools.sha256 content) digest = false) :
      Broken tools info id offset incoming content
        "チェックサムが一致しません(転送が壊れています)"

/-- What the inbox and the sender learn, once the part that goes on is there. -/
theorem receiveBody_cases {existing : List UInt8}
    (opened : (if offset > 0 then inbox.get? (partName final) else some []) = some existing)
    (long : existing.length = offset) :
    (∃ message,
      Broken tools info id offset incoming (arrived existing info.size offset incoming) message ∧
      receiveBody tools info id final offset incoming inbox =
        ⟨[.accept id offset], .error message,
          inbox.insert (partName final) (arrived existing info.size offset incoming)⟩) ∨
    ((receiveLoop (info.size - offset) incoming.chunks).2 = true ∧
      (∃ digest, announcedHash id incoming.frame = .ok digest ∧
        eqIgnoreAsciiCase (tools.sha256 (arrived existing info.size offset incoming)) digest =
          true) ∧
      receiveBody tools info id final offset incoming inbox =
        ⟨[.accept id offset, .done id], .ok (),
          finished tools info final (arrived existing info.size offset incoming) inbox⟩) := by
  rw [receiveBody, opened]
  dsimp only
  rw [if_neg (by rw [long]; exact Nat.lt_irrefl offset)]
  cases complete : (receiveLoop (info.size - offset) incoming.chunks).2 with
  | false =>
      rw [if_pos rfl]
      exact .inl ⟨_, .short complete, rfl⟩
  | true =>
      rw [if_neg (by decide)]
      cases announced : announcedHash id incoming.frame with
      | error message => exact .inl ⟨_, .unannounced announced, rfl⟩
      | ok digest =>
          dsimp only
          cases matches_ : eqIgnoreAsciiCase
              (tools.sha256 (arrived existing info.size offset incoming)) digest with
          | false =>
              refine .inl ⟨_, .damaged complete announced matches_, ?_⟩
              exact if_pos matches_
          | true =>
              refine .inr ⟨rfl, ⟨digest, rfl, matches_⟩, ?_⟩
              refine if_neg ?_
              change ¬ eqIgnoreAsciiCase
                (tools.sha256 (arrived existing info.size offset incoming)) digest = false
              rw [matches_]
              decide

end

/-! ### One transfer -/

/-- The four files that belong to a name. -/
def belongings (final : String) : List String :=
  [final, partName final, metaName final, resumeName final]

section

variable {info : FileMeta} {final file message : String} {content : List UInt8}

theorem insert_part_frame (apart : file ∉ belongings final) :
    (inbox.insert (partName final) content).get? file = inbox.get? file := by
  simp only [belongings, List.mem_cons, List.not_mem_nil, or_false, not_or] at apart
  exact Table.get?_insert_of_ne _ apart.2.1 _

theorem finished_frame (apart : file ∉ belongings final) :
    (finished tools info final content inbox).get? file = inbox.get? file := by
  simp only [belongings, List.mem_cons, List.not_mem_nil, or_false, not_or] at apart
  obtain ⟨name, part, described, resume⟩ := apart
  rw [finished, Table.get?_erase_of_ne _ resume, Table.get?_insert_of_ne _ name,
    Table.get?_erase_of_ne _ part, Table.get?_insert_of_ne _ described,
    Table.get?_insert_of_ne _ part]

theorem keepOrDrop_frame {marker : ResumeMarker} {resume : Bool}
    (apart : file ∉ belongings final) :
    (keepOrDrop tools marker resume final message inbox).get? file = inbox.get? file := by
  simp only [belongings, List.mem_cons, List.not_mem_nil, or_false, not_or] at apart
  obtain ⟨_, part, _, beside⟩ := apart
  unfold keepOrDrop
  split
  · exact Table.get?_insert_of_ne _ beside _
  · rw [Table.get?_erase_of_ne _ beside, Table.get?_erase_of_ne _ part]

end

/-- A transfer from a peer. -/
structure Transfer where
  peer : TransferPeer
  listing : List String
  offer : FileOffer
  incoming : Nat → Incoming

/-- What is written beside the file. -/
def Transfer.info (transfer : Transfer) : FileMeta where
  fromIp := transfer.peer.ip
  fromName := transfer.peer.name
  size := transfer.offer.size
  receivedUnixMs := transfer.peer.nowMs

/-- How a transfer ends, and the name of its file. -/
@[irreducible] def Transfer.carry (tools : TransferTools) (transfer : Transfer) (inbox : Inbox) :
    Reception × Option String :=
  receiveFile tools transfer.peer transfer.listing transfer.offer transfer.incoming inbox

/-- Where a transfer goes whose file is called so. -/
def Transfer.place (tools : TransferTools) (transfer : Transfer) (name : String) (inbox : Inbox) :
    String × Nat × Inbox :=
  placeFile tools transfer.peer transfer.listing transfer.offer name inbox

/-- All of a file that has arrived when a transfer ends, some of it before. -/
def Transfer.arrived (transfer : Transfer) (existing : List UInt8) (offset : Nat) : List UInt8 :=
  FileTransfer.arrived existing transfer.offer.size offset (transfer.incoming offset)

/-- How a transfer ends that has an acceptable name. -/
structure Transfer.Ends (tools : TransferTools) (transfer : Transfer) (name : String)
    (place : String × Nat × Inbox) (existing : List UInt8) : Prop where
  opened : (if place.2.1 > 0 then place.2.2.get? (partName place.1) else some []) = some existing
  long : existing.length = place.2.1

section

variable {transfer : Transfer} {name : String} {place : String × Nat × Inbox}

theorem carry_rejected (refused : FileNames.sanitizeFileName transfer.offer.name = none) :
    (transfer.carry tools inbox).1.inbox = inbox ∧ (transfer.carry tools inbox).2 = none ∧
      ∀ id, FileReply.done id ∉ (transfer.carry tools inbox).1.replies := by
  unfold Transfer.carry receiveFile
  generalize FileNames.sanitizeFileName transfer.offer.name = given at refused ⊢
  rw [refused]
  exact ⟨rfl, rfl, by simp⟩

/-- A transfer with an acceptable name is broken off, or its file is done. -/
theorem carry_placed (named : FileNames.sanitizeFileName transfer.offer.name = some name)
    (placed : transfer.place tools name inbox = place) :
    ∃ existing, transfer.Ends tools name place existing ∧
      ((∃ message,
        Broken tools transfer.info transfer.offer.id place.2.1 (transfer.incoming place.2.1)
          (transfer.arrived existing place.2.1) message ∧
        transfer.carry tools inbox =
          (⟨[.accept transfer.offer.id place.2.1], .error message,
            keepOrDrop tools (transfer.offer.marker transfer.peer name) transfer.offer.resume
              place.1 message
              (place.2.2.insert (partName place.1) (transfer.arrived existing place.2.1))⟩,
            some place.1)) ∨
      ((receiveLoop (transfer.offer.size - place.2.1) (transfer.incoming place.2.1).chunks).2 =
          true ∧
        (∃ digest, announcedHash transfer.offer.id (transfer.incoming place.2.1).frame =
            .ok digest ∧
          eqIgnoreAsciiCase (tools.sha256 (transfer.arrived existing place.2.1)) digest = true) ∧
        transfer.carry tools inbox =
          (⟨[.accept transfer.offer.id place.2.1, .done transfer.offer.id], .ok (),
            finished tools transfer.info place.1 (transfer.arrived existing place.2.1) place.2.2⟩,
            some place.1))) := by
  subst placed
  obtain ⟨existing, opened, long⟩ :=
    @placeFile_opened tools inbox transfer.peer transfer.listing transfer.offer name
  refine ⟨existing, ⟨opened, long⟩, ?_⟩
  have received := @receiveBody_cases tools (transfer.place tools name inbox).2.2 transfer.info
    transfer.offer.id (transfer.place tools name inbox).1 (transfer.place tools name inbox).2.1
    (transfer.incoming (transfer.place tools name inbox).2.1) existing opened long
  unfold Transfer.carry receiveFile
  generalize FileNames.sanitizeFileName transfer.offer.name = given at named ⊢
  rw [named]
  dsimp only
  rcases received with ⟨message, broken, ends⟩ | ⟨complete, digest, ends⟩
  · refine .inl ⟨message, broken, ?_⟩
    have result := congrArg Reception.result ends
    simp only [Transfer.place, Transfer.info] at ends result
    simp only [ends]
    rfl
  · refine .inr ⟨complete, digest, ?_⟩
    simp only [Transfer.place, Transfer.info] at ends
    simp only [ends]
    rfl

/-- Files of other names stay as the search has left them. -/
theorem carry_frame {file : String}
    (named : FileNames.sanitizeFileName transfer.offer.name = some name)
    (apart : file ∉ belongings (transfer.place tools name inbox).1) :
    (transfer.carry tools inbox).1.inbox.get? file =
      (transfer.place tools name inbox).2.2.get? file := by
  obtain ⟨existing, _, ⟨message, _, ends⟩ | ⟨_, _, ends⟩⟩ := carry_placed named rfl
  · rw [ends]
    exact (keepOrDrop_frame apart).trans (insert_part_frame apart)
  · rw [ends]
    exact finished_frame apart

theorem carry_name (named : FileNames.sanitizeFileName transfer.offer.name = some name) :
    (transfer.carry tools inbox).2 = some (transfer.place tools name inbox).1 := by
  obtain ⟨existing, _, ⟨message, _, ends⟩ | ⟨_, _, ends⟩⟩ := carry_placed named rfl
  · rw [ends]
  · rw [ends]

end

/-! ### What is done stays -/

section

variable {kind : String → Prop}

/-- A part belongs to the name that a transfer has chosen, or it was there. -/
theorem carry_orderly (storable : ∀ name, kind name → Storable name) (orderly : Orderly kind inbox)
    (transfer : Transfer)
    (numbered : ∀ name, FileNames.sanitizeFileName transfer.offer.name = some name →
      ∀ n, kind (numberedName name n)) :
    Orderly kind (transfer.carry tools inbox).1.inbox := by
  intro part there
  cases named : FileNames.sanitizeFileName transfer.offer.name with
  | none =>
      rw [(carry_rejected named).1] at there
      exact orderly part there
  | some name =>
      have chosen : kind (transfer.place tools name inbox).1 :=
        placeFile_kind orderly (numbered name named)
      by_cases own : part = (transfer.place tools name inbox).1
      · rw [own]
        exact chosen
      · have apart : partName part ∉ belongings (transfer.place tools name inbox).1 := by
          simp only [belongings, List.mem_cons, List.not_mem_nil, or_false, not_or]
          refine ⟨fun same => ?_, fun same => own (partName_injective same),
            partName_ne_metaName _ _, partName_ne_resumeName _ _⟩
          exact (storable _ chosen).part part same.symm
        rw [carry_frame named apart] at there
        exact orderly part (placeFile_frame (partName_ne_resumeName part) ▸ there)

/-- All of a file is there under its name, and nothing of it waits to go on. -/
structure Stored (inbox : Inbox) (final : String) (content : List UInt8) : Prop where
  there : inbox.get? final = some content
  finished : inbox.get? (partName final) = none

theorem Stored.ne {final : String} {content : List UInt8} (stored : Stored inbox final content)
    (apart : ∀ base, final ≠ resumeName base) (transfer : Transfer) (name : String) :
    (transfer.place tools name inbox).1 ≠ final := by
  refine placeFile_ne ?_ stored.finished apart
  rw [stored.there]
  exact Option.some_ne_none _

/-- No transfer touches a file that is done, whatever its peer sends. -/
theorem Stored.carry {final : String} {content : List UInt8} (stored : Stored inbox final content)
    (orderly : Orderly Storable inbox) (plain : PlainFile final) (transfer : Transfer) :
    Stored (transfer.carry tools inbox).1.inbox final content ∧
      (transfer.carry tools inbox).2 ≠ some final := by
  cases named : FileNames.sanitizeFileName transfer.offer.name with
  | none =>
      rw [(carry_rejected named).1, (carry_rejected named).2.1]
      exact ⟨stored, fun impossible => by cases impossible⟩
  | some name =>
      have other := @Stored.ne tools inbox final content stored plain.resume transfer name
      have chosen : Storable (transfer.place tools name inbox).1 :=
        placeFile_kind orderly (sanitized_storable named).numbered
      have own : final ∉ belongings (transfer.place tools name inbox).1 := by
        simp only [belongings, List.mem_cons, List.not_mem_nil, or_false, not_or]
        exact ⟨other.symm, plain.part _, plain.described _, plain.resume _⟩
      have unfinished : partName final ∉ belongings (transfer.place tools name inbox).1 := by
        simp only [belongings, List.mem_cons, List.not_mem_nil, or_false, not_or]
        exact ⟨fun same => chosen.part final same.symm,
          fun same => other.symm (partName_injective same), partName_ne_metaName _ _,
          partName_ne_resumeName _ _⟩
      refine ⟨⟨?_, ?_⟩, ?_⟩
      · rw [carry_frame named own]
        exact (placeFile_frame plain.resume).trans stored.there
      · rw [carry_frame named unfinished]
        exact (placeFile_frame (partName_ne_resumeName final)).trans stored.finished
      · rw [carry_name named]
        exact fun same => other (Option.some.inj same)

/-- The inbox after some transfers. -/
def carryAll (tools : TransferTools) : List Transfer → Inbox → Inbox
  | [], inbox => inbox
  | transfer :: rest, inbox => carryAll tools rest (transfer.carry tools inbox).1.inbox

theorem Stored.carryAll {final : String} {content : List UInt8} (plain : PlainFile final)
    (transfers : List Transfer) (orderly : Orderly Storable inbox)
    (stored : Stored inbox final content) :
    Orderly Storable (carryAll tools transfers inbox) ∧
      Stored (FileTransfer.carryAll tools transfers inbox) final content := by
  induction transfers generalizing inbox with
  | nil => exact ⟨orderly, stored⟩
  | cons transfer rest ih =>
      have orderly' := @carry_orderly tools inbox Storable (fun _ storable => storable) orderly
        transfer (fun _ named => (sanitized_storable named).numbered)
      rw [FileTransfer.carryAll]
      exact ih orderly' (stored.carry orderly plain transfer).1

/-- What the inbox has once a file is done. -/
theorem finished_stored {info : FileMeta} {final : String} {content : List UInt8}
    (plain : PlainFile final) : Stored (finished tools info final content inbox) final content := by
  constructor
  · rw [finished, Table.get?_erase_of_ne _ (plain.resume _), Table.get?_insert_self]
  · rw [finished, Table.get?_erase_of_ne _ (partName_ne_resumeName _ _),
      Table.get?_insert_of_ne _ (fun same => plain.part final same.symm), Table.get?_erase_self]

end

end

/-- A file is done with the announced length and digest only, and keeps its name and its content:
nothing that any peer sends afterwards changes it or is saved in its place. -/
theorem received_stays (tools : TransferTools) (inbox : Inbox) (orderly : Orderly Storable inbox)
    (transfer : Transfer) {final : String}
    (done : .done transfer.offer.id ∈ (transfer.carry tools inbox).1.replies)
    (saved : (transfer.carry tools inbox).2 = some final)
    (apart : ∀ base, final ≠ resumeName base) (later : List Transfer) :
    ∃ content offset digest,
      (carryAll tools later (transfer.carry tools inbox).1.inbox).get? final = some content ∧
      content.length = transfer.offer.size ∧
      .accept transfer.offer.id offset ∈ (transfer.carry tools inbox).1.replies ∧
      announcedHash transfer.offer.id (transfer.incoming offset).frame = .ok digest ∧
      eqIgnoreAsciiCase (tools.sha256 content) digest = true ∧
      ∀ next : Transfer,
        (next.carry tools (carryAll tools later (transfer.carry tools inbox).1.inbox)).2 ≠
          some final := by
  cases named : FileNames.sanitizeFileName transfer.offer.name with
  | none => exact absurd done ((carry_rejected named).2.2 _)
  | some name =>
      have storable := (sanitized_storable named).numbered
      have ended := @carry_placed tools inbox transfer name (transfer.place tools name inbox) named
        rfl
      have chosen : Storable (transfer.place tools name inbox).1 := placeFile_kind orderly storable
      have whole := @placeFile_offset tools inbox transfer.peer transfer.listing transfer.offer name
      rw [carry_name named] at saved
      have same := Option.some.inj saved
      obtain ⟨existing, opens, ⟨message, _, ends⟩ | ⟨complete, ⟨digest, announced, matches_⟩, ends⟩⟩
        := ended
      · rw [ends] at done
        simp at done
      · have plain : PlainFile final := ⟨same ▸ chosen, apart⟩
        have after := @carry_orderly tools inbox Storable (fun _ storable => storable) orderly
          transfer (fun _ named => (sanitized_storable named).numbered)
        have stored : Stored (transfer.carry tools inbox).1.inbox final
            (transfer.arrived existing (transfer.place tools name inbox).2.1) := by
          rw [ends, same]
          exact finished_stored plain
        obtain ⟨orderly', kept⟩ := stored.carryAll plain later after
        refine ⟨_, _, digest, kept.there, ?_, ?_, announced, matches_, ?_⟩
        · have read := (receiveLoop_length _ _).2 complete
          rw [Transfer.arrived, arrived, List.length_append, read, opens.long]
          exact Nat.add_sub_cancel' whole
        · rw [ends]
          exact List.mem_cons_self
        · intro next
          exact (kept.carry orderly' plain next).2

def abcTools : TransferTools where
  printMarker _ := []
  readMarker _ := none
  printMeta _ := []
  sha256 content :=
    if content = [97, 98, 99] then
      "ba7816bf8f01cfea414140de5dae2223b00361a396177a9cb410ff61f20015ad"
    else ""

/-- Three bytes in two reads. -/
def abcTransfer : Transfer where
  peer := ⟨.ofOctets 10 0 0 2, "laptop", 1000⟩
  listing := []
  offer := ⟨"f1", "a", 3, false⟩
  incoming _ := ⟨[[97, 98], [99, 100]], .closed,
    .frame (some ("f1", "BA7816BF8F01CFEA414140DE5DAE2223B00361A396177A9CB410FF61F20015AD")) ""⟩

theorem orderly_empty (kind : String → Prop) : Orderly kind Table.empty :=
  fun _ there => absurd (Table.get?_empty _) there

theorem received_stays_small :
    ∃ content offset digest,
      (carryAll abcTools [abcTransfer]
        (abcTransfer.carry abcTools Table.empty).1.inbox).get? "a" = some content ∧
      content.length = 3 ∧
      .accept "f1" offset ∈ (abcTransfer.carry abcTools Table.empty).1.replies ∧
      announcedHash "f1" (abcTransfer.incoming offset).frame = .ok digest ∧
      eqIgnoreAsciiCase (abcTools.sha256 content) digest = true ∧
      ∀ next : Transfer, (next.carry abcTools (carryAll abcTools [abcTransfer]
        (abcTransfer.carry abcTools Table.empty).1.inbox)).2 ≠ some "a" := by
  refine received_stays abcTools Table.empty (orderly_empty _) abcTransfer (by decide +kernel)
    (by decide +kernel) (fun base same => ?_) [abcTransfer]
  have last := resumeName_last base
  rw [← same] at last
  exact absurd last (by decide)

end PeerCove.FileTransfer
