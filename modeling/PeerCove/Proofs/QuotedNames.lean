/-
Module: PeerCove.Proofs.QuotedNames
Layer: Proofs
Purpose: Names in the block that `append_peer` writes: which of them TOML reads back, and what the
  names of peers mean to the checks of a configuration.
Trusted boundary: none
Main exports: readQuoted_iff, validate_unnamed, appendPeer_named_iff
-/
import PeerCove.Ops.PeerBlock
import PeerCove.Proofs.InviteAtomicity

namespace PeerCove

open Fallible

variable {escaped : Char → Bool}

/-! ### Quoted texts -/

theorem readQuoted_iff {text value : String} : readQuoted escaped text = some value ↔
    (∀ c ∈ text.toList, BasicString.Readable escaped c) ∧ value = text := by
  have read := BasicString.read_debugText escaped text.toList []
  rw [List.append_nil] at read
  unfold readQuoted
  constructor
  · intro reads
    split at reads
    · rename_i chars found
      obtain ⟨all, same⟩ := (read _).mp found
      obtain ⟨rfl, _⟩ := Prod.mk.inj same
      exact ⟨all, (Option.some.inj reads).symm.trans String.ofList_toList⟩
    · cases reads
  · rintro ⟨all, rfl⟩
    rw [(read _).mpr ⟨all, rfl⟩]
    exact congrArg some String.ofList_toList

/-- What the operations take for readable is what is read, where control characters are written by
their number. -/
theorem tomlReads_iff (controls : ∀ c : Char, (c.toNat < 0x20 ∨ c.toNat = 0x7f) →
      escaped c = true ∨ c = '\t' ∨ c = '\n' ∨ c = '\r' ∨ c.toNat = 0) (text : String) :
    tomlReads escaped text = true ↔ readQuoted escaped text = some text := by
  have each : ∀ c, (!escaped c && decide (c.toNat ≠ 0)) = true ↔
      BasicString.Readable escaped c := by
    intro c
    unfold BasicString.Readable
    rw [Bool.and_eq_true_iff, Bool.not_eq_true', decide_eq_true_eq]
    constructor
    · rintro ⟨written, some_⟩
      refine ⟨written, some_, ?_⟩
      by_cases control : c.toNat < 0x20 ∨ c.toNat = 0x7f
      · rcases controls c control with number | tab | line | carriage | nul
        · cases written.symm.trans number
        · exact .inl (by rw [tab]; rfl)
        · exact .inr (.inl line)
        · exact .inr (.inr (.inl carriage))
        · exact absurd nul some_
      · obtain ⟨high, noDelete⟩ := not_or.mp control
        by_cases quote : c = '"'
        · exact .inr (.inr (.inr (.inl quote)))
        · by_cases backslash : c = '\\'
          · exact .inr (.inr (.inr (.inr backslash)))
          · left
            simp [BasicString.isPlain, Nat.not_lt.mp high, quote, backslash, noDelete]
    · rintro ⟨written, some_, _⟩
      exact ⟨written, some_⟩
  rw [readQuoted_iff]
  unfold tomlReads
  rw [List.all_eq_true]
  constructor
  · exact fun all => ⟨fun c listed => (each c).mp (all c listed), rfl⟩
  · exact fun reads c listed => (each c).mpr (reads.1 c listed)

/-- A name that is accepted has characters that stand for themselves. -/
theorem plain_of_named {name : String} (named : validateName name = .ok ()) :
    ∀ c ∈ name.toList, c.toNat ≠ 0 ∧ BasicString.isPlain c = true := by
  unfold validateName at named
  simp only [bind_ok, refuseIf_ok] at named
  obtain ⟨_, _, fine⟩ := named
  intro c listed
  have other : ¬ (Text.isControl c || c = '"' || c = '\\') = true := by
    intro bad
    exact fine (List.any_eq_true.mpr ⟨c, listed, bad⟩)
  unfold Text.isControl at other
  simp only [Bool.or_eq_true, decide_eq_true_eq, Bool.and_eq_true, not_or, not_and,
    Nat.not_le] at other
  obtain ⟨⟨⟨low, high⟩, quote⟩, backslash⟩ := other
  have noDelete : c.toNat ≠ 0x7f := by
    intro same
    have above := high (Nat.le_of_eq same.symm)
    omega
  have printing : 0x20 ≤ c.toNat := low
  refine ⟨Nat.ne_of_gt (Nat.lt_of_lt_of_le (by decide) printing), ?_⟩
  simp [BasicString.isPlain, printing, quote, backslash, noDelete]

/-- A name that is accepted is read back when none of its characters is written by its number. -/
theorem readQuoted_name {name : String} (named : validateName name = .ok ()) :
    readQuoted escaped name = some name ↔ ∀ c ∈ name.toList, escaped c = false := by
  rw [readQuoted_iff]
  constructor
  · exact fun reads c listed => (reads.1 c listed).1
  · intro all
    refine ⟨fun c listed => ?_, rfl⟩
    obtain ⟨some_, plain⟩ := plain_of_named named c listed
    exact ⟨all c listed, some_, .inl plain⟩

/-! ### Names mean nothing to the checks -/

def PeerConfig.unnamed (peer : PeerConfig) : PeerConfig :=
  { peer with name := none }

def Config.unnamed (config : Config) : Config :=
  { config with peers := config.peers.map PeerConfig.unnamed }

section Unnamed

variable {config : Config}

theorem find_unnamed (p : PeerConfig → Bool) (blind : ∀ peer, p peer.unnamed = p peer) :
    config.unnamed.peers.find? p = (config.peers.find? p).map PeerConfig.unnamed := by
  unfold Config.unnamed
  rw [List.find?_map]
  congr 2
  exact funext blind

theorem memberExists_unnamed : config.unnamed.memberExists = config.memberExists := by
  funext reference
  cases reference with
  | host => rfl
  | key key =>
      unfold Config.memberExists Config.unnamed
      dsimp only
      rw [List.any_map]
      rfl

theorem advertisedSubnets_unnamed :
    config.unnamed.advertisedSubnets = config.advertisedSubnets := by
  funext reference
  cases reference with
  | host => rfl
  | key key =>
      unfold Config.advertisedSubnets
      dsimp only
      rw [find_unnamed _ (fun _ => rfl)]
      cases config.peers.find? (fun peer => peer.publicKey = key) with
      | none => rfl
      | some peer => rfl

theorem checkRecords_unnamed (seen : List (String × Option MemberRef)) (ids : List String)
    (records : List DnsRecordConfig) :
    checkRecords config.unnamed seen ids records = .ok () ↔
      checkRecords config seen ids records = .ok () := by
  induction records generalizing seen ids with
  | nil => exact Iff.rfl
  | cons record rest ih =>
      have members : checkRecordMembers config.unnamed record = checkRecordMembers config record := by
        unfold checkRecordMembers
        rw [memberExists_unnamed, advertisedSubnets_unnamed]
      rw [checkRecords_cons, checkRecords_cons, members, ih]

theorem peerNetworks_unnamed : peerNetworks config.unnamed = peerNetworks config := by
  funext key
  unfold peerNetworks
  rw [find_unnamed _ (fun _ => rfl), Option.map_map]
  rfl

theorem sideNetworks_unnamed : sideNetworks config.unnamed = sideNetworks config := by
  funext ip
  unfold sideNetworks
  rw [find_unnamed _ (fun _ => rfl)]
  cases config.peers.find? (fun peer => peer.allowedIps.any (fun net => net.contains ip)) with
  | none => rfl
  | some peer => rfl

theorem compile_unnamed : AclPolicy.compile config.unnamed = AclPolicy.compile config := by
  have services : resolveService config.unnamed = resolveService config := by
    funext service
    unfold resolveService
    rw [peerNetworks_unnamed]
    rfl
  have groups : groupNetworks config.unnamed = groupNetworks config := by
    funext members
    unfold groupNetworks
    rw [peerNetworks_unnamed]
  have targets : resolveTarget config.unnamed = resolveTarget config := by
    funext target destination
    unfold resolveTarget
    rw [peerNetworks_unnamed, services, groups]
    rfl
  have rules : compileRule config.unnamed = compileRule config := by
    funext rule
    unfold compileRule
    rw [targets]
  have legacy : legacyRules config.unnamed = legacyRules config := by
    unfold legacyRules
    have one : legacyRule config.unnamed = legacyRule config := by
      funext index source destination
      unfold legacyRule
      rw [sideNetworks_unnamed]
    rw [one]
    rfl
  unfold AclPolicy.compile
  rw [rules, legacy]
  rfl

theorem subnetEntries_unnamed : config.unnamed.subnetEntries = config.subnetEntries := by
  unfold Config.subnetEntries Config.unnamed
  rw [List.zipIdx_map, List.flatMap_map]
  rfl

theorem validate_unnamed : config.unnamed.validate = .ok () ↔ config.validate = .ok () := by
  have peers : config.unnamed.peers.zipIdx.forM (fun entry => checkPeer entry.2 entry.1) = .ok () ↔
      config.peers.zipIdx.forM (fun entry => checkPeer entry.2 entry.1) = .ok () := by
    rw [forM_ok, forM_ok]
    unfold Config.unnamed
    rw [List.zipIdx_map]
    constructor
    · intro each entry listed
      exact each (Prod.map PeerConfig.unnamed id entry) (List.mem_map_of_mem listed)
    · intro each entry listed
      obtain ⟨source, there, rfl⟩ := List.mem_map.mp listed
      exact each source there
  have keys : checkKeys config.unnamed = checkKeys config := by
    unfold checkKeys Config.keyValues Config.unnamed
    dsimp only
    rw [List.map_map, List.length_map]
    rfl
  have policy : checkPolicy config.unnamed = checkPolicy config := by
    unfold checkPolicy
    rw [compile_unnamed]
  rw [Config.validate_ok, Config.validate_ok, peers, subnetEntries_unnamed, keys, policy,
    checkRecords_unnamed]
  exact Iff.rfl

end Unnamed

/-! ### Appending a peer -/

section Append

variable {config : Config} {peer : NewPeer} {written : Config}

/-- A name makes no difference to the checks of the configuration. -/
theorem validate_named (peer : NewPeer) (name : Option String) :
    (config.withPeer { peer with name := name }).validate = .ok () ↔
      (config.withPeer peer).validate = .ok () := by
  have same : (config.withPeer { peer with name := name }).unnamed =
      (config.withPeer peer).unnamed := by
    unfold Config.withPeer Config.unnamed
    dsimp only
    rw [List.map_append, List.map_append]
    rfl
  rw [← validate_unnamed, same, validate_unnamed]

theorem readField_some {field value : Option String} (reads : readField escaped field = some value) :
    value = field := by
  cases field with
  | none => exact (Option.some.inj reads).symm
  | some text =>
      obtain ⟨found, read, rfl⟩ := Option.map_eq_some_iff.mp reads
      exact congrArg some (readQuoted_iff.mp read).2

/-- What is read back from the block is the peer it was made for. -/
theorem readBack_some {entry : PeerConfig} : peer.readBack escaped config = some entry ↔
    readField escaped peer.name = some peer.name ∧
      readField escaped peer.dnsName = some peer.dnsName ∧
      readField escaped peer.inviteId = some peer.inviteId ∧
      readField escaped peer.invitedById = some peer.invitedById ∧
      readField escaped peer.invitedByName = some peer.invitedByName ∧
      peer.entry config = entry := by
  unfold NewPeer.readBack
  simp only [Option.bind_eq_bind, Option.bind_eq_some_iff, Option.pure_def, Option.some.injEq]
  constructor
  · rintro ⟨name, first, dnsName, second, inviteId, third, byId, fourth, byName, fifth, rfl⟩
    obtain rfl := readField_some first
    obtain rfl := readField_some second
    obtain rfl := readField_some third
    obtain rfl := readField_some fourth
    obtain rfl := readField_some fifth
    exact ⟨first, second, third, fourth, fifth, rfl⟩
  · rintro ⟨first, second, third, fourth, fifth, rfl⟩
    exact ⟨_, first, _, second, _, third, _, fourth, _, fifth, rfl⟩

/-- An appended peer has passed the checks, and its texts are read back. -/
theorem appendPeerText_ok : appendPeerText escaped peer config = .ok written ↔
    checkNewPeer peer config = .ok () ∧ peer.readBack escaped config = some (peer.entry config) ∧
      (config.withPeer peer).validate = .ok () ∧ written = config.withPeer peer := by
  unfold appendPeerText
  rw [bind_ok]
  constructor
  · rintro ⟨_, checked, writes⟩
    cases reads : peer.readBack escaped config with
    | none =>
        rw [reads] at writes
        cases writes
    | some entry =>
        rw [reads] at writes
        obtain ⟨valid, same⟩ := writeValidated_ok.mp writes
        obtain rfl := (readBack_some.mp reads).2.2.2.2.2
        exact ⟨checked, rfl, valid, same.symm⟩
  · rintro ⟨checked, reads, valid, rfl⟩
    refine ⟨(), checked, ?_⟩
    rw [reads]
    exact writeValidated_ok.mpr ⟨valid, rfl⟩

/-- The file of a peer whose texts are readable is the one that the operations make. -/
theorem appendPeerText_eq (controls : ∀ c : Char, (c.toNat < 0x20 ∨ c.toNat = 0x7f) →
      escaped c = true ∨ c = '\t' ∨ c = '\n' ∨ c = '\r' ∨ c.toNat = 0) :
    appendPeerText escaped peer config = .ok written ↔
      appendPeer escaped peer config = .ok written := by
  have field : ∀ field : Option String, readField escaped field = some field ↔
      ∀ text ∈ field, tomlReads escaped text = true := by
    intro field
    cases field with
    | none => exact iff_of_true rfl (fun _ listed => by cases listed)
    | some text =>
        have reads := tomlReads_iff controls text
        constructor
        · intro back other listed
          obtain rfl := Option.some.inj listed
          obtain ⟨found, read, same⟩ := Option.map_eq_some_iff.mp back
          exact reads.mpr (read.trans same)
        · intro each
          exact congrArg (Option.map some) (reads.mp (each text rfl))
  have quoted : (∀ text ∈ peer.quoted, tomlReads escaped text = true) ↔
      peer.readBack escaped config = some (peer.entry config) := by
    rw [readBack_some, field, field, field, field, field]
    unfold NewPeer.quoted
    simp only [List.mem_filterMap, List.mem_cons, List.not_mem_nil, or_false, id,
      exists_eq_right]
    constructor
    · intro each
      exact ⟨fun text there => each text (.inl there.symm),
        fun text there => each text (.inr (.inl there.symm)),
        fun text there => each text (.inr (.inr (.inl there.symm))),
        fun text there => each text (.inr (.inr (.inr (.inl there.symm)))),
        fun text there => each text (.inr (.inr (.inr (.inr there.symm)))), trivial⟩
    · rintro ⟨first, second, third, fourth, fifth, _⟩ text (there | there | there | there | there)
      · exact first text there.symm
      · exact second text there.symm
      · exact third text there.symm
      · exact fourth text there.symm
      · exact fifth text there.symm
  rw [appendPeerText_ok, ← quoted]
  unfold appendPeer checkNewPeer
  simp only [bind_ok, refuseIf_ok, writeValidated_ok]
  constructor
  · rintro ⟨⟨_, valid, _, inside, _, notHost, _, newKey, unused⟩, readable, accepted, rfl⟩
    exact ⟨(), valid, (), inside, (), notHost, (), newKey, (), unused, (),
      not_not.mpr (List.all_eq_true.mpr readable), accepted, rfl⟩
  · rintro ⟨_, valid, _, inside, _, notHost, _, newKey, _, unused, _, readable, accepted, rfl⟩
    exact ⟨⟨(), valid, (), inside, (), notHost, (), newKey, unused⟩,
      List.all_eq_true.mp (not_not.mp readable), accepted, rfl⟩

/-- A peer that is accepted without its name is accepted with it, and read back with it beside all
that was there, exactly when no character of the name is written by its number. -/
theorem appendPeer_named_iff {name : String} (named : validateName name = .ok ())
    (otherwise : ∃ written, appendPeerText escaped { peer with name := none } config = .ok written) :
    (∃ written added, appendPeerText escaped { peer with name := some name } config = .ok written ∧
        written.validate = .ok () ∧ written = { config with peers := config.peers ++ [added] } ∧
        added.name = some name) ↔
      ∀ c ∈ name.toList, escaped c = false := by
  obtain ⟨before, accepted⟩ := otherwise
  obtain ⟨checked, reads, valid, _⟩ := appendPeerText_ok.mp accepted
  obtain ⟨_, dnsName, inviteId, byId, byName, _⟩ := readBack_some.mp reads
  constructor
  · rintro ⟨written, added, appended, _⟩
    have back := (appendPeerText_ok.mp appended).2.1
    obtain ⟨found, read, same⟩ := Option.map_eq_some_iff.mp (readBack_some.mp back).1
    exact (readQuoted_name named).mp (read.trans same)
  · intro fine
    have read : readField escaped (some name) = some (some name) :=
      congrArg (Option.map some) ((readQuoted_name named).mpr fine)
    have accepts : (config.withPeer { peer with name := some name }).validate = .ok () :=
      (validate_named peer (some name)).mpr ((validate_named peer none).mp valid)
    refine ⟨_, ({ peer with name := some name } : NewPeer).entry config,
      appendPeerText_ok.mpr ⟨checked, ?_, accepts, rfl⟩, accepts, rfl, rfl⟩
    exact readBack_some.mpr ⟨read, dnsName, inviteId, byId, byName, rfl⟩

end Append

/-- The accent that is put on the letter before it. -/
def combiningAcute (c : Char) : Bool :=
  c = Char.ofNat 0x301

def homePeer : NewPeer where
  publicKey := ⟨9⟩
  ip := 0x0A630002#32

theorem homePeer_accepted :
    ∃ written, appendPeerText combiningAcute { homePeer with name := none } homeConfig =
      .ok written := by
  have succeeds : (appendPeerText combiningAcute { homePeer with name := none }
      homeConfig).toOption.isSome = true := by decide
  cases outcome : appendPeerText combiningAcute { homePeer with name := none } homeConfig with
  | error error =>
      rw [outcome] at succeeds
      cases succeeds
  | ok written => exact ⟨written, rfl⟩

/-- With the accent in the letter, the name is read back. -/
theorem appendPeer_named_accent :
    ∃ written added, appendPeerText combiningAcute { homePeer with name := some "Andr\u00e9" }
        homeConfig = .ok written ∧ written.validate = .ok () ∧
      written = { homeConfig with peers := homeConfig.peers ++ [added] } ∧
      added.name = some "Andr\u00e9" := by
  refine (appendPeer_named_iff (by decide) homePeer_accepted).mpr ?_
  have none_ : "Andr\u00e9".toList.any combiningAcute = false := by decide
  exact fun c listed => Bool.eq_false_iff.mpr (List.any_eq_false.mp none_ c listed)

/-- With the accent after the letter, the name is accepted, but the file is not. -/
theorem appendPeer_combining :
    ¬ ∀ (name : String) (peer : NewPeer) (config : Config), validateName name = .ok () →
      (∃ written, appendPeerText combiningAcute { peer with name := none } config = .ok written) →
      ∃ written added, appendPeerText combiningAcute { peer with name := some name } config =
          .ok written ∧ written.validate = .ok () ∧
        written = { config with peers := config.peers ++ [added] } ∧ added.name = some name := by
  intro claimed
  obtain ⟨written, _, appended, _⟩ := claimed "Andre\u0301" homePeer homeConfig (by decide)
    homePeer_accepted
  have refused : (appendPeerText combiningAcute { homePeer with name := some "Andre\u0301" }
      homeConfig).toOption.isSome = false := by decide
  rw [appended] at refused
  cases refused

end PeerCove
