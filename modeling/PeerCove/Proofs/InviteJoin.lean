/-
Module: PeerCove.Proofs.InviteJoin
Layer: Proofs
Purpose: Who joins with the token of an invitation ends with the other half of the tunnel that the
  host has on file, and when joining succeeds at all.
Trusted boundary: the base64 codec, with two properties
Main exports: MemberToml.load_rendered, invite_issued, join_ok, Paired, invitation_joined
-/
import PeerCove.Ops.Join
import PeerCove.Proofs.InviteAtomicity
import PeerCove.Proofs.LinuxAclRefinement
import PeerCove.Proofs.QuotedNames

namespace PeerCove

open Fallible Stateful

/-! ### Texts of the file -/

/-- A character that stands for itself between quotes. -/
def Simple (c : Char) : Prop :=
  0x20 < c.toNat ∧ c.toNat < 0x7f ∧ c ≠ '"' ∧ c ≠ '\\'

theorem debugText_simple {text : List Char} (simple : ∀ c ∈ text, Simple c) :
    BasicString.debugText (fun _ => false) text = '"' :: (text ++ ['"']) := by
  have each : text.flatMap (BasicString.debugChar (fun _ => false)) = text := by
    induction text with
    | nil => rfl
    | cons c rest ih =>
        obtain ⟨low, _, quote, backslash⟩ := simple c List.mem_cons_self
        have tab : c ≠ '\t' := by rintro rfl; exact absurd low (by decide)
        have newline : c ≠ '\n' := by rintro rfl; exact absurd low (by decide)
        have carriage : c ≠ '\r' := by rintro rfl; exact absurd low (by decide)
        have some_ : c.toNat ≠ 0 := Nat.ne_of_gt (Nat.lt_trans (by decide) low)
        rw [List.flatMap_cons,
          ih (fun other member => simple other (List.mem_cons_of_mem _ member))]
        simp [BasicString.debugChar, tab, newline, carriage, some_, quote, backslash]
  rw [BasicString.debugText, each]

theorem readText_raw {text : String} (simple : ∀ c ∈ text.toList, Simple c) :
    readText (rawText text) = some text := by
  have readable : ∀ c ∈ text.toList, BasicString.Readable (fun _ => false) c := by
    intro c member
    obtain ⟨low, high, quote, backslash⟩ := simple c member
    refine ⟨rfl, Nat.ne_of_gt (Nat.lt_trans (by decide) low), .inl ?_⟩
    simp [BasicString.isPlain, Nat.le_of_lt low, quote, backslash, Nat.ne_of_lt high]
  have read := (BasicString.read_debugText (fun _ => false) text.toList []
    (text.toList, [])).mpr ⟨readable, rfl⟩
  rw [List.append_nil, debugText_simple simple] at read
  unfold readText rawText
  rw [read]
  exact congrArg some String.ofList_toList

theorem simple_of_label {label : String} (fine : Names.isDnsLabel label = true) :
    ∀ c ∈ label.toList, Simple c := by
  intro c member
  have mapped := (Names.isDnsLabel_iff.mp fine).mapped c member
  have bounds := Names.labelChar_bounds mapped
  refine ⟨by omega, by omega, ?_, ?_⟩
  · rintro rfl
    exact absurd bounds.1 (by decide)
  · rintro rfl
    exact absurd (Names.labelChar_cases mapped) (by decide)

theorem hexDigit_fine {value : Nat} (small : value < 16) :
    Simple (hexDigit value) ∧ Text.isAsciiHexDigit (hexDigit value) = true := by
  have each : ∀ value < 16, (0x20 < (hexDigit value).toNat ∧ (hexDigit value).toNat < 0x7f ∧
      hexDigit value ≠ '"' ∧ hexDigit value ≠ '\\') ∧
        Text.isAsciiHexDigit (hexDigit value) = true := by decide
  exact each value small

theorem generated_fine (bytes : List UInt8) :
    ∀ c ∈ (encodeInviteId bytes).toList, Simple c ∧ Text.isAsciiHexDigit c = true := by
  unfold encodeInviteId
  rw [String.toList_ofList]
  intro c member
  obtain ⟨byte, _, digit⟩ := List.mem_flatMap.mp member
  have below : byte.toNat < 256 := byte.toNat_lt
  rcases List.mem_cons.mp digit with rfl | digit
  · exact hexDigit_fine (by omega)
  · rw [List.mem_singleton.mp digit]
    exact hexDigit_fine (by omega)

/-- The id that a device draws is one that the configuration accepts. -/
theorem validId_generated {bytes : List UInt8} (length : bytes.length = INVITE_ID_LEN) :
    validId (encodeInviteId bytes) = true := by
  have decoded := decode_encodeInviteId length
  unfold decodeInviteId at decoded
  obtain ⟨_, checked, _⟩ := bind_ok.mp decoded
  have size : Text.len (encodeInviteId bytes) = 32 := by
    by_contra wrong
    exact refuseIf_ok.mp checked (.inl wrong)
  have digits : (encodeInviteId bytes).toList.all Text.isAsciiHexDigit = true :=
    List.all_eq_true.mpr (fun c member => (generated_fine bytes c member).2)
  rw [validId, size, digits]
  rfl

/-! ### The configuration of the member -/

/-- What a member's address must not be. -/
def Usable (address : Ipv4Net) : Prop :=
  address.addr ≠ address.network ∧ address.addr ≠ address.broadcast

instance (address : Ipv4Net) : Decidable (Usable address) := by
  unfold Usable
  infer_instance

/-- The configuration that a token makes. -/
def InviteToken.memberConfig (token : InviteToken) (deviceId : Option String) : MemberConfig where
  config := {
    interface := {
      networkName := some (token.network.getD Names.DEFAULT_NETWORK_NAME)
      displayName := some token.name
      deviceId := deviceId
      address := token.memberAddress }
    peers := [{
      publicKey := token.hostPublicKey
      endpoint := token.endpoints.head?.map (fun endpoint => .v4 endpoint.ip endpoint.port)
      allowedIps := [token.memberAddress.trunc]
      persistentKeepalive := some 25 }] }
  privateKeyFile := "member.key"
  controlHost := token.hostVirtualIp
  endpointFallbacks := token.endpoints.tail
  presharedKeyFile := token.presharedKey.map (fun _ => "member.psk")

theorem simple_fileNames :
    (∀ c ∈ "member.key".toList, Simple c) ∧ ∀ c ∈ "member.psk".toList, Simple c := by
  have checked : ∀ text : String, text.toList.all (fun c => decide (0x20 < c.toNat ∧
      c.toNat < 0x7f ∧ c ≠ '"' ∧ c ≠ '\\')) = true → ∀ c ∈ text.toList, Simple c := by
    intro text all c member
    unfold Simple
    exact of_decide_eq_true (List.all_eq_true.mp all c member)
  exact ⟨checked _ (by decide), checked _ (by decide)⟩

theorem networkLabel {token : InviteToken} (valid : token.Valid) :
    Names.isDnsLabel (token.network.getD Names.DEFAULT_NETWORK_NAME) = true := by
  cases there : token.network with
  | none => exact (by decide : Names.isDnsLabel Names.DEFAULT_NETWORK_NAME = true)
  | some network => exact valid.network network there

theorem read_rendered {escaped : Char → Bool} {token : InviteToken} (valid : token.Valid)
    (named : readQuoted escaped token.name = some token.name) {deviceId : Option String}
    (device : ∀ id ∈ deviceId, ∀ c ∈ id.toList, Simple c) :
    (renderMemberConfig escaped token deviceId).read = some (token.memberConfig deviceId) := by
  have network := readText_raw (simple_of_label (networkLabel valid))
  have name : readText (BasicString.debugText escaped token.name.toList) = some token.name := named
  have id : readOptional (deviceId.map rawText) = some deviceId := by
    cases deviceId with
    | none => rfl
    | some id =>
        rw [Option.map_some, readOptional, readText_raw (device id rfl)]
        rfl
  have psk : readOptional (token.presharedKey.map (fun _ => rawText "member.psk")) =
      some (token.presharedKey.map (fun _ => "member.psk")) := by
    cases token.presharedKey with
    | none => rfl
    | some key =>
        rw [Option.map_some, readOptional, readText_raw simple_fileNames.2]
        rfl
  unfold MemberToml.read renderMemberConfig
  simp only [network, name, id, psk, readText_raw simple_fileNames.1, Option.bind_eq_bind,
    Option.bind_some]
  rfl

theorem checkInterface_ok {interface : InterfaceConfig} :
    checkInterface interface = .ok () ↔
      ¬ interface.address.prefixLen > 30 ∧
      ¬ (interface.address.addr = interface.address.network ∨
        interface.address.addr = interface.address.broadcast) ∧
      ¬ interface.mtu < 576 ∧ ¬ interface.deviceId.any (fun id => !validId id) = true := by
  simp only [checkInterface, bind_ok, refuseIf_ok, exists_const]

/-- Of the checks only the one of the address is left. -/
theorem memberConfig_validate {token : InviteToken} (valid : token.Valid)
    {deviceId : Option String} (device : ∀ id ∈ deviceId, validId id = true) :
    (token.memberConfig deviceId).config.validate = .ok () ↔ Usable token.memberAddress := by
  have short : ¬ token.memberAddress.prefixLen > 30 := Nat.not_lt.mpr valid.address
  have ids : deviceId.any (fun id => !validId id) = false := by
    cases deviceId with
    | none => rfl
    | some id => rw [Option.any_some, device id rfl]; rfl
  have mtu : ¬ (1420 : UInt16) < 576 := by decide
  have interface : checkInterface (token.memberConfig deviceId).config.interface = .ok () ↔
      Usable token.memberAddress := by
    rw [checkInterface_ok]
    constructor
    · exact fun checked => not_or.mp checked.2.1
    · exact fun usable => ⟨short, not_or.mpr usable, mtu, ne_true_of_eq_false ids⟩
  rw [Config.validate_ok, interface]
  constructor
  · exact fun checked => checked.1
  · intro usable
    refine ⟨usable, ?_, rfl, ?_, ?_, rfl, rfl, rfl, rfl, ?_⟩
    · rfl
    · exact checkKeys_ok.mpr (List.nodup_singleton _)
    · refine checkNetworkNames_ok.mpr ⟨fun name same => ?_, fun name none_ => nomatch none_⟩
      rw [← Option.some.inj same]
      exact networkLabel valid
    · exact checkPolicy_ok.mpr ⟨_, rfl⟩

/-- What the written file is read as. -/
theorem load_rendered {escaped : Char → Bool} {token : InviteToken} (valid : token.Valid)
    (named : readQuoted escaped token.name = some token.name) {deviceId : Option String}
    (simple : ∀ id ∈ deviceId, ∀ c ∈ id.toList, Simple c)
    (device : ∀ id ∈ deviceId, validId id = true) {member : MemberConfig} :
    (renderMemberConfig escaped token deviceId).load = .ok member ↔
      Usable token.memberAddress ∧ member = token.memberConfig deviceId := by
  unfold MemberToml.load
  rw [read_rendered valid named simple]
  dsimp only
  rw [bind_ok]
  constructor
  · intro loaded
    obtain ⟨_, checked, made⟩ := loaded
    exact ⟨(memberConfig_validate valid device).mp checked, (pure_ok.mp made).symm⟩
  · intro fine
    exact ⟨(), (memberConfig_validate valid device).mpr fine.1, pure_ok.mpr fine.2.symm⟩

/-! ### What joining does -/

/-- What the machine of the member has to grant. -/
structure JoinIo.Able (io : JoinIo) (force : Bool) (expiresAt : Option UInt64) (psk : Bool)
    (there : MemberFiles) : Prop where
  inTime : ∃ now, io.now = some now ∧ ∀ expires ∈ expiresAt, now < expires
  dir : io.dirCreated = true
  free : force = true ∨ there.key = none ∧ there.toml = none
  key : io.keyWrite = .done
  psk : psk = true → io.pskWrite = .done
  toml : io.tomlWrite = .done

theorem checkExpiry_ok {io : JoinIo} {token : InviteToken} {id : String}
    (invited : token.inviteId = some id) :
    checkExpiry io token = .ok () ↔
      ∃ now, io.now = some now ∧ ∀ expires ∈ token.expiresAt, now < expires := by
  unfold checkExpiry
  rw [invited]
  cases clock : io.now with
  | none => simp
  | some now =>
      dsimp only
      rw [refuseIf_ok, Option.any_eq_true]
      constructor
      · intro later
        refine ⟨now, rfl, fun expires there => ?_⟩
        by_contra late
        exact later ⟨expires, there, decide_eq_true (UInt64.not_lt.mp late)⟩
      · intro later
        obtain ⟨_, same, before⟩ := later
        intro ended
        obtain ⟨expires, there, late⟩ := ended
        rw [← Option.some.inj same] at before
        exact absurd (before expires there) (UInt64.not_lt.mpr (of_decide_eq_true late))

theorem checkFree_ok {outDir : String} {force : Bool} {done : Unit} {files left : MemberFiles} :
    checkFree outDir force files = (.ok done, left) ↔
      (force = true ∨ files.key = none ∧ files.toml = none) ∧ files = left := by
  simp only [checkFree, ok_bind, ok_query, ok_refuse, id_eq]
  constructor
  · intro passed
    obtain ⟨_, _, ⟨rfl, rfl⟩, _, _, ⟨key, rfl⟩, toml, same⟩ := passed
    refine ⟨?_, same⟩
    cases force with
    | true => exact .inl rfl
    | false => exact .inr (by simpa using And.intro key toml)
  · intro passed
    obtain ⟨free, same⟩ := passed
    refine ⟨files, files, ⟨rfl, rfl⟩, (), files, ⟨?_, rfl⟩, ?_, same⟩
    all_goals
      rcases free with free | free
      · simp [free]
      · simp [free.1, free.2]

/-- The three files after a join. -/
def joinedFiles (escaped : Char → Bool) (io : JoinIo) (token : InviteToken)
    (there : MemberFiles) : MemberFiles where
  key := some (.whole token.memberPrivateKey)
  toml := some (.whole (renderMemberConfig escaped token
    (token.inviteId.map (fun _ => io.generateDeviceId))))
  psk := (token.presharedKey.map FileContent.whole).or there.psk

theorem saveMemberKey_ok {io : JoinIo} {key : PrivateKey} {done : Unit}
    {files left : MemberFiles} :
    saveMemberKey io key files = (.ok done, left) ↔
      io.keyWrite = .done ∧ left = { files with key := some (.whole key) } := by
  simp only [saveMemberKey, ok_bind, ok_execute, ok_refuse, not_not]
  constructor
  · intro saved
    obtain ⟨_, _, rfl, written, rfl⟩ := saved
    exact ⟨written, by rw [written]; rfl⟩
  · intro saved
    exact ⟨(), _, rfl, saved.1, by rw [saved.1, saved.2]; rfl⟩

theorem saveMemberToml_ok {io : JoinIo} {outDir : String} {toml : MemberToml} {done : Unit}
    {files left : MemberFiles} :
    saveMemberToml io outDir toml files = (.ok done, left) ↔
      io.tomlWrite = .done ∧ left = { files with toml := some (.whole toml) } := by
  simp only [saveMemberToml, ok_bind, ok_execute, ok_refuse, not_not]
  constructor
  · intro saved
    obtain ⟨_, _, rfl, written, rfl⟩ := saved
    exact ⟨written, by rw [written]; rfl⟩
  · intro saved
    exact ⟨(), _, rfl, saved.1, by rw [saved.1, saved.2]; rfl⟩

theorem saveMemberPsk_ok {io : JoinIo} {psk : Option PresharedKey} {done : Unit}
    {files left : MemberFiles} :
    saveMemberPsk io psk files = (.ok done, left) ↔
      (psk.isSome = true → io.pskWrite = .done) ∧
        left = { files with psk := (psk.map FileContent.whole).or files.psk } := by
  cases psk with
  | none =>
      have kept : saveMemberPsk io none files = (.ok (), files) := rfl
      simp only [kept, Prod.mk.injEq, true_and, Option.isSome_none, Bool.false_eq_true,
        false_implies, Option.map_none, Option.none_or]
      exact eq_comm
  | some key =>
      simp only [saveMemberPsk, ok_bind, ok_execute, ok_refuse, not_not]
      constructor
      · intro saved
        obtain ⟨_, _, rfl, written, rfl⟩ := saved
        exact ⟨fun _ => written, by rw [written]; rfl⟩
      · intro saved
        have written := saved.1 rfl
        exact ⟨(), _, rfl, written, by rw [written, saved.2]; rfl⟩

/-- Joining with a token of an invitation. -/
theorem join_ok {decodeBase64 : String → Option (List UInt8)} {escaped : Char → Bool}
    {io : JoinIo} {outDir : String} {force : Bool} {text id : String} {there left : MemberFiles}
    {token : InviteToken} (parsed : InviteToken.parse decodeBase64 text = .ok token)
    (invited : token.inviteId = some id) :
    (∃ joined, join decodeBase64 escaped io outDir force text there = (.ok joined, left)) ↔
      io.Able force token.expiresAt token.presharedKey.isSome there ∧
        (∃ member, (renderMemberConfig escaped token
          (token.inviteId.map (fun _ => io.generateDeviceId))).load = .ok member) ∧
        left = joinedFiles escaped io token there := by
  simp only [join, ok_bind, ok_lift, ok_refuse, ok_expect, ok_pure, checkFree_ok, saveMemberKey_ok,
    saveMemberPsk_ok, saveMemberToml_ok, parsed]
  constructor
  · intro joined
    obtain ⟨_, _, _, ⟨same, rfl⟩, _, _, ⟨inTime, rfl⟩, _, _, ⟨dir, rfl⟩, _, _, ⟨free, rfl⟩, _, _,
      ⟨key, rfl⟩, _, _, ⟨psk, rfl⟩, _, _, ⟨toml, rfl⟩, member, _, ⟨loaded, rfl⟩, _, rfl⟩ := joined
    cases same
    refine ⟨⟨(checkExpiry_ok invited).mp inTime, by simpa using dir, free, key, psk, toml⟩, ?_, rfl⟩
    cases result : (renderMemberConfig escaped token
        (token.inviteId.map (fun _ => io.generateDeviceId))).load with
    | error message =>
        rw [result] at loaded
        cases loaded
    | ok member => exact ⟨member, rfl⟩
  · intro fine
    obtain ⟨able, ⟨member, loaded⟩, rfl⟩ := fine
    refine ⟨_, token, _, ⟨rfl, rfl⟩, (), _, ⟨(checkExpiry_ok invited).mpr able.inTime, rfl⟩, (), _,
      ⟨by simp [able.dir], rfl⟩, (), _, ⟨able.free, rfl⟩, (), _, ⟨able.key, rfl⟩, (), _,
      ⟨able.psk, rfl⟩, (), _, ⟨able.toml, rfl⟩, member, _, ⟨by rw [loaded]; rfl, rfl⟩, rfl, rfl⟩

/-! ### What the host has on file -/

section

variable {publicKey : PrivateKey → PublicKey} {escaped : Char → Bool}
  {base64 : List UInt8 → String} {io : InviteIo} {options : InviteOptions}
  {files after : HostFiles} {result : InviteResult}

/-- An invitation that was issued: from what, and what has been written. -/
structure Issued (publicKey : PrivateKey → PublicKey) (escaped : Char → Bool)
    (base64 : List UInt8 → String) (io : InviteIo) (options : InviteOptions)
    (after : HostFiles) (result : InviteResult) (config : Config) (plan : InvitePlan)
    (hostKey : PrivateKey) : Prop where
  planned : planInvite io options config = .ok plan
  registers : Registers escaped io config (plan.peer publicKey io options)
  key : io.hostKey = some hostKey
  toml : after.hostToml = some (config.withPeer (plan.peer publicKey io options))
  psk : options.psk = true → after.psk plan.ip = some (.key io.presharedKey)
  token : (plan.token io options config (publicKey hostKey)).encode base64 = .ok result.token
  answer : result.name = plan.name ∧ result.ip = plan.ip ∧ result.psk = options.psk ∧
    result.expiresAt = plan.expiresAt ∧ result.endpoints = plan.endpoints

theorem savePsk_psk {plan : InvitePlan} {saved : HostFiles}
    (written : savePsk io options plan files = (true, saved)) (asked : options.psk = true) :
    saved.psk plan.ip = some (.key io.presharedKey) := by
  unfold savePsk at written
  rw [if_pos asked] at written
  cases outcome : io.pskWrite with
  | done =>
      rw [outcome] at written
      change (true, _) = (true, saved) at written
      rw [← (Prod.mk.inj written).2]
      exact Function.update_self _ _ _
  | untouched =>
      rw [outcome] at written
      cases written
  | torn =>
      rw [outcome] at written
      cases written

theorem invite_issued
    (issued : invite publicKey escaped base64 io options files = (.ok result, after)) :
    ∃ config plan hostKey,
      Issued publicKey escaped base64 io options after result config plan hostKey := by
  unfold invite at issued
  cases there : files.hostToml with
  | none =>
      rw [there] at issued
      cases issued
  | some config =>
      rw [there] at issued
      dsimp only at issued
      cases planned : planInvite io options config with
      | error message =>
          rw [planned] at issued
          cases issued
      | ok plan =>
          rw [planned] at issued
          dsimp only at issued
          have kept : (savePsk io options plan files).2.hostToml = some config :=
            savePsk_hostToml.trans there
          unfold carryOut at issued
          rcases saving : savePsk io options plan files with ⟨saves, saved⟩
          rw [saving] at issued kept
          cases saves with
          | false => cases issued
          | true =>
              dsimp only at issued kept
              rcases appendToFile_cases escaped io (plan.peer publicKey io options) kept
                (planInvite_ok planned).1 with ⟨registers, _, result⟩ | ⟨_, _, error, result⟩ |
                ⟨_, error, result⟩
              · rw [result] at issued
                dsimp only at issued
                obtain ⟨answered, rfl⟩ := Prod.mk.inj issued
                unfold issueToken hostPublicKey at answered
                cases key : io.hostKey with
                | none =>
                    rw [key] at answered
                    cases answered
                | some hostKey =>
                    rw [key] at answered
                    obtain ⟨_, ⟨⟩, answered⟩ := bind_ok.mp answered
                    obtain ⟨text, encoded, answered⟩ := bind_ok.mp answered
                    obtain rfl := pure_ok.mp answered
                    have keeps : options.psk = true → saved.psk plan.ip =
                        some (.key io.presharedKey) := savePsk_psk saving
                    exact ⟨config, plan, hostKey, planned, registers, key, rfl, keeps, encoded,
                      rfl, rfl, rfl, rfl, rfl⟩
              · rw [result] at issued
                cases issued
              · rw [result] at issued
                cases issued

end

/-- Who reads the token reads what was written into it. -/
theorem parse_issued {encodeBase64 : List UInt8 → String}
    {decodeBase64 : String → Option (List UInt8)}
    (decodes : ∀ bytes, decodeBase64 (encodeBase64 bytes) = some bytes)
    (plain : ∀ bytes, ∀ c ∈ (encodeBase64 bytes).toList, Text.isWhitespace c = false)
    {io : InviteIo} {token : InviteToken} (generated : token.inviteId = some io.generateInviteId)
    {text : String} (encoded : token.encode encodeBase64 = .ok text) :
    InviteToken.parse decodeBase64 text = .ok token ∧ token.Valid := by
  unfold InviteToken.encode at encoded
  obtain ⟨bytes, made, encoded⟩ := bind_ok.mp encoded
  obtain rfl := pure_ok.mp encoded
  have exact_ := InviteToken.exact_reader made
  have checked : token.validate = .ok () := by
    unfold InviteToken.payload at made
    obtain ⟨⟨⟩, checked, _⟩ := bind_ok.mp made
    exact checked
  have same : token.canonical = token := by
    have id : token.inviteId.map InviteToken.canonicalId = token.inviteId := by
      rw [generated, Option.map_some, InviteToken.canonicalId, generated_id]
      rfl
    unfold InviteToken.canonical
    rw [id]
  rw [same] at exact_
  refine ⟨?_, (InviteToken.validate_ok token).mp checked⟩
  rw [InviteToken.parse_prefixed decodes plain, InviteToken.parsePayload, exact_.finish_ok]
  simp only [bind, Except.bind, checked]
  rfl

/-! ### The two halves of a tunnel -/

/-- The peer on the file of the host and the configuration of a member belong together. -/
structure Paired (publicKey : PrivateKey → PublicKey) (hostKey : PrivateKey) (host : Config)
    (peer : PeerConfig) (key : PrivateKey) (member : MemberConfig) : Prop where
  registered : peer ∈ host.peers
  /-- Each side has the public key of the other. -/
  memberKey : peer.publicKey = publicKey key
  hostKey : member.config.peers.map PeerConfig.publicKey = [publicKey hostKey]
  /-- The host sends the member what is for its address, and nothing else. -/
  address : peer.allowedIps = [Ipv4Net.host member.config.interface.address.addr]
  /-- The member sends the host what is for the subnet, which is the same on both sides. -/
  subnet : member.config.interface.address.trunc = host.interface.address.trunc
  routed : member.config.peers.map PeerConfig.allowedIps = [[host.interface.address.trunc]]
  control : member.controlHost = host.interface.address.addr
  /-- Nobody else has the key or the address. -/
  alone : ∀ other ∈ host.peers, other.publicKey = peer.publicKey → other = peer
  apart : member.config.interface.address.addr ≠ host.interface.address.addr ∧
    ∀ other ∈ host.peers, other ≠ peer →
      ∀ net ∈ other.allowedIps, net.addr ≠ member.config.interface.address.addr
  name : peer.name = member.config.interface.displayName
  network : member.config.networkName = host.networkName
  /-- The invitation can still be taken up, by a device that says its id. -/
  invited : peer.inviteId.isSome = true ∧ peer.inviteAcceptedAt = none ∧
    member.config.interface.deviceId.any validId = true

theorem trunc_trunc (net : Ipv4Net) : net.trunc.trunc = net.trunc := by
  have same : net.trunc.network = net.network := by
    change (net.addr &&& net.netmask) &&& net.netmask = net.addr &&& net.netmask
    rw [BitVec.and_assoc, BitVec.and_self]
  rw [Ipv4Net.trunc, Ipv4Net.mk.injEq]
  exact ⟨same, rfl⟩

/-- The highest address depends on the lowest one only. -/
theorem broadcast_eq (net : Ipv4Net) : net.broadcast = net.network ||| ~~~net.netmask := by
  unfold Ipv4Net.broadcast Ipv4Net.network
  generalize net.netmask = mask
  ext place bound
  simp only [BitVec.getElem_or, BitVec.getElem_and, BitVec.getElem_not]
  cases net.addr[place] <;> cases mask[place] <;> rfl

/-- The address of a new member with the prefix of the host. -/
def memberNet (host : Ipv4Net) (ip : Ipv4Addr) : Ipv4Net where
  addr := ip
  prefixLen := host.trunc.prefixLen
  prefixLen_le := host.trunc.prefixLen_le

/-- An address in a network lies in the network that it makes with the same prefix. -/
theorem memberNet_network {host : Ipv4Net} {ip : Ipv4Addr}
    (inside : host.trunc.contains ip = true) : (memberNet host ip).network = host.network := by
  rw [← maskMatches_eq] at inside
  have masked : ip &&& host.trunc.netmask = host.trunc.addr &&& host.trunc.netmask :=
    of_decide_eq_true inside
  have idempotent := congrArg Ipv4Net.addr (trunc_trunc host)
  exact masked.trans idempotent

theorem memberNet_trunc {host : Ipv4Net} {ip : Ipv4Addr}
    (inside : host.trunc.contains ip = true) : (memberNet host ip).trunc = host.trunc := by
  rw [Ipv4Net.trunc, Ipv4Net.trunc, Ipv4Net.mk.injEq]
  exact ⟨memberNet_network inside, rfl⟩

theorem memberNet_usable {host : Ipv4Net} {ip : Ipv4Addr}
    (inside : host.trunc.contains ip = true) :
    Usable (memberNet host ip) ↔ ip ≠ host.network ∧ ip ≠ host.broadcast := by
  have highest : (memberNet host ip).broadcast = host.broadcast := by
    rw [broadcast_eq, broadcast_eq, memberNet_network inside]
    rfl
  unfold Usable
  rw [memberNet_network inside, highest]
  rfl

/-- The name that the host could write is one that the member can read. -/
theorem Issued.named {publicKey : PrivateKey → PublicKey} {escaped : Char → Bool}
    {base64 : List UInt8 → String} {io : InviteIo} {options : InviteOptions} {after : HostFiles}
    {result : InviteResult} {config : Config} {plan : InvitePlan} {hostKey : PrivateKey}
    (issued : Issued publicKey escaped base64 io options after result config plan hostKey) :
    readQuoted escaped plan.name = some plan.name := by
  refine (readQuoted_name (planInvite_ok issued.planned).2.1).mpr (fun c listed => ?_)
  have reads := issued.registers.readable plan.name List.mem_cons_self
  have fine := List.all_eq_true.mp reads c listed
  rw [Bool.and_eq_true, Bool.not_eq_true'] at fine
  exact fine.1

/-- What a device that draws its id reads from the file it has written. -/
theorem joined_loads {escaped : Char → Bool} {token : InviteToken} {joining : JoinIo}
    (valid : token.Valid) (named : readQuoted escaped token.name = some token.name)
    {member : MemberConfig} :
    (renderMemberConfig escaped token (some joining.generateDeviceId)).load = .ok member ↔
      Usable token.memberAddress ∧
        member = token.memberConfig (some joining.generateDeviceId) := by
  refine load_rendered valid named (fun id same c listed => ?_) (fun id same => ?_)
  · rw [← Option.some.inj same] at listed
    exact (generated_fine _ c listed).1
  · rw [← Option.some.inj same]
    exact validId_generated (Wire.bigEndian_length _ _)

/-- What a join with the token of an invitation leaves belongs to what the host has on file. -/
theorem Issued.paired {publicKey : PrivateKey → PublicKey} {escaped : Char → Bool}
    {base64 : List UInt8 → String} {io : InviteIo} {options : InviteOptions} {after : HostFiles}
    {result : InviteResult} {config : Config} {plan : InvitePlan} {hostKey : PrivateKey}
    (issued : Issued publicKey escaped base64 io options after result config plan hostKey)
    {deviceId : String} (device : validId deviceId = true) :
    Paired publicKey hostKey (config.withPeer (plan.peer publicKey io options))
      ((plan.peer publicKey io options).entry config) io.memberPrivateKey
      ((plan.token io options config (publicKey hostKey)).memberConfig (some deviceId)) where
  registered := List.mem_append_right _ (List.mem_singleton_self _)
  memberKey := rfl
  hostKey := rfl
  address := rfl
  subnet := memberNet_trunc issued.registers.inside
  routed := congrArg (fun net => [[net]]) (memberNet_trunc issued.registers.inside)
  control := rfl
  alone := by
    intro other listed same
    rcases List.mem_append.mp listed with before | new
    · exact absurd same (issued.registers.newKey other before)
    · exact List.mem_singleton.mp new
  apart := by
    refine ⟨issued.registers.notHost, fun other listed differ net routed same => ?_⟩
    rcases List.mem_append.mp listed with before | new
    · refine issued.registers.unused (List.mem_cons_of_mem _ ?_)
      rw [← show net.addr = (plan.peer publicKey io options).ip from same]
      exact List.mem_flatMap.mpr ⟨other, before, List.mem_map_of_mem routed⟩
    · exact differ (List.mem_singleton.mp new)
  name := rfl
  network := rfl
  invited := ⟨rfl, rfl, device⟩

/-- The token of an invitation that was issued can be joined with exactly on a machine that grants
the files and the time, and unless the host has given away the lowest or the highest address of its
subnet.  Who has joined holds the other half of what the host has on file. -/
theorem invitation_joined {publicKey : PrivateKey → PublicKey} {escaped : Char → Bool}
    {encodeBase64 : List UInt8 → String} {decodeBase64 : String → Option (List UInt8)}
    (decodes : ∀ bytes, decodeBase64 (encodeBase64 bytes) = some bytes)
    (plain : ∀ bytes, ∀ c ∈ (encodeBase64 bytes).toList, Text.isWhitespace c = false)
    {io : InviteIo} {options : InviteOptions} {files after : HostFiles} {result : InviteResult}
    (issued : invite publicKey escaped encodeBase64 io options files = (.ok result, after))
    (joining : JoinIo) (outDir : String) (force : Bool) (there : MemberFiles) :
    ∃ host peer, after.hostToml = some host ∧
      ((∃ joined left,
          join decodeBase64 escaped joining outDir force result.token there = (.ok joined, left)) ↔
        joining.Able force result.expiresAt result.psk there ∧
          result.ip ≠ host.interface.address.network ∧
          result.ip ≠ host.interface.address.broadcast) ∧
      ∀ joined left,
        join decodeBase64 escaped joining outDir force result.token there = (.ok joined, left) →
        ∃ hostKey key toml member, io.hostKey = some hostKey ∧ left.key = some (.whole key) ∧
          left.toml = some (.whole toml) ∧ toml.load = .ok member ∧
          Paired publicKey hostKey host peer key member ∧
          (result.psk = true → ∃ psk, after.psk result.ip = some (.key psk) ∧
            left.psk = some (.whole psk)) ∧
          (member.presharedKeyFile.isSome = true ↔ result.psk = true) := by
  obtain ⟨config, plan, hostKey, made⟩ := invite_issued issued
  obtain ⟨_, atIp, asked, expires, _⟩ := made.answer
  obtain ⟨token, written⟩ : ∃ token, token = plan.token io options config (publicKey hostKey) :=
    ⟨_, rfl⟩
  have invited : token.inviteId = some io.generateInviteId := by rw [written]; rfl
  have net : token.memberAddress = memberNet config.interface.address plan.ip := by
    rw [written]; rfl
  have lasts : token.expiresAt = result.expiresAt := by rw [written, expires]; rfl
  have psk : token.presharedKey = if result.psk then some io.presharedKey else none := by
    rw [written, asked]; rfl
  have secret : token.presharedKey.isSome = result.psk := by
    rw [psk]
    cases result.psk <;> rfl
  have encoded := made.token
  rw [← written] at encoded
  obtain ⟨parsed, valid⟩ := parse_issued decodes plain invited encoded
  have named : readQuoted escaped token.name = some token.name := by
    have same : token.name = plan.name := by rw [written]; rfl
    rw [same]
    exact made.named
  have device : validId joining.generateDeviceId = true :=
    validId_generated (Wire.bigEndian_length _ _)
  have loads := @joined_loads escaped token joining valid named
  have joins := fun left => @join_ok decodeBase64 escaped joining outDir force result.token
    io.generateInviteId there left token parsed invited
  have usable := @memberNet_usable config.interface.address plan.ip made.registers.inside
  rw [invited, Option.map_some] at joins
  refine ⟨_, (plan.peer publicKey io options).entry config, made.toml, ?_, ?_⟩
  · rw [atIp, ← lasts, ← secret]
    constructor
    · intro ran
      obtain ⟨joined, left, ran⟩ := ran
      obtain ⟨able, ⟨member, loaded⟩, _⟩ := (joins left).mp ⟨joined, ran⟩
      obtain ⟨fits, _⟩ := loads.mp loaded
      rw [net] at fits
      exact ⟨able, usable.mp fits⟩
    · intro fine
      have fits : Usable token.memberAddress := by
        rw [net]
        exact usable.mpr fine.2
      obtain ⟨joined, ran⟩ := (joins _).mpr ⟨fine.1, ⟨_, loads.mpr ⟨fits, rfl⟩⟩, rfl⟩
      exact ⟨joined, _, ran⟩
  · intro joined left ran
    obtain ⟨_, ⟨member, loaded⟩, rfl⟩ := (joins left).mp ⟨joined, ran⟩
    have read := (loads.mp loaded).2
    have key : token.memberPrivateKey = io.memberPrivateKey := by rw [written]; rfl
    have toml : (joinedFiles escaped joining token there).toml =
        some (.whole (renderMemberConfig escaped token (some joining.generateDeviceId))) := by
      rw [joinedFiles, invited]
      rfl
    refine ⟨hostKey, token.memberPrivateKey, _, member, made.key, rfl, toml, loaded, ?_,
      fun yes => ⟨io.presharedKey, ?_, ?_⟩, ?_⟩
    · rw [key, read, written]
      exact made.paired device
    · rw [atIp]
      exact made.psk (asked.symm.trans yes)
    · rw [joinedFiles, psk, if_pos yes]
      rfl
    · rw [read, ← secret]
      unfold InviteToken.memberConfig
      rw [Option.isSome_map]

/-- A host whose first address is taken by the host itself. -/
def cafeFiles : HostFiles where
  hostToml := some { interface := { address := .slash24 0x0a630001 } }
  psk _ := none

def cafeIo : InviteIo where
  lanIp := some 0xc0a8000c
  memberPrivateKey := ⟨1⟩
  presharedKey := ⟨2⟩
  inviteId := 3
  now := some 1700000000
  hostKey := some ⟨4⟩

/-- An invitation for a week, with a key that both sides know. -/
def cafeOptions : InviteOptions where
  name := some "Alice"
  psk := true
  expiresInSecs := some 604800

def cafeInvite : Except String InviteResult × HostFiles :=
  invite (fun key => ⟨key.bytes⟩) (fun _ => false) Base64Url.encode cafeIo cafeOptions cafeFiles

/-- The next day, in an empty directory. -/
def cafeJoin : JoinIo where
  now := some 1700086400
  deviceId := 5

theorem invitation_joined_small :
    ∃ result after, cafeInvite = (.ok result, after) ∧
      ∃ joined left, join Base64Url.decode (fun _ => false) cafeJoin "home" false result.token
        ⟨none, none, none⟩ = (.ok joined, left) := by
  rcases issued : cafeInvite with ⟨outcome, after⟩
  have works : cafeInvite.1.toOption.map (fun result => (result.ip, result.expiresAt)) =
      some (0x0a630002, some 1700604800) := by decide
  cases outcome with
  | error message =>
      rw [issued] at works
      cases works
  | ok result =>
      rw [issued] at works
      have answered := Prod.mk.inj (Option.some.inj works)
      have plain : ∀ bytes, ∀ c ∈ (Base64Url.encode bytes).toList, Text.isWhitespace c = false := by
        intro bytes c member
        have each : Base64Url.alphabet.all (fun c => !Text.isWhitespace c) = true := by decide
        simpa using List.all_eq_true.mp each c (Base64Url.encode_alphabet bytes c member)
      obtain ⟨host, peer, there, joins, _⟩ := invitation_joined Base64Url.decode_encode plain issued
        cafeJoin "home" false ⟨none, none, none⟩
      have address : cafeInvite.2.hostToml.map (fun host => host.interface.address) =
          some (.slash24 0x0a630001) := by decide
      rw [issued, there] at address
      have same : host.interface.address = .slash24 0x0a630001 := Option.some.inj address
      refine ⟨result, after, rfl, joins.mpr ⟨⟨⟨_, rfl, ?_⟩, rfl, .inr ⟨rfl, rfl⟩, rfl, fun _ => rfl,
        rfl⟩, ?_⟩⟩
      · intro expires same
        rw [answered.2] at same
        rw [← Option.some.inj same]
        decide
      · rw [answered.1, same]
        decide

/-- The lowest address of the subnet is given away when it is asked for. -/
example :
    (invite (fun key => ⟨key.bytes⟩) (fun _ => false) Base64Url.encode cafeIo
      { cafeOptions with ip := some 0x0a630000 } cafeFiles).1.isOk = true := by
  decide

end PeerCove
