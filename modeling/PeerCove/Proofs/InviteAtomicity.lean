/-
Module: PeerCove.Proofs.InviteAtomicity
Layer: Proofs
Purpose: When an invitation that fails leaves `host.toml` and the PSK files as they were.
Trusted boundary: none
Main exports: Registers, issueToken_ok, InviteAtomic, invite_atomic_iff
-/
import PeerCove.Library.Base64Url
import PeerCove.Ops.Invite
import PeerCove.Proofs.TokenCodec

namespace PeerCove

open Fallible

/-! ### What the checks before the first write say -/

theorem planInvite_ok {io : InviteIo} {options : InviteOptions} {config : Config}
    {plan : InvitePlan} (planned : planInvite io options config = .ok plan) :
    config.validate = .ok () ∧ validateName plan.name = .ok () ∧ plan.endpoints ≠ [] := by
  unfold planInvite at planned
  simp only [bind_ok, refuseIf_ok] at planned
  rcases planned with ⟨_, valid, ip, _, _, named, _, _, _, reached, _, _, _, _, made⟩
  cases pure_ok.mp made
  exact ⟨valid, named, reached⟩

/-- The new peer, where it stands in the file. -/
def Config.withPeer (config : Config) (peer : NewPeer) : Config :=
  { config with peers := config.peers ++ [peer.entry config] }

/-- What `append_peer` asks for. -/
structure Registers (escaped : Char → Bool) (io : InviteIo) (config : Config) (peer : NewPeer) :
    Prop where
  lock : io.lockTaken = true
  inside : config.interface.address.trunc.contains peer.ip = true
  notHost : peer.ip ≠ config.interface.address.addr
  newKey : ∀ other ∈ config.peers, other.publicKey ≠ peer.publicKey
  unused : peer.ip ∉ usedIps config
  readable : ∀ text ∈ peer.quoted, tomlReads escaped text = true
  valid : (config.withPeer peer).validate = .ok ()

theorem appendPeer_ok {escaped : Char → Bool} {peer : NewPeer} {config written : Config}
    (valid : config.validate = .ok ()) :
    appendPeer escaped peer config = .ok written ↔
      (config.interface.address.trunc.contains peer.ip = true ∧
        peer.ip ≠ config.interface.address.addr ∧
        (∀ other ∈ config.peers, other.publicKey ≠ peer.publicKey) ∧
        peer.ip ∉ usedIps config ∧ (∀ text ∈ peer.quoted, tomlReads escaped text = true) ∧
        (config.withPeer peer).validate = .ok ()) ∧
      written = config.withPeer peer := by
  unfold appendPeer
  simp only [bind_ok, refuseIf_ok, writeValidated_ok]
  constructor
  · rintro ⟨_, _, _, inside, _, notHost, _, newKey, _, unused, _, readable, accepted, rfl⟩
    refine ⟨⟨by simpa using inside, notHost, by simpa using newKey, unused, ?_, accepted⟩, rfl⟩
    exact List.all_eq_true.mp (not_not.mp readable)
  · rintro ⟨⟨inside, notHost, newKey, unused, readable, accepted⟩, rfl⟩
    exact ⟨(), valid, (), by simp [inside], (), notHost, (), by simpa using newKey, (), unused, (),
      not_not.mpr (List.all_eq_true.mpr readable), accepted, rfl⟩

variable {publicKey : PrivateKey → PublicKey} {escaped : Char → Bool}
  {base64 : List UInt8 → String} {io : InviteIo} {config : Config}

/-- The three ends of `append_peer`: written, torn, or nothing done. -/
theorem appendToFile_cases (escaped : Char → Bool) (io : InviteIo) (peer : NewPeer)
    {files : HostFiles} (there : files.hostToml = some config) (valid : config.validate = .ok ()) :
    (Registers escaped io config peer ∧ io.hostWrite = .done ∧
        appendToFile escaped io peer files =
          (.ok (), { files with hostToml := some (config.withPeer peer) })) ∨
      (Registers escaped io config peer ∧ io.hostWrite = .torn ∧
        ∃ error, appendToFile escaped io peer files =
          (.error error, { files with hostToml := none })) ∨
      ((¬ Registers escaped io config peer ∨ io.hostWrite = .untouched) ∧
        ∃ error, appendToFile escaped io peer files = (.error error, files)) := by
  cases locked : io.lockTaken with
  | false =>
      have refused : ¬ Registers escaped io config peer := by
        intro registers
        rw [registers.lock] at locked
        cases locked
      exact .inr (.inr ⟨.inl refused, _, if_pos locked⟩)
  | true =>
      have open_ : ¬ io.lockTaken = false := by simp [locked]
      cases appended : appendPeer escaped peer config with
      | error error =>
          have refused : ¬ Registers escaped io config peer := by
            intro registers
            have done := (appendPeer_ok valid).mpr ⟨⟨registers.inside, registers.notHost,
              registers.newKey, registers.unused, registers.readable, registers.valid⟩, rfl⟩
            rw [appended] at done
            cases done
          refine .inr (.inr ⟨.inl refused, error, ?_⟩)
          simp only [appendToFile, if_neg open_, there, appended]
      | ok written =>
          obtain ⟨⟨inside, notHost, newKey, unused, readable, accepted⟩, rfl⟩ :=
            (appendPeer_ok valid).mp appended
          have registers : Registers escaped io config peer :=
            ⟨locked, inside, notHost, newKey, unused, readable, accepted⟩
          cases outcome : io.hostWrite with
          | done =>
              refine .inl ⟨registers, rfl, ?_⟩
              simp only [appendToFile, if_neg open_, there, appended, outcome]
          | untouched =>
              refine .inr (.inr ⟨.inr rfl, "host.toml の書き込みに失敗しました", ?_⟩)
              simp only [appendToFile, if_neg open_, there, appended, outcome]
          | torn =>
              refine .inr (.inl ⟨registers, rfl, "host.toml の書き込みに失敗しました", ?_⟩)
              simp only [appendToFile, if_neg open_, there, appended, outcome]

/-! ### The PSK file -/

/-- The PSK file is written, or none is asked for. -/
def PskSaved (io : InviteIo) (options : InviteOptions) : Prop :=
  options.psk = true → io.pskWrite = .done

/-- The write leaves the PSK file as it was: none is asked for, it cannot be opened, or what is
written stood there already. -/
def PskKept (io : InviteIo) (options : InviteOptions) (ip : Ipv4Addr) (files : HostFiles) : Prop :=
  options.psk = true →
    match io.pskWrite with
    | .done => files.psk ip = some (.key io.presharedKey)
    | .untouched => True
    | .torn => files.psk ip = some .torn

variable {options : InviteOptions} {plan : InvitePlan} {files : HostFiles}

theorem savePsk_hostToml : (savePsk io options plan files).2.hostToml = files.hostToml := by
  unfold savePsk
  split
  · cases io.pskWrite with
    | done => rfl
    | untouched => rfl
    | torn => rfl
  · rfl

theorem savePsk_saved : (savePsk io options plan files).1 = true ↔ PskSaved io options := by
  unfold savePsk PskSaved
  cases options.psk with
  | false => simp
  | true => cases io.pskWrite <;> simp [HostFiles.writePsk]

theorem update_kept {content : PskFile} {ip : Ipv4Addr} :
    ({ files with psk := Function.update files.psk ip (some content) } : HostFiles) = files ↔
      files.psk ip = some content := by
  constructor
  · intro same
    have there : Function.update files.psk ip (some content) ip = files.psk ip :=
      congrArg (fun left => left.psk ip) same
    rw [Function.update_self] at there
    exact there.symm
  · intro there
    rw [← there, Function.update_eq_self]

theorem savePsk_kept :
    (savePsk io options plan files).2 = files ↔ PskKept io options plan.ip files := by
  unfold savePsk PskKept
  cases options.psk with
  | false => simp
  | true =>
      cases io.pskWrite with
      | done => simpa [HostFiles.writePsk] using update_kept
      | untouched => simp [HostFiles.writePsk]
      | torn => simpa [HostFiles.writePsk] using update_kept

/-! ### The token -/

/-- The peer at the end of a valid list passed its check. -/
theorem last_peer_checked {peer : NewPeer} (valid : (config.withPeer peer).validate = .ok ()) :
    checkPeer config.peers.length (peer.entry config) = .ok () := by
  have each := (Config.validate_ok.mp valid).2.1
  rw [forM_ok] at each
  apply each (peer.entry config, config.peers.length)
  simp [Config.withPeer, List.zipIdx_append]

theorem generated_id (io : InviteIo) : decodeInviteId io.generateInviteId =
    .ok (Wire.bigEndian INVITE_ID_LEN io.inviteId.toNat) :=
  decode_encodeInviteId (Wire.bigEndian_length _ _)

/-- What the peer's expiry passed for is what the token asks of it. -/
theorem invite_checked (valid : (config.withPeer (plan.peer publicKey io options)).validate = .ok ())
    (hostKey : PublicKey) : (plan.token io options config hostKey).validateInvite = .ok () := by
  have checked := last_peer_checked valid
  have later : ∀ expires, plan.expiresAt = some expires → ¬ expires ≤ plan.issuedAt := by
    intro expires there early
    have bad : (plan.expiresAt.map UInt64.toNat).any
        (fun expires => expires ≤ plan.issuedAt.toNat) = true := by
      rw [there]
      exact decide_eq_true (UInt64.le_iff_toNat_le.mp early)
    simp [checkPeer, checkInvite, NewPeer.entry, InvitePlan.peer, bad, refuseIf] at checked
  have id : (plan.token io options config hostKey).inviteId = some io.generateInviteId := rfl
  have issued : (plan.token io options config hostKey).issuedAt = some plan.issuedAt := rfl
  have expires : (plan.token io options config hostKey).expiresAt = plan.expiresAt := rfl
  unfold InviteToken.validateInvite
  rw [id, issued, expires]
  dsimp only
  rw [generated_id]
  cases there : plan.expiresAt with
  | none => rfl
  | some expires =>
      rw [bind_ok]
      exact ⟨_, rfl, refuseIf_ok.mpr (later expires there)⟩

theorem token_validate (planned : planInvite io options config = .ok plan)
    (valid : (config.withPeer (plan.peer publicKey io options)).validate = .ok ())
    (hostKey : PublicKey) :
    (plan.token io options config hostKey).validate = .ok () ↔
      plan.endpoints.length ≤ MAX_ENDPOINTS := by
  obtain ⟨fine, named, reached⟩ := planInvite_ok planned
  rw [InviteToken.validate_ok]
  constructor
  · intro token
    exact token.endpoints.2
  · intro few
    exact {
      endpoints := ⟨reached, few⟩
      name := by
        unfold validateName at named
        simp only [bind_ok, refuseIf_ok, not_or, Nat.not_lt, gt_iff_lt] at named
        obtain ⟨_, ⟨some, short⟩, _⟩ := named
        exact ⟨fun empty => some (String.utf8ByteSize_eq_zero_iff.mp empty), short⟩
      address := by
        have checked := (Config.validate_ok.mp fine).1
        unfold checkInterface at checked
        simp only [bind_ok, refuseIf_ok, Nat.not_lt, gt_iff_lt] at checked
        exact checked.choose_spec.1
      network := by
        intro network there
        have checked := (Config.validate_ok.mp fine).2.2.2.2.1
        unfold checkNetworkNames at checked
        rw [show config.interface.networkName = some network from there] at checked
        simp only [bind_ok, refuseIf_ok, Bool.not_eq_false] at checked
        exact checked.choose_spec.1
      invite := invite_checked valid hostKey }

theorem encode_ok (planned : planInvite io options config = .ok plan)
    (valid : (config.withPeer (plan.peer publicKey io options)).validate = .ok ())
    (hostKey : PublicKey) :
    (∃ text, (plan.token io options config hostKey).encode base64 = .ok text) ↔
      plan.endpoints.length ≤ MAX_ENDPOINTS := by
  rw [← token_validate planned valid hostKey]
  unfold InviteToken.encode InviteToken.payload
  constructor
  · rintro ⟨text, made⟩
    rcases bind_ok.mp made with ⟨bytes, built, _⟩
    rcases bind_ok.mp built with ⟨_, checked, _⟩
    exact checked
  · intro checked
    have invite : ∃ bytes, (plan.token io options config hostKey).inviteBytes = .ok bytes := by
      have id : (plan.token io options config hostKey).inviteId = some io.generateInviteId := rfl
      have issued : (plan.token io options config hostKey).issuedAt = some plan.issuedAt := rfl
      unfold InviteToken.inviteBytes
      rw [id, issued]
      dsimp only
      rw [generated_id]
      exact ⟨_, rfl⟩
    obtain ⟨bytes, invite⟩ := invite
    rw [checked, invite]
    exact ⟨_, rfl⟩

/-- Once the peer is registered, the token is made when the host's key can be read and the
endpoints are few. -/
theorem issueToken_ok (planned : planInvite io options config = .ok plan)
    (valid : (config.withPeer (plan.peer publicKey io options)).validate = .ok ()) :
    (∃ result, issueToken publicKey base64 io options config plan = .ok result) ↔
      io.hostKey.isSome = true ∧ plan.endpoints.length ≤ MAX_ENDPOINTS := by
  unfold issueToken hostPublicKey
  cases io.hostKey with
  | none => simp
  | some key =>
      have encodes := @encode_ok _ base64 _ _ _ _ planned valid (publicKey key)
      constructor
      · rintro ⟨result, made⟩
        rcases bind_ok.mp made with ⟨_, ⟨⟩, made⟩
        rcases bind_ok.mp made with ⟨text, written, _⟩
        exact ⟨rfl, encodes.mp ⟨text, written⟩⟩
      · rintro ⟨_, few⟩
        obtain ⟨text, written⟩ := encodes.mpr few
        exact ⟨_, bind_ok.mpr ⟨_, rfl, bind_ok.mpr ⟨text, written, rfl⟩⟩⟩

/-! ### Atomicity -/

/-- The file `host.toml` is written to: the PSK is saved, the peer can be registered, and the file
can be opened. -/
structure Reached (publicKey : PrivateKey → PublicKey) (escaped : Char → Bool) (io : InviteIo)
    (options : InviteOptions) (config : Config) (plan : InvitePlan) : Prop where
  saved : PskSaved io options
  registers : Registers escaped io config (plan.peer publicKey io options)
  opened : io.hostWrite ≠ .untouched

/-- The inputs on which a failure changes nothing.  Where the checks pass and `host.toml` is written
to, the write succeeds and so does the token; where it is not written to, the PSK file is left as it
was. -/
def InviteAtomic (publicKey : PrivateKey → PublicKey) (escaped : Char → Bool) (io : InviteIo)
    (options : InviteOptions) (files : HostFiles) : Prop :=
  ∀ config plan, files.hostToml = some config → planInvite io options config = .ok plan →
    (Reached publicKey escaped io options config plan →
      io.hostWrite = .done ∧ io.hostKey.isSome = true ∧ plan.endpoints.length ≤ MAX_ENDPOINTS) ∧
    (¬ Reached publicKey escaped io options config plan → PskKept io options plan.ip files)

/-- A registered peer shows in the file. -/
theorem withPeer_ne (config : Config) (peer : NewPeer) : config.withPeer peer ≠ config := by
  intro same
  have count := congrArg (fun config => config.peers.length) same
  simp [Config.withPeer] at count

/-- A failure after the checks changes nothing. -/
def CarriedOutAtomic (publicKey : PrivateKey → PublicKey) (escaped : Char → Bool)
    (base64 : List UInt8 → String) (io : InviteIo) (options : InviteOptions) (config : Config)
    (plan : InvitePlan) (files : HostFiles) : Prop :=
  ∀ error after,
    carryOut publicKey escaped base64 io options config plan files = (.error error, after) →
      after = files

theorem atomic_of_result {α : Type} {outcome : Except String α × HostFiles} {error : String}
    {left : HostFiles} (result : outcome = (.error error, left)) :
    (∀ error after, outcome = (.error error, after) → after = files) ↔ left = files := by
  constructor
  · intro atomic
    exact atomic error left result
  · rintro rfl error after same
    rw [result] at same
    exact (Prod.mk.inj same).2.symm

theorem carryOut_atomic_iff (there : files.hostToml = some config)
    (planned : planInvite io options config = .ok plan) :
    CarriedOutAtomic publicKey escaped base64 io options config plan files ↔
      (Reached publicKey escaped io options config plan →
        io.hostWrite = .done ∧ io.hostKey.isSome = true ∧
          plan.endpoints.length ≤ MAX_ENDPOINTS) ∧
      (¬ Reached publicKey escaped io options config plan →
        PskKept io options plan.ip files) := by
  have valid := (planInvite_ok planned).1
  have kept := @savePsk_kept io options plan files
  have same : (savePsk io options plan files).2.hostToml = some config :=
    savePsk_hostToml.trans there
  have success := @savePsk_saved io options plan files
  unfold CarriedOutAtomic carryOut
  generalize savePsk io options plan files = step at kept same success
  obtain ⟨ok, saved⟩ := step
  cases ok with
  | false =>
      have unsaved : ¬ Reached publicKey escaped io options config plan := by
        intro reached
        cases success.mpr reached.saved
      rw [atomic_of_result rfl, kept]
      simp [unsaved]
  | true =>
      rcases appendToFile_cases escaped io (plan.peer publicKey io options) same valid with
        ⟨registers, written, result⟩ | ⟨registers, torn, error, result⟩ |
        ⟨refused, error, result⟩
      · have reached : Reached publicKey escaped io options config plan :=
          ⟨success.mp rfl, registers, by simp [written]⟩
        have issues := @issueToken_ok _ base64 _ _ _ _ planned registers.valid
        dsimp only
        rw [result]
        dsimp only
        cases issued : issueToken publicKey base64 io options config plan with
        | ok answer =>
            have done := issues.mp ⟨answer, issued⟩
            constructor
            · intro _
              exact ⟨fun _ => ⟨written, done⟩, fun missed => absurd reached missed⟩
            · rintro _ error after ⟨⟩
        | error error =>
            have undone : ¬ (io.hostKey.isSome = true ∧
                plan.endpoints.length ≤ MAX_ENDPOINTS) := by
              intro deliverable
              obtain ⟨answer, made⟩ := issues.mpr deliverable
              rw [issued] at made
              cases made
            have differ : ({ saved with hostToml := some (config.withPeer
                (plan.peer publicKey io options)) } : HostFiles) ≠ files := by
              rintro rfl
              exact withPeer_ne _ _ (Option.some.inj there)
            rw [atomic_of_result rfl]
            constructor
            · intro equal
              exact absurd equal differ
            · intro conditions
              exact absurd (conditions.1 reached).2 undone
      · have reached : Reached publicKey escaped io options config plan :=
          ⟨success.mp rfl, registers, by simp [torn]⟩
        have differ : ({ saved with hostToml := none } : HostFiles) ≠ files := by
          rintro rfl
          cases there
        dsimp only
        rw [result]
        dsimp only
        rw [atomic_of_result rfl]
        constructor
        · intro equal
          exact absurd equal differ
        · intro conditions
          have written := (conditions.1 reached).1
          rw [torn] at written
          cases written
      · have missed : ¬ Reached publicKey escaped io options config plan := by
          intro reached
          rcases refused with refused | untouched
          · exact refused reached.registers
          · exact reached.opened untouched
        dsimp only
        rw [result]
        dsimp only
        rw [atomic_of_result rfl, kept]
        simp [missed]

/-- A host whose members are to be told five addresses. -/
def homeConfig : Config where
  interface := { address := Ipv4Net.slash24 0x0A630001#32 }

def fiveEndpoints : InviteOptions where
  extraEndpoints := (List.range 5).map (fun i => { ip := BitVec.ofNat 32 i, port := 51820 })

def homeIo : InviteIo where
  lanIp := none
  memberPrivateKey := ⟨1⟩
  presharedKey := ⟨2⟩
  inviteId := 3
  now := some 1700000000
  hostKey := some ⟨4⟩

end PeerCove
