/-
Module: PeerCove.Proofs.TokenCodec
Layer: Proofs
Purpose: Tokens are read back as they were written, and nothing shorter or longer is read.
Trusted boundary: the base64 codec, with two properties
Main exports: InviteToken.SameAs, exact_reader, token_roundTrips
-/
import PeerCove.Core.Token
import PeerCove.Library.Base64Url
import PeerCove.Proofs.DnsLabels

namespace PeerCove

open Fallible Wire

/-! ### Readers of the fields -/

namespace TokenReader

theorem exact_number {len value : Nat} (small : value < 256 ^ len) :
    Exact (number len) (bigEndian len value) value := by
  have exact : Exact (bytes len) (bigEndian len value) (bigEndian len value) :=
    exact_take _ (bigEndian_length len value)
  have mapped := exact_map bigValue exact
  rwa [bigValue_bigEndian small] at mapped

theorem exact_u8 {value : Nat} (small : value < 256) :
    Exact u8 [UInt8.ofNat value] value := by
  have one : bigEndian 1 value = [UInt8.ofNat value] := rfl
  rw [← one]
  exact exact_number small

theorem exact_key (value : BitVec 256) : Exact key (InviteToken.keyBytes value) value := by
  have read : Exact (number KEY_LEN) (InviteToken.keyBytes value) value.toNat :=
    exact_number value.isLt
  have mapped := exact_map (BitVec.ofNat 256) read
  rwa [BitVec.ofNat_toNat, BitVec.setWidth_eq] at mapped

theorem exact_ip (value : Ipv4Addr) : Exact ip (InviteToken.ipBytes value) value := by
  have read : Exact (number 4) (InviteToken.ipBytes value) value.toNat := exact_number value.isLt
  have mapped := exact_map (BitVec.ofNat 32) read
  rwa [BitVec.ofNat_toNat, BitVec.setWidth_eq] at mapped

theorem exact_endpoint (value : SocketAddrV4) :
    Exact endpoint (InviteToken.endpointBytes value) value := by
  apply exact_bind (exact_ip value.ip)
  have port : Exact (number 2) (bigEndian 2 value.port.toNat) value.port.toNat :=
    exact_number value.port.toNat_lt
  have mapped := exact_map
    (fun port => ({ ip := value.ip, port := UInt16.ofNat port } : SocketAddrV4)) port
  rwa [UInt16.ofNat_toNat] at mapped

theorem exact_text {value : String} (short : Text.len value < 256) (error : String) :
    Exact (text error) (InviteToken.textBytes value) value := by
  apply exact_bind (exact_u8 short)
  have read : Exact (bytes (Text.len value)) (Text.utf8Bytes value) (Text.utf8Bytes value) :=
    exact_take _ (Text.utf8Bytes_length value)
  apply exact_last read
  rw [Text.fromUtf8_utf8Bytes]
  exact exact_pure value

theorem exact_psk (value : Option PresharedKey) :
    Exact psk (InviteToken.pskBytes value) value := by
  cases value with
  | none =>
      have flags : Exact u8 [0] 0 := exact_u8 (by decide)
      exact exact_last flags (exact_pure none)
  | some value =>
      have flags : Exact u8 [1] 1 := exact_u8 (by decide)
      have read := exact_map (fun bytes => some (PresharedKey.mk bytes)) (exact_key value.bytes)
      simp only [InviteToken.pskBytes]
      rw [← List.singleton_append]
      apply exact_bind flags
      rw [if_pos (by decide)]
      exact read

theorem exact_net (value : Ipv4Net) : Exact (check (net value.addr value.prefixLen)) [] value := by
  apply exact_check
  unfold net
  rw [dif_pos value.prefixLen_le]

/-- A check that passes. -/
theorem exact_refuse {bad : Prop} [Decidable bad] {error : String} (fine : ¬ bad) :
    Exact (check (refuseIf bad error)) [] () :=
  exact_check (refuseIf_ok.mpr fine)

end TokenReader

/-! ### Ids of invitations -/

/-- A digit is one byte, and that byte has the value of the digit. -/
theorem hexDigit_byte {value : Nat} (small : value < 16) :
    ∃ byte, String.utf8EncodeChar (hexDigit value) = [byte] ∧ isHexDigit byte = true ∧
      hexValue byte = value := by
  have each : ∀ value < 16, ((String.utf8EncodeChar (hexDigit value)).map
      (fun byte => (isHexDigit byte, hexValue byte))) = [(true, value)] := by decide
  have mapped := each value small
  rcases List.map_eq_singleton_iff.mp mapped with ⟨byte, encoded, same⟩
  rcases Prod.mk.inj same with ⟨digit, value⟩
  exact ⟨byte, encoded, digit, value⟩

theorem hexPairs_flatMap (bytes : List UInt8) :
    let digits := (bytes.flatMap (fun byte =>
      [hexDigit (byte.toNat / 16), hexDigit (byte.toNat % 16)])).flatMap String.utf8EncodeChar
    hexPairs digits = bytes ∧ digits.all isHexDigit = true ∧ digits.length = bytes.length * 2 := by
  induction bytes with
  | nil => exact ⟨rfl, rfl, rfl⟩
  | cons byte rest ih =>
      have below : byte.toNat < 256 := byte.toNat_lt
      rcases hexDigit_byte (show byte.toNat / 16 < 16 by omega) with ⟨high, one, digit, value⟩
      rcases hexDigit_byte (show byte.toNat % 16 < 16 by omega) with ⟨low, two, digit', value'⟩
      rcases ih with ⟨pairs, digits, length⟩
      simp only [List.flatMap_cons, one, two, List.cons_append, List.nil_append]
      have whole : UInt8.ofNat (hexValue high * 16 + hexValue low) = byte := by
        apply UInt8.toNat_inj.mp
        rw [UInt8.toNat_ofNat', value, value']
        omega
      refine ⟨?_, ?_, ?_⟩
      · rw [hexPairs, whole, pairs]
      · simp only [List.all_cons, digit, digit', digits, Bool.and_self]
      · rw [List.length_cons, List.length_cons, length, List.length_cons]
        omega

/-- An id that was written as text is read as the same bytes. -/
theorem decode_encodeInviteId {bytes : List UInt8} (length : bytes.length = INVITE_ID_LEN) :
    decodeInviteId (encodeInviteId bytes) = .ok bytes := by
  rcases hexPairs_flatMap bytes with ⟨pairs, digits, count⟩
  have encoded : Text.utf8Bytes (encodeInviteId bytes) = (bytes.flatMap (fun byte =>
      [hexDigit (byte.toNat / 16), hexDigit (byte.toNat % 16)])).flatMap
        String.utf8EncodeChar := by
    unfold Text.utf8Bytes encodeInviteId
    rw [String.toList_ofList]
  have size : Text.len (encodeInviteId bytes) = INVITE_ID_LEN * 2 := by
    rw [← Text.utf8Bytes_length, encoded, count, length]
  unfold decodeInviteId
  rw [encoded, bind_ok]
  refine ⟨(), refuseIf_ok.mpr ?_, pure_ok.mpr pairs⟩
  rintro (wrong | wrong)
  · exact wrong size
  · rw [digits] at wrong
    cases wrong

theorem hexPairs_length (digits : List UInt8) : (hexPairs digits).length = digits.length / 2 := by
  fun_induction hexPairs digits with
  | case1 high low rest ih =>
      rw [List.length_cons, ih, List.length_cons, List.length_cons]
      omega
  | case2 digits short =>
      cases digits with
      | nil => rfl
      | cons one rest =>
          cases rest with
          | nil =>
              rw [List.length_singleton]
              rfl
          | cons two rest => exact absurd rfl (short one two rest)

theorem decodeInviteId_length {id : String} {bytes : List UInt8}
    (decoded : decodeInviteId id = .ok bytes) : bytes.length = INVITE_ID_LEN := by
  unfold decodeInviteId at decoded
  rw [bind_ok] at decoded
  rcases decoded with ⟨_, checked, made⟩
  obtain rfl := pure_ok.mp made
  have size : Text.len id = INVITE_ID_LEN * 2 := by
    by_contra wrong
    exact refuseIf_ok.mp checked (Or.inl wrong)
  rw [hexPairs_length, Text.utf8Bytes_length, size]
  rfl

namespace InviteToken

/-! ### What the checks say -/

structure Valid (token : InviteToken) : Prop where
  endpoints : token.endpoints ≠ [] ∧ token.endpoints.length ≤ MAX_ENDPOINTS
  name : Text.len token.name ≠ 0 ∧ Text.len token.name ≤ MAX_NAME_LEN
  address : token.memberAddress.prefixLen ≤ 30
  network : ∀ network, token.network = some network → Names.isDnsLabel network = true
  invite : token.validateInvite = .ok ()

theorem validateNetwork_ok {network : Option String} :
    validateNetwork network = .ok () ↔
      ∀ label, network = some label → Names.isDnsLabel label = true := by
  cases network with
  | none => simp [validateNetwork]
  | some network => simp [validateNetwork]

theorem validate_ok (token : InviteToken) : token.validate = .ok () ↔ token.Valid := by
  unfold validate
  simp only [bind_ok, refuseIf_ok, not_or, Nat.not_lt, gt_iff_lt]
  constructor
  · rintro ⟨_, endpoints, _, name, _, address, ⟨⟩, labelled, invite⟩
    exact ⟨endpoints, name, address, validateNetwork_ok.mp labelled, invite⟩
  · intro valid
    exact ⟨(), valid.endpoints, (), valid.name, (), valid.address, (),
      validateNetwork_ok.mpr valid.network, valid.invite⟩

/-! ### Every field in its place -/

/-- What is read for an id: the same bytes, in lower-case digits. -/
def canonicalId (id : String) : String :=
  match decodeInviteId id with
  | .ok bytes => encodeInviteId bytes
  | .error _ => id

def canonical (token : InviteToken) : InviteToken :=
  { token with inviteId := token.inviteId.map canonicalId }

/-- A label is not empty and its length fits in a byte. -/
theorem label_bounds {label : String} (fine : Names.isDnsLabel label = true) :
    label ≠ "" ∧ Text.len label < 256 := by
  have shape := Names.isDnsLabel_iff.mp fine
  constructor
  · rintro rfl
    exact shape.nonempty rfl
  · exact Nat.lt_of_le_of_lt shape.len_le (by decide)

theorem exact_network {network : Option String}
    (labelled : ∀ label, network = some label → Names.isDnsLabel label = true) {version : Nat}
    (versioned : version < 2 → network = none) :
    Exact (TokenReader.network version)
      (if version < 2 then [] else if network.isNone then [0] else networkBytes network)
      network := by
  unfold TokenReader.network
  by_cases old : version < 2
  · rw [if_neg (by omega), if_pos old, versioned old]
    exact exact_pure none
  · rw [if_pos (by omega), if_neg old]
    cases network with
    | none =>
        have empty : Exact (TokenReader.text "ネットワーク名が UTF-8 ではありません") [0] "" :=
          TokenReader.exact_text (show Text.len "" < 256 by decide) _
        exact exact_last empty (exact_pure none)
    | some label =>
        rcases label_bounds (labelled label rfl) with ⟨some, short⟩
        apply exact_last (TokenReader.exact_text short _)
        rw [if_neg some]
        exact exact_pure _

/-- What the reader finds at the end, for each version. -/
theorem exact_invite {token : InviteToken} (valid : token.validateInvite = .ok ()) :
    ∃ bytes, token.inviteBytes = .ok ((if token.inviteId.isSome ∧ token.network.isNone
        then [0] else []) ++ bytes) ∧
      Exact (TokenReader.invite token.version.toNat) bytes
        (token.canonical.inviteId, token.issuedAt, token.expiresAt) := by
  unfold validateInvite at valid
  cases hasId : token.inviteId with
  | none =>
      cases issued : token.issuedAt with
      | some issuedAt => simp [hasId, issued] at valid
      | none =>
          simp only [hasId, issued, refuseIf_ok, Bool.not_eq_true, Option.isSome_eq_false_iff,
            Option.isNone_iff_eq_none] at valid
          refine ⟨[], by simp [inviteBytes, hasId, pure, Except.pure], ?_⟩
          have before : token.version.toNat < 3 := by
            unfold version
            simp only [hasId, Option.isSome_none, Bool.false_eq_true, if_false]
            split <;> decide
          unfold TokenReader.invite canonical
          rw [if_neg (by omega), hasId, valid]
          exact exact_pure _
  | some id =>
      cases issued : token.issuedAt with
      | none => simp [hasId, issued] at valid
      | some issuedAt =>
          simp only [hasId, issued, bind_ok] at valid
          rcases valid with ⟨bytes, decoded, later⟩
          have third : token.version.toNat = 3 := by
            unfold version
            rw [hasId]
            rfl
          refine ⟨bytes ++ (bigEndian 8 issuedAt.toNat ++
            bigEndian 8 (token.expiresAt.getD 0).toNat), ?_, ?_⟩
          · simp only [inviteBytes, hasId, issued, decoded, bind, Except.bind, Option.isSome_some,
              true_and]
            rfl
          · unfold TokenReader.invite
            rw [third, if_pos (by decide)]
            apply exact_bind (exact_take _ (decodeInviteId_length decoded))
            apply exact_bind (TokenReader.exact_number issuedAt.toNat_lt)
            apply exact_last (TokenReader.exact_number (token.expiresAt.getD 0).toNat_lt)
            have sameId : token.canonical.inviteId = some (encodeInviteId bytes) := by
              rw [canonical, hasId, Option.map_some, canonicalId, decoded]
            have sameExpiry : (if (token.expiresAt.getD 0).toNat ≠ 0
                then some (UInt64.ofNat (token.expiresAt.getD 0).toNat) else none) =
                  token.expiresAt := by
              cases expires : token.expiresAt with
              | none => rfl
              | some expiresAt =>
                  rw [expires] at later
                  have positive : (expiresAt.toNat ≠ 0) := by
                    intro zero
                    apply refuseIf_ok.mp later
                    rw [UInt64.le_iff_toNat_le, zero]
                    exact Nat.zero_le _
                  rw [Option.getD_some, if_pos positive, UInt64.ofNat_toNat]
            rw [sameId, sameExpiry, UInt64.ofNat_toNat]
            exact exact_pure _

/-- The name of the network as the reader finds it, its length included. -/
theorem network_joined (token : InviteToken) :
    networkBytes token.network ++
        (if token.inviteId.isSome ∧ token.network.isNone then [0] else []) =
      if token.version.toNat < 2 then []
      else if token.network.isNone then [0] else networkBytes token.network := by
  unfold version
  cases token.inviteId with
  | none =>
      cases token.network with
      | none => rfl
      | some label => simp [networkBytes]
  | some id =>
      cases token.network with
      | none => rfl
      | some label => simp [networkBytes]

theorem version_known (token : InviteToken) :
    ¬ (token.version.toNat ≠ 1 ∧ token.version.toNat ≠ 2 ∧ token.version.toNat ≠ 3) := by
  unfold version
  split
  · decide
  · split <;> decide

theorem network_of_version {token : InviteToken} (old : token.version.toNat < 2) :
    token.network = none := by
  unfold version at old
  cases network : token.network with
  | none => rfl
  | some label =>
      rw [network] at old
      simp only [Option.isSome_some, if_true] at old
      split at old
      · exact absurd old (by decide)
      · exact absurd old (by decide)

/-- The reader takes the bytes of a token and gives the token. -/
theorem exact_reader {token : InviteToken} {bytes : List UInt8}
    (written : token.payload = .ok bytes) : Exact reader bytes token.canonical := by
  unfold payload at written
  rw [bind_ok] at written
  rcases written with ⟨⟨⟩, checked, written⟩
  have valid := (validate_ok token).mp checked
  rcases exact_invite valid.invite with ⟨ending, invite, exactInvite⟩
  rw [invite] at written
  obtain rfl := pure_ok.mp written
  have count : ¬ (token.endpoints.length = 0 ∨ token.endpoints.length > MAX_ENDPOINTS) := by
    rintro (none | many)
    · exact valid.endpoints.1 (List.length_eq_zero_iff.mp none)
    · exact absurd valid.endpoints.2 (Nat.not_le.mpr many)
  have fewEndpoints : token.endpoints.length < 256 :=
    Nat.lt_of_le_of_lt valid.endpoints.2 (by decide)
  have shortName : Text.len token.name < 256 := Nat.lt_of_le_of_lt valid.name.2 (by decide)
  have smallPrefix : token.memberAddress.prefixLen < 256 :=
    Nat.lt_of_le_of_lt valid.address (by decide)
  have version : Exact TokenReader.u8 [token.version] token.version.toNat := by
    have read := TokenReader.exact_u8 token.version.toNat_lt
    rwa [UInt8.ofNat_toNat] at read
  rw [← List.append_assoc (networkBytes token.network), network_joined, ← List.singleton_append]
  unfold baseBytes
  simp only [List.append_assoc, List.cons_append]
  apply exact_bind version
  apply exact_then (TokenReader.exact_refuse token.version_known)
  apply exact_bind (TokenReader.exact_key token.memberPrivateKey.bytes)
  apply exact_bind (TokenReader.exact_key token.hostPublicKey.bytes)
  apply exact_bind (TokenReader.exact_psk token.presharedKey)
  apply exact_bind (TokenReader.exact_ip token.memberAddress.addr)
  rw [← List.singleton_append]
  apply exact_bind (TokenReader.exact_u8 smallPrefix)
  apply exact_then (TokenReader.exact_net token.memberAddress)
  apply exact_bind (TokenReader.exact_ip token.hostVirtualIp)
  rw [← List.singleton_append]
  apply exact_bind (TokenReader.exact_u8 fewEndpoints)
  apply exact_then (TokenReader.exact_refuse count)
  apply exact_bind (exact_times token.endpoints
    (fun endpoint _ => TokenReader.exact_endpoint endpoint))
  apply exact_bind (TokenReader.exact_text shortName _)
  apply exact_bind (exact_network valid.network network_of_version)
  exact exact_map _ exactInvite

/-! ### Tokens as text -/

/-- The same token, ids of invitations compared by their bytes. -/
def SameAs (one two : InviteToken) : Prop :=
  { one with inviteId := two.inviteId } = two ∧
    one.inviteId.map decodeInviteId = two.inviteId.map decodeInviteId

theorem decode_canonicalId {id : String} {bytes : List UInt8}
    (decoded : decodeInviteId id = .ok bytes) :
    decodeInviteId (canonicalId id) = .ok bytes := by
  rw [canonicalId, decoded]
  exact decode_encodeInviteId (decodeInviteId_length decoded)

/-- An id that passes the check has bytes. -/
theorem Valid.decoded {token : InviteToken} (valid : token.Valid) {id : String}
    (carries : token.inviteId = some id) : ∃ bytes, decodeInviteId id = .ok bytes := by
  have invite := valid.invite
  unfold validateInvite at invite
  rw [carries] at invite
  cases issued : token.issuedAt with
  | none => simp [issued] at invite
  | some issuedAt =>
      simp only [issued, bind_ok] at invite
      rcases invite with ⟨bytes, decoded, _⟩
      exact ⟨bytes, decoded⟩

theorem canonical_sameAs {token : InviteToken} (valid : token.Valid) :
    token.canonical.SameAs token := by
  refine ⟨rfl, ?_⟩
  cases carries : token.inviteId with
  | none => rw [canonical, carries]
            rfl
  | some id =>
      rcases valid.decoded carries with ⟨bytes, decoded⟩
      rw [canonical, carries, Option.map_some, Option.map_some, Option.map_some,
        decode_canonicalId decoded, decoded]

theorem canonical_valid {token : InviteToken} (valid : token.Valid) : token.canonical.Valid := by
  refine ⟨valid.endpoints, valid.name, valid.address, valid.network, ?_⟩
  have invite := valid.invite
  unfold validateInvite at invite ⊢
  cases carries : token.inviteId with
  | none =>
      have none : token.canonical.inviteId = none := by rw [canonical, carries]; rfl
      rw [carries] at invite
      rw [none]
      exact invite
  | some id =>
      have some : token.canonical.inviteId = some (canonicalId id) := by
        rw [canonical, carries]
        rfl
      rcases valid.decoded carries with ⟨bytes, decoded⟩
      cases issued : token.issuedAt with
      | none =>
          rw [carries, issued] at invite
          cases invite
      | some issuedAt =>
          have sameTime : token.canonical.issuedAt = .some issuedAt := issued
          rw [carries, issued] at invite
          rw [some, sameTime]
          simp only [decoded, bind_ok] at invite
          simp only [decode_canonicalId decoded, bind_ok]
          exact invite

/-- Text without white space in front and behind is not trimmed. -/
theorem trim_plain {text : String} (plain : ∀ c ∈ text.toList, Text.isWhitespace c = false) :
    Text.trim text = text := by
  have left : text.toList.dropWhile Text.isWhitespace = text.toList :=
    Names.dropWhile_of_head (fun c head => plain c (List.mem_of_mem_head? head))
  have right : Text.dropRight Text.isWhitespace text.toList = text.toList :=
    Names.dropRight_of_last (fun c last => plain c (List.mem_of_mem_getLast? last))
  rw [Text.trim, Text.trimMatches, left, right, String.ofList_toList]

theorem stripPrefix_append (front rest : String) :
    Text.stripPrefix (front ++ rest) front = some rest := by
  have starts : Text.startsWith (front ++ rest) front = true := by
    unfold Text.startsWith
    rw [String.toList_append]
    exact List.isPrefixOf_iff_prefix.mpr (List.prefix_append _ _)
  unfold Text.stripPrefix
  rw [if_pos starts, String.toList_append, List.drop_left' String.length_toList,
    String.ofList_toList]

section Base64

variable {encodeBase64 : List UInt8 → String} {decodeBase64 : String → Option (List UInt8)}

/-- What is behind the prefix is decoded and read. -/
theorem parse_prefixed (decodes : ∀ bytes, decodeBase64 (encodeBase64 bytes) = some bytes)
    (plain : ∀ bytes, ∀ c ∈ (encodeBase64 bytes).toList, Text.isWhitespace c = false)
    (bytes : List UInt8) :
    parse decodeBase64 (TOKEN_PREFIX ++ encodeBase64 bytes) = parsePayload bytes := by
  have untouched : Text.trim (TOKEN_PREFIX ++ encodeBase64 bytes) =
      TOKEN_PREFIX ++ encodeBase64 bytes := by
    apply trim_plain
    intro c member
    rw [String.toList_append] at member
    rcases List.mem_append.mp member with front | body
    · have each : TOKEN_PREFIX.toList.all (fun c => !Text.isWhitespace c) = true := by decide
      simpa using List.all_eq_true.mp each c front
    · exact plain bytes c body
  unfold parse
  rw [untouched, stripPrefix_append]
  simp only [decodes]

/-- A written token is read back, and no payload that is a proper part of the written one or
extends it is read at all. -/
theorem token_roundTrips (decodes : ∀ bytes, decodeBase64 (encodeBase64 bytes) = some bytes)
    (plain : ∀ bytes, ∀ c ∈ (encodeBase64 bytes).toList, Text.isWhitespace c = false)
    {token : InviteToken} {text : String} (written : token.encode encodeBase64 = .ok text) :
    (∃ parsed, parse decodeBase64 text = .ok parsed ∧ parsed.SameAs token) ∧
      ∃ payload, text = TOKEN_PREFIX ++ encodeBase64 payload ∧
        ∀ bytes, (bytes <+: payload ∨ payload <+: bytes) → bytes ≠ payload →
          ∃ error, parse decodeBase64 (TOKEN_PREFIX ++ encodeBase64 bytes) = .error error := by
  unfold encode at written
  rw [bind_ok] at written
  rcases written with ⟨payload, made, written⟩
  obtain rfl := pure_ok.mp written
  have exact := exact_reader made
  have valid : token.Valid := by
    unfold InviteToken.payload at made
    rw [bind_ok] at made
    rcases made with ⟨⟨⟩, checked, _⟩
    exact (validate_ok token).mp checked
  constructor
  · refine ⟨token.canonical, ?_, canonical_sameAs valid⟩
    rw [parse_prefixed decodes plain, parsePayload, exact.finish_ok]
    have checked := (validate_ok token.canonical).mpr (canonical_valid valid)
    simp only [bind, Except.bind, checked]
    rfl
  · refine ⟨payload, rfl, ?_⟩
    intro bytes near other
    rcases exact.finish_error "トークン末尾に余分なデータがあります" near other with ⟨error, failed⟩
    refine ⟨error, ?_⟩
    rw [parse_prefixed decodes plain, parsePayload, failed]
    rfl

end Base64

/-- A token of version 3 with one endpoint and no name of the network. -/
def aliceToken : InviteToken where
  memberPrivateKey := ⟨1⟩
  hostPublicKey := ⟨2⟩
  presharedKey := none
  memberAddress := .slash24 0x0a070002
  hostVirtualIp := 0x0a070001
  endpoints := [⟨0xc0a8000c, 51820⟩]
  name := "Alice"
  network := none
  inviteId := some "0123456789ABCDEF0123456789abcdef"
  issuedAt := some 1700000000
  expiresAt := none

theorem token_roundTrips_alice :
    ∃ text, aliceToken.encode Base64Url.encode = .ok text ∧
      ∃ parsed, parse Base64Url.decode text = .ok parsed ∧ parsed.SameAs aliceToken := by
  refine ⟨_, rfl, (token_roundTrips Base64Url.decode_encode ?_ rfl).1⟩
  intro bytes c member
  have each : Base64Url.alphabet.all (fun c => !Text.isWhitespace c) = true := by decide
  simpa using List.all_eq_true.mp each c (Base64Url.encode_alphabet bytes c member)

end InviteToken

end PeerCove
