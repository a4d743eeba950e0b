/-
Module: PeerCove.Proofs.BackupSealing
Layer: Proofs
Purpose: The header of a backup reads back as it was written, and `decrypt` returns the payload that
  `create` has sealed, unless the file is too large; a bound of its size.
Trusted boundary: none
Main exports: decodeHeader_encodeHeader, toVec_length_le, OpensSealed, sealPayload_length,
  decrypt_seal, decrypt_tooLarge
-/
import PeerCove.Ops.Backup

namespace PeerCove

open Fallible

/-! ### The header -/

@[simp] theorem littleEndian_length (count value : Nat) :
    (littleEndian count value).length = count := by
  simp [littleEndian]

theorem littleValue_littleEndian {count value : Nat} (small : value < 256 ^ count) :
    littleValue (littleEndian count value) = value := by
  rw [littleValue, littleEndian, List.reverse_reverse, Wire.bigValue_bigEndian small]

/-- A part of the header stands where the parts before it end. -/
theorem headerPart_parts (before : List (List UInt8)) (part : List UInt8)
    (after : List (List UInt8)) {start stop : Nat}
    (begins : (before.map List.length).sum = start) (length : part.length = stop - start) :
    headerPart (before ++ part :: after).flatten start stop = part := by
  have flat : (before ++ part :: after).flatten = before.flatten ++ (part ++ after.flatten) := by
    rw [List.flatten_append, List.flatten_cons]
  have front : before.flatten.length = start := by
    rw [List.length_flatten, begins]
  rw [headerPart, flat, ← front, List.drop_left, front, ← length, List.take_left]

theorem magic_length : Backup.MAGIC.length = 8 := by decide

theorem encodeHeader_parts (header : BackupHeader) :
    encodeHeader header = [Backup.MAGIC, littleEndian 2 Backup.FORMAT_VERSION,
      littleEndian 4 header.memoryKib, littleEndian 4 header.iterations,
      littleEndian 4 header.parallelism, header.salt, header.nonce,
      littleEndian 8 header.ciphertextLen].flatten := by
  simp only [encodeHeader, List.flatten_cons, List.flatten_nil, List.append_nil, List.append_assoc]

/-- A header that has room for its numbers. -/
structure BackupHeader.Fits (header : BackupHeader) : Prop where
  memoryKib : header.memoryKib < 256 ^ 4
  iterations : header.iterations < 256 ^ 4
  parallelism : header.parallelism < 256 ^ 4
  salt : header.salt.length = Backup.SALT_LEN
  nonce : header.nonce.length = Backup.NONCE_LEN
  ciphertextLen : header.ciphertextLen < 256 ^ 8

theorem encodeHeader_length {header : BackupHeader} (salt : header.salt.length = Backup.SALT_LEN)
    (nonce : header.nonce.length = Backup.NONCE_LEN) :
    (encodeHeader header).length = Backup.HEADER_LEN := by
  rw [encodeHeader_parts, List.length_flatten]
  simp only [List.map_cons, List.map_nil, magic_length, littleEndian_length, salt, nonce]
  rfl

theorem decodeHeader_encodeHeader {header : BackupHeader} (fits : header.Fits)
    (rest : List UInt8) :
    decodeHeader (encodeHeader header ++ rest) = .ok (header, encodeHeader header) := by
  have whole := encodeHeader_length fits.salt fits.nonce
  have front : (encodeHeader header ++ rest).take Backup.HEADER_LEN = encodeHeader header := by
    rw [← whole, List.take_left]
  have long : ¬ (encodeHeader header ++ rest).length < Backup.HEADER_LEN := by
    rw [List.length_append, whole]
    omega
  have magic : headerPart (encodeHeader header) 0 8 = Backup.MAGIC := by
    rw [encodeHeader_parts]
    exact headerPart_parts [] Backup.MAGIC _ rfl magic_length
  have version : headerPart (encodeHeader header) 8 10 = littleEndian 2 Backup.FORMAT_VERSION := by
    rw [encodeHeader_parts]
    refine headerPart_parts [Backup.MAGIC] (littleEndian 2 Backup.FORMAT_VERSION) _ ?_ (by simp)
    simp only [List.map_cons, List.map_nil, magic_length]
    rfl
  have memoryKib : headerPart (encodeHeader header) 10 14 = littleEndian 4 header.memoryKib := by
    rw [encodeHeader_parts]
    refine headerPart_parts [Backup.MAGIC, littleEndian 2 Backup.FORMAT_VERSION]
      (littleEndian 4 header.memoryKib) _ ?_ (by simp)
    simp only [List.map_cons, List.map_nil, magic_length, littleEndian_length]
    rfl
  have iterations : headerPart (encodeHeader header) 14 18 = littleEndian 4 header.iterations := by
    rw [encodeHeader_parts]
    refine headerPart_parts [Backup.MAGIC, littleEndian 2 Backup.FORMAT_VERSION,
      littleEndian 4 header.memoryKib] (littleEndian 4 header.iterations) _ ?_ (by simp)
    simp only [List.map_cons, List.map_nil, magic_length, littleEndian_length]
    rfl
  have parallelism : headerPart (encodeHeader header) 18 22 =
      littleEndian 4 header.parallelism := by
    rw [encodeHeader_parts]
    refine headerPart_parts [Backup.MAGIC, littleEndian 2 Backup.FORMAT_VERSION,
      littleEndian 4 header.memoryKib, littleEndian 4 header.iterations]
      (littleEndian 4 header.parallelism) _ ?_ (by simp)
    simp only [List.map_cons, List.map_nil, magic_length, littleEndian_length]
    rfl
  have salt : headerPart (encodeHeader header) 22 38 = header.salt := by
    rw [encodeHeader_parts]
    refine headerPart_parts [Backup.MAGIC, littleEndian 2 Backup.FORMAT_VERSION,
      littleEndian 4 header.memoryKib, littleEndian 4 header.iterations,
      littleEndian 4 header.parallelism] header.salt _ ?_ fits.salt
    simp only [List.map_cons, List.map_nil, magic_length, littleEndian_length]
    rfl
  have nonce : headerPart (encodeHeader header) 38 62 = header.nonce := by
    rw [encodeHeader_parts]
    refine headerPart_parts [Backup.MAGIC, littleEndian 2 Backup.FORMAT_VERSION,
      littleEndian 4 header.memoryKib, littleEndian 4 header.iterations,
      littleEndian 4 header.parallelism, header.salt] header.nonce _ ?_ fits.nonce
    simp only [List.map_cons, List.map_nil, magic_length, littleEndian_length, fits.salt]
    rfl
  have ciphertextLen : headerPart (encodeHeader header) 62 70 =
      littleEndian 8 header.ciphertextLen := by
    rw [encodeHeader_parts]
    refine headerPart_parts [Backup.MAGIC, littleEndian 2 Backup.FORMAT_VERSION,
      littleEndian 4 header.memoryKib, littleEndian 4 header.iterations,
      littleEndian 4 header.parallelism, header.salt, header.nonce]
      (littleEndian 8 header.ciphertextLen) _ ?_ (by simp)
    simp only [List.map_cons, List.map_nil, magic_length, littleEndian_length, fits.salt,
      fits.nonce]
    rfl
  have one : littleValue (littleEndian 2 Backup.FORMAT_VERSION) = Backup.FORMAT_VERSION :=
    littleValue_littleEndian (by decide)
  have read : orFail (if (encodeHeader header ++ rest).length < Backup.HEADER_LEN then none
      else some ((encodeHeader header ++ rest).take Backup.HEADER_LEN))
      "バックアップが途中で切れています" = .ok (encodeHeader header) := by
    rw [if_neg long, front]
    rfl
  rw [decodeHeader, read]
  refine bind_ok.mpr ⟨_, rfl, bind_ok.mpr ⟨(), ?_, bind_ok.mpr ⟨(), ?_, ?_⟩⟩⟩
  · exact refuseIf_ok.mpr (fun differ => differ magic)
  · refine refuseIf_ok.mpr (fun differ => differ ?_)
    rw [version, one]
  · rw [memoryKib, iterations, parallelism, salt, nonce, ciphertextLen,
      littleValue_littleEndian fits.memoryKib, littleValue_littleEndian fits.iterations,
      littleValue_littleEndian fits.parallelism, littleValue_littleEndian fits.ciphertextLen]
    rfl

/-! ### A bound of the size -/

theorem utf8_length_le (chars : List Char) :
    (chars.flatMap String.utf8EncodeChar).length ≤ 4 * chars.length := by
  induction chars with
  | nil => simp
  | cons c rest ih =>
      have one := Char.utf8Size_le_four c
      rw [List.flatMap_cons, List.length_append, List.length_cons, String.length_utf8EncodeChar]
      omega

theorem length_le_utf8 (chars : List Char) :
    chars.length ≤ (chars.flatMap String.utf8EncodeChar).length := by
  induction chars with
  | nil => simp
  | cons c rest ih =>
      have one := Char.utf8Size_pos c
      rw [List.flatMap_cons, List.length_append, List.length_cons, String.length_utf8EncodeChar]
      omega

theorem toList_length_le (text : String) : text.toList.length ≤ text.utf8ByteSize := by
  have bytes : text.utf8ByteSize = (text.toList.flatMap String.utf8EncodeChar).length := by
    rw [← String.size_toByteArray, ← String.utf8Encode_toList, List.utf8Encode]
    simp
  rw [bytes]
  exact length_le_utf8 text.toList

theorem jsonChar_length_le (c : Char) : (jsonChar c).length ≤ 6 := by
  have digits : ∀ value < 32, (Nat.toDigits 16 value).length ≤ 4 := by decide
  unfold jsonChar
  by_cases control : c.toNat < 32
  · have short := digits c.toNat control
    split_ifs <;> simp
    omega
  · split_ifs <;> simp

/-- What the JSON text of a string takes at most. -/
def stringBound (text : String) : Nat :=
  6 * text.utf8ByteSize + 2

theorem jsonString_length_le (text : String) : (jsonString text).length ≤ stringBound text := by
  have chars : ∀ chars : List Char, (chars.flatMap jsonChar).length ≤ 6 * chars.length := by
    intro chars
    induction chars with
    | nil => simp
    | cons c rest ih =>
        have one := jsonChar_length_le c
        rw [List.flatMap_cons, List.length_append, List.length_cons]
        omega
  have each := chars text.toList
  have bytes := toList_length_le text
  simp only [jsonString, stringBound, List.length_cons, List.length_append, List.length_nil]
  omega

theorem commas_length_le (items : List (List Char)) :
    ([','].intercalate items).length ≤ (items.map (fun item => item.length + 1)).sum := by
  induction items with
  | nil => simp
  | cons item rest ih =>
      cases rest with
      | nil => simp
      | cons next rest =>
          rw [List.intercalate_cons_cons]
          simp only [List.length_append, List.map_cons, List.sum_cons, List.length_cons,
            List.length_nil] at ih ⊢
          omega

theorem sum_map_le {α : Type} {f g : α → Nat} {items : List α} (each : ∀ item, f item ≤ g item) :
    (items.map f).sum ≤ (items.map g).sum := by
  induction items with
  | nil => exact Nat.le_refl 0
  | cons item rest ih =>
      rw [List.map_cons, List.map_cons, List.sum_cons, List.sum_cons]
      exact Nat.add_le_add (each item) ih

theorem jsonArray_length_le {α : Type} {f : α → List Char} {bound : α → Nat} {items : List α}
    (each : ∀ item, (f item).length ≤ bound item) :
    (jsonArray (items.map f)).length ≤ 2 + (items.map (fun item => bound item + 1)).sum := by
  have commas := commas_length_le (items.map f)
  rw [List.map_map] at commas
  have bounded : (items.map ((fun item => item.length + 1) ∘ f)).sum ≤
      (items.map (fun item => bound item + 1)).sum :=
    sum_map_le (fun item => Nat.succ_le_succ (each item))
  simp only [jsonArray, List.length_cons, List.length_append, List.length_nil]
  omega

/-- What the JSON text of an object takes at most, where its values take this much. -/
def objectBound (fields : List (String × Nat)) : Nat :=
  2 + (fields.map (fun field => stringBound field.1 + field.2 + 2)).sum

theorem jsonObject_length_le (fields : List (String × List Char)) :
    (jsonObject fields).length ≤
      objectBound (fields.map (fun field => (field.1, field.2.length))) := by
  have commas := commas_length_le (fields.map (fun field => jsonString field.1 ++ ':' :: field.2))
  rw [List.map_map] at commas
  have bounded : (fields.map ((fun item => item.length + 1) ∘
      (fun field => jsonString field.1 ++ ':' :: field.2))).sum ≤
      (fields.map (fun field => stringBound field.1 + field.2.length + 2)).sum := by
    refine sum_map_le (fun field => ?_)
    have name := jsonString_length_le field.1
    simp only [Function.comp_apply, List.length_append, List.length_cons]
    omega
  simp only [jsonObject, objectBound, List.length_cons, List.length_append, List.length_nil,
    List.map_map, Function.comp_def] at bounded commas ⊢
  omega

def BackupPreview.bound (preview : BackupPreview) : Nat :=
  objectBound [
    ("networkName", stringBound preview.networkName),
    ("role", 8),
    ("sourceOs", stringBound preview.sourceOs),
    ("createdAtUnixMs", (Nat.toDigits 10 preview.createdAtUnixMs).length),
    ("categories", 2 + (preview.categories.map (fun category => stringBound category + 1)).sum),
    ("configFile", stringBound preview.configFile),
    ("memberKeyRotationRecommended", 5)]

def BackupFile.bound (file : BackupFile) : Nat :=
  objectBound [
    ("path", stringBound file.path),
    ("content_base64", stringBound file.contentBase64),
    ("secret", 5)]

/-- What a payload takes at most, without its text being written out. -/
def BackupPayload.bound (payload : BackupPayload) : Nat :=
  4 * objectBound [
    ("preview", payload.preview.bound),
    ("files", 2 + (payload.files.map (fun file => file.bound + 1)).sum)]

theorem jsonBool_length_le (value : Bool) : (jsonBool value).length ≤ 5 := by
  cases value <;> decide

theorem BackupPreview.json_length_le (preview : BackupPreview) :
    preview.json.length ≤ preview.bound := by
  refine (jsonObject_length_le _).trans ?_
  have name := jsonString_length_le preview.networkName
  have role : (jsonString preview.role.text).length ≤ 8 := by
    cases preview.role <;> decide
  have os := jsonString_length_le preview.sourceOs
  have categories := @jsonArray_length_le _ jsonString stringBound preview.categories
    jsonString_length_le
  have config := jsonString_length_le preview.configFile
  have rotation := jsonBool_length_le preview.memberKeyRotationRecommended
  simp only [BackupPreview.bound, objectBound, List.map_cons, List.map_nil, List.sum_cons,
    List.sum_nil]
  omega

theorem BackupFile.json_length_le (file : BackupFile) : file.json.length ≤ file.bound := by
  refine (jsonObject_length_le _).trans ?_
  have path := jsonString_length_le file.path
  have content := jsonString_length_le file.contentBase64
  have kept := jsonBool_length_le file.secret
  simp only [BackupFile.bound, objectBound, List.map_cons, List.map_nil, List.sum_cons,
    List.sum_nil]
  omega

theorem toVec_length_le (payload : BackupPayload) : payload.toVec.length ≤ payload.bound := by
  refine (utf8_length_le _).trans (Nat.mul_le_mul_left 4 ((jsonObject_length_le _).trans ?_))
  have preview := payload.preview.json_length_le
  have files := @jsonArray_length_le _ BackupFile.json BackupFile.bound payload.files
    BackupFile.json_length_le
  simp only [objectBound, List.map_cons, List.map_nil, List.sum_cons, List.sum_nil]
  omega

/-! ### Sealing and opening -/

@[simp] theorem orFail_ok {α : Type} {value : Option α} {message : String} {result : α} :
    orFail value message = .ok result ↔ value = some result := by
  cases value with
  | none => simp [orFail]
  | some value => simp [orFail]

section

variable {δ κ : Type} {tools : BackupTools δ κ} {source : BackupSource} {passphrase : String}
  {payload : BackupPayload} {file : List UInt8}

/-- What backups rely on: the JSON text of the payload is read as the payload, and what is encrypted
is decrypted, with a tag more in its length. -/
structure OpensSealed (tools : BackupTools δ κ) (payload : BackupPayload) : Prop where
  json : tools.fromSlice payload.toVec = some payload
  sealed : ∀ key nonce aad text ciphertext, tools.encrypt key nonce aad text = some ciphertext →
    tools.decrypt key nonce aad ciphertext = some text ∧
      ciphertext.length = text.length + Backup.TAG_LEN

theorem sealPayload_ok (written : sealPayload tools source passphrase payload = .ok file) :
    ∃ key ciphertext,
      deriveKey tools passphrase (backupHeader source payload.toVec.length) = .ok key ∧
      tools.encrypt key source.nonce (encodeHeader (backupHeader source payload.toVec.length))
        payload.toVec = some ciphertext ∧
      file = encodeHeader (backupHeader source payload.toVec.length) ++ ciphertext := by
  unfold sealPayload at written
  obtain ⟨key, derived, written⟩ := bind_ok.mp written
  obtain ⟨ciphertext, encrypted, written⟩ := bind_ok.mp written
  exact ⟨key, ciphertext, derived, orFail_ok.mp encrypted, (pure_ok.mp written).symm⟩

/-- The size of a backup. -/
def backupSize (payload : BackupPayload) : Nat :=
  Backup.HEADER_LEN + payload.toVec.length + Backup.TAG_LEN

theorem sealPayload_length (opens : OpensSealed tools payload)
    (written : sealPayload tools source passphrase payload = .ok file) :
    file.length = backupSize payload := by
  obtain ⟨key, ciphertext, _, encrypted, rfl⟩ := sealPayload_ok written
  rw [List.length_append, encodeHeader_length source.saltLen source.nonceLen,
    (opens.sealed _ _ _ _ _ encrypted).2, backupSize, Nat.add_assoc]

/-- A backup that is not too large is opened with its passphrase. -/
theorem decrypt_seal (opens : OpensSealed tools payload)
    (valid : validatePassphrase passphrase = .ok ())
    (written : sealPayload tools source passphrase payload = .ok file)
    (small : backupSize payload ≤ Backup.MAX_BACKUP_BYTES) :
    decryptBackup tools file passphrase = .ok payload := by
  have length := sealPayload_length opens written
  obtain ⟨key, ciphertext, derived, encrypted, rfl⟩ := sealPayload_ok written
  obtain ⟨decrypted, tagged⟩ := opens.sealed _ _ _ _ _ encrypted
  have fits : (backupHeader source payload.toVec.length).Fits := by
    have numbers : Backup.MEMORY_KIB < 256 ^ 4 ∧ Backup.ITERATIONS < 256 ^ 4 ∧
        Backup.PARALLELISM < 256 ^ 4 := by decide
    refine ⟨numbers.1, numbers.2.1, numbers.2.2, source.saltLen, source.nonceLen, ?_⟩
    -- what passes the size check has room in the header
    have bound : payload.toVec.length + Backup.TAG_LEN ≤ Backup.MAX_BACKUP_BYTES := by
      unfold backupSize at small
      omega
    exact Nat.lt_of_le_of_lt bound (by decide)
  have rest : (encodeHeader (backupHeader source payload.toVec.length) ++ ciphertext).drop
      Backup.HEADER_LEN = ciphertext := by
    have front : (encodeHeader (backupHeader source payload.toVec.length)).length =
        Backup.HEADER_LEN := encodeHeader_length source.saltLen source.nonceLen
    rw [← front, List.drop_left]
  unfold decryptBackup
  refine bind_ok.mpr ⟨(), valid, bind_ok.mpr ⟨(), ?_, bind_ok.mpr ⟨_,
    decodeHeader_encodeHeader fits ciphertext, ?_⟩⟩⟩
  · exact refuseIf_ok.mpr (by rw [length]; omega)
  · refine bind_ok.mpr ⟨(), ?_, bind_ok.mpr ⟨key, derived, bind_ok.mpr ⟨payload.toVec, ?_, ?_⟩⟩⟩
    · refine refuseIf_ok.mpr (fun differ => differ ?_)
      rw [rest, tagged]
      rfl
    · rw [rest]
      exact orFail_ok.mpr decrypted
    · exact orFail_ok.mpr opens.json

/-- A larger file is not opened. -/
theorem decrypt_tooLarge (large : Backup.MAX_BACKUP_BYTES < file.length) (other : BackupPayload) :
    decryptBackup tools file passphrase ≠ .ok other := by
  intro opened
  unfold decryptBackup at opened
  obtain ⟨_, _, opened⟩ := bind_ok.mp opened
  obtain ⟨_, fine, _⟩ := bind_ok.mp opened
  exact refuseIf_ok.mp fine large

end

end PeerCove
