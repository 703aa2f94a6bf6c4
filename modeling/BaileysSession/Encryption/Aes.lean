import BaileysSession.Shared.ByteCodes
import BaileysSession.Shared.Text
import BaileysSession.Shared.Utf8

set_option autoImplicit false

namespace BaileysSession.Aes

def IV_LENGTH : Nat := 12
def KEY_LENGTH : Nat := 32
def TAG_LENGTH : Nat := 16
def ENCRYPTED_PREFIX : String := "enc:v1:"

/-- AES-256-GCM: the ciphertext of a plaintext, its inverse, and the full tag of a ciphertext, each
under a key and an IV. -/
structure Gcm where
  encrypt : Bytes → Bytes → Bytes → Bytes
  decrypt : Bytes → Bytes → Bytes → Bytes
  tag : Bytes → Bytes → Bytes → Bytes
  tag_length : ∀ key iv ciphertext, key.length = KEY_LENGTH → iv ≠ [] →
    (tag key iv ciphertext).length = TAG_LENGTH
  decrypt_encrypt : ∀ key iv plaintext, key.length = KEY_LENGTH → iv.length = IV_LENGTH →
    decrypt key iv (encrypt key iv plaintext) = plaintext

-- `generateEncryptionKey`, from the bytes it draws.
def generateEncryptionKey (drawn : Bytes) : String := Hex.encode drawn

-- /^[0-9a-fA-F]{64}$/
def isHexKey (key : String) : Bool :=
  decide (key.toList.length = 64) && key.toList.all fun char => (Hex.digit? char).isSome

def resolveKey (key : String) : Except String Bytes :=
  let buffer := if isHexKey key then Hex.decode key else Base64.decode key
  if buffer.length ≠ KEY_LENGTH then
    .error ("Encryption key must be exactly 32 bytes once decoded (got " ++
      toString buffer.length ++ "). Generate a valid one with generateEncryptionKey().")
  else .ok buffer

-- `iv` is what `randomBytes` draws.
def encrypt (gcm : Gcm) (iv : Bytes) (plaintext keyInput : String) : Except String String := do
  let key ← resolveKey keyInput
  let ciphertext := gcm.encrypt key iv (Utf8.encode plaintext)
  let authTag := gcm.tag key iv ciphertext
  pure (ENCRYPTED_PREFIX ++ Base64.encode (iv ++ authTag ++ ciphertext))

-- `setAuthTag` without `authTagLength`.
def isValidTagLength (length : Nat) : Bool :=
  decide (length = 4) || decide (length = 8) || (decide (12 ≤ length) && decide (length ≤ 16))

/-- `createDecipheriv`, `setAuthTag`, `update` and `final` in a row: only as much of the tag is
compared as was given. -/
def decipher (gcm : Gcm) (key iv authTag ciphertext : Bytes) : Except String Bytes :=
  if iv.length = 0 then .error "Invalid initialization vector"
  else if isValidTagLength authTag.length = false then
    .error ("Invalid authentication tag length: " ++ toString authTag.length)
  else if (gcm.tag key iv ciphertext).take authTag.length = authTag then
    .ok (gcm.decrypt key iv ciphertext)
  else .error "Unsupported state or unable to authenticate data"

def withoutPrefix (payload : String) : String :=
  String.ofList (payload.toList.drop ENCRYPTED_PREFIX.length)

def decrypt (gcm : Gcm) (payload keyInput : String) : Except String String :=
  if Text.startsWith payload ENCRYPTED_PREFIX = false then
    .error ("Value does not look like it was encrypted by this package (missing enc:v1: prefix" ++
      ").")
  else do
    let key ← resolveKey keyInput
    let raw := Base64.decode (withoutPrefix payload)
    -- `subarray` clamps both ends.
    let iv := raw.take IV_LENGTH
    let authTag := (raw.take (IV_LENGTH + 16)).drop IV_LENGTH
    let ciphertext := raw.drop (IV_LENGTH + 16)
    let plaintext ← decipher gcm key iv authTag ciphertext
    pure (Utf8.decode plaintext)

def isEncrypted (payload : String) : Bool := Text.startsWith payload ENCRYPTED_PREFIX

/-- One of the two texts of a key: hex digits in any case, or its base64 text. -/
def Spells (text : String) (key : Bytes) : Prop :=
  (isHexKey text = true ∧ Hex.decode text = key) ∨ text = Base64.encode key

theorem base64_not_hex {key : Bytes} (size : key.length = KEY_LENGTH) :
    isHexKey (Base64.encode key) = false := by
  have length : (Base64.encode key).toList.length = 44 := by
    rw [Base64.encode, String.toList_ofList, Base64.encodeChars_length, size]
    rfl
  simp [isHexKey, length]

theorem resolveKey_spells {text : String} {key : Bytes} (size : key.length = KEY_LENGTH)
    (spells : Spells text key) : resolveKey text = .ok key := by
  rcases spells with ⟨hex, rfl⟩ | rfl
  · simp [resolveKey, hex, size]
  · simp [resolveKey, base64_not_hex size, Base64.decode_encode, size]

theorem resolveKey_length {text : String} {key : Bytes} (resolved : resolveKey text = .ok key) :
    key.length = KEY_LENGTH := by
  unfold resolveKey at resolved
  dsimp only at resolved
  generalize (if isHexKey text then Hex.decode text else Base64.decode text) = buffer at resolved
  split at resolved
  · cases resolved
  · rename_i size
    cases resolved
    exact not_not.mp size

theorem generated_spells {drawn : Bytes} (size : drawn.length = KEY_LENGTH) :
    Spells (generateEncryptionKey drawn) drawn := by
  obtain ⟨length, digits⟩ := Hex.encode_digits drawn
  refine .inl ⟨?_, Hex.decode_encode drawn⟩
  rw [size] at length
  simpa [isHexKey, generateEncryptionKey, length, KEY_LENGTH] using digits

theorem withoutPrefix_append (text : String) :
    withoutPrefix (ENCRYPTED_PREFIX ++ text) = text := by
  rw [withoutPrefix, String.toList_append, ← String.length_toList, List.drop_left,
    String.ofList_toList]

theorem decipher_full (gcm : Gcm) {key iv : Bytes} (size : key.length = KEY_LENGTH)
    (some : iv ≠ []) (ciphertext : Bytes) :
    decipher gcm key iv (gcm.tag key iv ciphertext) ciphertext =
      .ok (gcm.decrypt key iv ciphertext) := by
  have full := gcm.tag_length key iv ciphertext size some
  have present : ¬ iv.length = 0 := fun none => some (List.eq_nil_of_length_eq_zero none)
  have whole : (gcm.tag key iv ciphertext).take TAG_LENGTH = gcm.tag key iv ciphertext :=
    List.take_of_length_le (Nat.le_of_eq full)
  rw [decipher, if_neg present, full, whole, if_neg (by decide), if_pos rfl]

theorem payload_parts {iv authTag : Bytes} (fresh : iv.length = IV_LENGTH)
    (full : authTag.length = TAG_LENGTH) (ciphertext : Bytes) :
    (iv ++ authTag ++ ciphertext).take IV_LENGTH = iv ∧
      ((iv ++ authTag ++ ciphertext).take (IV_LENGTH + 16)).drop IV_LENGTH = authTag ∧
      (iv ++ authTag ++ ciphertext).drop (IV_LENGTH + 16) = ciphertext := by
  have front : (iv ++ authTag).length = IV_LENGTH + 16 := by
    rw [List.length_append, fresh, full]
    rfl
  refine ⟨?_, ?_, ?_⟩
  · rw [← fresh, List.append_assoc, List.take_left]
  · rw [← front, List.take_left, ← fresh, List.drop_left]
  · rw [← front, List.drop_left]

theorem decrypt_prefixed (gcm : Gcm) (raw : Bytes) (keyInput : String) :
    decrypt gcm (ENCRYPTED_PREFIX ++ Base64.encode raw) keyInput =
      (resolveKey keyInput >>= fun key =>
        decipher gcm key (raw.take IV_LENGTH) ((raw.take (IV_LENGTH + 16)).drop IV_LENGTH)
          (raw.drop (IV_LENGTH + 16)) >>= fun plaintext => pure (Utf8.decode plaintext)) := by
  rw [decrypt, Text.startsWith_append, withoutPrefix_append, Base64.decode_encode]
  rfl

theorem encrypt_payload (gcm : Gcm) (iv : Bytes) (plaintext : String) {keyInput : String}
    {key : Bytes} (resolved : resolveKey keyInput = .ok key) :
    encrypt gcm iv plaintext keyInput = .ok (ENCRYPTED_PREFIX ++ Base64.encode
      (iv ++ gcm.tag key iv (gcm.encrypt key iv (Utf8.encode plaintext)) ++
        gcm.encrypt key iv (Utf8.encode plaintext))) := by
  rw [encrypt, resolved]
  rfl

theorem decrypt_payload (gcm : Gcm) {iv key : Bytes} (plaintext : String) {keyInput : String}
    (fresh : iv.length = IV_LENGTH) (size : key.length = KEY_LENGTH)
    (resolved : resolveKey keyInput = .ok key) :
    decrypt gcm (ENCRYPTED_PREFIX ++ Base64.encode
      (iv ++ gcm.tag key iv (gcm.encrypt key iv (Utf8.encode plaintext)) ++
        gcm.encrypt key iv (Utf8.encode plaintext))) keyInput = .ok plaintext := by
  have some : iv ≠ [] := by
    rintro rfl
    cases fresh
  let ciphertext := gcm.encrypt key iv (Utf8.encode plaintext)
  obtain ⟨ivPart, tagPart, rest⟩ := payload_parts fresh
    (gcm.tag_length key iv ciphertext size some) ciphertext
  have deciphered := decipher_full gcm size some ciphertext
  rw [gcm.decrypt_encrypt key iv _ size fresh] at deciphered
  rw [decrypt_prefixed, resolved, ivPart, tagPart, rest]
  show (decipher gcm key iv _ ciphertext >>= _) = _
  rw [deciphered]
  exact congrArg Except.ok (Utf8.decode_encode plaintext)

/-- Whatever is encrypted is read back, with the key in either of its spellings on either side. -/
theorem decrypt_encrypt (gcm : Gcm) (iv key : Bytes) (plaintext encryptKey decryptKey : String)
    (fresh : iv.length = IV_LENGTH) (size : key.length = KEY_LENGTH)
    (encrypts : Spells encryptKey key) (decrypts : Spells decryptKey key) :
    resolveKey encryptKey = .ok key ∧ resolveKey decryptKey = .ok key ∧
      ∃ payload, encrypt gcm iv plaintext encryptKey = .ok payload ∧
        isEncrypted payload = true ∧ decrypt gcm payload decryptKey = .ok plaintext := by
  have left := resolveKey_spells size encrypts
  have right := resolveKey_spells size decrypts
  exact ⟨left, right, _, encrypt_payload gcm iv plaintext left, Text.startsWith_append _ _,
    decrypt_payload gcm plaintext fresh size right⟩

/-- The stream of a counter mode on bytes, as far as the stream goes. -/
def mask : Bytes → Bytes → Bytes
  | stream :: later, byte :: rest => (byte ^^^ stream) :: mask later rest
  | _, bytes => bytes

theorem mask_mask (stream bytes : Bytes) : mask stream (mask stream bytes) = bytes := by
  induction stream generalizing bytes with
  | nil => simp [mask]
  | cons first later ih =>
    cases bytes with
    | nil => simp [mask]
    | cons byte rest =>
      rw [mask, mask, ih, UInt8.xor_assoc, UInt8.xor_self, UInt8.xor_zero]

def zeroKey : Bytes := List.replicate 32 0

def zeroIv : Bytes := List.replicate 12 0

-- AES-256-GCM under the zero key and the zero IV: the first block of its stream, and the tags of
-- the empty ciphertext and of that of the two bytes of an empty JSON object.
def zeroStream : Bytes :=
  [0xce, 0xa7, 0x40, 0x3d, 0x4d, 0x60, 0x6b, 0x6e, 0x07, 0x4e, 0xc5, 0xd3, 0xba, 0xf3, 0x9d, 0x18]

def emptyTag : Bytes :=
  [0x53, 0x0f, 0x8a, 0xfb, 0xc7, 0x45, 0x36, 0xb9, 0xa9, 0x63, 0xb4, 0xf1, 0xc4, 0xcb, 0x73, 0x8b]

def objectTag : Bytes :=
  [0xf0, 0x12, 0xe8, 0x64, 0x78, 0xac, 0xf3, 0xaf, 0x1b, 0x11, 0x52, 0xb4, 0x8b, 0x5f, 0xbf, 0x49]

def zeroKeyGcm : Gcm where
  encrypt := fun _ _ => mask zeroStream
  decrypt := fun _ _ => mask zeroStream
  tag := fun _ _ ciphertext => if ciphertext = [] then emptyTag else objectTag
  tag_length := by
    intro _ _ ciphertext _ _
    split <;> rfl
  decrypt_encrypt := fun _ _ plaintext _ _ => mask_mask zeroStream plaintext

def emptyObject : String := String.ofList [Char.ofNat 0x7B, Char.ofNat 0x7D]

theorem empty_object_read_back :
    encrypt zeroKeyGcm zeroIv emptyObject (generateEncryptionKey zeroKey) =
        .ok "enc:v1:AAAAAAAAAAAAAAAA8BLoZHis868bEVK0i1+/SbXa" ∧
      ∃ payload, encrypt zeroKeyGcm zeroIv emptyObject (generateEncryptionKey zeroKey) =
          .ok payload ∧ isEncrypted payload = true ∧
        decrypt zeroKeyGcm payload (Base64.encode zeroKey) = .ok emptyObject :=
  ⟨by decide +kernel, (decrypt_encrypt zeroKeyGcm zeroIv zeroKey emptyObject
    (generateEncryptionKey zeroKey) (Base64.encode zeroKey) rfl rfl (generated_spells rfl)
    (.inr rfl)).2.2⟩

structure EncryptionOptions where
  enabled : Bool
  key : String

-- What the factory stores for the text of a value, and what it makes of a stored text.
def encode (gcm : Gcm) (iv : Bytes) (encryption : Option EncryptionOptions) (json : String) :
    Except String String :=
  match encryption with
  | some options => if options.enabled then encrypt gcm iv json options.key else .ok json
  | none => .ok json

def decode (gcm : Gcm) (encryption : Option EncryptionOptions) (raw : String) :
    Except String String :=
  match encryption with
  | some options => if options.enabled then decrypt gcm raw options.key else .ok raw
  | none => .ok raw

/-- Values come back under every setting whose key, if it is used, spells 32 bytes. -/
theorem decode_encode (gcm : Gcm) {iv : Bytes} (fresh : iv.length = IV_LENGTH)
    (encryption : Option EncryptionOptions)
    (keyed : ∀ options ∈ encryption, options.enabled = true →
      ∃ key : Bytes, key.length = KEY_LENGTH ∧ Spells options.key key) (json : String) :
    (encode gcm iv encryption json >>= decode gcm encryption) = .ok json := by
  cases encryption with
  | none => rfl
  | some options =>
    dsimp only [encode, decode]
    by_cases enabled : options.enabled = true
    · obtain ⟨key, size, spells⟩ := keyed options rfl enabled
      have resolved := resolveKey_spells size spells
      rw [if_pos enabled, encrypt_payload gcm iv json resolved]
      show decode gcm (some options) _ = _
      rw [decode, if_pos enabled, decrypt_payload gcm json fresh size resolved]
    · rw [if_neg enabled]
      show decode gcm (some options) json = _
      rw [decode, if_neg enabled]

end BaileysSession.Aes
