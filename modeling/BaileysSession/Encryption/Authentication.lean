import BaileysSession.Encryption.Aes

set_option autoImplicit false

namespace BaileysSession.Aes

/-- `decrypt` throws, or the whole tag stands after the IV and is the right one for the rest. -/
def FullyAuthenticated (gcm : Gcm) (payload keyInput : String) : Prop :=
  ∀ text, decrypt gcm payload keyInput = .ok text →
    ∃ key iv authTag ciphertext, resolveKey keyInput = .ok key ∧
      Base64.decode (withoutPrefix payload) = iv ++ authTag ++ ciphertext ∧
      iv.length = IV_LENGTH ∧ authTag.length = TAG_LENGTH ∧ authTag = gcm.tag key iv ciphertext

-- Four, eight or twelve to fifteen bytes after the IV, which are the first ones of the tag that an
-- empty ciphertext has.
def Truncated (gcm : Gcm) (payload keyInput : String) : Prop :=
  let raw := Base64.decode (withoutPrefix payload)
  isEncrypted payload = true ∧ (raw.length = 16 ∨ raw.length = 20 ∨ 24 ≤ raw.length) ∧
    raw.length < 28 ∧ ∃ key, resolveKey keyInput = .ok key ∧
      (gcm.tag key (raw.take IV_LENGTH) []).take (raw.length - IV_LENGTH) = raw.drop IV_LENGTH

theorem isValidTagLength_iff (length : Nat) : isValidTagLength length = true ↔
    length = 4 ∨ length = 8 ∨ (12 ≤ length ∧ length ≤ 16) := by
  simp only [isValidTagLength, Bool.or_eq_true, Bool.and_eq_true, decide_eq_true_eq]
  omega

theorem decipher_ok_iff (gcm : Gcm) (key iv authTag ciphertext plaintext : Bytes) :
    decipher gcm key iv authTag ciphertext = .ok plaintext ↔
      iv.length ≠ 0 ∧ isValidTagLength authTag.length = true ∧
        (gcm.tag key iv ciphertext).take authTag.length = authTag ∧
        gcm.decrypt key iv ciphertext = plaintext := by
  unfold decipher
  by_cases empty : iv.length = 0
  · simp [empty]
  by_cases valid : isValidTagLength authTag.length = true
  · rw [if_neg empty, if_neg (by simp [valid])]
    by_cases same : (gcm.tag key iv ciphertext).take authTag.length = authTag
    · simp [empty, valid, same]
    · simp [same]
  · simp [empty, valid]

theorem decrypt_ok_iff (gcm : Gcm) (payload keyInput text : String) :
    decrypt gcm payload keyInput = .ok text ↔
      isEncrypted payload = true ∧ ∃ key, resolveKey keyInput = .ok key ∧ ∃ plaintext,
        decipher gcm key ((Base64.decode (withoutPrefix payload)).take IV_LENGTH)
          (((Base64.decode (withoutPrefix payload)).take (IV_LENGTH + 16)).drop IV_LENGTH)
          ((Base64.decode (withoutPrefix payload)).drop (IV_LENGTH + 16)) = .ok plaintext ∧
        Utf8.decode plaintext = text := by
  unfold decrypt isEncrypted
  cases found : Text.startsWith payload ENCRYPTED_PREFIX with
  | false => simp
  | true =>
    cases resolved : resolveKey keyInput with
    | error message => simp [bind, Except.bind]
    | ok key =>
      rw [if_neg (by decide)]
      simp only [bind, Except.bind, pure, Except.pure, true_and, Except.ok.injEq,
        exists_eq_left']
      cases decipher gcm key _ _ _ with
      | error message => simp
      | ok plaintext => simp

theorem short_parts {raw : Bytes} (short : raw.length < 28) :
    (raw.take (IV_LENGTH + 16)).drop IV_LENGTH = raw.drop IV_LENGTH ∧
      raw.drop (IV_LENGTH + 16) = [] := by
  have size : raw.length ≤ IV_LENGTH + 16 := by
    simp only [IV_LENGTH]
    omega
  rw [List.take_of_length_le size, List.drop_of_length_le size]
  exact ⟨rfl, rfl⟩

theorem long_parts {raw : Bytes} (long : 28 ≤ raw.length) :
    raw = raw.take IV_LENGTH ++ (raw.take (IV_LENGTH + 16)).drop IV_LENGTH ++
        raw.drop (IV_LENGTH + 16) ∧
      (raw.take IV_LENGTH).length = IV_LENGTH ∧
      ((raw.take (IV_LENGTH + 16)).drop IV_LENGTH).length = TAG_LENGTH := by
  have front : (raw.take (IV_LENGTH + 16)).take IV_LENGTH = raw.take IV_LENGTH := by
    rw [List.take_take]
    rfl
  refine ⟨?_, ?_, ?_⟩
  · rw [← front, List.take_append_drop, List.take_append_drop]
  · simp only [List.length_take, IV_LENGTH]
    omega
  · simp only [List.length_drop, List.length_take, IV_LENGTH, TAG_LENGTH]
    omega

theorem truncated_decrypts {gcm : Gcm} {payload keyInput : String}
    (truncated : Truncated gcm payload keyInput) :
    ∃ text, decrypt gcm payload keyInput = .ok text := by
  obtain ⟨found, sizes, short, key, resolved, tagged⟩ := truncated
  obtain ⟨tagPart, rest⟩ := short_parts short
  let iv := (Base64.decode (withoutPrefix payload)).take IV_LENGTH
  refine ⟨Utf8.decode (gcm.decrypt key iv []), (decrypt_ok_iff gcm payload keyInput _).mpr
    ⟨found, key, resolved, gcm.decrypt key iv [], ?_, rfl⟩⟩
  rw [tagPart, rest, decipher_ok_iff]
  refine ⟨?_, (isValidTagLength_iff _).mpr ?_, ?_, rfl⟩
  · simp only [List.length_take, IV_LENGTH]
    omega
  · simp only [List.length_drop, IV_LENGTH]
    omega
  · rw [List.length_drop]
    exact tagged

theorem short_accepted {gcm : Gcm} {payload keyInput text : String}
    (short : (Base64.decode (withoutPrefix payload)).length < 28)
    (returned : decrypt gcm payload keyInput = .ok text) : Truncated gcm payload keyInput := by
  obtain ⟨found, key, resolved, plaintext, accepted, _⟩ :=
    (decrypt_ok_iff gcm payload keyInput text).mp returned
  obtain ⟨tagPart, rest⟩ := short_parts short
  rw [tagPart, rest, decipher_ok_iff, isValidTagLength_iff, List.length_drop] at accepted
  obtain ⟨_, valid, tagged, _⟩ := accepted
  refine ⟨found, ?_, short, key, resolved, tagged⟩
  simp only [IV_LENGTH] at valid
  omega

/-- A payload that is long enough is held to the whole tag, so truncated ones are all that slip
through. -/
theorem fullyAuthenticated_iff (gcm : Gcm) (payload keyInput : String) :
    FullyAuthenticated gcm payload keyInput ↔ ¬ Truncated gcm payload keyInput := by
  constructor
  · intro full truncated
    obtain ⟨text, returned⟩ := truncated_decrypts truncated
    obtain ⟨_, iv, authTag, ciphertext, _, parts, fresh, whole, _⟩ := full text returned
    have short : (Base64.decode (withoutPrefix payload)).length < 28 := truncated.2.2.1
    simp only [parts, List.length_append, fresh, whole, IV_LENGTH, TAG_LENGTH] at short
    omega
  · intro untruncated text returned
    by_cases short : (Base64.decode (withoutPrefix payload)).length < 28
    · exact absurd (short_accepted short returned) untruncated
    obtain ⟨_, key, resolved, plaintext, accepted, _⟩ :=
      (decrypt_ok_iff gcm payload keyInput text).mp returned
    obtain ⟨parts, fresh, whole⟩ := long_parts (Nat.le_of_not_lt short)
    obtain ⟨_, _, tagged, _⟩ := (decipher_ok_iff ..).mp accepted
    refine ⟨key, _, _, _, resolved, parts, fresh, whole, ?_⟩
    rw [whole] at tagged
    have present : (Base64.decode (withoutPrefix payload)).take IV_LENGTH ≠ [] := by
      intro none
      rw [none] at fresh
      cases fresh
    rw [← tagged, List.take_of_length_le
      (Nat.le_of_eq (gcm.tag_length key _ _ (resolveKey_length resolved) present))]

/-- Sixteen bytes that no `encrypt` made: the zero IV and the first four bytes of a tag. -/
theorem four_byte_tag_accepted :
    decrypt zeroKeyGcm "enc:v1:AAAAAAAAAAAAAAAAUw+K+w==" (generateEncryptionKey zeroKey) =
        .ok "" ∧
      ¬ FullyAuthenticated zeroKeyGcm "enc:v1:AAAAAAAAAAAAAAAAUw+K+w=="
        (generateEncryptionKey zeroKey) := by
  have returned : decrypt zeroKeyGcm "enc:v1:AAAAAAAAAAAAAAAAUw+K+w=="
      (generateEncryptionKey zeroKey) = .ok "" := by
    decide +kernel
  refine ⟨returned, fun full => ?_⟩
  obtain ⟨_, iv, authTag, ciphertext, _, parts, fresh, whole, _⟩ := full "" returned
  have size : (Base64.decode (withoutPrefix "enc:v1:AAAAAAAAAAAAAAAAUw+K+w==")).length = 16 := by
    decide +kernel
  simp only [parts, List.length_append, fresh, whole, IV_LENGTH, TAG_LENGTH] at size
  omega

end BaileysSession.Aes
