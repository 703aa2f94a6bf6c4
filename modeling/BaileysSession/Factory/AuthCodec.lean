import BaileysSession.Encryption.Authentication
import BaileysSession.Serialization.RoundTrip

set_option autoImplicit false

namespace BaileysSession

def JsValue.truthy : JsValue → Bool
  | .undefined | .null => false
  | .bool value => value
  | .number value => decide (value ≠ 0)
  | .text value => decide (value ≠ "")
  | .decimal _ | .buffer _ | .uint8Array _ | .array _ | .object _ | .message _ => true

namespace AuthState

open Aes Serialization

section Source

variable (gcm : Gcm) (bufferJson : BufferJson)

-- `undefined` has no JSON, and no cipher takes it.
def encode (iv : Bytes) (encryption : Option EncryptionOptions) (value : JsValue) :
    Except String (Option String) := do
  match ← serialize bufferJson value with
  | some json => (Aes.encode gcm iv encryption json).map some
  | none =>
    match encryption with
    | none => .ok none
    | some options =>
      if options.enabled then do
        let _ ← resolveKey options.key
        .error "TypeError"
      else .ok none

def decode (encryption : Option EncryptionOptions) (raw : String) : Except String JsValue := do
  let json ← Aes.decode gcm encryption raw
  deserialize bufferJson json

end Source

/-- The key a setting encrypts with, `none` if it does not encrypt. -/
def Uses (key : Option Bytes) (encryption : Option EncryptionOptions) : Prop :=
  match key with
  | none => ∀ options ∈ encryption, options.enabled = false
  | some key => ∃ options ∈ encryption, options.enabled = true ∧ resolveKey options.key = .ok key

variable {gcm : Gcm} {bufferJson : BufferJson}

theorem aes_encode_none {encryption : Option EncryptionOptions} (uses : Uses none encryption)
    (iv : Bytes) (json : String) : Aes.encode gcm iv encryption json = .ok json := by
  cases encryption with
  | none => rfl
  | some options => rw [Aes.encode, uses options rfl, if_neg Bool.false_ne_true]

theorem aes_decode_none {encryption : Option EncryptionOptions} (uses : Uses none encryption)
    (raw : String) : Aes.decode gcm encryption raw = .ok raw := by
  cases encryption with
  | none => rfl
  | some options => rw [Aes.decode, uses options rfl, if_neg Bool.false_ne_true]

-- What is stored for a text that is encrypted.
def payload (gcm : Gcm) (key iv : Bytes) (json : String) : String :=
  ENCRYPTED_PREFIX ++ Base64.encode (iv ++ gcm.tag key iv (gcm.encrypt key iv (Utf8.encode json)) ++
    gcm.encrypt key iv (Utf8.encode json))

theorem aes_encode_some {encryption : Option EncryptionOptions} {key : Bytes}
    (uses : Uses (some key) encryption) (iv : Bytes) (json : String) :
    Aes.encode gcm iv encryption json = .ok (payload gcm key iv json) := by
  obtain ⟨options, rfl, enabled, resolved⟩ := uses
  rw [Aes.encode, if_pos enabled, encrypt_payload gcm iv json resolved, payload]

theorem aes_decode_some {encryption : Option EncryptionOptions} {key : Bytes}
    (uses : Uses (some key) encryption) (raw : String) :
    ∃ keyInput, resolveKey keyInput = .ok key ∧
      Aes.decode gcm encryption raw = decrypt gcm raw keyInput := by
  obtain ⟨options, rfl, enabled, resolved⟩ := uses
  exact ⟨options.key, resolved, by rw [Aes.decode, if_pos enabled]⟩

theorem aes_decode_encode {writer reader : Option EncryptionOptions} {key : Option Bytes}
    (writes : Uses key writer) (reads : Uses key reader) {iv : Bytes}
    (fresh : iv.length = IV_LENGTH) {json text : String}
    (encoded : Aes.encode gcm iv writer json = .ok text) :
    Aes.decode gcm reader text = .ok json := by
  cases key with
  | none =>
    rw [aes_encode_none writes] at encoded
    cases encoded
    exact aes_decode_none reads json
  | some key =>
    obtain ⟨keyInput, resolved, same⟩ := @aes_decode_some gcm reader key reads text
    rw [aes_encode_some writes] at encoded
    cases encoded
    rw [same, payload]
    exact decrypt_payload gcm json fresh (resolveKey_length resolved) resolved

theorem encode_text {writer : Option EncryptionOptions} {iv : Bytes} {value : JsValue}
    {text : String} (encoded : encode gcm bufferJson iv writer value = .ok (some text)) :
    ∃ json, serialize bufferJson value = .ok (some json) ∧
      Aes.encode gcm iv writer json = .ok text := by
  unfold encode at encoded
  cases written : serialize bufferJson value with
  | error error => simp [written, bind, Except.bind] at encoded
  | ok json =>
    simp only [written, bind, Except.bind] at encoded
    cases json with
    | none =>
      cases writer with
      | none => cases encoded
      | some options =>
        dsimp only at encoded
        split at encoded
        · cases drawn : resolveKey options.key <;> rw [drawn] at encoded <;> cases encoded
        · cases encoded
    | some json =>
      refine ⟨json, rfl, ?_⟩
      cases stored : Aes.encode gcm iv writer json with
      | error error => simp [stored, Except.map] at encoded
      | ok own =>
        simp only [stored, Except.map, Except.ok.injEq, Option.some.injEq] at encoded
        rw [encoded]

theorem encode_some {iv : Bytes} {encryption : Option EncryptionOptions} {value : JsValue}
    (defined : value ≠ .undefined) {found : Option String}
    (encoded : encode gcm bufferJson iv encryption value = .ok found) : found.isSome := by
  have written : serialize bufferJson value ≠ .ok none :=
    fun nothing => defined (serialize_none nothing)
  unfold encode at encoded
  cases text : serialize bufferJson value with
  | error error => simp [text, bind, Except.bind] at encoded
  | ok json =>
    cases json with
    | none => exact absurd text written
    | some json =>
      simp only [text, bind, Except.bind] at encoded
      cases stored : Aes.encode gcm iv encryption json with
      | error error => simp [stored, Except.map] at encoded
      | ok own =>
        simp only [stored, Except.map, Except.ok.injEq] at encoded
        rw [← encoded]
        rfl

theorem mapM_each {Item Value : Type} {f : Item → Except String Value} {list : List Item}
    {found : List Value} (mapped : list.mapM f = .ok found) :
    ∀ item ∈ list, ∃ value, f item = .ok value := by
  induction list generalizing found with
  | nil => exact fun _ inside => absurd inside List.not_mem_nil
  | cons first rest ih =>
    rw [List.mapM_cons] at mapped
    cases head : f first with
    | error error => simp [head, bind, Except.bind] at mapped
    | ok value =>
      cases tail : rest.mapM f with
      | error error => simp [head, tail, bind, Except.bind] at mapped
      | ok values =>
        rintro item inside
        rcases List.mem_cons.mp inside with rfl | later
        · exact ⟨value, head⟩
        · exact ih tail item later

/-- What is read of a stored value is its normal form where the same key is used, however it is
spelled. -/
theorem decode_encode {writer reader : Option EncryptionOptions} {key : Option Bytes}
    (writes : Uses key writer) (reads : Uses key reader) {iv : Bytes}
    (fresh : iv.length = IV_LENGTH) {value : JsValue} (wellFormed : WellFormed value) {text : String}
    (encoded : encode gcm bufferJson iv writer value = .ok (some text)) :
    (decode gcm bufferJson reader text).map some = normalise bufferJson value := by
  obtain ⟨json, written, stored⟩ := encode_text encoded
  rw [decode, aes_decode_encode writes reads fresh stored]
  exact (deserialize_serialize wellFormed written).2

theorem encode_ne_empty {writer : Option EncryptionOptions} {key : Option Bytes}
    (writes : Uses key writer) {iv : Bytes} {value : JsValue} (wellFormed : WellFormed value)
    {text : String} (encoded : encode gcm bufferJson iv writer value = .ok (some text)) :
    text ≠ "" := by
  obtain ⟨json, written, stored⟩ := encode_text encoded
  cases key with
  | none =>
    rw [aes_encode_none writes] at stored
    cases stored
    have parsed := (deserialize_serialize wellFormed written).1
    rintro rfl
    cases parsed
  | some key =>
    rw [aes_encode_some writes] at stored
    cases stored
    intro nothing
    have chars := congrArg String.toList nothing
    rw [payload, ENCRYPTED_PREFIX, String.toList_append] at chars
    cases chars

section OtherSettings

-- No JSON text starts with the letter that the prefix starts with.
theorem parse_prefixed {text : String} (prefixed : Text.startsWith text ENCRYPTED_PREFIX = true) :
    Json.parse text = none := by
  obtain ⟨rest, same⟩ := (Text.startsWith_iff _ _).mp prefixed
  have starts : text.toList = 'e' :: ("nc:v1:" ++ rest).toList := by
    rw [same, ENCRYPTED_PREFIX, String.toList_append, String.toList_append]
    rfl
  have read : Json.read (text.toList.length + 1) text.toList = none := by
    rw [starts]
    rfl
  rw [Json.parse, read, Option.bind_none]

/-- What it takes for a text that was stored with one key to be read with the other. -/
def Opens (gcm : Gcm) (bufferJson : BufferJson) (iv : Bytes) (json : String) :
    Option Bytes → Option Bytes → Prop
  | none, none => ∃ kept, deserialize bufferJson json = .ok kept
  | some key, some other =>
    let ciphertext := gcm.encrypt key iv (Utf8.encode json)
    gcm.tag other iv ciphertext = gcm.tag key iv ciphertext ∧
      ∃ kept, deserialize bufferJson (Utf8.decode (gcm.decrypt other iv ciphertext)) = .ok kept
  | none, some _ | some _, none => False

theorem deserialize_parses {text : String} {kept : JsValue}
    (read : deserialize bufferJson text = .ok kept) : (Json.parse text).isSome := by
  unfold deserialize at read
  cases parsed : Json.parse text with
  | none =>
    rw [parsed] at read
    cases read
  | some json => rfl

theorem decrypt_other (gcm : Gcm) {key iv : Bytes} (other : Bytes) (size : key.length = KEY_LENGTH)
    (fresh : iv.length = IV_LENGTH) (otherSize : other.length = KEY_LENGTH) (json : String)
    {keyInput : String} (resolved : resolveKey keyInput = .ok other) (text : String) :
    decrypt gcm (payload gcm key iv json) keyInput = .ok text ↔
      gcm.tag other iv (gcm.encrypt key iv (Utf8.encode json)) =
          gcm.tag key iv (gcm.encrypt key iv (Utf8.encode json)) ∧
        Utf8.decode (gcm.decrypt other iv (gcm.encrypt key iv (Utf8.encode json))) = text := by
  have present : iv ≠ [] := by
    rintro rfl
    cases fresh
  let ciphertext := gcm.encrypt key iv (Utf8.encode json)
  have full := gcm.tag_length key iv ciphertext size present
  have whole : (gcm.tag other iv ciphertext).take TAG_LENGTH = gcm.tag other iv ciphertext :=
    List.take_of_length_le (Nat.le_of_eq (gcm.tag_length other iv ciphertext otherSize present))
  have nonempty : ¬ iv.length = 0 := fun empty => present (List.eq_nil_of_length_eq_zero empty)
  obtain ⟨ivPart, tagPart, rest⟩ := payload_parts fresh full ciphertext
  rw [payload, decrypt_prefixed, resolved, ivPart, tagPart, rest]
  show (decipher gcm other iv (gcm.tag key iv ciphertext) ciphertext >>= _) = _ ↔ _
  rw [decipher, if_neg nonempty, full, whole, if_neg (by decide)]
  by_cases same : gcm.tag other iv ciphertext = gcm.tag key iv ciphertext
  · rw [if_pos same]
    simp [bind, Except.bind, pure, Except.pure, same, ciphertext]
  · rw [if_neg same]
    simp [bind, Except.bind, same, ciphertext]

/-- Turning encryption on or off makes every stored value unreadable, and another key does unless
the tags agree. -/
theorem decode_other {writer reader : Option EncryptionOptions} {key other : Option Bytes}
    (writes : Uses key writer) (reads : Uses other reader) {iv : Bytes}
    (fresh : iv.length = IV_LENGTH) {value : JsValue} (wellFormed : WellFormed value)
    {json text : String} (written : serialize bufferJson value = .ok (some json))
    (stored : Aes.encode gcm iv writer json = .ok text) :
    (∃ kept, decode gcm bufferJson reader text = .ok kept) ↔
      Opens gcm bufferJson iv json key other := by
  have parsed := (deserialize_serialize wellFormed written).1
  unfold decode
  cases key with
  | none =>
    rw [aes_encode_none writes] at stored
    cases stored
    cases other with
    | none =>
      rw [aes_decode_none reads]
      exact Iff.rfl
    | some other =>
      obtain ⟨keyInput, -, same⟩ := @aes_decode_some gcm reader other reads json
      have plain : Text.startsWith json ENCRYPTED_PREFIX = false := by
        by_contra prefixed
        rw [parse_prefixed (Bool.not_eq_false _ ▸ prefixed)] at parsed
        cases parsed
      rw [same, decrypt, if_pos plain]
      refine iff_of_false ?_ id
      rintro ⟨kept, impossible⟩
      cases impossible
  | some key =>
    have size := writes.elim fun _ own => resolveKey_length own.2.2
    rw [aes_encode_some writes] at stored
    cases stored
    cases other with
    | none =>
      rw [aes_decode_none reads]
      refine iff_of_false ?_ id
      rintro ⟨kept, read⟩
      have impossible := deserialize_parses read
      rw [payload, parse_prefixed (Text.startsWith_append _ _)] at impossible
      cases impossible
    | some other =>
      obtain ⟨keyInput, resolved, same⟩ :=
        @aes_decode_some gcm reader other reads (payload gcm key iv json)
      have opened := decrypt_other gcm other size fresh (resolveKey_length resolved) json resolved
      rw [same, Opens]
      cases found : decrypt gcm (payload gcm key iv json) keyInput with
      | error error =>
        refine iff_of_false ?_ fun opens => ?_
        · rintro ⟨kept, impossible⟩
          cases impossible
        · have read := (opened _).mpr ⟨opens.1, rfl⟩
          rw [found] at read
          cases read
      | ok text =>
        obtain ⟨tags, rfl⟩ := (opened text).mp found
        exact iff_and_self.mpr fun _ => tags

end OtherSettings

end AuthState

end BaileysSession
