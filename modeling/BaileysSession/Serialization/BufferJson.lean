import BaileysSession.Shared.ByteCodes
import BaileysSession.Shared.JsonRoundTrip

set_option autoImplicit false

namespace BaileysSession

-- The values that creds and signal keys are made of.
inductive JsValue where
  | undefined
  | null
  | bool (value : Bool)
  | number (value : Int)
  -- A number with a fraction or an exponent, as it is written.
  | decimal (literal : String)
  | text (value : String)
  | buffer (bytes : Bytes)
  -- A `Uint8Array` that is no `Buffer`.
  | uint8Array (bytes : Bytes)
  | array (items : List JsValue)
  | object (members : List (String × JsValue))
  -- A message, by the plain object that its `toJSON` gives.
  | message (members : List (String × JsValue))

namespace Serialization

def primitive : JsValue → Bool
  | .undefined | .null | .bool _ | .number _ | .decimal _ | .text _ => true
  | .buffer _ | .uint8Array _ | .array _ | .object _ | .message _ => false

-- What the `toJSON` of a `Buffer` gives.
def bufferToJSON (bytes : Bytes) : JsValue :=
  .object [("type", .text "Buffer"), ("data", .array (bytes.map fun byte => .number byte.toNat))]

section Source

section Reviving

variable (reviver : JsValue → Except String JsValue)

mutual

-- The members of a value are revived before it.
def revive : Json → Except String JsValue
  | .null => reviver .null
  | .bool value => reviver (.bool value)
  | .number value => reviver (.number value)
  | .decimal literal => reviver (.decimal literal)
  | .text value => reviver (.text value)
  | .array items => reviveItems items >>= fun items => reviver (.array items)
  | .object members => reviveMembers members >>= fun members => reviver (.object members)

def reviveItems : List Json → Except String (List JsValue)
  | [] => .ok []
  | item :: rest => do
    let value ← revive item
    let more ← reviveItems rest
    pure (value :: more)

def reviveMembers : List (String × Json) → Except String (List (String × JsValue))
  | [] => .ok []
  | (name, value) :: rest => do
    let value ← revive value
    let more ← reviveMembers rest
    pure ((name, value) :: more)

end

end Reviving

/-- `BufferJSON` of the `baileys` package. The replacer gives a value back as it is, which is
`none`, or puts plain data in its place, which the reviver makes a buffer of; the reviver leaves
other values as they are or makes buffers of them. -/
structure BufferJson where
  replacer : JsValue → Except String (Option Json)
  reviver : JsValue → Except String JsValue
  replacer_primitive : ∀ value, primitive value = true → replacer value = .ok none
  replacer_buffer : ∀ bytes, ∃ json, replacer (bufferToJSON bytes) = .ok (some json) ∧
    revive reviver json = .ok (.buffer bytes)
  replacer_uint8Array : ∀ bytes, ∃ json, replacer (.uint8Array bytes) = .ok (some json) ∧
    revive reviver json = .ok (.buffer bytes)
  replaced_revives : ∀ value json, replacer value = .ok (some json) →
    json.WellFormed ∧ ∃ bytes, revive reviver json = .ok (.buffer bytes)
  reviver_primitive : ∀ value, primitive value = true → reviver value = .ok value
  reviver_result : ∀ value read, reviver value = .ok read →
    read = value ∨ ∃ bytes, read = .buffer bytes

variable (bufferJson : BufferJson)

-- `own` is what is written for a value that the replacer gives back.
def replaced (value : JsValue) (own : Except String (Option Json)) :
    Except String (Option Json) := do
  match ← bufferJson.replacer value with
  | some json => pure (some json)
  | none => own

-- A `Uint8Array` is an object with an index for each byte.
def indexed (bytes : Bytes) : Json :=
  .object (bytes.zipIdx.map fun byte => (toString byte.2, .number byte.1.toNat))

def plainBuffer (bytes : Bytes) : Json :=
  .object [("type", .text "Buffer"), ("data", .array (bytes.map fun byte => .number byte.toNat))]

mutual

/-- What `JSON.stringify` writes for a value with the replacer, `none` for nothing. Buffers and
messages come to the replacer as their `toJSON` gives them. -/
def toJson : JsValue → Except String (Option Json)
  | .undefined => replaced bufferJson .undefined (.ok none)
  | .null => replaced bufferJson .null (.ok (some .null))
  | .bool value => replaced bufferJson (.bool value) (.ok (some (.bool value)))
  | .number value => replaced bufferJson (.number value) (.ok (some (.number value)))
  | .decimal literal => replaced bufferJson (.decimal literal) (.ok (some (.decimal literal)))
  | .text value => replaced bufferJson (.text value) (.ok (some (.text value)))
  | .buffer bytes => replaced bufferJson (bufferToJSON bytes) (.ok (some (plainBuffer bytes)))
  | .uint8Array bytes => replaced bufferJson (.uint8Array bytes) (.ok (some (indexed bytes)))
  | .array items => replaced bufferJson (.array items)
    ((itemsToJson items).map fun items => some (.array items))
  | .object members | .message members => replaced bufferJson (.object members)
    ((membersToJson members).map fun members => some (.object members))

def itemsToJson : List JsValue → Except String (List Json)
  | [] => .ok []
  | item :: rest => do
    let json ← toJson item
    let more ← itemsToJson rest
    pure (json.getD .null :: more)

def membersToJson : List (String × JsValue) → Except String (List (String × Json))
  | [] => .ok []
  | (name, value) :: rest => do
    let json ← toJson value
    let more ← membersToJson rest
    pure (match json with
      | some json => (name, json) :: more
      | none => more)

end

def serialize (data : JsValue) : Except String (Option String) :=
  (toJson bufferJson data).map fun json => json.map Json.stringify

def deserialize (text : String) : Except String JsValue :=
  match Json.parse text with
  | some json => revive bufferJson.reviver json
  | none => .error "SyntaxError"

end Source

section Normal

variable (bufferJson : BufferJson)

-- `own` is what is left of the members of a value that the replacer gives back.
def left (value : JsValue) (own : Except String JsValue) : Except String (Option JsValue) := do
  match ← bufferJson.replacer value with
  | some json => (revive bufferJson.reviver json).map some
  | none => (own >>= bufferJson.reviver).map some

mutual

def normalise : JsValue → Except String (Option JsValue)
  | .undefined => .ok none
  | .buffer bytes | .uint8Array bytes => .ok (some (.buffer bytes))
  | .array items => left bufferJson (.array items) ((normaliseItems items).map .array)
  | .object members | .message members =>
    left bufferJson (.object members) ((normaliseMembers members).map .object)
  | .null => .ok (some .null)
  | .bool value => .ok (some (.bool value))
  | .number value => .ok (some (.number value))
  | .decimal literal => .ok (some (.decimal literal))
  | .text value => .ok (some (.text value))

def normaliseItems : List JsValue → Except String (List JsValue)
  | [] => .ok []
  | item :: rest => do
    let value ← normalise item
    let more ← normaliseItems rest
    pure (value.getD .null :: more)

def normaliseMembers : List (String × JsValue) → Except String (List (String × JsValue))
  | [] => .ok []
  | (name, value) :: rest => do
    let value ← normalise value
    let more ← normaliseMembers rest
    pure (match value with
      | some value => (name, value) :: more
      | none => more)

end

mutual

/-- Numbers are safe integers, and the members of an object have names as its keys are. -/
def WellFormed : JsValue → Prop
  | .decimal _ => False
  | .number value => value.natAbs ≤ 9007199254740991
  | .array items => ItemsWellFormed items
  | .object members | .message members =>
    Json.OwnKeys (members.map Prod.fst) ∧ MembersWellFormed members
  | _ => True

def ItemsWellFormed : List JsValue → Prop
  | [] => True
  | item :: rest => WellFormed item ∧ ItemsWellFormed rest

def MembersWellFormed : List (String × JsValue) → Prop
  | [] => True
  | (_, value) :: rest => WellFormed value ∧ MembersWellFormed rest

end

-- Neither function touches the value.
def Untouched (value : JsValue) : Prop :=
  bufferJson.replacer value = .ok none ∧ bufferJson.reviver value = .ok value

mutual

/-- Nothing in it is `undefined`, a plain `Uint8Array` or a message, or of use to `BufferJSON`. -/
def Canonical : JsValue → Prop
  | .undefined | .uint8Array _ | .message _ => False
  | .array items => Untouched bufferJson (.array items) ∧ ItemsCanonical items
  | .object members => Untouched bufferJson (.object members) ∧ MembersCanonical members
  | _ => True

def ItemsCanonical : List JsValue → Prop
  | [] => True
  | item :: rest => Canonical item ∧ ItemsCanonical rest

def MembersCanonical : List (String × JsValue) → Prop
  | [] => True
  | (_, value) :: rest => Canonical value ∧ MembersCanonical rest

end

end Normal

section Base64

def bytesOf : List JsValue → Option Bytes
  | [] => some []
  | .number value :: rest => (bytesOf rest).map (UInt8.ofNat (value % 256).toNat :: ·)
  | _ => none

theorem bytesOf_numbers (bytes : Bytes) :
    bytesOf (bytes.map fun byte => .number byte.toNat) = some bytes := by
  induction bytes with
  | nil => rfl
  | cons byte rest ih =>
    have small := byte.toNat_lt
    have same : ((byte.toNat : Int) % 256).toNat = byte.toNat := by omega
    rw [List.map_cons, bytesOf, ih, same, UInt8.ofNat_toNat]
    rfl

def isBuffer (members : List (String × JsValue)) : Bool :=
  match members.lookup "type" with
  | some (.text kind) => decide (kind = "Buffer")
  | _ => false

def bufferObject (bytes : Bytes) : Json :=
  .object [("type", .text "Buffer"), ("data", .text (Base64.encode bytes))]

def base64Replacer : JsValue → Except String (Option Json)
  | .buffer bytes | .uint8Array bytes => .ok (some (bufferObject bytes))
  | .object members =>
    if isBuffer members then
      match members.lookup "data" with
      | some (.array items) =>
        match bytesOf items with
        | some bytes => .ok (some (bufferObject bytes))
        | none => .error "TypeError"
      | _ => .error "TypeError"
    else .ok none
  | _ => .ok none

def base64Reviver : JsValue → Except String JsValue
  | .object members =>
    if isBuffer members then
      match members.lookup "data" with
      | some (.text data) => .ok (.buffer (Base64.decode data))
      | _ => .ok (.object members)
    else .ok (.object members)
  | value => .ok value

theorem revive_bufferObject (bytes : Bytes) :
    revive base64Reviver (bufferObject bytes) = .ok (.buffer bytes) := by
  have reads : revive base64Reviver (bufferObject bytes) =
      .ok (.buffer (Base64.decode (Base64.encode bytes))) := rfl
  rw [reads, Base64.decode_encode]

theorem bufferObject_wellFormed (bytes : Bytes) : (bufferObject bytes).WellFormed := by
  refine ⟨?_, trivial, trivial, trivial⟩
  show Json.OwnKeys ["type", "data"]
  decide +kernel

theorem base64Replacer_some {value : JsValue} {json : Json}
    (replaces : base64Replacer value = .ok (some json)) : ∃ bytes, json = bufferObject bytes := by
  unfold base64Replacer at replaces
  split at replaces
  · cases replaces
    exact ⟨_, rfl⟩
  · cases replaces
    exact ⟨_, rfl⟩
  · split at replaces
    · split at replaces
      · split at replaces
        · cases replaces
          exact ⟨_, rfl⟩
        · cases replaces
      · cases replaces
    · cases replaces
  · cases replaces

-- As the package does it for buffers, arrays of bytes, messages and plain members.
def base64Json : BufferJson where
  replacer := base64Replacer
  reviver := base64Reviver
  replacer_primitive := by
    intro value plain
    cases value <;> first | rfl | cases plain
  replacer_buffer := by
    intro bytes
    refine ⟨bufferObject bytes, ?_, revive_bufferObject bytes⟩
    show (match bytesOf (bytes.map fun byte => .number byte.toNat) with
      | some bytes => Except.ok (some (bufferObject bytes))
      | none => .error "TypeError") = _
    rw [bytesOf_numbers]
  replacer_uint8Array := fun bytes => ⟨bufferObject bytes, rfl, revive_bufferObject bytes⟩
  replaced_revives := by
    intro value json replaces
    obtain ⟨bytes, rfl⟩ := base64Replacer_some replaces
    exact ⟨bufferObject_wellFormed bytes, bytes, revive_bufferObject bytes⟩
  reviver_primitive := by
    intro value plain
    cases value <;> first | rfl | cases plain
  reviver_result := by
    intro value read revives
    unfold base64Reviver at revives
    split at revives
    · split at revives
      · split at revives
        · cases revives
          exact .inr ⟨_, rfl⟩
        · cases revives
          exact .inl rfl
      · cases revives
        exact .inl rfl
    · cases revives
      exact .inl rfl

end Base64

end Serialization

end BaileysSession
