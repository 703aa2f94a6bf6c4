import BaileysSession.Serialization.BufferJson

set_option autoImplicit false

namespace BaileysSession.Serialization

variable {bufferJson : BufferJson}

section Steps

theorem replaced_primitive {value : JsValue} (plain : primitive value = true)
    (own : Except String (Option Json)) : replaced bufferJson value own = own := by
  rw [replaced, bufferJson.replacer_primitive value plain]
  rfl

theorem replaced_ok {value : JsValue} {own : Except String (Option Json)} {found : Option Json} :
    replaced bufferJson value own = .ok found ↔
      (∃ json, bufferJson.replacer value = .ok (some json) ∧ found = some json) ∨
        (bufferJson.replacer value = .ok none ∧ own = .ok found) := by
  rw [replaced]
  cases bufferJson.replacer value with
  | error error => simp [bind, Except.bind]
  | ok result => cases result <;> simp [bind, Except.bind, pure, Except.pure, eq_comm]

theorem left_ok {value : JsValue} {own : Except String JsValue} {found : Option JsValue} :
    left bufferJson value own = .ok found ↔
      ∃ read, found = some read ∧
        ((∃ json, bufferJson.replacer value = .ok (some json) ∧
            revive bufferJson.reviver json = .ok read) ∨
          bufferJson.replacer value = .ok none ∧ ∃ inside, own = .ok inside ∧
            bufferJson.reviver inside = .ok read) := by
  rw [left]
  cases bufferJson.replacer value with
  | error error => simp [bind, Except.bind]
  | ok result =>
    cases result with
    | some json =>
      cases revived : revive bufferJson.reviver json <;>
        simp [bind, Except.bind, Except.map, revived, eq_comm]
    | none =>
      cases own with
      | error error => simp [bind, Except.bind, Except.map]
      | ok inside =>
        cases revived : bufferJson.reviver inside <;>
          simp [bind, Except.bind, Except.map, revived, eq_comm]

theorem itemsToJson_cons {item : JsValue} {rest : List JsValue} {written : List Json} :
    itemsToJson bufferJson (item :: rest) = .ok written ↔
      ∃ json more, toJson bufferJson item = .ok json ∧ itemsToJson bufferJson rest = .ok more ∧
        written = json.getD .null :: more := by
  rw [itemsToJson]
  cases toJson bufferJson item with
  | error error => simp [bind, Except.bind]
  | ok json =>
    cases itemsToJson bufferJson rest <;> simp [bind, Except.bind, pure, Except.pure, eq_comm]

theorem membersToJson_cons {name : String} {value : JsValue} {rest : List (String × JsValue)}
    {written : List (String × Json)} :
    membersToJson bufferJson ((name, value) :: rest) = .ok written ↔
      ∃ json more, toJson bufferJson value = .ok json ∧ membersToJson bufferJson rest = .ok more ∧
        written = (json.map fun json => (name, json)).toList ++ more := by
  rw [membersToJson]
  cases toJson bufferJson value with
  | error error => simp [bind, Except.bind]
  | ok json =>
    cases membersToJson bufferJson rest with
    | error error => simp [bind, Except.bind]
    | ok more => cases json <;> simp [bind, Except.bind, pure, Except.pure, eq_comm]

theorem normaliseItems_cons {item : JsValue} {rest found : List JsValue} :
    normaliseItems bufferJson (item :: rest) = .ok found ↔
      ∃ kept more, normalise bufferJson item = .ok kept ∧ normaliseItems bufferJson rest = .ok more ∧
        found = kept.getD .null :: more := by
  rw [normaliseItems]
  cases normalise bufferJson item with
  | error error => simp [bind, Except.bind]
  | ok kept =>
    cases normaliseItems bufferJson rest <;> simp [bind, Except.bind, pure, Except.pure, eq_comm]

theorem normaliseMembers_cons {name : String} {value : JsValue}
    {rest found : List (String × JsValue)} :
    normaliseMembers bufferJson ((name, value) :: rest) = .ok found ↔
      ∃ kept more, normalise bufferJson value = .ok kept ∧
        normaliseMembers bufferJson rest = .ok more ∧
        found = (kept.map fun value => (name, value)).toList ++ more := by
  rw [normaliseMembers]
  cases normalise bufferJson value with
  | error error => simp [bind, Except.bind]
  | ok kept =>
    cases normaliseMembers bufferJson rest with
    | error error => simp [bind, Except.bind]
    | ok more => cases kept <;> simp [bind, Except.bind, pure, Except.pure, eq_comm]

theorem map_ok {Inner Outer : Type} {inner : Except String Inner} {f : Inner → Outer}
    {outer : Outer} : inner.map f = .ok outer ↔ ∃ found, inner = .ok found ∧ f found = outer := by
  cases inner <;> simp [Except.map]

end Steps

section Reading

def readBack (bufferJson : BufferJson) : Option Json → Except String (Option JsValue)
  | none => .ok none
  | some json => (revive bufferJson.reviver json).map some

theorem readBack_primitive {value : JsValue} (plain : primitive value = true) {json : Json}
    (reads : revive bufferJson.reviver json = bufferJson.reviver value) :
    readBack bufferJson (some json) = .ok (some value) := by
  rw [readBack, reads, bufferJson.reviver_primitive value plain]
  rfl

theorem readBack_buffer {value : JsValue} {bytes : Bytes}
    (law : ∃ json, bufferJson.replacer value = .ok (some json) ∧
      revive bufferJson.reviver json = .ok (.buffer bytes))
    {own : Except String (Option Json)} {written : Option Json}
    (writes : replaced bufferJson value own = .ok written) :
    readBack bufferJson written = .ok (some (.buffer bytes)) := by
  obtain ⟨json, instead, revived⟩ := law
  rcases replaced_ok.mp writes with ⟨found, here, rfl⟩ | ⟨none, -⟩
  · cases Option.some.inj (Except.ok.inj (instead.symm.trans here))
    rw [readBack, revived]
    rfl
  · cases instead.symm.trans none

theorem readBack_left {value : JsValue} {own : Except String (Option Json)}
    {inside : Except String JsValue} {written : Option Json}
    (writes : replaced bufferJson value own = .ok written)
    (alike : own = .ok written → ∃ json, written = some json ∧
      revive bufferJson.reviver json = inside >>= bufferJson.reviver) :
    left bufferJson value inside = readBack bufferJson written := by
  rw [left]
  rcases replaced_ok.mp writes with ⟨json, here, rfl⟩ | ⟨here, own⟩
  · rw [here]
    rfl
  · obtain ⟨json, rfl, revived⟩ := alike own
    rw [here, readBack, revived]
    rfl

mutual

theorem normalise_toJson (value : JsValue) {written : Option Json}
    (writes : toJson bufferJson value = .ok written) :
    normalise bufferJson value = readBack bufferJson written := by
  cases value with
  | undefined =>
    rw [toJson, replaced_primitive rfl] at writes
    cases writes
    rfl
  | null | bool | number | decimal | text =>
    rw [toJson, replaced_primitive rfl] at writes
    cases writes
    rw [readBack_primitive rfl rfl, normalise]
  | buffer bytes =>
    rw [toJson] at writes
    rw [readBack_buffer (bufferJson.replacer_buffer bytes) writes, normalise]
  | uint8Array bytes =>
    rw [toJson] at writes
    rw [readBack_buffer (bufferJson.replacer_uint8Array bytes) writes, normalise]
  | array items =>
    rw [toJson] at writes
    rw [normalise]
    apply readBack_left writes
    intro own
    obtain ⟨found, inside, rfl⟩ := map_ok.mp own
    refine ⟨.array found, rfl, ?_⟩
    rw [normaliseItems_toJson items inside, revive]
    cases reviveItems bufferJson.reviver found <;> rfl
  | object members | message members =>
    rw [toJson] at writes
    rw [normalise]
    apply readBack_left writes
    intro own
    obtain ⟨found, inside, rfl⟩ := map_ok.mp own
    refine ⟨.object found, rfl, ?_⟩
    rw [normaliseMembers_toJson members inside, revive]
    cases reviveMembers bufferJson.reviver found <;> rfl

theorem normaliseItems_toJson (items : List JsValue) {written : List Json}
    (writes : itemsToJson bufferJson items = .ok written) :
    normaliseItems bufferJson items = reviveItems bufferJson.reviver written := by
  cases items with
  | nil =>
    cases writes
    rfl
  | cons item rest =>
    obtain ⟨json, more, head, tail, rfl⟩ := itemsToJson_cons.mp writes
    rw [normaliseItems, normalise_toJson item head, normaliseItems_toJson rest tail, reviveItems]
    cases json with
    | none =>
      -- an item that is undefined is written as null
      rw [readBack, Option.getD_none, revive, bufferJson.reviver_primitive .null rfl]
      rfl
    | some json =>
      rw [readBack, Option.getD_some]
      cases revive bufferJson.reviver json <;> rfl

theorem normaliseMembers_toJson (members : List (String × JsValue))
    {written : List (String × Json)} (writes : membersToJson bufferJson members = .ok written) :
    normaliseMembers bufferJson members = reviveMembers bufferJson.reviver written := by
  match members with
  | [] =>
    cases writes
    rfl
  | (name, value) :: rest =>
    obtain ⟨json, more, head, tail, rfl⟩ := membersToJson_cons.mp writes
    rw [normaliseMembers, normalise_toJson value head, normaliseMembers_toJson rest tail]
    cases json with
    | none =>
      simp only [readBack, Option.map_none, Option.toList_none, List.nil_append]
      cases reviveMembers bufferJson.reviver more <;> rfl
    | some json =>
      simp only [readBack, Option.map_some, Option.toList_some, List.singleton_append,
        reviveMembers]
      cases revive bufferJson.reviver json <;> rfl

end

theorem left_some {value : JsValue} {own : Except String JsValue} {found : Option JsValue}
    (kept : left bufferJson value own = .ok found) : ∃ read, found = some read := by
  obtain ⟨read, rfl, -⟩ := left_ok.mp kept
  exact ⟨read, rfl⟩

theorem normalise_none {value : JsValue} :
    normalise bufferJson value = .ok none ↔ value = .undefined := by
  constructor
  · intro nothing
    cases value with
    | undefined => rfl
    | array items =>
      rw [normalise] at nothing
      obtain ⟨_, impossible⟩ := left_some nothing
      cases impossible
    | object members | message members =>
      rw [normalise] at nothing
      obtain ⟨_, impossible⟩ := left_some nothing
      cases impossible
    | null | bool | number | decimal | text | buffer | uint8Array =>
      rw [normalise] at nothing
      cases nothing
  · rintro rfl
    rw [normalise]

end Reading

section Written

theorem membersToJson_names {members : List (String × JsValue)} {written : List (String × Json)}
    (writes : membersToJson bufferJson members = .ok written) :
    (written.map Prod.fst).Sublist (members.map Prod.fst) := by
  induction members generalizing written with
  | nil =>
    cases writes
    exact List.Sublist.slnil
  | cons member rest ih =>
    obtain ⟨json, more, -, tail, rfl⟩ := membersToJson_cons.mp writes
    cases json with
    | none => exact (ih tail).cons _
    | some json => exact (ih tail).cons_cons _

theorem replaced_wellFormed {value : JsValue} {own : Except String (Option Json)} {json : Json}
    (writes : replaced bufferJson value own = .ok (some json))
    (kept : bufferJson.replacer value = .ok none → own = .ok (some json) → json.WellFormed) :
    json.WellFormed := by
  rcases replaced_ok.mp writes with ⟨found, here, same⟩ | ⟨given, own⟩
  · cases same
    exact (bufferJson.replaced_revives value json here).1
  · exact kept given own

mutual

theorem toJson_wellFormed (value : JsValue) (wellFormed : WellFormed value) {json : Json}
    (writes : toJson bufferJson value = .ok (some json)) : json.WellFormed := by
  cases value with
  | undefined | null | bool | number | text =>
    rw [toJson, replaced_primitive rfl] at writes
    cases writes <;> trivial
  | decimal literal => cases wellFormed
  | buffer bytes =>
    obtain ⟨_, instead, -⟩ := bufferJson.replacer_buffer bytes
    rw [toJson] at writes
    exact replaced_wellFormed writes fun given _ => by cases instead.symm.trans given
  | uint8Array bytes =>
    obtain ⟨_, instead, -⟩ := bufferJson.replacer_uint8Array bytes
    rw [toJson] at writes
    exact replaced_wellFormed writes fun given _ => by cases instead.symm.trans given
  | array items =>
    rw [toJson] at writes
    apply replaced_wellFormed writes
    intro _ own
    obtain ⟨found, inside, same⟩ := map_ok.mp own
    cases same
    exact itemsToJson_wellFormed items wellFormed inside
  | object members | message members =>
    rw [toJson] at writes
    apply replaced_wellFormed writes
    intro _ own
    obtain ⟨found, inside, same⟩ := map_ok.mp own
    cases same
    exact ⟨wellFormed.1.sublist (membersToJson_names inside),
      membersToJson_wellFormed members wellFormed.2 inside⟩

theorem itemsToJson_wellFormed (items : List JsValue) (wellFormed : ItemsWellFormed items)
    {written : List Json} (writes : itemsToJson bufferJson items = .ok written) :
    Json.ItemsWellFormed written := by
  match items, wellFormed with
  | [], _ =>
    cases writes
    trivial
  | item :: rest, wellFormed =>
    obtain ⟨json, more, head, tail, rfl⟩ := itemsToJson_cons.mp writes
    refine ⟨?_, itemsToJson_wellFormed rest wellFormed.2 tail⟩
    cases json with
    | none => trivial
    | some json => exact toJson_wellFormed item wellFormed.1 head

theorem membersToJson_wellFormed (members : List (String × JsValue))
    (wellFormed : MembersWellFormed members) {written : List (String × Json)}
    (writes : membersToJson bufferJson members = .ok written) : Json.MembersWellFormed written := by
  match members, wellFormed with
  | [], _ =>
    cases writes
    trivial
  | (name, value) :: rest, wellFormed =>
    obtain ⟨json, more, head, tail, rfl⟩ := membersToJson_cons.mp writes
    have later := membersToJson_wellFormed rest wellFormed.2 tail
    cases json with
    | none => exact later
    | some json => exact ⟨toJson_wellFormed value wellFormed.1 head, later⟩

end

theorem serialize_some {value : JsValue} {text : String}
    (writes : serialize bufferJson value = .ok (some text)) :
    ∃ json, toJson bufferJson value = .ok (some json) ∧ json.stringify = text := by
  obtain ⟨json, written, same⟩ := map_ok.mp writes
  obtain ⟨json, rfl, rfl⟩ := Option.map_eq_some_iff.mp same
  exact ⟨json, written, rfl⟩

theorem serialize_none {value : JsValue} :
    serialize bufferJson value = .ok none → value = .undefined := by
  intro writes
  obtain ⟨json, written, same⟩ := map_ok.mp writes
  rw [Option.map_eq_none_iff.mp same] at written
  exact normalise_none.mp (normalise_toJson value written)

/-- The text is JSON again, and reading it leaves the normal form of the value. -/
theorem deserialize_serialize {value : JsValue} (wellFormed : WellFormed value) {text : String}
    (writes : serialize bufferJson value = .ok (some text)) :
    (Json.parse text).isSome ∧
      (deserialize bufferJson text).map some = normalise bufferJson value := by
  obtain ⟨json, written, rfl⟩ := serialize_some writes
  have parsed := Json.parse_stringify (toJson_wellFormed value wellFormed written)
  rw [normalise_toJson value written, deserialize, parsed]
  exact ⟨rfl, rfl⟩

end Written

section Canonical

theorem left_self {value : JsValue} {own : Except String JsValue}
    (compound : ∀ bytes, value ≠ .buffer bytes) :
    left bufferJson value own = .ok (some value) ↔
      own = .ok value ∧ Untouched bufferJson value := by
  rw [left_ok]
  constructor
  · rintro ⟨read, same, instead | ⟨given, inside, own, revived⟩⟩
    · cases same
      obtain ⟨json, here, revived⟩ := instead
      obtain ⟨bytes, buffer⟩ := (bufferJson.replaced_revives value json here).2
      exact absurd (Except.ok.inj (revived.symm.trans buffer)) (compound bytes)
    · cases same
      rcases bufferJson.reviver_result inside value revived with rfl | ⟨bytes, buffer⟩
      · exact ⟨own, given, revived⟩
      · exact absurd buffer (compound bytes)
  · rintro ⟨own, given, revived⟩
    exact ⟨value, rfl, .inr ⟨given, value, own, revived⟩⟩

theorem normaliseMembers_length {members found : List (String × JsValue)}
    (kept : normaliseMembers bufferJson members = .ok found) : found.length ≤ members.length := by
  induction members generalizing found with
  | nil =>
    cases kept
    exact Nat.le_refl 0
  | cons member rest ih =>
    obtain ⟨own, more, -, tail, rfl⟩ := normaliseMembers_cons.mp kept
    have shorter := ih tail
    cases own <;> simp <;> omega

mutual

theorem normalise_self (value : JsValue) :
    normalise bufferJson value = .ok (some value) ↔ Canonical bufferJson value := by
  cases value with
  | undefined | uint8Array => simp [normalise, Canonical]
  | null | bool | number | decimal | text | buffer => simp [normalise, Canonical]
  | message members =>
    rw [normalise, Canonical, iff_false]
    intro kept
    obtain ⟨read, same, instead | ⟨-, inside, own, revived⟩⟩ := left_ok.mp kept
    · cases same
      obtain ⟨json, here, revived⟩ := instead
      obtain ⟨bytes, buffer⟩ := (bufferJson.replaced_revives _ json here).2
      cases revived.symm.trans buffer
    · cases same
      obtain ⟨found, -, rfl⟩ := map_ok.mp own
      rcases bufferJson.reviver_result _ _ revived with impossible | ⟨bytes, impossible⟩
      · cases impossible
      · cases impossible
  | array items =>
    have compound : ∀ bytes, JsValue.array items ≠ .buffer bytes := fun _ same => by cases same
    rw [normalise, Canonical, left_self compound, ← normaliseItems_self items, map_ok]
    simp [and_comm]
  | object members =>
    have compound : ∀ bytes, JsValue.object members ≠ .buffer bytes := fun _ same => by cases same
    rw [normalise, Canonical, left_self compound, ← normaliseMembers_self members, map_ok]
    simp [and_comm]

theorem normaliseItems_self (items : List JsValue) :
    normaliseItems bufferJson items = .ok items ↔ ItemsCanonical bufferJson items := by
  cases items with
  | nil => simp [normaliseItems, ItemsCanonical]
  | cons item rest =>
    rw [normaliseItems_cons, ItemsCanonical, ← normalise_self item, ← normaliseItems_self rest]
    constructor
    · rintro ⟨kept, more, head, tail, same⟩
      obtain ⟨rfl, rfl⟩ := List.cons.inj same
      cases kept with
      | none =>
        have missing := normalise_none.mp head
        cases missing
      | some kept => exact ⟨head, tail⟩
    · rintro ⟨head, tail⟩
      exact ⟨some item, rest, head, tail, rfl⟩

theorem normaliseMembers_self (members : List (String × JsValue)) :
    normaliseMembers bufferJson members = .ok members ↔ MembersCanonical bufferJson members := by
  match members with
  | [] => simp [normaliseMembers, MembersCanonical]
  | (name, value) :: rest =>
    rw [normaliseMembers_cons, MembersCanonical, ← normalise_self value,
      ← normaliseMembers_self rest]
    constructor
    · rintro ⟨kept, more, head, tail, same⟩
      cases kept with
      | none =>
        have longer := normaliseMembers_length tail
        have length := congrArg List.length same
        simp only [Option.map_none, Option.toList_none, List.nil_append, List.length_cons] at length
        omega
      | some kept =>
        obtain ⟨first, rfl⟩ := List.cons.inj same
        obtain ⟨-, rfl⟩ := Prod.mk.inj first
        exact ⟨head, tail⟩
    · rintro ⟨head, tail⟩
      exact ⟨some value, rest, head, tail, rfl⟩

end

end Canonical

/-- What is read back of a value is its normal form, and the value itself exactly if nothing in it
is changed on the way. -/
theorem stored_value_read_back (bufferJson : BufferJson) (value : JsValue)
    (wellFormed : WellFormed value) (text : String)
    (writes : serialize bufferJson value = .ok (some text)) :
    (deserialize bufferJson text).map some = normalise bufferJson value ∧
      (deserialize bufferJson text = .ok value ↔ Canonical bufferJson value) := by
  obtain ⟨-, reads⟩ := deserialize_serialize wellFormed writes
  refine ⟨reads, ?_⟩
  rw [← normalise_self value, ← reads, map_ok]
  simp

-- A key pair whose private half is a plain `Uint8Array`, a message, and a member that is not set.
def noiseKey : JsValue :=
  .object [("private", .uint8Array [24, 7]), ("public", .buffer [255]),
    ("account", .message [("details", .text "ChgI")]), ("signature", .undefined)]

theorem noise_key_read_back :
    ∃ text, serialize base64Json noiseKey = .ok (some text) ∧
      deserialize base64Json text = .ok (.object [("private", .buffer [24, 7]),
        ("public", .buffer [255]), ("account", .object [("details", .text "ChgI")])]) := by
  have wellFormed : WellFormed noiseKey := by
    refine ⟨?_, trivial, trivial, ⟨?_, trivial, trivial⟩, trivial, trivial⟩
    · show Json.OwnKeys ["private", "public", "account", "signature"]
      decide +kernel
    · show Json.OwnKeys ["details"]
      decide +kernel
  obtain ⟨read, -⟩ := stored_value_read_back base64Json noiseKey wellFormed _ rfl
  obtain ⟨value, reads, same⟩ := map_ok.mp (read.trans rfl)
  cases same
  exact ⟨_, rfl, reads⟩

end BaileysSession.Serialization
