import BaileysSession.Cache.MemoryCache
import BaileysSession.Shared.JsonRoundTrip

set_option autoImplicit false

namespace BaileysSession.RedisHttp

abbrev Store := InsertionMap String String

/-- What the REST client makes of a stored string. -/
inductive Client where
  | verbatim
  -- `new Redis({ url, token })` parses what it gets, and leaves what it cannot parse.
  | deserializing
  deriving DecidableEq, Repr

def Client.get (client : Client) (store : Store) (key : String) : Option Json :=
  (store.get? key).map fun stored =>
    match client with
    | .verbatim => .text stored
    | .deserializing => (Json.parse stored).getD (.text stored)

def truthy : Json → Bool
  | .null => false
  | .bool value => value
  | .number value => decide (value ≠ 0)
  | .decimal literal => (literal.toList.takeWhile fun char => char ≠ 'e' ∧ char ≠ 'E').any fun char =>
      decide (char ∉ ['-', '.', '0'])
  | .text value => decide (value ≠ "")
  | .array _ | .object _ => true

mutual

def toText : Json → String
  | .null => "null"
  | .bool value => if value then "true" else "false"
  | .number value => String.ofList (Json.writeNumber value)
  | .decimal literal => literal
  | .text value => value
  | .array items => String.intercalate "," (itemTexts items)
  | .object _ => "[object Object]"

-- Nothing stands for a `null` in a list.
def itemTexts : List Json → List String
  | [] => []
  | .null :: rest => "" :: itemTexts rest
  | item :: rest => toText item :: itemTexts rest

end

section Adapter

def get (client : Client) (store : Store) (key : String) : Except String (Option Json) :=
  match client.get store key with
  | none => .ok none
  | some raw =>
    if truthy raw then
      match Json.parse (toText raw) with
      | none => .error "SyntaxError"
      | some value => .ok (some value)
    else .ok none

def envelope (value : String) (version : Int) : Json :=
  .object [("value", .text value), ("version", .number version)]

def set (store : Store) (key value : String) (version : Int) : Store :=
  store.set key (Json.stringify (envelope value version))

def del (store : Store) (key : String) : Store := store.erase key

end Adapter

inductive Write where
  | set (key value : String) (version : Int)
  | del (key : String)
  deriving DecidableEq, Repr

def Write.key : Write → String
  | .set key _ _ | .del key => key

def Write.apply (store : Store) : Write → Store
  | .set key value version => RedisHttp.set store key value version
  | .del key => RedisHttp.del store key

theorem kept_by_others {key : String} {writes : List Write} (others : ∀ write ∈ writes, write.key ≠ key)
    (store : Store) : (writes.foldl Write.apply store).get? key = store.get? key := by
  induction writes generalizing store with
  | nil => rfl
  | cons write rest ih =>
    have different : key ≠ write.key := Ne.symm (others write List.mem_cons_self)
    rw [List.foldl_cons, ih fun other inside => others other (List.mem_cons_of_mem write inside)]
    cases write with
    | set other value version => exact (InsertionMap.get?_set _ _ _ _).trans (if_neg different)
    | del other => exact (InsertionMap.get?_erase _ _ _).trans (if_neg different)

theorem envelope_wellFormed (value : String) (version : Int) :
    (envelope value version).WellFormed := by
  refine ⟨?_, trivial, trivial, trivial⟩
  show Json.OwnKeys ["value", "version"]
  decide +kernel

theorem get_verbatim {store : Store} {key value : String} {version : Int}
    (stored : store.get? key = some (Json.stringify (envelope value version))) :
    get .verbatim store key = .ok (some (envelope value version)) := by
  have filled : Json.stringify (envelope value version) ≠ "" := by
    intro empty
    have lists := congrArg String.toList empty
    rw [Json.stringify, String.toList_ofList] at lists
    cases lists
  have parsed := Json.parse_stringify (envelope_wellFormed value version)
  simp only [get, Client.get, stored, Option.map_some, truthy, decide_eq_true filled, if_true, toText,
    parsed]

theorem get_deserializing {store : Store} {key value : String} {version : Int}
    (stored : store.get? key = some (Json.stringify (envelope value version))) :
    get .deserializing store key = .error "SyntaxError" := by
  have parsed := Json.parse_stringify (envelope_wellFormed value version)
  have unreadable : Json.parse "[object Object]" = none := by decide +kernel
  have handed : Client.get .deserializing store key = some (envelope value version) := by
    simp only [Client.get, stored, Option.map_some, parsed, Option.getD_some]
  have isObject : truthy (envelope value version) = true := rfl
  have text : toText (envelope value version) = "[object Object]" := rfl
  simp only [get, handed, isObject, if_true, text, unreadable]

/-- A value that was set reads back exactly when the client leaves stored strings alone. -/
theorem round_trip_iff (client : Client) (store : Store) (key value : String) (version : Int)
    (later : List Write) (others : ∀ write ∈ later, write.key ≠ key) :
    get client (later.foldl Write.apply (set store key value version)) key =
        .ok (some (envelope value version)) ↔ client = .verbatim := by
  have stored : (later.foldl Write.apply (set store key value version)).get? key =
      some (Json.stringify (envelope value version)) := by
    rw [kept_by_others others, set, InsertionMap.get?_set, if_pos rfl]
  constructor
  · intro read
    cases client with
    | verbatim => rfl
    | deserializing =>
      rw [get_deserializing stored] at read
      cases read
  · rintro rfl
    exact get_verbatim stored

theorem round_trip_ciphertext :
    get .verbatim (set .empty "bot:creds" "enc:v1:00ff\"\\" 7) "bot:creds" =
      .ok (some (envelope "enc:v1:00ff\"\\" 7)) :=
  (round_trip_iff .verbatim .empty "bot:creds" "enc:v1:00ff\"\\" 7 [] (by simp)).mpr rfl

theorem built_client_throws :
    get .deserializing (set .empty "bot:creds" "\x7b\"a\":1\x7d" 7) "bot:creds" =
      .error "SyntaxError" := by
  apply get_deserializing
  rw [set, InsertionMap.get?_set, if_pos rfl]

end BaileysSession.RedisHttp
