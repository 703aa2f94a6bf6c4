import BaileysSession.Cache.ClusterRuns

set_option autoImplicit false

namespace BaileysSession.KeysGet

open Async CacheManager

structure Codec (Value : Type) where
  decode : String → Except String Value
  truthy : Value → Bool
  -- `proto.Message.AppStateSyncKeyData.fromObject`
  fromObject : Value → Except String Value

variable {Value : Type}

def decodeEntry (codec : Codec Value) (type : Category) (raw : Option String) :
    Except String (Option Value) :=
  match raw with
  | none => .ok none
  | some raw =>
    if raw = "" then .ok none
    else
      match codec.decode raw with
      | .error error => .error error
      | .ok value =>
        if type = .appStateSyncKey ∧ codec.truthy value = true then
          (codec.fromObject value).map some
        else .ok (some value)

-- The reads of the ids start in the order of the list.
def getEach (redis : Option RedisMode) (sessionId : String) (codec : Codec Value)
    (type : Category) :
    List String → InsertionMap String Value → Program (InsertionMap String Value)
  | [], data => pure data
  | id :: rest, data => do
    let raw ← CacheManager.get redis sessionId (cacheKeyName type id)
    match decodeEntry codec type raw with
    | .error error => throw error
    | .ok none => getEach redis sessionId codec type rest data
    | .ok (some value) => getEach redis sessionId codec type rest (data.set id value)

def keysGet (redis : Option RedisMode) (sessionId : String) (codec : Codec Value)
    (type : Category) (ids : List String) : Program (InsertionMap String Value) :=
  getEach redis sessionId codec type ids .empty

def gather (entry : String → Except String (Option Value)) :
    List String → InsertionMap String Value → Except String (InsertionMap String Value)
  | [], data => .ok data
  | id :: rest, data =>
    match entry id with
    | .error error => .error error
    | .ok none => gather entry rest data
    | .ok (some value) => gather entry rest (data.set id value)

theorem gather_single (entry : String → Except String (Option Value)) (id : String) :
    (gather entry [id] .empty).map (·.get? id) = entry id := by
  unfold gather
  cases found : entry id with
  | error error => rfl
  | ok value =>
    cases value with
    | none => rfl
    | some value => simp [gather, Except.map]

theorem gather_found {entry : String → Except String (Option Value)} (ids : List String)
    (data : InsertionMap String Value) {answer : InsertionMap String Value} {id : String}
    (right : ∀ value, data.get? id = some value → entry id = .ok (some value))
    (gathered : gather entry ids data = .ok answer) :
    entry id = .ok (answer.get? id) ∨ (id ∉ ids ∧ answer.get? id = data.get? id) := by
  induction ids generalizing data with
  | nil =>
    cases gathered
    exact .inr ⟨List.not_mem_nil, rfl⟩
  | cons first rest ih =>
    rw [gather] at gathered
    split at gathered
    · cases gathered
    · rename_i skipped
      rcases ih data right gathered with found | ⟨absent, kept⟩
      · exact .inl found
      · by_cases here : id = first
        · left
          rw [here, skipped, ← here, kept]
          cases held : data.get? id with
          | none => rfl
          | some value =>
            have stored := right value held
            rw [here, skipped] at stored
            cases stored
        · exact .inr ⟨fun inside => absent ((List.mem_cons.mp inside).resolve_left here), kept⟩
    · rename_i value stored
      have later : ∀ found, (data.set first value).get? id = some found →
          entry id = .ok (some found) := by
        intro found held
        rw [InsertionMap.get?_set] at held
        split at held
        · rename_i here
          cases held
          exact here ▸ stored
        · exact right found held
      rcases ih _ later gathered with found | ⟨absent, kept⟩
      · exact .inl found
      · by_cases here : id = first
        · left
          rw [kept, InsertionMap.get?_set, if_pos here, here, stored]
        · right
          rw [kept, InsertionMap.get?_set, if_neg here]
          exact ⟨fun inside => absent ((List.mem_cons.mp inside).resolve_left here), rfl⟩

theorem gather_failed {entry : String → Except String (Option Value)} (ids : List String)
    (data : InsertionMap String Value) {error : String}
    (gathered : gather entry ids data = .error error) : ∃ id ∈ ids, entry id = .error error := by
  induction ids generalizing data with
  | nil => cases gathered
  | cons first rest ih =>
    rw [gather] at gathered
    split at gathered
    · rename_i failed
      cases gathered
      exact ⟨first, List.mem_cons_self, failed⟩
    · obtain ⟨id, inside, failed⟩ := ih data gathered
      exact ⟨id, List.mem_cons_of_mem first inside, failed⟩
    · obtain ⟨id, inside, failed⟩ := ih _ gathered
      exact ⟨id, List.mem_cons_of_mem first inside, failed⟩

variable {settings : Settings} {sessionId : String} {codec : Codec Value} {type : Category}

def entryOf (codec : Codec Value) (sessionId : String) (db : Database) (type : Category)
    (id : String) : Except String (Option Value) :=
  decodeEntry codec type (db.value? sessionId (cacheKeyName type id))

theorem getEach_spec {db : Database} {inbox : Unit → List String} (ids : List String)
    (data : InsertionMap String Value) :
    Triple (effect settings ()) (Tolerable False)
      (Reading settings (sessions (· = sessionId)) False db inbox)
      (getEach settings.redis sessionId codec type ids data)
      (fun result _ => result = gather (entryOf codec sessionId db type) ids data) := by
  induction ids generalizing data with
  | nil => exact triple_done fun _ _ => rfl
  | cons id rest ih =>
    rw [getEach]
    apply triple_then (get_spec (only_owns sessionId (cacheKeyName type id)))
    intro raw
    apply triple_from
    rintro w ⟨reading, current⟩
    have stored : raw = db.value? sessionId (cacheKeyName type id) :=
      current ⟨rfl, fun message => message.1⟩
    rw [gather, entryOf, ← stored]
    apply triple_at reading
    split
    · exact ⟨fun _ _ _ _ => rfl⟩
    · exact ih data
    · exact ih _

theorem keysGet_result {w : Cluster Unit}
    (settled : Settled settings (sessions (· = sessionId)) False w) (ids : List String)
    {asked : Oracle Choice} (accepted : ∀ index, (asked index).rejection = none) :
    (evaluate (effect settings ()) (keysGet settings.redis sessionId codec type ids) asked
      w).result = gather (entryOf codec sessionId w.db type) ids .empty :=
  (getEach_spec ids .empty).run asked w settled.reading (along_accepted _ w accepted)

end BaileysSession.KeysGet
