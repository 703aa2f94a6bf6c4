import BaileysSession.Cache.TcpCoherence
import BaileysSession.Factory.AuthCodec
import BaileysSession.Factory.KeysRoundTrip
import BaileysSession.Factory.SaveCreds

set_option autoImplicit false

namespace BaileysSession.AuthState

open Aes Serialization Async CacheManager Transition
open KeysSet (items)

section Source

-- What the factory does when it starts.
def loadCreds {Creds : Type} (redis : Option RedisMode) (sessionId : String)
    (decode : String → Except String Creds) (initAuthCreds : Creds) : Program Creds := do
  let raw ← CacheManager.get redis sessionId credsKey
  match raw with
  | none => pure initAuthCreds
  | some raw => if raw = "" then pure initAuthCreds else settle (decode raw)

variable (gcm : Gcm) (bufferJson : BufferJson)

/-- The values of a `keys.set` call that it stores, in the order of its loops. -/
def stores (data : SignalDataSet JsValue) : List (Category × String × JsValue) :=
  data.entries.flatMap fun bucket =>
    ((items bucket).filter fun item => item.2.truthy).map fun item => (bucket.1, item)

def call (encryption : Option EncryptionOptions) (ivs : Category → String → Bytes)
    (data : SignalDataSet JsValue) : KeysSet.Call JsValue where
  data := data
  truthy := JsValue.truthy
  encode := fun category id value =>
    (encode gcm bufferJson (ivs category id) encryption value).toOption.join.getD ""

def encodeAll (encryption : Option EncryptionOptions) (ivs : Category → String → Bytes)
    (data : SignalDataSet JsValue) : Except String (List (Option String)) :=
  (stores data).mapM fun item => encode gcm bufferJson (ivs item.1 item.2.1) encryption item.2.2

-- Nothing is written where a value cannot be encoded.
def keysSet (redis : Option RedisMode) (sessionId : String) (encryption : Option EncryptionOptions)
    (ivs : Category → String → Bytes) (data : SignalDataSet JsValue) : Program Unit :=
  match encodeAll gcm bufferJson encryption ivs data with
  | .error error => throw error
  | .ok _ =>
    CacheManager.keysSet redis sessionId (KeysSet.collect (call gcm bufferJson encryption ivs data))

def saveCreds (redis : Option RedisMode) (sessionId : String) (encryption : Option EncryptionOptions)
    (iv : Bytes) (creds : JsValue) : Program Unit :=
  match encode gcm bufferJson iv encryption creds with
  | .error error => throw error
  | .ok none => pure ()
  | .ok (some text) => CacheManager.saveCreds redis sessionId text

def codec (fromObject : JsValue → Except String JsValue) (encryption : Option EncryptionOptions) :
    KeysGet.Codec JsValue where
  decode := decode gcm bufferJson encryption
  truthy := JsValue.truthy
  fromObject := fromObject

end Source

section Saved

-- The last of the values that go to the row.
def stored : List (Category × String × JsValue) → String → Option JsValue
  | [], _ => none
  | (category, id, value) :: rest, key =>
    (stored rest key).or (if cacheKeyName category id = key then some value else none)

def afterKeysSet (data : SignalDataSet JsValue) (saved : String → Option JsValue) (key : String) :
    Option JsValue :=
  if ∃ bucket ∈ data.entries, ∃ item ∈ items bucket, item.2.truthy = false ∧
      cacheKeyName bucket.1 item.1 = key then none
  else (stored (stores data) key).or (saved key)

variable {gcm : Gcm} {bufferJson : BufferJson}
  {encryption : Option EncryptionOptions} {ivs : Category → String → Bytes}
  {data : SignalDataSet JsValue}

theorem collect_stores : (KeysSet.collect (call gcm bufferJson encryption ivs data)).entries =
    (stores data).map fun item => ⟨cacheKeyName item.1 item.2.1,
      (call gcm bufferJson encryption ivs data).encode item.1 item.2.1 item.2.2⟩ := by
  rw [KeysSet.collect_eq, stores, List.map_flatMap]
  simp only [List.map_map]
  rfl

theorem collect_deletions (key : String) :
    key ∈ (KeysSet.collect (call gcm bufferJson encryption ivs data)).deletions ↔
      ∃ bucket ∈ data.entries, ∃ item ∈ items bucket, item.2.truthy = false ∧
        cacheKeyName bucket.1 item.1 = key := by
  rw [KeysSet.collect_eq]
  simp only [List.mem_flatMap, List.mem_map, List.mem_filter, Bool.not_eq_true', call, and_assoc]

theorem written_stores (encode : Category → String → JsValue → String)
    (list : List (Category × String × JsValue)) (key : String) :
    match stored list key with
    | none => Database.written (list.map fun item => ⟨cacheKeyName item.1 item.2.1,
        encode item.1 item.2.1 item.2.2⟩) key = none
    | some value => ∃ category id, (category, id, value) ∈ list ∧
        Database.written (list.map fun item => ⟨cacheKeyName item.1 item.2.1,
          encode item.1 item.2.1 item.2.2⟩) key = some (encode category id value) := by
  induction list with
  | nil => rfl
  | cons item rest ih =>
    obtain ⟨category, id, own⟩ := item
    rw [stored, List.map_cons, Database.written]
    cases later : stored rest key with
    | some value =>
      rw [later] at ih
      obtain ⟨category, id, inside, written⟩ := ih
      rw [written]
      exact ⟨category, id, List.mem_cons_of_mem _ inside, rfl⟩
    | none =>
      rw [later] at ih
      dsimp only at ih
      rw [ih, Option.none_or, Option.none_or]
      dsimp only
      by_cases name : cacheKeyName category id = key
      · rw [if_pos name, if_pos name]
        exact ⟨category, id, List.mem_cons_self, rfl⟩
      · rw [if_neg name, if_neg name]

end Saved

section Rows

variable {Instance : Type} [DecidableEq Instance] {settings : Settings} {shared : Prop}
  {self : Instance} {sessionId other : String}

def Rows (settings : Settings) (shared : Prop) (sessionId : String) (rows : String → Option String)
    (w : Cluster Instance) : Prop :=
  Settled settings (sessions Plain) shared w ∧ ∀ key, w.db.value? sessionId key = rows key

theorem runSections_rows (connected : Connected settings shared Instance) (plain : Plain other)
    (sections : List KeysSet.Section) (rows : String → Option String) :
    Triple (effect settings self) (Tolerable shared) (Rows settings shared sessionId rows)
      (runSections settings.redis other sections)
      (Returns fun _ => Rows settings shared sessionId fun key =>
        if sessionId = other then KeysRoundTrip.leftBy sections key (rows key) else rows key) := by
  induction sections generalizing rows with
  | nil =>
    apply triple_done
    rintro w ⟨settled, same⟩
    refine ⟨settled, fun key => ?_⟩
    rw [same]
    split <;> rfl
  | cons change rest ih =>
    rw [runSections]
    apply triple_from
    rintro w ⟨settled, same⟩
    apply triple_then (runSection_spec connected w settled other change
      fun key _ => plain_owns plain key)
    intro _
    apply triple_consequence (ih fun key =>
      if sessionId = other ∧ key ∈ change.keys then change.leaves key else rows key)
    · rintro next ⟨after, now, written⟩
      refine ⟨after, fun key => ?_⟩
      rw [written, KeysSet.value?_write, same]
    · rintro _ next ⟨after, rows⟩
      refine ⟨after, fun key => ?_⟩
      rw [rows]
      by_cases mine : sessionId = other <;> simp [mine, KeysRoundTrip.leftBy]

theorem keysSet_rows (connected : Connected settings shared Instance) (plain : Plain other)
    (changes : KeysSet.Changes) (rows : String → Option String) :
    Triple (effect settings self) (Tolerable shared) (Rows settings shared sessionId rows)
      (CacheManager.keysSet settings.redis other changes)
      (Returns fun _ => Rows settings shared sessionId fun key =>
        if sessionId = other then
          if key ∈ changes.deletions then none
          else (Database.written changes.entries key).or (rows key)
        else rows key) := by
  apply triple_consequence (runSections_rows connected plain changes.sections rows)
    (fun _ holds => holds)
  rintro _ next ⟨settled, same⟩
  refine ⟨settled, fun key => ?_⟩
  rw [same]
  dsimp only
  rw [KeysRoundTrip.leftBy_sections]

def Foreign (sessionId : String) : Operation → Prop
  | .keysSet other _ => sessionId ≠ other
  | _ => True

theorem foreign_rows (connected : Connected settings shared Instance) {operation : Operation}
    (on : operation.On Plain) (foreign : Foreign sessionId operation)
    (rows : String → Option String) :
    Triple (effect settings self) (Tolerable shared) (Rows settings shared sessionId rows)
      (operation.program settings.redis)
      (Returns fun _ => Rows settings shared sessionId rows) := by
  cases operation with
  | get other key =>
    apply triple_from
    rintro w ⟨settled, same⟩
    apply triple_then (triple_at settled.reading (get_spec (plain_owns on key)))
    intro _
    apply triple_done
    rintro next ⟨⟨after, unchanged, -⟩, -⟩
    exact ⟨after, fun key => unchanged ▸ same key⟩
  | getMany other keys =>
    apply triple_from
    rintro w ⟨settled, same⟩
    apply triple_then (triple_at settled.reading
      (getMany_spec keys fun key _ => plain_owns on key))
    intro _
    apply triple_done
    rintro next ⟨⟨after, unchanged, -⟩, -⟩
    exact ⟨after, fun key => unchanged ▸ same key⟩
  | keysSet other changes =>
    apply triple_consequence (keysSet_rows connected on changes rows) (fun _ holds => holds)
    rintro _ next ⟨after, same⟩
    exact ⟨after, fun key => (same key).trans (if_neg foreign)⟩
  | deleteSession | importSession | clearCache => exact False.elim on

theorem environment_db {w next : Cluster Instance} {event : Event Instance}
    (outside : ∀ self operation oracle, event ≠ .operate self operation oracle)
    (taken : CacheManager.step settings w event = some next) : next.db = w.db := by
  cases event with
  | operate self operation oracle => exact absurd rfl (outside self operation oracle)
  | deliver subscriber key =>
    obtain ⟨-, rfl⟩ := deliver_taken taken
    rfl
  | sweepExpired | evict | loseL2 | restart =>
    cases taken
    rfl

theorem environment_rows {w next : Cluster Instance} {event : Event Instance}
    {rows : String → Option String} (holds : Rows settings shared sessionId rows w)
    (outside : ∀ self operation oracle, event ≠ .operate self operation oracle)
    (taken : CacheManager.step settings w event = some next) :
    Rows settings shared sessionId rows next := by
  refine ⟨environment_settled holds.1 outside taken, ?_⟩
  rw [environment_db outside taken]
  exact holds.2

end Rows

section Runs

variable {Instance : Type} [DecidableEq Instance]

structure State (Instance : Type) where
  cluster : Cluster Instance
  saved : String → Option JsValue

inductive AuthEvent (Instance : Type) where
  | saveCreds (self : Instance) (encryption : Option EncryptionOptions) (iv : Bytes)
      (creds : JsValue) (oracle : Oracle Choice)
  | keysSet (self : Instance) (encryption : Option EncryptionOptions)
      (ivs : Category → String → Bytes) (data : SignalDataSet JsValue) (oracle : Oracle Choice)
  -- Whatever else happens, other sessions included.
  | other (event : Event Instance)

variable (gcm : Gcm) (bufferJson : BufferJson)
  (settings : Settings) (sessionId : String)

def step : Step (State Instance) (AuthEvent Instance) :=
  fun s event =>
    match event with
    | .saveCreds self encryption iv creds oracle =>
      some ⟨(evaluate (effect settings self)
          (saveCreds gcm bufferJson settings.redis sessionId encryption iv creds) oracle
          s.cluster).world,
        match encode gcm bufferJson iv encryption creds with
        | .ok (some _) => Function.update s.saved credsKey (some creds)
        | _ => s.saved⟩
    | .keysSet self encryption ivs data oracle =>
      some ⟨(evaluate (effect settings self)
          (keysSet gcm bufferJson settings.redis sessionId encryption ivs data) oracle
          s.cluster).world,
        match encodeAll gcm bufferJson encryption ivs data with
        | .ok _ => afterKeysSet data s.saved
        | .error _ => s.saved⟩
    | .other event => (CacheManager.step settings s.cluster event).map fun w => ⟨w, s.saved⟩

/-- Every instance encrypts with the key, and every call it makes is tolerable. -/
def Permitted (shared : Prop) (key : Option Bytes) (s : State Instance) : AuthEvent Instance → Prop
  | .saveCreds self encryption iv creds oracle =>
    Uses key encryption ∧ iv.length = IV_LENGTH ∧ WellFormed creds ∧
      Along (effect settings self) (Tolerable shared)
        (saveCreds gcm bufferJson settings.redis sessionId encryption iv creds) oracle s.cluster
  | .keysSet self encryption ivs data oracle =>
    Uses key encryption ∧ (∀ category id, (ivs category id).length = IV_LENGTH) ∧
      (∀ item ∈ stores data, WellFormed item.2.2) ∧
      Along (effect settings self) (Tolerable shared)
        (keysSet gcm bufferJson settings.redis sessionId encryption ivs data) oracle s.cluster
  | .other event =>
    CacheManager.Permitted settings Plain (Tolerable shared) s.cluster event ∧
      ∀ self operation oracle, event = .operate self operation oracle → Foreign sessionId operation

end Runs

section Invariant

variable {Instance : Type} [DecidableEq Instance] {gcm : Gcm}
  {bufferJson : BufferJson} {settings : Settings}
  {sessionId : String} {shared : Prop} {key : Option Bytes}

/-- A row holds a text of the value, whichever way it was encoded. -/
def Kept (gcm : Gcm) (bufferJson : BufferJson)
    (key : Option Bytes) : Option JsValue → Option String → Prop
  | none, row => row = none
  | some value, row => WellFormed value ∧ ∃ writer iv text, Uses key writer ∧
      iv.length = IV_LENGTH ∧ encode gcm bufferJson iv writer value = .ok (some text) ∧
      row = some text

structure Holds (gcm : Gcm) (bufferJson : BufferJson)
    (settings : Settings) (sessionId : String) (shared : Prop) (key : Option Bytes)
    (s : State Instance) : Prop where
  settled : Settled settings (sessions Plain) shared s.cluster
  kept : ∀ row, Kept gcm bufferJson key (s.saved row) (s.cluster.db.value? sessionId row)

theorem stores_truthy {data : SignalDataSet JsValue} {item : Category × String × JsValue}
    (inside : item ∈ stores data) : item.2.2.truthy = true := by
  obtain ⟨bucket, -, mapped⟩ := List.mem_flatMap.mp inside
  obtain ⟨own, kept, rfl⟩ := List.mem_map.mp mapped
  exact (List.mem_filter.mp kept).2

theorem kept_afterKeysSet {encryption : Option EncryptionOptions}
    {ivs : Category → String → Bytes} {data : SignalDataSet JsValue} (uses : Uses key encryption)
    (fresh : ∀ category id, (ivs category id).length = IV_LENGTH)
    (wellFormed : ∀ item ∈ stores data, WellFormed item.2.2) {texts : List (Option String)}
    (encoded : encodeAll gcm bufferJson encryption ivs data = .ok texts)
    {saved : String → Option JsValue} {rows : String → Option String}
    (kept : ∀ row, Kept gcm bufferJson key (saved row) (rows row)) (row : String) :
    let changes := KeysSet.collect (call gcm bufferJson encryption ivs data)
    Kept gcm bufferJson key (afterKeysSet data saved row)
      (if row ∈ changes.deletions then none
        else (Database.written changes.entries row).or (rows row)) := by
  intro changes
  unfold afterKeysSet
  by_cases deleted : row ∈ changes.deletions
  · rw [if_pos deleted, if_pos ((collect_deletions row).mp deleted)]
    rfl
  · rw [if_neg deleted, if_neg (mt (collect_deletions row).mpr deleted)]
    have written := written_stores (call gcm bufferJson encryption ivs data).encode (stores data) row
    rw [← collect_stores] at written
    cases last : stored (stores data) row with
    | none =>
      rw [last] at written
      rw [show Database.written changes.entries row = none from written, Option.none_or, Option.none_or]
      exact kept row
    | some value =>
      rw [last] at written
      obtain ⟨category, id, inside, text⟩ := written
      rw [show Database.written changes.entries row = _ from text, Option.some_or, Option.some_or]
      obtain ⟨found, own⟩ := mapM_each encoded (category, id, value) inside
      have truthy := stores_truthy inside
      have defined : value ≠ .undefined := by
        rintro rfl
        cases truthy
      obtain ⟨text, rfl⟩ := Option.isSome_iff_exists.mp (encode_some defined own)
      refine ⟨wellFormed _ inside, encryption, ivs category id, text, uses, fresh category id, own, ?_⟩
      have chosen : encode gcm bufferJson (ivs category id) encryption value = .ok (some text) := own
      simp only [call, chosen, Except.toOption, Option.join_some, Option.getD_some]

theorem step_holds (connected : Connected settings shared Instance) (plain : Plain sessionId)
    {s next : State Instance} {event : AuthEvent Instance}
    (holds : Holds gcm bufferJson settings sessionId shared key s)
    (permitted : Permitted gcm bufferJson settings sessionId shared key s event)
    (taken : step gcm bufferJson settings sessionId s event = some next) :
    Holds gcm bufferJson settings sessionId shared key next := by
  have rows : Rows settings shared sessionId (fun row => s.cluster.db.value? sessionId row)
      s.cluster := ⟨holds.settled, fun _ => rfl⟩
  cases event with
  | saveCreds self encryption iv creds oracle =>
    cases taken
    obtain ⟨uses, fresh, wellFormed, along⟩ := permitted
    unfold saveCreds at along ⊢
    cases encoded : encode gcm bufferJson iv encryption creds with
    | error error => exact holds
    | ok found =>
      cases found with
      | none => exact holds
      | some text =>
        rw [encoded] at along
        obtain ⟨_, -, after, now, same⟩ := triple_returns (runSection_spec connected s.cluster
          holds.settled sessionId (.upsert [⟨credsKey, text⟩]) fun row _ => plain_owns plain row)
          rfl along
        refine ⟨after, fun row => ?_⟩
        have left := KeysSet.value?_write settings.versioning now sessionId sessionId row
          s.cluster.db (.upsert [⟨credsKey, text⟩])
        rw [← same] at left
        by_cases creds : row = credsKey
        · subst creds
          rw [if_pos ⟨rfl, List.mem_singleton_self _⟩] at left
          simp only [Function.update_self]
          exact ⟨wellFormed, encryption, iv, text, uses, fresh, encoded, left⟩
        · rw [if_neg fun inside => creds (List.mem_singleton.mp inside.2)] at left
          simp only [Function.update_of_ne creds]
          exact left ▸ holds.kept row
  | keysSet self encryption ivs data oracle =>
    cases taken
    obtain ⟨uses, fresh, wellFormed, along⟩ := permitted
    unfold keysSet at along ⊢
    cases encoded : encodeAll gcm bufferJson encryption ivs data with
    | error error => exact holds
    | ok texts =>
      rw [encoded] at along
      obtain ⟨_, -, after, same⟩ := triple_returns (keysSet_rows connected plain _ _) rows along
      refine ⟨after, fun row => ?_⟩
      have left := (same row).trans (if_pos rfl)
      exact left ▸ kept_afterKeysSet uses fresh wellFormed encoded holds.kept row
  | other event =>
    obtain ⟨within, foreign⟩ := permitted
    obtain ⟨w, stepped, rfl⟩ := Option.map_eq_some_iff.mp taken
    have after : Rows settings shared sessionId (fun row => s.cluster.db.value? sessionId row) w := by
      cases event with
      | operate self operation oracle =>
        cases stepped
        obtain ⟨_, -, after⟩ := triple_returns (foreign_rows connected within.1
          (foreign self operation oracle rfl) _) rows within.2
        exact after
      | deliver | sweepExpired | evict | loseL2 | restart =>
        exact environment_rows rows (fun _ _ _ same => by cases same) stepped
    exact ⟨after.1, fun row => after.2 row ▸ holds.kept row⟩

theorem run_holds (connected : Connected settings shared Instance) (plain : Plain sessionId)
    {s final : State Instance} {events : List (AuthEvent Instance)}
    (holds : Holds gcm bufferJson settings sessionId shared key s)
    (run : Run (step gcm bufferJson settings sessionId)
      (Permitted gcm bufferJson settings sessionId shared key) s events final) :
    Holds gcm bufferJson settings sessionId shared key final :=
  run.invariant _ (fun _ _ _ before permitted taken =>
    step_holds connected plain before permitted taken) holds

def initial (settings : Settings) (db : Database) : State Instance :=
  ⟨Cluster.initial settings db, fun _ => none⟩

omit [DecidableEq Instance] in
theorem initial_holds {db : Database} (empty : ∀ row, db.value? sessionId row = none) :
    Holds gcm bufferJson settings sessionId shared key (initial settings db : State Instance) :=
  ⟨initial_coherent db, empty⟩

end Invariant

section Reading

def credsOf {Creds : Type} (decode : String → Except String Creds) (initAuthCreds : Creds) :
    Option String → Except String Creds
  | none => .ok initAuthCreds
  | some raw => if raw = "" then .ok initAuthCreds else decode raw

/-- What is read is the normal form of the creds that were saved, or new ones if there are none. -/
def ReadBack (bufferJson : BufferJson) (initAuthCreds : JsValue)
    (saved : Option JsValue) (result : Except String JsValue) : Prop :=
  match saved with
  | none => result = .ok initAuthCreds
  | some creds => result.map some = normalise bufferJson creds

def savedEntry (bufferJson : BufferJson)
    (fromObject : JsValue → Except String JsValue) (type : Category) :
    Option JsValue → Except String (Option JsValue)
  | none => .ok none
  | some value =>
    match normalise bufferJson value with
    | .ok (some kept) =>
      if type = .appStateSyncKey ∧ kept.truthy = true then (fromObject kept).map some
      else .ok (some kept)
    | .ok none => .ok none
    | .error error => .error error

section Texts

variable {gcm : Gcm} {bufferJson : BufferJson}
  {key : Option Bytes} {encryption : Option EncryptionOptions} {saved : Option JsValue}
  {row : Option String}

theorem Kept.creds (kept : Kept gcm bufferJson key saved row) (uses : Uses key encryption)
    (initAuthCreds : JsValue) : ReadBack bufferJson initAuthCreds saved
      (credsOf (decode gcm bufferJson encryption) initAuthCreds row) := by
  cases saved with
  | none =>
    rw [show row = none from kept]
    rfl
  | some creds =>
    obtain ⟨wellFormed, writer, iv, text, writes, fresh, encoded, rfl⟩ := kept
    rw [ReadBack, credsOf, if_neg (encode_ne_empty writes wellFormed encoded)]
    exact decode_encode writes uses fresh wellFormed encoded

theorem Kept.entry (kept : Kept gcm bufferJson key saved row) (uses : Uses key encryption)
    (fromObject : JsValue → Except String JsValue) (type : Category) :
    KeysGet.decodeEntry (codec gcm bufferJson fromObject encryption) type row =
      savedEntry bufferJson fromObject type saved := by
  cases saved with
  | none =>
    rw [show row = none from kept]
    rfl
  | some value =>
    obtain ⟨wellFormed, writer, iv, text, writes, fresh, encoded, rfl⟩ := kept
    have read : (decode gcm bufferJson encryption text).map some = normalise bufferJson value :=
      decode_encode writes uses fresh wellFormed encoded
    rw [KeysGet.decodeEntry, savedEntry, if_neg (encode_ne_empty writes wellFormed encoded), ← read]
    simp only [codec]
    cases decode gcm bufferJson encryption text <;> rfl

end Texts

variable {World Draw : Type} {effect : Effect Reply Draw World}
  {ok : World → Call → Draw → Prop} {reading : World → Prop} {redis : Option RedisMode}
  {sessionId : String}

theorem loadCreds_spec {Creds : Type} {value : Option String}
    (reads : Triple effect ok reading (CacheManager.get redis sessionId credsKey)
      (Returns fun raw _ => raw = value))
    (decode : String → Except String Creds) (initAuthCreds : Creds) :
    Triple effect ok reading (loadCreds redis sessionId decode initAuthCreds)
      (fun result _ => result = credsOf decode initAuthCreds value) := by
  apply triple_then reads
  intro raw
  apply triple_from
  rintro w rfl
  cases raw with
  | none => exact triple_done fun _ _ => rfl
  | some raw =>
    rw [credsOf]
    by_cases empty : raw = ""
    · simp only [if_pos empty]
      exact triple_done fun _ _ => rfl
    · simp only [if_neg empty]
      cases decode raw with
      | error error => exact ⟨fun _ _ _ _ => rfl⟩
      | ok creds => exact triple_done fun _ _ => rfl

theorem getEach_spec {Value : Type} (values : String → Option String) (codec : KeysGet.Codec Value)
    (type : Category) (ids : List String) (data : InsertionMap String Value)
    (reads : ∀ id ∈ ids, Triple effect ok reading
      (CacheManager.get redis sessionId (cacheKeyName type id))
      (Returns fun raw w => reading w ∧ raw = values (cacheKeyName type id))) :
    Triple effect ok reading (KeysGet.getEach redis sessionId codec type ids data)
      (fun result _ => result = KeysGet.gather (fun id =>
        KeysGet.decodeEntry codec type (values (cacheKeyName type id))) ids data) := by
  induction ids generalizing data with
  | nil => exact triple_done fun _ _ => rfl
  | cons id rest ih =>
    have later := fun other inside => reads other (List.mem_cons_of_mem id inside)
    rw [KeysGet.getEach]
    apply triple_then (reads id List.mem_cons_self)
    intro raw
    apply triple_from
    rintro w ⟨holds, current⟩
    rw [KeysGet.gather, ← current]
    apply triple_at holds
    split
    · exact ⟨fun _ _ _ _ => rfl⟩
    · exact ih _ later
    · exact ih _ later

end Reading

section Encrypted

def hexSettings : Option EncryptionOptions := some ⟨true, generateEncryptionKey zeroKey⟩

def base64Settings : Option EncryptionOptions := some ⟨true, Base64.encode zeroKey⟩

theorem hexSettings_uses : Uses (some zeroKey) hexSettings :=
  ⟨_, rfl, rfl, resolveKey_spells rfl (generated_spells rfl)⟩

theorem base64Settings_uses : Uses (some zeroKey) base64Settings :=
  ⟨_, rfl, rfl, resolveKey_spells rfl (.inr rfl)⟩

def savedText : String := "enc:v1:AAAAAAAAAAAAAAAA8BLoZHis868bEVK0i1+/SbXa"

theorem saved_encodes :
    encode zeroKeyGcm base64Json zeroIv hexSettings (.object []) = .ok (some savedText) := by
  decide +kernel

def savedRun : List (AuthEvent Bool) := [.saveCreds true hexSettings zeroIv (.object []) quiet]

def savedState : State Bool where
  cluster := (evaluate (effect twoSettings true)
    (saveCreds zeroKeyGcm base64Json twoSettings.redis "bot" hexSettings zeroIv (.object [])) quiet
    (Cluster.initial twoSettings .empty)).world
  saved := Function.update (fun _ => none) credsKey (some (.object []))

theorem savedRun_runs : Run (step zeroKeyGcm base64Json twoSettings "bot")
    (Permitted zeroKeyGcm base64Json twoSettings "bot" True (some zeroKey))
    (initial twoSettings .empty) savedRun savedState := by
  refine .cons ⟨hexSettings_uses, rfl, ⟨⟨List.nodup_nil, List.Pairwise.nil⟩, trivial⟩,
    along_accepted _ _ fun _ => rfl⟩ ?_ (.nil _)
  simp only [step, saved_encodes]
  rfl

end Encrypted

section Results

variable {Instance : Type} [DecidableEq Instance] (gcm : Gcm)
  (bufferJson : BufferJson) (settings : Settings)
  (sessionId : String) (plain : Plain sessionId) (shared : Prop)
  (connected : Connected settings shared Instance) (db : Database)
  (empty : ∀ row, db.value? sessionId row = none) (key : Option Bytes)
  (events : List (AuthEvent Instance)) (s : State Instance)
  (run : Run (step gcm bufferJson settings sessionId)
    (Permitted gcm bufferJson settings sessionId shared key) (initial settings db) events s)

include plain connected empty run

theorem restarted_creds {reader : Instance} {restarted : Cluster Instance}
    (starts : CacheManager.step settings s.cluster (.restart reader) = some restarted)
    {decode : String → Except String JsValue} {initAuthCreds : JsValue} {oracle : Oracle Choice}
    (along : Along (effect settings reader) (Tolerable shared)
      (loadCreds settings.redis sessionId decode initAuthCreds) oracle restarted) :
    Kept gcm bufferJson key (s.saved credsKey) (restarted.db.value? sessionId credsKey) ∧
      (evaluate (effect settings reader) (loadCreds settings.redis sessionId decode initAuthCreds)
        oracle restarted).result =
          credsOf decode initAuthCreds (restarted.db.value? sessionId credsKey) := by
  have holds := run_holds connected plain (initial_holds empty) run
  have settled := environment_settled holds.settled (fun _ _ _ same => by cases same) starts
  cases starts
  refine ⟨holds.kept credsKey, (loadCreds_spec ?_ decode initAuthCreds).run oracle _
    settled.reading along⟩
  apply triple_consequence (get_spec (plain_owns plain credsKey)) (fun _ reading => reading)
  exact fun _ _ after => after.2 ⟨plain, fun message => by simp at message⟩

/-- After any run that starts without the session, an instance that starts anew reads the creds
that were saved last, in their normal form, and has new ones if none were ever saved. -/
theorem creds_survive_restart (reader : Instance) (encryption : Option EncryptionOptions)
    (uses : Uses key encryption) (restarted : Cluster Instance)
    (starts : CacheManager.step settings s.cluster (.restart reader) = some restarted)
    (initAuthCreds : JsValue) (oracle : Oracle Choice)
    (along : Along (effect settings reader) (Tolerable shared)
      (loadCreds settings.redis sessionId (decode gcm bufferJson encryption) initAuthCreds) oracle
      restarted) :
    ReadBack bufferJson initAuthCreds (s.saved credsKey)
      (evaluate (effect settings reader)
        (loadCreds settings.redis sessionId (decode gcm bufferJson encryption) initAuthCreds) oracle
        restarted).result := by
  obtain ⟨row, result⟩ := restarted_creds gcm bufferJson settings sessionId plain shared connected db
    empty key events s run starts along
  rw [result]
  exact row.creds uses initAuthCreds

omit plain connected empty run in
theorem creds_survive_restart_respelled :
    ∃ restarted, CacheManager.step twoSettings savedState.cluster (.restart false) = some restarted ∧
      (evaluate (effect twoSettings false) (loadCreds twoSettings.redis "bot"
        (decode zeroKeyGcm base64Json base64Settings) .null) quiet restarted).result =
          .ok (.object []) := by
  refine ⟨_, rfl, ?_⟩
  have result := creds_survive_restart zeroKeyGcm base64Json twoSettings "bot" (by decide) True
    ⟨fun _ => rfl, fun alone => absurd trivial alone⟩ .empty (fun _ => rfl) (some zeroKey) savedRun
    savedState savedRun_runs false base64Settings base64Settings_uses _ rfl .null quiet
    (along_accepted _ _ fun _ => rfl)
  obtain ⟨kept, read, same⟩ := map_ok.mp (result.trans rfl)
  cases same
  exact read

/-- Under another encryption setting an instance never falls back to new creds: it reads the saved
ones only if the key opens them, and fails otherwise. -/
theorem other_settings_never_start_over (reader : Instance) (other : Option Bytes)
    (encryption : Option EncryptionOptions) (uses : Uses other encryption)
    (restarted : Cluster Instance)
    (starts : CacheManager.step settings s.cluster (.restart reader) = some restarted)
    (initAuthCreds : JsValue) (oracle : Oracle Choice)
    (along : Along (effect settings reader) (Tolerable shared)
      (loadCreds settings.redis sessionId (decode gcm bufferJson encryption) initAuthCreds) oracle
      restarted)
    (creds : JsValue) (saved : s.saved credsKey = some creds) :
    ∃ iv json text, iv.length = IV_LENGTH ∧ serialize bufferJson creds = .ok (some json) ∧
      restarted.db.value? sessionId credsKey = some text ∧
      (evaluate (effect settings reader)
        (loadCreds settings.redis sessionId (decode gcm bufferJson encryption) initAuthCreds) oracle
        restarted).result = decode gcm bufferJson encryption text ∧
      ((∃ kept, decode gcm bufferJson encryption text = .ok kept) ↔
        Opens gcm bufferJson iv json key other) := by
  obtain ⟨row, result⟩ := restarted_creds gcm bufferJson settings sessionId plain shared connected db
    empty key events s run starts along
  rw [saved] at row
  obtain ⟨wellFormed, writer, iv, text, writes, fresh, encoded, same⟩ := row
  obtain ⟨json, written, stored⟩ := encode_text encoded
  refine ⟨iv, json, text, fresh, written, same, ?_, decode_other writes uses fresh wellFormed written
    stored⟩
  rw [result, same, credsOf, if_neg (encode_ne_empty writes wellFormed encoded)]

omit plain connected empty run in
theorem switched_off_fails :
    ∃ restarted, CacheManager.step twoSettings savedState.cluster (.restart false) = some restarted ∧
      ∀ kept, (evaluate (effect twoSettings false) (loadCreds twoSettings.redis "bot"
        (decode zeroKeyGcm base64Json none) .null) quiet restarted).result ≠ .ok kept := by
  refine ⟨_, rfl, ?_⟩
  obtain ⟨_, _, text, -, -, -, result, opens⟩ := other_settings_never_start_over zeroKeyGcm base64Json
    twoSettings "bot" (by decide) True ⟨fun _ => rfl, fun alone => absurd trivial alone⟩ .empty
    (fun _ => rfl) (some zeroKey) savedRun savedState savedRun_runs false none none
    (fun _ absent => by cases absent) _ rfl .null quiet (along_accepted _ _ fun _ => rfl)
    (.object []) rfl
  intro kept read
  rw [result] at read
  exact opens.mp ⟨kept, read⟩

/-- After any run that starts without the session, `keys.get` of an instance that has seen the
invalidations gives what was set last, in its normal form, and nothing that was deleted. -/
theorem keys_read_as_set (reader : Instance) (encryption : Option EncryptionOptions)
    (uses : Uses key encryption) (fromObject : JsValue → Except String JsValue) (type : Category)
    (ids : List String)
    (delivered : ∀ id ∈ ids, cacheKey sessionId (cacheKeyName type id) ∉ s.cluster.inbox reader)
    (oracle : Oracle Choice)
    (along : Along (effect settings reader) (Tolerable shared)
      (KeysGet.keysGet settings.redis sessionId (codec gcm bufferJson fromObject encryption) type
        ids) oracle s.cluster) :
    (evaluate (effect settings reader)
      (KeysGet.keysGet settings.redis sessionId (codec gcm bufferJson fromObject encryption) type
        ids) oracle s.cluster).result =
        KeysGet.gather (fun id => savedEntry bufferJson fromObject type
          (s.saved (cacheKeyName type id))) ids .empty := by
  have holds := run_holds connected plain (initial_holds empty) run
  have undisturbed : ∀ id ∈ ids, Undisturbed (sessions Plain) shared reader s.cluster.inbox
      sessionId (cacheKeyName type id) :=
    fun id inside => ⟨plain, fun message => delivered id inside message.2⟩
  have result := (getEach_spec (fun row => s.cluster.db.value? sessionId row)
    (codec gcm bufferJson fromObject encryption) type ids .empty fun id inside =>
      triple_consequence (get_spec (plain_owns plain (cacheKeyName type id)))
        (fun _ reading => reading) fun _ _ after => ⟨after.1, after.2 (undisturbed id inside)⟩).run
    oracle _ holds.settled.reading along
  simp only [(holds.kept _).entry uses] at result
  exact result

def sessionData : SignalDataSet JsValue :=
  InsertionMap.empty.set .session (some (.set .empty "1.0" (.buffer [7])))

def sessionRun : List (AuthEvent Bool) :=
  [.keysSet false none (fun _ _ => zeroIv) sessionData quiet,
    .other (.deliver true "bot:session-1.0")]

omit plain connected empty run in
theorem session_read_as_set :
    ∃ s, Run (step zeroKeyGcm base64Json twoSettings "bot")
        (Permitted zeroKeyGcm base64Json twoSettings "bot" True none) (initial twoSettings .empty)
        sessionRun s ∧
      (evaluate (effect twoSettings true) (KeysGet.keysGet twoSettings.redis "bot"
        (codec zeroKeyGcm base64Json .ok none) .session ["1.0", "2.0"]) quiet s.cluster).result =
          .ok (.set .empty "1.0" (.buffer [7])) := by
  have unencrypted : Uses none none := fun _ absent => by cases absent
  have run : ∃ s, Run (step zeroKeyGcm base64Json twoSettings "bot")
      (Permitted zeroKeyGcm base64Json twoSettings "bot" True none) (initial twoSettings .empty)
      sessionRun s ∧ cacheKey "bot" (cacheKeyName .session "1.0") ∉ s.cluster.inbox true ∧
        cacheKey "bot" (cacheKeyName .session "2.0") ∉ s.cluster.inbox true ∧
        s.saved = afterKeysSet sessionData fun _ => none := by
    refine ⟨_, .cons ⟨unencrypted, fun _ _ => rfl, ?_, along_accepted _ _ fun _ => rfl⟩ rfl
      (.cons ⟨trivial, fun _ _ _ same => by cases same⟩ rfl (.nil _)), by decide, by decide, rfl⟩
    intro item inside
    cases List.mem_singleton.mp inside
    trivial
  obtain ⟨s, ran, first, second, saved⟩ := run
  refine ⟨s, ran, ?_⟩
  have result := keys_read_as_set zeroKeyGcm base64Json twoSettings "bot" (by decide) True
    ⟨fun _ => rfl, fun alone => absurd trivial alone⟩ .empty (fun _ => rfl) none sessionRun s ran true
    none unencrypted .ok .session ["1.0", "2.0"] ?_ quiet (along_accepted _ _ fun _ => rfl)
  · rw [result, saved]
    rfl
  · intro id inside
    rcases List.mem_cons.mp inside with rfl | inside
    · exact first
    · exact List.mem_singleton.mp inside ▸ second

end Results

end BaileysSession.AuthState
