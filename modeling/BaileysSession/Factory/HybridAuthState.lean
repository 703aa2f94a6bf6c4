import BaileysSession.Cache.Stack
import BaileysSession.Factory.AuthState

set_option autoImplicit false

namespace BaileysSession.HybridAuthState

open Aes Async AuthState CacheManager Serialization Stack Transition
open Interchange (Backend Deployment)

variable {Instance : Type} [DecidableEq Instance] {backend : Backend}

section Source

structure State (backend : Backend) (Instance : Type) where
  world : World backend Instance
  saved : String → Option JsValue

structure Event (backend : Backend) (Instance : Type) where
  event : AuthEvent Instance
  own : Oracle backend.Choice

def draws (oracle : Oracle Choice) (own : Oracle backend.Choice) : Oracle (Draw backend) :=
  fun index => ⟨oracle index, own index⟩

def Called : Operation → Prop
  | .getMany _ _ => False
  | _ => True

variable (gcm : Gcm) (bufferJson : BufferJson)
  (settings : Settings) (deployment : Deployment) (sessionId : String)

def step : Step (State backend Instance) (Event backend Instance) := fun s event =>
  match event.event with
  | .saveCreds self encryption iv creds oracle =>
    some ⟨(evaluate (Stack.effect settings deployment self)
        (AuthState.saveCreds gcm bufferJson settings.redis sessionId encryption iv creds)
        (draws oracle event.own) s.world).world,
      match AuthState.encode gcm bufferJson iv encryption creds with
      | .ok (some _) => Function.update s.saved credsKey (some creds)
      | _ => s.saved⟩
  | .keysSet self encryption ivs data oracle =>
    some ⟨(evaluate (Stack.effect settings deployment self)
        (AuthState.keysSet gcm bufferJson settings.redis sessionId encryption ivs data)
        (draws oracle event.own) s.world).world,
      match encodeAll gcm bufferJson encryption ivs data with
      | .ok _ => afterKeysSet data s.saved
      | .error _ => s.saved⟩
  | .other (.operate self operation oracle) =>
    some { s with world := (evaluate (Stack.effect settings deployment self)
        (operation.program settings.redis) (draws oracle event.own) s.world).world }
  | .other event => (CacheManager.step settings s.world.cluster event).map fun cluster =>
    { s with world := { s.world with cluster := cluster } }

/-- Every instance encrypts with the key, every call it makes is tolerable, and the database takes
what it is asked. -/
def Permitted (shared : Prop) (key : Option Bytes) (s : State backend Instance)
    (event : Event backend Instance) : Prop :=
  match event.event with
  | .saveCreds self encryption iv creds oracle =>
    Uses key encryption ∧ iv.length = IV_LENGTH ∧ WellFormed creds ∧
      Along (Stack.effect settings deployment self) (Taken deployment shared)
        (AuthState.saveCreds gcm bufferJson settings.redis sessionId encryption iv creds)
        (draws oracle event.own) s.world
  | .keysSet self encryption ivs data oracle =>
    Uses key encryption ∧ (∀ category id, (ivs category id).length = IV_LENGTH) ∧
      (∀ item ∈ stores data, WellFormed item.2.2) ∧
      Along (Stack.effect settings deployment self) (Taken deployment shared)
        (AuthState.keysSet gcm bufferJson settings.redis sessionId encryption ivs data)
        (draws oracle event.own) s.world
  | .other (.operate self operation oracle) =>
    operation.On Plain ∧ Foreign sessionId operation ∧ Called operation ∧
      Along (Stack.effect settings deployment self) (Taken deployment shared)
        (operation.program settings.redis) (draws oracle event.own) s.world
  | .other _ => True

end Source

section Programs

variable {gcm : Gcm} {bufferJson : BufferJson}
  {redis : Option RedisMode} {sessionId : String}

theorem runSection_only (change : KeysSet.Section) :
    (runSection redis sessionId change).Only Unread := by
  cases change with
  | upsert entries =>
    exact upsert_only trivial trivial fun _ _ _ => onWritten_only trivial trivial trivial
  | remove deletions => exact remove_only trivial fun _ _ => onDeleted_only trivial trivial trivial

theorem saveCreds_only (encryption : Option EncryptionOptions) (iv : Bytes) (creds : JsValue) :
    (AuthState.saveCreds gcm bufferJson redis sessionId encryption iv creds).Only Unread := by
  unfold AuthState.saveCreds
  split
  · trivial
  · trivial
  · exact runSection_only _

theorem keysSet_only (encryption : Option EncryptionOptions) (ivs : Category → String → Bytes)
    (data : SignalDataSet JsValue) :
    (AuthState.keysSet gcm bufferJson redis sessionId encryption ivs data).Only Unread := by
  unfold AuthState.keysSet
  split
  · trivial
  · exact runSections_only _ fun change _ => runSection_only change

end Programs

section Invariant

variable {gcm : Gcm} {bufferJson : BufferJson}
  {settings : Settings} {deployment : Deployment} {sessionId : String} {shared : Prop}
  {key : Option Bytes}

structure Holds (gcm : Gcm) (bufferJson : BufferJson)
    (settings : Settings) (deployment : Deployment) (sessionId : String) (shared : Prop)
    (key : Option Bytes) (s : State backend Instance) : Prop where
  auth : AuthState.Holds gcm bufferJson settings sessionId shared key ⟨s.world.cluster, s.saved⟩
  sound : Sound deployment s.world

omit [DecidableEq Instance] in
theorem withVersions_holds {versions : Versions} {w : Cluster Instance}
    {saved : String → Option JsValue} :
    AuthState.Holds gcm bufferJson settings sessionId shared key ⟨withVersions versions w, saved⟩ ↔
      AuthState.Holds gcm bufferJson settings sessionId shared key ⟨w, saved⟩ := by
  constructor
  · rintro ⟨settled, kept⟩
    refine ⟨withVersions_settled.mp settled, fun row => ?_⟩
    have here := kept row
    rwa [withVersions_value] at here
  · rintro ⟨settled, kept⟩
    refine ⟨withVersions_settled.mpr settled, fun row => ?_⟩
    dsimp only
    rw [withVersions_value]
    exact kept row

omit [DecidableEq Instance] in
theorem initial_holds : Holds gcm bufferJson settings deployment sessionId shared key
    (⟨.initial settings backend, fun _ => none⟩ : State backend Instance) :=
  ⟨AuthState.initial_holds fun _ => rfl, backend.initial_holds⟩

theorem holds_of_shown {self : Instance} {program : Program Unit} {w : World backend Instance}
    {oracle : Oracle Choice} {own : Oracle backend.Choice} {saved : String → Option JsValue}
    (shown : Shown (CacheManager.effect settings self) (Tolerable shared)
      (Stack.effect settings deployment self) (Sound deployment) Draw.choice World.cluster program
      (draws oracle own) w)
    (after : AuthState.Holds gcm bufferJson settings sessionId shared key
      ⟨(evaluate (CacheManager.effect settings self) program oracle w.cluster).world, saved⟩) :
    Holds gcm bufferJson settings deployment sessionId shared key
      ⟨(evaluate (Stack.effect settings deployment self) program (draws oracle own) w).world,
        saved⟩ := by
  have world : (evaluate (CacheManager.effect settings self) program oracle w.cluster).world = _ :=
    shown.world
  rw [world] at after
  exact ⟨after, shown.kept⟩

theorem step_environment {s next : State backend Instance} {event : CacheManager.Event Instance}
    {own : Oracle backend.Choice}
    (outside : ∀ self operation oracle, event ≠ .operate self operation oracle)
    (taken : step gcm bufferJson settings deployment sessionId s ⟨.other event, own⟩ = some next) :
    ∃ cluster, CacheManager.step settings s.world.cluster event = some cluster ∧
      next = { s with world := { s.world with cluster := cluster } } := by
  cases event with
  | operate self operation oracle => exact absurd rfl (outside self operation oracle)
  | deliver | sweepExpired | evict | loseL2 | restart =>
    simp only [step, Option.map_eq_some_iff] at taken
    obtain ⟨cluster, stepped, rfl⟩ := taken
    exact ⟨cluster, stepped, rfl⟩

theorem environment_holds {s : State backend Instance} {event : CacheManager.Event Instance}
    {cluster : Cluster Instance}
    (holds : Holds gcm bufferJson settings deployment sessionId shared key s)
    (outside : ∀ self operation oracle, event ≠ .operate self operation oracle)
    (stepped : CacheManager.step settings s.world.cluster event = some cluster) :
    Holds gcm bufferJson settings deployment sessionId shared key
      { s with world := { s.world with cluster := cluster } } := by
  have same := environment_db outside stepped
  refine ⟨⟨environment_settled holds.auth.settled outside stepped, fun row => ?_⟩, ?_⟩
  · rw [same]
    exact holds.auth.kept row
  · rw [Sound, same]
    exact holds.sound

theorem step_holds (connected : Connected settings shared Instance) (plain : Plain sessionId)
    {s next : State backend Instance} {event : Event backend Instance}
    (holds : Holds gcm bufferJson settings deployment sessionId shared key s)
    (permitted : Permitted gcm bufferJson settings deployment sessionId shared key s event)
    (taken : step gcm bufferJson settings deployment sessionId s event = some next) :
    Holds gcm bufferJson settings deployment sessionId shared key next := by
  have later : ∀ {t after : AuthState.State Instance} (event : AuthEvent Instance),
      AuthState.Holds gcm bufferJson settings sessionId shared key t →
      AuthState.Permitted gcm bufferJson settings sessionId shared key t event →
      AuthState.step gcm bufferJson settings sessionId t event = some after →
      AuthState.Holds gcm bufferJson settings sessionId shared key after :=
    fun _ before fine steps => AuthState.step_holds connected plain before fine steps
  obtain ⟨event, own⟩ := event
  cases event with
  | saveCreds self encryption iv creds oracle =>
    cases taken
    obtain ⟨uses, fresh, wellFormed, along⟩ := permitted
    have shown := mirrors.shown (saveCreds_only encryption iv creds) holds.sound along
    exact holds_of_shown shown (later (.saveCreds self encryption iv creds oracle) holds.auth
      ⟨uses, fresh, wellFormed, shown.along⟩ rfl)
  | keysSet self encryption ivs data oracle =>
    cases taken
    obtain ⟨uses, fresh, wellFormed, along⟩ := permitted
    have shown := mirrors.shown (keysSet_only encryption ivs data) holds.sound along
    exact holds_of_shown shown (later (.keysSet self encryption ivs data oracle) holds.auth
      ⟨uses, fresh, wellFormed, shown.along⟩ rfl)
  | other event =>
    cases event with
    | operate self operation oracle =>
      cases taken
      obtain ⟨on, foreign, called, along⟩ := permitted
      cases operation with
      | getMany => exact False.elim called
      | deleteSession | importSession | clearCache => exact False.elim on
      | keysSet other changes =>
        have shown := mirrors.shown
          (runSections_only changes.sections fun change _ => runSection_only change) holds.sound along
        refine holds_of_shown shown (later (.other (.operate self (.keysSet other changes) oracle))
          holds.auth ⟨⟨on, shown.along⟩, ?_⟩ rfl)
        rintro _ _ _ ⟨⟩
        exact foreign
      | get other row =>
        -- What the database tells of versions is guessed, and no invariant is about versions.
        have once : ((Operation.get other row).program settings.redis).Once (.dbGet other row)
            Cached := once_bind (get_once settings.redis other row) fun _ => trivial
        obtain ⟨versions, shown⟩ := shown_foreseen blind (mirrors.mono cached_unread)
          (foreseen other row) once holds.sound along
        have after := later (.other (.operate self (.get other row) oracle))
          (withVersions_holds.mpr holds.auth) ⟨⟨on, shown.along⟩, fun _ _ _ same => by
            cases same
            trivial⟩ rfl
        have world : (evaluate (CacheManager.effect settings self)
            ((Operation.get other row).program settings.redis) oracle
            (withVersions versions s.world.cluster)).world = _ := shown.world
        rw [world] at after
        exact ⟨withVersions_holds.mp after, shown.kept⟩
    | deliver | sweepExpired | evict | loseL2 | restart =>
      obtain ⟨cluster, stepped, rfl⟩ := step_environment (fun _ _ _ same => by cases same) taken
      exact environment_holds holds (fun _ _ _ same => by cases same) stepped

theorem run_holds (connected : Connected settings shared Instance) (plain : Plain sessionId)
    {s final : State backend Instance} {events : List (Event backend Instance)}
    (holds : Holds gcm bufferJson settings deployment sessionId shared key s)
    (run : Run (step gcm bufferJson settings deployment sessionId)
      (Permitted gcm bufferJson settings deployment sessionId shared key) s events final) :
    Holds gcm bufferJson settings deployment sessionId shared key final :=
  run.invariant _ (fun _ _ _ before permitted taken =>
    step_holds connected plain before permitted taken) holds

end Invariant

section Results

def start (settings : Settings) (backend : Backend) : State backend Instance :=
  ⟨.initial settings backend, fun _ => none⟩

/-- Whichever database is underneath, after any run an instance that has seen the invalidations
loads the creds that were saved last and gets the keys that were set last. -/
theorem any_database_serves (gcm : Gcm) (bufferJson : BufferJson)
    (settings : Settings) (deployment : Deployment) (backend : Backend) (sessionId : String)
    (plain : Plain sessionId) (shared : Prop) (connected : Connected settings shared Instance)
    (key : Option Bytes) (events : List (Event backend Instance)) (s : State backend Instance)
    (run : Run (step gcm bufferJson settings deployment sessionId)
      (Permitted gcm bufferJson settings deployment sessionId shared key) (start settings backend)
      events s)
    (reader : Instance) (encryption : Option EncryptionOptions) (uses : Uses key encryption)
    (oracle : Oracle (Draw backend)) :
    (∀ initAuthCreds, cacheKey sessionId credsKey ∉ s.world.cluster.inbox reader →
      Along (Stack.effect settings deployment reader) (Taken deployment shared)
        (loadCreds settings.redis sessionId (AuthState.decode gcm bufferJson encryption) initAuthCreds)
        oracle s.world →
      ReadBack bufferJson initAuthCreds (s.saved credsKey)
        (evaluate (Stack.effect settings deployment reader)
          (loadCreds settings.redis sessionId (AuthState.decode gcm bufferJson encryption)
            initAuthCreds) oracle s.world).result) ∧
    ∀ fromObject type ids,
      (∀ id ∈ ids, cacheKey sessionId (cacheKeyName type id) ∉ s.world.cluster.inbox reader) →
      Along (Stack.effect settings deployment reader) (Taken deployment shared)
        (KeysGet.keysGet settings.redis sessionId (codec gcm bufferJson fromObject encryption) type
          ids) oracle s.world →
      (evaluate (Stack.effect settings deployment reader)
        (KeysGet.keysGet settings.redis sessionId (codec gcm bufferJson fromObject encryption) type
          ids) oracle s.world).result =
          KeysGet.gather (fun id => savedEntry bufferJson fromObject type
            (s.saved (cacheKeyName type id))) ids .empty := by
  have holds := run_holds connected plain initial_holds run
  have reading : Reading settings deployment (sessions Plain) shared
      (fun other row => s.world.cluster.db.value? other row) s.world.cluster.inbox s.world :=
    ⟨⟨holds.auth.settled, fun _ _ => rfl, rfl⟩, holds.sound⟩
  constructor
  · intro initAuthCreds unseen along
    have loaded := (loadCreds_spec (triple_consequence (get_spec (plain_owns plain credsKey)
      ⟨plain, fun message => unseen message.2⟩) (fun _ reading => reading) fun _ _ after => after.2)
      (AuthState.decode gcm bufferJson encryption) initAuthCreds).run oracle s.world reading along
    rw [loaded]
    exact (holds.auth.kept credsKey).creds uses initAuthCreds
  · intro fromObject type ids unseen along
    have gathered := (getEach_spec (fun row => s.world.cluster.db.value? sessionId row)
      (codec gcm bufferJson fromObject encryption) type ids .empty fun id inside =>
        get_spec (plain_owns plain (cacheKeyName type id))
          ⟨plain, fun message => unseen id inside message.2⟩).run oracle s.world reading along
    simp only [(holds.auth.kept _).entry uses] at gathered
    exact gathered

section Bot

open Interchange (oneBot)
open KeyedTable (Arrangement)

def OnCreds (call : Call) : Prop :=
  ∀ operation ∈ request call, operation.Within (· = "bot") (· = "creds")

theorem cached_onCreds {call : Call} (cached : Cached call) : OnCreds call := by
  intro operation asks
  rw [cached] at asks
  cases asks

theorem saveCreds_onCreds (redis : Option RedisMode) (encryption : Option EncryptionOptions)
    (iv : Bytes) (creds : JsValue) :
    (AuthState.saveCreds zeroKeyGcm base64Json redis "bot" encryption iv creds).Only OnCreds := by
  unfold AuthState.saveCreds
  split
  · trivial
  · trivial
  · refine upsert_only ?_ (cached_onCreds rfl) fun _ _ _ =>
      onWritten_only (cached_onCreds rfl) (cached_onCreds rfl) (cached_onCreds rfl)
    rintro _ ⟨⟩
    refine ⟨rfl, fun entry inside => ?_⟩
    rw [List.mem_singleton.mp inside]
    rfl

theorem loadCreds_onCreds (redis : Option RedisMode) (decode : String → Except String JsValue)
    (initAuthCreds : JsValue) : (loadCreds redis "bot" decode initAuthCreds).Only OnCreds := by
  have readable : Readable OnCreds "bot" credsKey := by
    refine ⟨fun _ _ => cached_onCreds rfl, cached_onCreds rfl, cached_onCreds rfl,
      fun _ _ => cached_onCreds rfl, ?_⟩
    rintro _ ⟨⟩
    exact ⟨rfl, rfl⟩
  apply only_bind (get_only readable (cached_onCreds rfl))
  intro raw
  cases raw with
  | none => trivial
  | some raw =>
    dsimp only
    split
    · trivial
    · exact settle_only _

theorem along_bot {shared : Prop} {self : Instance} {settings : Settings} {Result : Type}
    {program : Program Result} (only : program.Only OnCreds) {oracle : Oracle (Draw .mongodb)}
    (accepted : ∀ index, (oracle index).choice.rejection = none) (w : World .mongodb Instance) :
    Along (Stack.effect settings oneBot self) (Taken oneBot shared) program oracle w := by
  have along : Along (Stack.effect settings oneBot self)
      (fun _ _ draw => draw.choice.rejection = none) program oracle w :=
    Along.of_oracle _ program w accepted
  refine along.on_only (fun w call draw about accepted => ?_) only
  refine ⟨accepted_tolerable w.cluster call draw.choice accepted, fun operation asks =>
    ⟨trivial, about operation asks, ?_⟩⟩
  cases operation with
  | set => exact fun _ => rfl
  | setMany => exact fun _ _ _ => rfl
  | _ => trivial

def inOrder : Oracle Backend.mongodb.Choice := fun _ => Arrangement.stored _

-- One instance saves encrypted creds in MongoDB, the Redis loses them, and another one starts.
def mongodbRun : List (Event .mongodb Bool) :=
  [⟨.saveCreds true hexSettings zeroIv (.object []) quiet, inOrder⟩,
    ⟨.other (.loseL2 "bot:creds"), inOrder⟩, ⟨.other (.restart false), inOrder⟩]

theorem mongodb_serves_bot :
    ∃ s, Run (step zeroKeyGcm base64Json twoSettings oneBot "bot")
        (Permitted zeroKeyGcm base64Json twoSettings oneBot "bot" True (some zeroKey))
        (start twoSettings .mongodb) mongodbRun s ∧
      (evaluate (Stack.effect twoSettings oneBot false) (loadCreds twoSettings.redis "bot"
        (AuthState.decode zeroKeyGcm base64Json base64Settings) .null) (draws quiet inOrder)
          s.world).result = .ok (.object []) := by
  have run : ∃ s, Run (step zeroKeyGcm base64Json twoSettings oneBot "bot")
      (Permitted zeroKeyGcm base64Json twoSettings oneBot "bot" True (some zeroKey))
      (start twoSettings .mongodb) mongodbRun s ∧
        cacheKey "bot" credsKey ∉ s.world.cluster.inbox false ∧
        s.saved credsKey = some (.object []) := by
    refine ⟨_, .cons ⟨hexSettings_uses, rfl, ⟨⟨List.nodup_nil, List.Pairwise.nil⟩, trivial⟩,
      along_bot (saveCreds_onCreds _ _ _ _) (fun _ => rfl) _⟩ rfl
      (.cons trivial rfl (.cons trivial rfl (.nil _))), ?_, ?_⟩
    · simp
    · simp only [saved_encodes]
      rfl
  obtain ⟨s, ran, unseen, saved⟩ := run
  refine ⟨s, ran, ?_⟩
  have loaded := (any_database_serves zeroKeyGcm base64Json twoSettings oneBot .mongodb "bot"
    (by decide) True ⟨fun _ => rfl, fun alone => absurd trivial alone⟩ (some zeroKey) mongodbRun s ran
    false base64Settings base64Settings_uses (draws quiet inOrder)).1 .null unseen
    (along_bot (loadCreds_onCreds _ _ _) (fun _ => rfl) _)
  rw [saved] at loaded
  obtain ⟨kept, read, same⟩ := map_ok.mp (loaded.trans rfl)
  cases same
  exact read

end Bot

end Results

end BaileysSession.HybridAuthState
