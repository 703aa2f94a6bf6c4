import BaileysSession.Cache.Footprints
import BaileysSession.Factory.SaveCreds
import BaileysSession.Utils.Retry

set_option autoImplicit false

namespace BaileysSession.RetryBudget

open Async CacheManager Retry

inductive AdapterKind where
  | postgres
  | mysql
  | mongodb
  | sqlite
  | firestore
  | firebaseRealtime
  | cloudflareD1
  deriving DecidableEq, Repr

def AdapterKind.name : AdapterKind → String
  | .postgres => "postgres"
  | .mysql => "mysql"
  | .mongodb => "mongodb"
  | .sqlite => "sqlite"
  | .firestore => "firestore"
  | .firebaseRealtime => "firebase-realtime-database"
  | .cloudflareD1 => "cloudflare-d1"

def AdapterKind.versioning : AdapterKind → Versioning
  | .firestore => fun _ => 1
  | _ => fun version => version.getD 0 + 1

/-- An adapter with the `retryOptions` its constructor was given. -/
structure BuiltInAdapter where
  kind : AdapterKind
  retryOptions : Option RetryOptions

structure AuthManagerOptions where
  sessionId : String
  adapter : BuiltInAdapter
  memory : MemoryCacheOptions
  redis : Option RedisMode
  retry : Option RetryOptions
  writeDebounceMs : Option Int

structure AuthState where
  sessionId : String
  adapter : BuiltInAdapter
  memory : MemoryCacheOptions
  redis : Option RedisMode
  debounceMs : Int

-- `options.retry` is not read here or anywhere else.
def useHybridAuthState (options : AuthManagerOptions) : AuthState where
  sessionId := options.sessionId
  adapter := options.adapter
  memory := options.memory
  redis := options.redis
  debounceMs := options.writeDebounceMs.getD 50

def AuthState.settings (auth : AuthState) : Settings where
  memory := auth.memory
  redis := auth.redis
  versioning := auth.adapter.kind.versioning

/-- Every driver call fails that often before it succeeds; a failed attempt may have had effects. -/
structure Transient where
  failures : Nat
  failing : CacheManager.Call → Nat → Rejection

def Transient.choice (transient : Transient) (call : CacheManager.Call) (attempt : Nat)
    (choice : Choice) : Choice :=
  { choice with rejection :=
      if attempt < transient.failures then some (transient.failing call attempt) else none }

structure Driven where
  cluster : Cluster Unit
  driver : List (CacheManager.Call × Nat)

variable (auth : AuthState) (transient : Transient)

/-- `BaseAdapter.withRetry` around one driver call. -/
def driverCall {Value : Type} (call : CacheManager.Call) (label : String)
    (attempt : Choice → Cluster Unit → Except String Value × Cluster Unit) (choice : Choice)
    (w : Driven) : Except String Value × Driven :=
  let retried := withRetry
    (counted fun index cluster => attempt (transient.choice call index choice) cluster)
    auth.adapter.retryOptions (auth.adapter.kind.name ++ " adapter: " ++ label) (0, w.cluster)
  (retried.result.mapError fun thrown => thrown.getD "undefined",
    ⟨retried.world.2, w.driver ++ [(call, retried.attempts)]⟩)

def adapterGet (sessionId key : String) (choice : Choice) (w : Driven) :
    Except String (Option SessionRecord) × Driven :=
  driverCall auth transient (.dbGet sessionId key) "get"
    (fun choice cluster => effect auth.settings () (.dbGet sessionId key) choice cluster) choice w

-- `getMany` of the Firebase adapter, started for all keys at once.
def firebaseGetMany (sessionId : String) (choice : Choice) :
    List String → Driven → Except String Unit × Driven
  | [], w => (.ok (), w)
  | key :: rest, w =>
    let (record, next) := adapterGet auth transient sessionId key choice w
    let (later, final) := firebaseGetMany sessionId choice rest next
    (match record with
      | .ok _ => later
      | .error error => .error error, final)

def adapterSetMany (sessionId : String) (entries : List Entry) (choice : Choice) (w : Driven) :
    Except String Unit × Driven :=
  let write := driverCall auth transient (.dbSetMany sessionId entries) "setMany"
    (fun choice cluster => effect auth.settings () (.dbSetMany sessionId entries) choice cluster)
    choice
  if entries.length = 0 then (.ok (), w)
  else if auth.adapter.kind = .firebaseRealtime then
    -- The versions are read first.
    match firebaseGetMany auth transient sessionId choice (entries.map Entry.key) w with
    | (.ok _, next) => write next
    | (.error error, next) => (.error error, next)
  else write w

def adapterDeleteMany (sessionId : String) (keys : List String) (choice : Choice) (w : Driven) :
    Except String Unit × Driven :=
  if keys.length = 0 then (.ok (), w)
  else driverCall auth transient (.dbDeleteMany sessionId keys) "deleteMany"
    (fun choice cluster => effect auth.settings () (.dbDeleteMany sessionId keys) choice cluster)
    choice w

/-- The calls of an operation, with the adapter's answered by its retried driver calls. The last
three adapter calls are none of `keys.get`, `keys.set` and `saveCreds`. -/
def drive : Effect Reply Choice Driven
  | .dbGet sessionId key, choice, w => adapterGet auth transient sessionId key choice w
  | .dbSetMany sessionId entries, choice, w =>
    adapterSetMany auth transient sessionId entries choice w
  | .dbDeleteMany sessionId keys, choice, w =>
    adapterDeleteMany auth transient sessionId keys choice w
  | .dbGetMany sessionId keys, choice, w =>
    driverCall auth transient (.dbGetMany sessionId keys) "getMany"
      (fun choice cluster => effect auth.settings () (.dbGetMany sessionId keys) choice cluster)
      choice w
  | .dbDeleteSession sessionId, choice, w =>
    driverCall auth transient (.dbDeleteSession sessionId) "deleteSession"
      (fun choice cluster => effect auth.settings () (.dbDeleteSession sessionId) choice cluster)
      choice w
  | .dbGetAllKeys sessionId, choice, w =>
    driverCall auth transient (.dbGetAllKeys sessionId) "getAllKeys"
      (fun choice cluster => effect auth.settings () (.dbGetAllKeys sessionId) choice cluster)
      choice w
  | call, choice, w =>
    ((effect auth.settings () call choice w.cluster).1,
      { w with cluster := (effect auth.settings () call choice w.cluster).2 })

inductive Operation where
  | keysGet (type : Category) (ids : List String)
  | keysSet (changes : KeysSet.Changes)
  | saveCreds (creds : String)

inductive Answer (Value : Type) where
  | values (data : InsertionMap String Value)
  | stored

structure Performed (Value : Type) where
  settles : Option (Except String (Answer Value))
  driver : List (CacheManager.Call × Nat)

-- All reads of a `Promise.all` are made, whatever becomes of the others.
def readEach (type : Category) :
    List String → Oracle Choice → Driven → List (Except String (Option String)) × Driven
  | [], _, w => ([], w)
  | id :: rest, oracle, w =>
    let read := evaluate (drive auth transient)
      (CacheManager.get auth.redis auth.sessionId (cacheKeyName type id)) oracle w
    let (later, final) := readEach type rest read.oracle read.world
    (read.result :: later, final)

def promiseAll {Value : Type} : List (Except String Value) → Except String (List Value)
  | [] => .ok []
  | .error error :: _ => .error error
  | .ok value :: rest => (promiseAll rest).map (value :: ·)

variable {Value : Type}

-- The text of a missing or empty row is no entry of the answer.
def decodeEach (decode : String → Value) (ids : List String) (raws : List (Option String)) :
    InsertionMap String Value :=
  (ids.zip raws).foldl (fun data entry =>
    match entry.2 with
    | none => data
    | some raw => if raw = "" then data else data.set entry.1 (decode raw)) .empty

def perform (decode : Category → String → Value) (batcher : WriteBatcher.State)
    (oracle : Oracle Choice) (w : Cluster Unit) : Operation → Performed Value
  | .keysGet type ids =>
    let (raws, final) := readEach auth transient type ids oracle ⟨w, []⟩
    ⟨some ((promiseAll raws).map fun raws => .values (decodeEach (decode type) ids raws)),
      final.driver⟩
  | .keysSet changes =>
    let settled := evaluate (drive auth transient)
      (CacheManager.keysSet auth.redis auth.sessionId changes) oracle ⟨w, []⟩
    ⟨some (settled.result.map fun _ => .stored), settled.world.driver⟩
  | .saveCreds creds =>
    let flush := evaluate (drive auth transient)
      (CacheManager.saveCreds auth.redis auth.sessionId creds) oracle ⟨w, []⟩
    let outcome := match flush.result with
      | .ok _ => WriteBatcher.Outcome.resolved
      | .error _ => .rejected
    ⟨(WriteBatcher.saveCredsSettles auth.debounceMs creds outcome batcher).map fun _ =>
        flush.result.map fun _ => .stored,
      flush.world.driver⟩

section Budget

def answered : (call : CacheManager.Call) → Reply call → Except String Unit
  | .dbGet _ _, reply => reply.map fun _ => ()
  | .dbGetMany _ _, reply => reply.map fun _ => ()
  | .dbSetMany _ _, reply => reply
  | .dbDeleteMany _ _, reply => reply
  | .dbDeleteSession _, reply => reply
  | .dbGetAllKeys _, reply => reply.map fun _ => ()
  | _, _ => .ok ()

def Forwards {Result : Type} : Program Result → Prop
  | .done _ => True
  | .failed _ => False
  | .await call next => ∀ reply,
      match answered call reply with
      | .ok _ => Forwards (next reply)
      | .error error => next reply = .failed error

def spent : Nat := attempts auth.adapter.retryOptions transient.failures

def thrown (call : CacheManager.Call) : String :=
  (lastError auth.adapter.retryOptions fun index => (transient.failing call index).error).getD
    "undefined"

/-- Driver calls were added, each with as many attempts as the adapter's budget has for it, and
the outcome is theirs. -/
def Budgeted {Value : Type} (reply : Except String Value)
    (before after : List (CacheManager.Call × Nat)) : Prop :=
  ∃ made, after = before ++ made ∧ (∀ call ∈ made, call.2 = spent auth transient) ∧
    ((transient.failures : Int) ≤ retries auth.adapter.retryOptions → ∃ value, reply = .ok value) ∧
    (retries auth.adapter.retryOptions < transient.failures →
      (made = [] ∧ ∃ value, reply = .ok value) ∨
        ∃ call ∈ made, reply = .error (thrown auth transient call.1))

variable {auth transient}

theorem budgeted_nothing {Value : Type} (value : Value)
    (driver : List (CacheManager.Call × Nat)) :
    Budgeted auth transient (.ok value) driver driver :=
  ⟨[], (List.append_nil _).symm, fun _ inside => absurd inside List.not_mem_nil,
    fun _ => ⟨value, rfl⟩, fun _ => .inl ⟨rfl, value, rfl⟩⟩

theorem Budgeted.map {Value Other : Type} {reply : Except String Value}
    {before after : List (CacheManager.Call × Nat)}
    (budgeted : Budgeted auth transient reply before after) (convert : Value → Other) :
    Budgeted auth transient (reply.map convert) before after := by
  obtain ⟨made, added, counts, succeeds, fails⟩ := budgeted
  refine ⟨made, added, counts, ?_, ?_⟩
  · intro within
    obtain ⟨value, rfl⟩ := succeeds within
    exact ⟨convert value, rfl⟩
  · intro beyond
    rcases fails beyond with ⟨nothing, value, rfl⟩ | ⟨call, inside, rfl⟩
    · exact .inl ⟨nothing, convert value, rfl⟩
    · exact .inr ⟨call, inside, rfl⟩

theorem Budgeted.both {Value Other : Type} {first : Except String Value}
    {second : Except String Other} {before between after : List (CacheManager.Call × Nat)}
    (left : Budgeted auth transient first before between)
    (right : Budgeted auth transient second between after) :
    Budgeted auth transient (first.bind fun _ => second) before after := by
  obtain ⟨earlier, rfl, earlierCounts, earlierSucceeds, earlierFails⟩ := left
  obtain ⟨later, rfl, laterCounts, laterSucceeds, laterFails⟩ := right
  refine ⟨earlier ++ later, List.append_assoc _ _ _, ?_, ?_, ?_⟩
  · intro call inside
    rcases List.mem_append.mp inside with old | new
    · exact earlierCounts call old
    · exact laterCounts call new
  · intro within
    obtain ⟨value, rfl⟩ := earlierSucceeds within
    exact laterSucceeds within
  · intro beyond
    rcases earlierFails beyond with ⟨rfl, value, rfl⟩ | ⟨call, inside, rfl⟩
    · exact laterFails beyond
    · exact .inr ⟨call, List.mem_append_left later inside, rfl⟩

theorem driverCall_budgeted {Value : Type} (call : CacheManager.Call) (label : String)
    {attempt : Choice → Cluster Unit → Except String Value × Cluster Unit}
    (answers : ∀ choice cluster, ∃ value, (attempt choice cluster).1 = choice.answer value)
    (choice : Choice) (w : Driven) :
    Budgeted auth transient (driverCall auth transient call label attempt choice w).1 w.driver
      (driverCall auth transient call label attempt choice w).2.driver := by
  have fails : ∀ index, index < transient.failures → ∀ cluster,
      (attempt (transient.choice call index choice) cluster).1 =
        .error (transient.failing call index).error := by
    intro index early cluster
    obtain ⟨value, reply⟩ := answers (transient.choice call index choice) cluster
    rw [reply]
    simp only [Transient.choice, Choice.answer, if_pos early]
  have recovers : ∀ cluster, ∃ value,
      (attempt (transient.choice call transient.failures choice) cluster).1 = .ok value := by
    intro cluster
    obtain ⟨value, reply⟩ := answers (transient.choice call transient.failures choice) cluster
    rw [reply]
    simp only [Transient.choice, Choice.answer, if_neg (Nat.lt_irrefl _)]
    exact ⟨value, rfl⟩
  obtain ⟨count, succeeds, exhausts⟩ := withRetry_counted fails recovers
    auth.adapter.retryOptions (auth.adapter.kind.name ++ " adapter: " ++ label) w.cluster
  refine ⟨[(call, spent auth transient)], ?_, ?_, ?_, ?_⟩
  · simp only [driverCall, count, spent]
  · intro made inside
    rw [List.mem_singleton.mp inside]
  · intro within
    obtain ⟨value, returned⟩ := succeeds within
    refine ⟨value, ?_⟩
    simp only [driverCall, returned]
    rfl
  · intro beyond
    refine .inr ⟨_, List.mem_singleton_self _, ?_⟩
    simp only [driverCall, exhausts beyond]
    rfl

theorem adapterGet_budgeted (sessionId key : String) (choice : Choice) (w : Driven) :
    Budgeted auth transient (adapterGet auth transient sessionId key choice w).1 w.driver
      (adapterGet auth transient sessionId key choice w).2.driver :=
  driverCall_budgeted (.dbGet sessionId key) "get" (fun _ _ => ⟨_, rfl⟩) choice w

theorem firebaseGetMany_budgeted (sessionId : String) (choice : Choice) (keys : List String)
    (w : Driven) :
    Budgeted auth transient (firebaseGetMany auth transient sessionId choice keys w).1 w.driver
      (firebaseGetMany auth transient sessionId choice keys w).2.driver := by
  induction keys generalizing w with
  | nil => exact budgeted_nothing () w.driver
  | cons key rest ih =>
    have both := (adapterGet_budgeted sessionId key choice w).both
      (ih (adapterGet auth transient sessionId key choice w).2)
    simp only [firebaseGetMany]
    revert both
    cases (adapterGet auth transient sessionId key choice w).1 <;> exact id

theorem adapterSetMany_budgeted (sessionId : String) (entries : List Entry) (choice : Choice)
    (w : Driven) :
    Budgeted auth transient (adapterSetMany auth transient sessionId entries choice w).1 w.driver
      (adapterSetMany auth transient sessionId entries choice w).2.driver := by
  have writes : ∀ next : Driven, Budgeted auth transient
      (driverCall auth transient (.dbSetMany sessionId entries) "setMany" (fun choice cluster =>
        effect auth.settings () (.dbSetMany sessionId entries) choice cluster) choice next).1
      next.driver
      (driverCall auth transient (.dbSetMany sessionId entries) "setMany" (fun choice cluster =>
        effect auth.settings () (.dbSetMany sessionId entries) choice cluster) choice next).2.driver :=
    fun next => driverCall_budgeted _ _ (fun _ _ => ⟨(), rfl⟩) choice next
  unfold adapterSetMany
  dsimp only
  split
  · exact budgeted_nothing () w.driver
  · split
    · have reads := @firebaseGetMany_budgeted auth transient sessionId choice
        (entries.map Entry.key) w
      split
      · rename_i next read
        rw [read] at reads
        exact reads.both (writes next)
      · rename_i error next read
        rw [read] at reads
        exact reads
    · exact writes w

theorem adapterDeleteMany_budgeted (sessionId : String) (keys : List String) (choice : Choice)
    (w : Driven) :
    Budgeted auth transient (adapterDeleteMany auth transient sessionId keys choice w).1 w.driver
      (adapterDeleteMany auth transient sessionId keys choice w).2.driver := by
  unfold adapterDeleteMany
  split
  · exact budgeted_nothing () w.driver
  · exact driverCall_budgeted _ "deleteMany" (fun _ _ => ⟨(), rfl⟩) choice w

theorem drive_budgeted (call : CacheManager.Call) (choice : Choice) (w : Driven) :
    Budgeted auth transient (answered call (drive auth transient call choice w).1) w.driver
      (drive auth transient call choice w).2.driver := by
  cases call with
  | dbGet sessionId key => exact (adapterGet_budgeted sessionId key choice w).map _
  | dbSetMany sessionId entries => exact adapterSetMany_budgeted sessionId entries choice w
  | dbDeleteMany sessionId keys => exact adapterDeleteMany_budgeted sessionId keys choice w
  | dbGetMany sessionId keys =>
    exact (driverCall_budgeted (.dbGetMany sessionId keys) "getMany"
      (fun _ _ => ⟨_, rfl⟩) choice w).map _
  | dbDeleteSession sessionId =>
    exact driverCall_budgeted (.dbDeleteSession sessionId) "deleteSession"
      (fun _ _ => ⟨(), rfl⟩) choice w
  | dbGetAllKeys sessionId =>
    exact (driverCall_budgeted (.dbGetAllKeys sessionId) "getAllKeys"
      (fun _ _ => ⟨_, rfl⟩) choice w).map _
  | _ => exact budgeted_nothing () w.driver

theorem evaluate_budgeted {Result : Type} {program : Program Result} (forwards : Forwards program)
    (oracle : Oracle Choice) (w : Driven) :
    Budgeted auth transient (evaluate (drive auth transient) program oracle w).result w.driver
      (evaluate (drive auth transient) program oracle w).world.driver := by
  induction program generalizing oracle w with
  | done result => exact budgeted_nothing result w.driver
  | failed error => exact False.elim forwards
  | await call next ih =>
    have called := @drive_budgeted auth transient call (oracle 0) w
    have continues := forwards (drive auth transient call (oracle 0) w).1
    simp only [evaluate]
    cases outcome : answered call (drive auth transient call (oracle 0) w).1 with
    | ok value =>
      rw [outcome] at called continues
      exact called.both (ih _ continues oracle.later _)
    | error error =>
      rw [outcome] at called continues
      simp only at continues
      rw [continues]
      obtain ⟨made, added, counts, succeeds, fails⟩ := called
      refine ⟨made, added, counts, fun within => ?_, fun beyond => ?_⟩
      · obtain ⟨_, impossible⟩ := succeeds within
        cases impossible
      · rcases fails beyond with ⟨-, _, impossible⟩ | ⟨call, inside, same⟩
        · cases impossible
        · cases same
          exact .inr ⟨call, inside, rfl⟩

section Programs

theorem forwards_bind {Result Other : Type} {program : Program Result}
    {next : Result → Program Other} (first : Forwards program)
    (later : ∀ result, Forwards (next result)) : Forwards (program >>= next) := by
  induction program with
  | done result => exact later result
  | failed => exact False.elim first
  | await call rest ih =>
    intro reply
    have continues := first reply
    revert continues
    cases answered call reply with
    | ok => exact ih reply
    | error error =>
      intro refused
      simp only at refused
      simp only [Async.bind, refused]

def Internal (call : CacheManager.Call) : Prop := ∀ reply, answered call reply = .ok ()

theorem forwards_internal {Result : Type} {program : Program Result} (resolves : program.Resolves)
    (only : program.Only Internal) : Forwards program := by
  induction program with
  | done => trivial
  | failed => exact False.elim resolves
  | await call next ih =>
    intro reply
    rw [only.1 reply]
    exact ih reply (resolves reply) (only.2 reply)

theorem l1Get_forwards (key : String) : Forwards (l1Get key) := fun _ => trivial

theorem l1Delete_forwards (key : String) : Forwards (l1Delete key) := fun _ => trivial

theorem l1Set_forwards (key value : String) (version : Int) :
    Forwards (l1Set key value version) := fun _ => trivial

theorem safeL2Get_forwards (redis : Option RedisMode) (compositeKey : String) :
    Forwards (safeL2Get redis compositeKey) := by
  apply forwards_internal
  · cases redis with
    | none => trivial
    | some mode => exact resolves_recover _ fun _ => trivial
  · exact safeL2Get_only fun _ => rfl

theorem safeL2Set_forwards (redis : Option RedisMode) (compositeKey value : String)
    (version : Int) : Forwards (safeL2Set redis compositeKey value version) :=
  forwards_internal safeL2Set_resolves (safeL2Set_only fun _ => rfl)

theorem readDatabase_forwards (redis : Option RedisMode) (sessionId key : String) :
    Forwards (readDatabase redis sessionId key) := by
  intro reply
  cases reply with
  | error error => rfl
  | ok record =>
    cases record with
    | none => trivial
    | some record =>
      apply forwards_bind (l1Set_forwards _ record.value record.version)
      intro _
      apply forwards_bind (safeL2Set_forwards redis _ record.value record.version)
      exact fun _ => trivial

theorem readL2_forwards (redis : Option RedisMode) (sessionId key : String) :
    Forwards (readL2 redis sessionId key) := by
  apply forwards_bind (safeL2Get_forwards redis _)
  intro l2Hit
  cases l2Hit with
  | none => exact readDatabase_forwards redis sessionId key
  | some hit =>
    apply forwards_bind (l1Set_forwards _ hit.value hit.version)
    exact fun _ => trivial

theorem afterL1_forwards (redis : Option RedisMode) (sessionId key : String)
    (l1Hit : Option Versioned) : Forwards (afterL1 redis sessionId key l1Hit) := by
  cases l1Hit with
  | none => exact readL2_forwards redis sessionId key
  | some hit =>
    dsimp only [afterL1]
    split
    · apply forwards_bind (safeL2Get_forwards redis _)
      intro l2Check
      cases l2Check with
      | none => trivial
      | some check =>
        dsimp only
        split
        · exact forwards_bind (l1Delete_forwards _) fun _ => readL2_forwards redis sessionId key
        · trivial
    · trivial

theorem get_forwards (redis : Option RedisMode) (sessionId key : String) :
    Forwards (CacheManager.get redis sessionId key) := by
  rw [get_afterL1]
  exact forwards_bind (l1Get_forwards _) (afterL1_forwards redis sessionId key)

theorem runSection_forwards (redis : Option RedisMode) (sessionId : String)
    (change : KeysSet.Section) : Forwards (runSection redis sessionId change) := by
  cases change with
  | upsert entries =>
    intro reply
    cases reply with
    | error error => rfl
    | ok =>
      apply forwards_internal (onWrittenEach_resolves entries)
      apply onWrittenEach_only (fun _ => rfl) entries
      intro entry _ version
      exact onWritten_only (fun _ => rfl) (fun _ => rfl) (fun _ => rfl)
  | remove deletions =>
    intro reply
    cases reply with
    | error error => rfl
    | ok =>
      apply forwards_internal (onDeletedEach_resolves deletions)
      apply onDeletedEach_only deletions
      intro key _
      exact onDeleted_only (fun _ => rfl) (fun _ => rfl) (fun _ => rfl)

theorem runSections_forwards (redis : Option RedisMode) (sessionId : String)
    (sections : List KeysSet.Section) : Forwards (runSections redis sessionId sections) := by
  induction sections with
  | nil => trivial
  | cons change rest ih => exact forwards_bind (runSection_forwards redis sessionId change) fun _ => ih

end Programs

section Performing

theorem readEach_budgeted (type : Category) (ids : List String) (oracle : Oracle Choice)
    (w : Driven) :
    Budgeted auth transient (promiseAll (readEach auth transient type ids oracle w).1) w.driver
      (readEach auth transient type ids oracle w).2.driver := by
  induction ids generalizing oracle w with
  | nil => exact budgeted_nothing [] w.driver
  | cons id rest ih =>
    have read := @evaluate_budgeted auth transient _ _
      (get_forwards auth.redis auth.sessionId (cacheKeyName type id)) oracle w
    simp only [readEach]
    revert read
    obtain ⟨result, next, unused⟩ := evaluate (drive auth transient)
      (CacheManager.get auth.redis auth.sessionId (cacheKeyName type id)) oracle w
    intro read
    cases result with
    | error error => exact read.both (ih unused next)
    | ok raw => exact read.both ((ih unused next).map _)

/-- A failed write is not reported when the timer flushed it. -/
def Operation.Reports (auth : AuthState) : Operation → Prop
  | .saveCreds _ => auth.debounceMs ≤ 0
  | .keysGet _ _ | .keysSet _ => True

theorem perform_budgeted (decode : Category → String → Value) {batcher : WriteBatcher.State}
    (rested : WriteBatcher.Rested batcher) (oracle : Oracle Choice) (w : Cluster Unit)
    (operation : Operation) :
    ∃ result : Except String (Answer Value),
      Budgeted auth transient result []
        (perform auth transient decode batcher oracle w operation).driver ∧
      ((operation.Reports auth ∨ ∃ answer, result = .ok answer) →
        (perform auth transient decode batcher oracle w operation).settles = some result) ∧
      (¬ operation.Reports auth → ∀ error, result = .error error →
        (perform auth transient decode batcher oracle w operation).settles = none) := by
  cases operation with
  | keysGet type ids =>
    exact ⟨_, (readEach_budgeted type ids oracle ⟨w, []⟩).map _, fun _ => rfl,
      fun silent => absurd trivial silent⟩
  | keysSet changes =>
    exact ⟨_, (evaluate_budgeted (runSections_forwards _ _ _) oracle ⟨w, []⟩).map _, fun _ => rfl,
      fun silent => absurd trivial silent⟩
  | saveCreds creds =>
    refine ⟨_, (evaluate_budgeted (runSection_forwards _ _ _) oracle ⟨w, []⟩).map fun _ => .stored,
      ?_, ?_⟩
    all_goals
      simp only [perform, WriteBatcher.saveCredsSettles_eq creds auth.debounceMs _ rested,
        CacheManager.saveCreds, Operation.Reports]
      generalize (evaluate (drive auth transient) (runSection auth.redis auth.sessionId
        (.upsert [⟨credsKey, creds⟩])) oracle ⟨w, []⟩).result = flushed
    · rintro (immediate | ⟨answer, resolved⟩)
      · have noDelay : ¬ 0 < auth.debounceMs := by omega
        simp [noDelay]
      · cases flushed with
        | ok => rfl
        | error => cases resolved
    · intro debounced error failed
      cases flushed with
      | ok => cases failed
      | error =>
        have delayed : 0 < auth.debounceMs := by omega
        simp [delayed]

end Performing

end Budget

/-- The operation succeeds, or rejects with the last error of a driver call, as the number of its
failures and the budget have it, and every driver call was attempted that often. -/
structure Honoured (transient : Transient) (n : Nat) (performed : Performed Value) : Prop where
  succeeds : transient.failures ≤ n → ∃ answer, performed.settles = some (.ok answer)
  rejects : n < transient.failures → ∃ call ∈ performed.driver,
    performed.settles = some (.error (transient.failing call.1 n).error)
  counted : ∀ call ∈ performed.driver, call.2 = min transient.failures n + 1

def AuthManagerOptions.withBudget (options : AuthManagerOptions) (n : Nat) : AuthManagerOptions :=
  { options with retry := some ⟨some n, none, none⟩ }

/-- The budget that `useHybridAuthState` is given is honoured exactly where it does not matter, or
where the adapter happens to have the same and the failure is reported at all. -/
theorem retry_budget_iff (options : AuthManagerOptions) (n : Nat) (transient : Transient)
    (decode : Category → String → Value) (batcher : WriteBatcher.State)
    (rested : WriteBatcher.Rested batcher) (oracle : Oracle Choice) (w : Cluster Unit)
    (operation : Operation)
    (reaches : (perform (useHybridAuthState (options.withBudget n)) transient decode batcher oracle w
      operation).driver ≠ []) :
    Honoured transient n (perform (useHybridAuthState (options.withBudget n)) transient decode
        batcher oracle w operation) ↔
      (transient.failures : Int) ≤ min (n : Int) (retries options.adapter.retryOptions) ∨
        retries options.adapter.retryOptions = n ∧
          operation.Reports (useHybridAuthState (options.withBudget n)) := by
  have adapter : (useHybridAuthState (options.withBudget n)).adapter.retryOptions =
      options.adapter.retryOptions := rfl
  rw [← adapter]
  generalize useHybridAuthState (options.withBudget n) = auth at reaches ⊢
  obtain ⟨result, ⟨made, added, counts, succeeds, fails⟩, reported, silent⟩ :=
    perform_budgeted decode rested oracle w operation
  rw [List.nil_append] at added
  constructor
  · intro honoured
    obtain ⟨call, inside⟩ := List.exists_mem_of_ne_nil _ reaches
    have expected := honoured.counted call inside
    rw [counts call (added ▸ inside), spent, attempts] at expected
    by_cases within : transient.failures ≤ n
    · left
      omega
    · right
      have same : retries auth.adapter.retryOptions = n := by omega
      refine ⟨same, ?_⟩
      by_contra unreported
      obtain ⟨_, -, settles⟩ := honoured.rejects (by omega)
      rcases fails (by omega) with ⟨nothing, -⟩ | ⟨_, -, failed⟩
      · exact reaches (added.trans nothing)
      · rw [silent unreported _ failed] at settles
        cases settles
  · intro condition
    constructor
    · intro within
      obtain ⟨answer, rfl⟩ := succeeds (by omega)
      exact ⟨answer, reported (.inr ⟨answer, rfl⟩)⟩
    · intro beyond
      have budget : retries auth.adapter.retryOptions = n ∧ operation.Reports auth :=
        condition.resolve_left (by omega)
      rcases fails (by omega) with ⟨nothing, -⟩ | ⟨call, inside, rfl⟩
      · exact absurd (added.trans nothing) reaches
      · refine ⟨call, added ▸ inside, ?_⟩
        rw [reported (.inl budget.2), thrown, lastError, if_pos (by omega), budget.1,
          Int.toNat_natCast]
        rfl
    · intro call inside
      rw [counts call (added ▸ inside), spent, attempts]
      omega

section Examples

def plainOptions (retryOptions : Option RetryOptions) : AuthManagerOptions where
  sessionId := "bot"
  adapter := ⟨.postgres, retryOptions⟩
  memory := ⟨none, none, none⟩
  redis := none
  retry := none
  writeDebounceMs := some 0

def resets (failures : Nat) : Transient := ⟨failures, fun _ _ => ⟨"ECONNRESET", fun _ => false⟩⟩

def quiet : Oracle Choice := fun _ => ⟨0, none⟩

def empty : Cluster Unit := Cluster.initial ⟨⟨none, none, none⟩, none, fun _ => 1⟩ .empty

theorem initial_rested : WriteBatcher.Rested WriteBatcher.initial :=
  ⟨⟨rfl, rfl, rfl⟩, rfl, rfl, fun _ _ => rfl⟩

theorem retry_budget_shared :
    Honoured (resets 3) 2 (perform (useHybridAuthState
      ((plainOptions (some ⟨some 2, none, none⟩)).withBudget 2)) (resets 3) (fun _ raw => raw)
      WriteBatcher.initial quiet empty (.saveCreds "creds")) :=
  (retry_budget_iff (plainOptions (some ⟨some 2, none, none⟩)) 2 (resets 3) (fun _ raw => raw)
    WriteBatcher.initial initial_rested quiet empty (.saveCreds "creds") (by
      intro none
      cases none)).mpr (.inr ⟨rfl, Int.le_refl 0⟩)

theorem configured_budget_ignored :
    ¬ ∀ (options : AuthManagerOptions) (n : Nat) (transient : Transient)
      (batcher : WriteBatcher.State), WriteBatcher.Rested batcher → ∀ (oracle : Oracle Choice)
      (w : Cluster Unit) (operation : Operation),
      let performed := perform (useHybridAuthState (options.withBudget n)) transient
        (fun _ raw => raw) batcher oracle w operation
      performed.driver ≠ [] → Honoured transient n performed := by
  intro always
  have honoured := always (plainOptions none) 0 (resets 1) WriteBatcher.initial initial_rested quiet
    empty (.keysSet ⟨[⟨"session-x", "1"⟩], []⟩) (by
      intro none
      cases none)
  have counted := honoured.counted (.dbSetMany "bot" [⟨"session-x", "1"⟩], 2) (List.mem_singleton_self _)
  cases counted

end Examples

end BaileysSession.RetryBudget
