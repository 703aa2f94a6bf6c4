import BaileysSession.Cache.MemoryCache
import BaileysSession.Factory.KeysSet
import BaileysSession.Shared.Async

set_option autoImplicit false

namespace BaileysSession

inductive RedisMode where
  | tcp
  | http
  deriving DecidableEq, Repr

structure Settings where
  memory : MemoryCacheOptions
  redis : Option RedisMode
  versioning : Versioning

/-- Cache managers that share a database and, unless there is none, a Redis. -/
structure Cluster (Instance : Type) where
  l1 : Instance → MemoryCache
  l2 : InsertionMap String Versioned
  db : Database
  -- Published invalidation messages that the subscriber has not seen yet.
  inbox : Instance → List String

namespace Cluster

variable {Instance : Type} [DecidableEq Instance]

def initial (settings : Settings) (db : Database) : Cluster Instance where
  l1 := fun _ => .new settings.memory
  l2 := .empty
  db := db
  inbox := fun _ => []

def withL1 (w : Cluster Instance) (self : Instance) (cache : MemoryCache) : Cluster Instance :=
  { w with l1 := Function.update w.l1 self cache }

end Cluster

namespace CacheManager

inductive Call where
  | dateNow
  | l1Get (key : String)
  | l1Set (key value : String) (version : Int)
  | l1Delete (key : String)
  | l1DeleteByPrefix (start : String)
  | l1Clear
  | l2Get (key : String)
  | l2Set (key value : String) (version : Int)
  | l2Del (key : String)
  | publishInvalidation (key : String)
  | dbGet (sessionId key : String)
  | dbGetMany (sessionId : String) (keys : List String)
  | dbSetMany (sessionId : String) (entries : List Entry)
  | dbDeleteMany (sessionId : String) (keys : List String)
  | dbDeleteSession (sessionId : String)
  | dbGetAllKeys (sessionId : String)
  deriving DecidableEq, Repr

/-- Answered within the process, without giving up the event loop. -/
def Call.synchronous : Call → Bool
  | .dateNow | .l1Get _ | .l1Set _ _ _ | .l1Delete _ | .l1DeleteByPrefix _ | .l1Clear => true
  | .l2Get _ | .l2Set _ _ _ | .l2Del _ | .publishInvalidation _ | .dbGet _ _ | .dbGetMany _ _
  | .dbSetMany _ _ | .dbDeleteMany _ _ | .dbDeleteSession _ | .dbGetAllKeys _ => false

def Reply : Call → Type
  | .dateNow => Int
  | .l1Get _ => Option Versioned
  | .l1Set _ _ _ | .l1Delete _ | .l1DeleteByPrefix _ | .l1Clear => Unit
  | .l2Get _ => Except String (Option Versioned)
  | .dbGet _ _ => Except String (Option SessionRecord)
  | .dbGetMany _ _ => Except String (InsertionMap String SessionRecord)
  | .dbGetAllKeys _ => Except String (List String)
  | .l2Set _ _ _ | .l2Del _ | .publishInvalidation _ | .dbSetMany _ _ | .dbDeleteMany _ _
  | .dbDeleteSession _ => Except String Unit

/-- A call that rejects may still have taken effect for some of the keys it was about. -/
structure Rejection where
  error : String
  applied : String → Bool

structure Choice where
  dateNow : Int
  rejection : Option Rejection

def Choice.answer {Value : Type} (choice : Choice) (value : Value) : Except String Value :=
  match choice.rejection with
  | none => .ok value
  | some rejection => .error rejection.error

def Choice.applies (choice : Choice) (key : String) : Bool :=
  match choice.rejection with
  | none => true
  | some rejection => rejection.applied key

variable {Instance : Type} [DecidableEq Instance]

def effect (settings : Settings) (self : Instance) : Async.Effect Reply Choice (Cluster Instance)
  | .dateNow, choice, w => (choice.dateNow, w)
  | .l1Get key, choice, w =>
    let (hit, cache) := (w.l1 self).get choice.dateNow key
    (hit, w.withL1 self cache)
  | .l1Set key value version, choice, w =>
    ((), w.withL1 self ((w.l1 self).set choice.dateNow key value version))
  | .l1Delete key, _, w => ((), w.withL1 self ((w.l1 self).delete key))
  | .l1DeleteByPrefix start, _, w => ((), w.withL1 self ((w.l1 self).deleteByPrefix start))
  | .l1Clear, _, w => ((), w.withL1 self (w.l1 self).clear)
  | .l2Get key, choice, w => (choice.answer (w.l2.get? key), w)
  | .l2Set key value version, choice, w =>
    (choice.answer (), { w with
      l2 := if choice.applies key then w.l2.set key ⟨value, version⟩ else w.l2 })
  | .l2Del key, choice, w =>
    (choice.answer (), { w with l2 := if choice.applies key then w.l2.erase key else w.l2 })
  | .publishInvalidation key, choice, w =>
    (choice.answer (), { w with
      inbox := if choice.applies key then fun other => w.inbox other ++ [key] else w.inbox })
  | .dbGet sessionId key, choice, w => (choice.answer (w.db.get sessionId key), w)
  | .dbGetMany sessionId keys, choice, w => (choice.answer (w.db.getMany sessionId keys), w)
  | .dbSetMany sessionId entries, choice, w =>
    (choice.answer (), { w with
      db := w.db.setMany settings.versioning choice.dateNow sessionId
        (entries.filter fun entry => choice.applies entry.key) })
  | .dbDeleteMany sessionId keys, choice, w =>
    (choice.answer (), { w with db := w.db.deleteMany sessionId (keys.filter choice.applies) })
  | .dbDeleteSession sessionId, choice, w =>
    (choice.answer (), { w with
      db := match choice.rejection with
        | none => w.db.deleteSession sessionId
        | some rejection =>
          w.db.deleteMany sessionId ((w.db.getAllKeys sessionId).filter rejection.applied) })
  | .dbGetAllKeys sessionId, choice, w => (choice.answer (w.db.getAllKeys sessionId), w)

abbrev Program := Async Call Reply String

open Async (perform)

def settle {Value : Type} : Except String Value → Program Value
  | .ok value => pure value
  | .error error => throw error

theorem settle_accepted {Value : Type} {choice : Choice} (accepted : choice.rejection = none)
    (value : Value) : settle (choice.answer value) = .done value := by
  simp only [Choice.answer, accepted]
  rfl

theorem applies_accepted {choice : Choice} (accepted : choice.rejection = none) :
    choice.applies = fun _ => true := by
  funext key
  simp only [Choice.applies, accepted]

def l2Get (key : String) : Program (Option Versioned) := .await (.l2Get key) settle

def l2Set (key value : String) (version : Int) : Program Unit :=
  .await (.l2Set key value version) settle

def l2Del (key : String) : Program Unit := .await (.l2Del key) settle

def publishInvalidation (key : String) : Program Unit :=
  .await (.publishInvalidation key) settle

def adapterGet (sessionId key : String) : Program (Option SessionRecord) :=
  .await (.dbGet sessionId key) settle

def adapterGetMany (sessionId : String) (keys : List String) :
    Program (InsertionMap String SessionRecord) :=
  .await (.dbGetMany sessionId keys) settle

def adapterSetMany (sessionId : String) (entries : List Entry) : Program Unit :=
  .await (.dbSetMany sessionId entries) settle

def adapterDeleteMany (sessionId : String) (keys : List String) : Program Unit :=
  .await (.dbDeleteMany sessionId keys) settle

def adapterDeleteSession (sessionId : String) : Program Unit :=
  .await (.dbDeleteSession sessionId) settle

def adapterGetAllKeys (sessionId : String) : Program (List String) :=
  .await (.dbGetAllKeys sessionId) settle

def l1Get (key : String) : Program (Option Versioned) := perform (Call.l1Get key)

def l1Set (key value : String) (version : Int) : Program Unit := perform (Call.l1Set key value version)

def l1Delete (key : String) : Program Unit := perform (Call.l1Delete key)

def dateNow : Program Int := perform Call.dateNow

def cacheKey (sessionId key : String) : String := sessionId ++ ":" ++ key

def safeL2Get (redis : Option RedisMode) (compositeKey : String) : Program (Option Versioned) :=
  match redis with
  | none => pure none
  | some _ => tryCatch (l2Get compositeKey) fun _ => pure none

def safeL2Set (redis : Option RedisMode) (compositeKey value : String) (version : Int) :
    Program Unit :=
  match redis with
  | none => pure ()
  | some _ => tryCatch (l2Set compositeKey value version) fun _ => pure ()

def readDatabase (redis : Option RedisMode) (sessionId key : String) : Program (Option String) := do
  let record ← adapterGet sessionId key
  match record with
  | none => pure none
  | some record =>
    l1Set (cacheKey sessionId key) record.value record.version
    safeL2Set redis (cacheKey sessionId key) record.value record.version
    pure (some record.value)

def readL2 (redis : Option RedisMode) (sessionId key : String) : Program (Option String) := do
  let l2Hit ← safeL2Get redis (cacheKey sessionId key)
  match l2Hit with
  | some hit =>
    l1Set (cacheKey sessionId key) hit.value hit.version
    pure (some hit.value)
  | none => readDatabase redis sessionId key

def get (redis : Option RedisMode) (sessionId key : String) : Program (Option String) := do
  let l1Hit ← l1Get (cacheKey sessionId key)
  match l1Hit with
  | none => readL2 redis sessionId key
  | some hit =>
    if redis = some .http then
      let l2Check ← safeL2Get redis (cacheKey sessionId key)
      match l2Check with
      | some check =>
        if check.version ≠ hit.version then
          l1Delete (cacheKey sessionId key)
          readL2 redis sessionId key
        else pure (some hit.value)
      | none => pure (some hit.value)
    else pure (some hit.value)

def lookupL1 (redis : Option RedisMode) (sessionId : String) :
    List String → InsertionMap String String → List String →
      Program (InsertionMap String String × List String)
  | [], result, misses => pure (result, misses)
  | key :: rest, result, misses => do
    let l1Hit ← l1Get (cacheKey sessionId key)
    match l1Hit with
    | some hit =>
      if redis ≠ some .http then lookupL1 redis sessionId rest (result.set key hit.value) misses
      else lookupL1 redis sessionId rest result (misses ++ [key])
    | none => lookupL1 redis sessionId rest result (misses ++ [key])

def backfill (redis : Option RedisMode) (sessionId : String) :
    List (String × SessionRecord) → InsertionMap String String →
      Program (InsertionMap String String)
  | [], result => pure result
  | (key, record) :: rest, result => do
    l1Set (cacheKey sessionId key) record.value record.version
    safeL2Set redis (cacheKey sessionId key) record.value record.version
    backfill redis sessionId rest (result.set key record.value)

def getMany (redis : Option RedisMode) (sessionId : String) (keys : List String) :
    Program (InsertionMap String String) := do
  let (result, misses) ← lookupL1 redis sessionId keys .empty []
  if misses.length = 0 then pure result
  else
    let records ← adapterGetMany sessionId misses
    backfill redis sessionId records.entries result

def publish (redis : Option RedisMode) (compositeKey : String) : Program Unit :=
  if redis = some .tcp then
    tryCatch (publishInvalidation compositeKey) fun _ => pure ()
  else pure ()

def announceWritten (redis : Option RedisMode) (compositeKey value : String) (version : Int) :
    Program Unit := do
  safeL2Set redis compositeKey value version
  publish redis compositeKey

def onWritten (redis : Option RedisMode) (sessionId key value : String) (version : Int) :
    Program Unit := do
  l1Set (cacheKey sessionId key) value version
  announceWritten redis (cacheKey sessionId key) value version

-- `await this.l2?.del(compositeKey).catch(() => {})`
def deleteL2 (redis : Option RedisMode) (compositeKey : String) : Program Unit :=
  match redis with
  | none => pure ()
  | some _ => tryCatch (l2Del compositeKey) fun _ => pure ()

def announceDeleted (redis : Option RedisMode) (compositeKey : String) : Program Unit := do
  deleteL2 redis compositeKey
  publish redis compositeKey

def onDeleted (redis : Option RedisMode) (sessionId key : String) : Program Unit := do
  l1Delete (cacheKey sessionId key)
  announceDeleted redis (cacheKey sessionId key)

def clearSession (sessionId : String) : Program Unit :=
  perform (Call.l1DeleteByPrefix (sessionId ++ ":"))

def clearAll : Program Unit := perform Call.l1Clear

end CacheManager

end BaileysSession
