import BaileysSession.Cache.CacheManager
import BaileysSession.Shared.Transition

set_option autoImplicit false

namespace BaileysSession.CacheManager

open KeysSet

-- The branches of a `Promise.all` start in the order of the list, and one connection carries
-- their Redis commands in that order.
def onWrittenEach (redis : Option RedisMode) (sessionId : String) : List Entry → Program Unit
  | [] => pure ()
  | entry :: rest => do
    let version ← dateNow
    onWritten redis sessionId entry.key entry.value version
    onWrittenEach redis sessionId rest

def onDeletedEach (redis : Option RedisMode) (sessionId : String) : List String → Program Unit
  | [] => pure ()
  | key :: rest => do
    onDeleted redis sessionId key
    onDeletedEach redis sessionId rest

def runSection (redis : Option RedisMode) (sessionId : String) : Section → Program Unit
  | .upsert entries => do
    adapterSetMany sessionId entries
    onWrittenEach redis sessionId entries
  | .remove deletions => do
    adapterDeleteMany sessionId deletions
    onDeletedEach redis sessionId deletions

def runSections (redis : Option RedisMode) (sessionId : String) : List Section → Program Unit
  | [] => pure ()
  | change :: rest => do
    runSection redis sessionId change
    runSections redis sessionId rest

def keysSet (redis : Option RedisMode) (sessionId : String) (changes : Changes) : Program Unit :=
  runSections redis sessionId changes.sections

def deleteSession (sessionId : String) : Program Unit := do
  adapterDeleteSession sessionId
  clearSession sessionId

def importSession (sessionId : String) (data : InsertionMap String String) : Program Unit := do
  adapterSetMany sessionId (data.entries.map fun entry => ⟨entry.1, entry.2⟩)
  clearSession sessionId

def clearCache (sessionId : Option String) : Program Unit :=
  match sessionId with
  | some sessionId => if sessionId ≠ "" then clearSession sessionId else clearAll
  | none => clearAll

inductive Operation where
  | get (sessionId key : String)
  | getMany (sessionId : String) (keys : List String)
  | keysSet (sessionId : String) (changes : Changes)
  | deleteSession (sessionId : String)
  | importSession (sessionId : String) (data : InsertionMap String String)
  | clearCache (sessionId : Option String)

def Operation.program (redis : Option RedisMode) : Operation → Program Unit
  | .get sessionId key => do
    let _ ← CacheManager.get redis sessionId key
    pure ()
  | .getMany sessionId keys => do
    let _ ← CacheManager.getMany redis sessionId keys
    pure ()
  | .keysSet sessionId changes => CacheManager.keysSet redis sessionId changes
  | .deleteSession sessionId => CacheManager.deleteSession sessionId
  | .importSession sessionId data => CacheManager.importSession sessionId data
  | .clearCache sessionId => CacheManager.clearCache sessionId

inductive Event (Instance : Type) where
  | operate (self : Instance) (operation : Operation) (oracle : Async.Oracle Choice)
  | deliver (subscriber : Instance) (key : String)
  | sweepExpired (self : Instance) (now : Int)
  | evict (self : Instance) (key : String)
  | loseL2 (key : String)
  | restart (self : Instance)

variable {Instance : Type} [DecidableEq Instance]

def deliver (w : Cluster Instance) (subscriber : Instance) (key : String) : Cluster Instance :=
  { w.withL1 subscriber ((w.l1 subscriber).delete key) with
    inbox := Function.update w.inbox subscriber ((w.inbox subscriber).erase key) }

def step (settings : Settings) : Transition.Step (Cluster Instance) (Event Instance) :=
  fun w event =>
    match event with
    | .operate self operation oracle =>
      some (Async.evaluate (effect settings self) (operation.program settings.redis) oracle w).world
    | .deliver subscriber key =>
      if key ∈ w.inbox subscriber then some (deliver w subscriber key) else none
    | .sweepExpired self now => some (w.withL1 self ((w.l1 self).sweepExpired now))
    | .evict self key => some (w.withL1 self ((w.l1 self).delete key))
    | .loseL2 key => some { w with l2 := w.l2.erase key }
    | .restart self => some { w.withL1 self (.new settings.memory) with
        inbox := Function.update w.inbox self [] }

theorem deliver_taken {settings : Settings} {w next : Cluster Instance} {subscriber : Instance}
    {key : String} (taken : step settings w (.deliver subscriber key) = some next) :
    key ∈ w.inbox subscriber ∧ next = deliver w subscriber key := by
  simp only [step] at taken
  split at taken
  · rename_i waiting
    cases taken
    exact ⟨waiting, rfl⟩
  · cases taken

end BaileysSession.CacheManager
