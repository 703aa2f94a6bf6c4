import BaileysSession.Cache.Footprints

set_option autoImplicit false

namespace BaileysSession.RedisIsolation

open Async CacheManager

-- `IRedisCacheAdapter`: its mode, and whether it has the two optional methods.
structure RedisCacheAdapter where
  mode : RedisMode
  subscribes : Bool
  publishes : Bool
  deriving DecidableEq, Repr

/-- The promise that the constructor keeps of the subscription, whose errors it catches. -/
def invalidationReady (l2 : Option RedisCacheAdapter) (subscription : Except String Unit) :
    Option (Except String Unit) :=
  match l2 with
  | some redis =>
    if redis.mode = .tcp ∧ redis.subscribes = true then
      some (tryCatch subscription fun _ => pure ())
    else none
  | none => none

def awaitReady : Option (Except String Unit) → Program Unit
  | some settled => settle settled
  | none => pure ()

def publishWritten (l2 : Option RedisCacheAdapter) (ready : Option (Except String Unit))
    (compositeKey : String) : Program Unit :=
  match l2 with
  | some redis =>
    if redis.mode = .tcp ∧ redis.publishes = true then do
      awaitReady ready
      tryCatch (publishInvalidation compositeKey) fun _ => pure ()
    else pure ()
  | none => pure ()

def onWritten (l2 : Option RedisCacheAdapter) (ready : Option (Except String Unit))
    (sessionId key value : String) (version : Int) : Program Unit := do
  l1Set (cacheKey sessionId key) value version
  safeL2Set (l2.map RedisCacheAdapter.mode) (cacheKey sessionId key) value version
  publishWritten l2 ready (cacheKey sessionId key)

def publishDeleted (l2 : Option RedisCacheAdapter) (compositeKey : String) : Program Unit :=
  match l2 with
  | some redis =>
    if redis.mode = .tcp ∧ redis.publishes = true then
      tryCatch (publishInvalidation compositeKey) fun _ => pure ()
    else pure ()
  | none => pure ()

def onDeleted (l2 : Option RedisCacheAdapter) (sessionId key : String) : Program Unit := do
  l1Delete (cacheKey sessionId key)
  deleteL2 (l2.map RedisCacheAdapter.mode) (cacheKey sessionId key)
  publishDeleted l2 (cacheKey sessionId key)

-- The two Redis caches of the package: only the one over TCP has the optional methods.
def bundled (mode : RedisMode) : RedisCacheAdapter := ⟨mode, decide (mode = .tcp), decide (mode = .tcp)⟩

/-- With a bundled Redis, and whatever becomes of its subscription, these are the calls of the
cache manager. -/
theorem bundled_calls (redis : Option RedisMode) (subscription : Except String Unit)
    (sessionId key value : String) (version : Int) :
    onWritten (redis.map bundled) (invalidationReady (redis.map bundled) subscription) sessionId key
        value version = CacheManager.onWritten redis sessionId key value version ∧
      onDeleted (redis.map bundled) sessionId key = CacheManager.onDeleted redis sessionId key := by
  cases redis with
  | none => exact ⟨rfl, rfl⟩
  | some mode => cases mode <;> cases subscription <;> exact ⟨rfl, rfl⟩

variable {Instance : Type} [DecidableEq Instance]

/-- What happens while a call is awaited: invalidation messages reach this instance, and anything
may change but its L1. -/
structure Meanwhile (Instance : Type) where
  delivered : List String
  elsewhere : Cluster Instance → Cluster Instance

structure Moment (Instance : Type) where
  choice : Choice
  meanwhile : Meanwhile Instance

def Meanwhile.apply (self : Instance) (meanwhile : Meanwhile Instance) (w : Cluster Instance) :
    Cluster Instance :=
  (meanwhile.elsewhere w).withL1 self (meanwhile.delivered.foldl MemoryCache.delete (w.l1 self))

structure Observed (Instance : Type) where
  cluster : Cluster Instance
  -- The calls so far and how those that were rejected were.
  log : List (Call × Option Rejection)
  delivered : List String

def observe (settings : Settings) (self : Instance) :
    Async.Effect Reply (Moment Instance) (Observed Instance) := fun call moment w =>
  let answered := effect settings self call moment.choice w.cluster
  let log := w.log ++ [(call, moment.choice.rejection)]
  if call.synchronous then (answered.1, ⟨answered.2, log, w.delivered⟩)
  else (answered.1, ⟨moment.meanwhile.apply self answered.2, log,
    w.delivered ++ moment.meanwhile.delivered⟩)

def Adds : Call → Prop
  | .l1Set _ _ _ | .l2Set _ _ _ => True
  | _ => False

def FromAdapter : Call → Prop
  | .dbGet _ _ | .dbGetMany _ _ | .dbSetMany _ _ | .dbDeleteMany _ _ | .dbDeleteSession _
  | .dbGetAllKeys _ => True
  | _ => False

/-- A call that adds nothing to a cache and changes L1 at most by removing entries. -/
def Subtracts : Call → Prop
  | .l1Get _ | .l1Delete _ | .l2Get _ | .dbGet _ _ | .dbGetMany _ _ => True
  | _ => False

structure NothingAdded (own : Instance) (start : MemoryCache) (w : Observed Instance) : Prop where
  calls : ∀ entry ∈ w.log, ¬ Adds entry.1
  l1 : MemoryCache.Shrinks start (w.cluster.l1 own)

def Unrejected (w : Observed Instance) : Prop :=
  ∀ entry ∈ w.log, FromAdapter entry.1 → entry.2 = none

section Steps

variable {settings : Settings} {self : Instance}

theorem observe_log (call : Call) (moment : Moment Instance) (w : Observed Instance) :
    (observe settings self call moment w).2.log = w.log ++ [(call, moment.choice.rejection)] := by
  unfold observe
  dsimp only
  split <;> rfl

theorem observe_answer (call : Call) (moment : Moment Instance) (w : Observed Instance) :
    (observe settings self call moment w).1 = (effect settings self call moment.choice w.cluster).1 := by
  unfold observe
  dsimp only
  split <;> rfl

theorem deletions_shrink (keys : List String) (cache : MemoryCache) :
    MemoryCache.Shrinks cache (keys.foldl MemoryCache.delete cache) := by
  induction keys generalizing cache with
  | nil => exact .refl cache
  | cons key rest ih => exact (MemoryCache.delete_shrinks cache key).trans (ih _)

theorem observe_l1 (settings : Settings) (self : Instance) (call : Call) (moment : Moment Instance)
    (w : Observed Instance) :
    (observe settings self call moment w).2.cluster.l1 self =
      if call.synchronous then (effect settings self call moment.choice w.cluster).2.l1 self
      else moment.meanwhile.delivered.foldl MemoryCache.delete
        ((effect settings self call moment.choice w.cluster).2.l1 self) := by
  unfold observe
  dsimp only
  split
  · rfl
  · simp [Meanwhile.apply, Cluster.withL1]

theorem subtracts_shrinks (settings : Settings) (self : Instance) {call : Call}
    (subtracts : Subtracts call) (choice : Choice) (w : Cluster Instance) :
    MemoryCache.Shrinks (w.l1 self) ((effect settings self call choice w).2.l1 self) := by
  cases call with
  | l1Get key =>
    have read := MemoryCache.get_shrinks (w.l1 self) choice.dateNow key
    simpa [effect, Cluster.withL1] using read
  | l1Delete key =>
    have deleted := MemoryCache.delete_shrinks (w.l1 self) key
    simpa [effect, Cluster.withL1] using deleted
  | l2Get key => exact .refl _
  | dbGet sessionId key => exact .refl _
  | dbGetMany sessionId keys => exact .refl _
  | _ => exact False.elim subtracts

theorem NothingAdded.step (settings : Settings) {start : MemoryCache} {call : Call}
    (subtracts : Subtracts call)
    (moment : Moment Instance) {w : Observed Instance} (nothing : NothingAdded self start w) :
    NothingAdded self start (observe settings self call moment w).2 where
  calls := by
    intro entry inside
    rw [observe_log, List.mem_append] at inside
    rcases inside with before | single
    · exact nothing.calls entry before
    · rw [List.mem_singleton.mp single]
      intro adds
      cases call <;> first | exact adds | exact subtracts
  l1 := by
    have shrunk := nothing.l1.trans
      (subtracts_shrinks settings self subtracts moment.choice w.cluster)
    rw [observe_l1]
    split
    · exact shrunk
    · exact shrunk.trans (deletions_shrink _ _)

theorem Unrejected.step {call : Call} (moment : Moment Instance)
    (fine : FromAdapter call → moment.choice.rejection = none) {w : Observed Instance}
    (unrejected : Unrejected w) : Unrejected (observe settings self call moment w).2 := by
  intro entry inside
  rw [observe_log, List.mem_append] at inside
  rcases inside with before | single
  · exact unrejected entry before
  · rw [List.mem_singleton.mp single]
    exact fine

theorem triple_settles {inv : Observed Instance → Prop} {allowed : Call → Prop} {Value : Type}
    (kept : ∀ call moment w, allowed call → inv w → inv (observe settings self call moment w).2)
    {program : Program Value} (resolves : program.Resolves) (only : program.Only allowed) :
    Triple (observe settings self) (fun _ _ _ => True) inv program (Returns fun _ => inv) := by
  constructor
  intro oracle w initially _
  obtain ⟨value, settled⟩ := evaluate_resolves (observe settings self) resolves oracle w
  rw [settled]
  exact evaluate_invariant kept only oracle initially

theorem triple_subtracts {start : MemoryCache} {Value : Type} {program : Program Value}
    (resolves : program.Resolves)
    (only : program.Only fun call => Subtracts call ∧ ¬ FromAdapter call) :
    Triple (observe settings self) (fun _ _ _ => True)
      (fun w => NothingAdded self start w ∧ Unrejected w) program
      (Returns fun _ w => NothingAdded self start w ∧ Unrejected w) :=
  triple_settles (fun _ moment _ quiet holds =>
    ⟨holds.1.step settings quiet.1 moment, holds.2.step moment fun adapter => absurd adapter quiet.2⟩)
    resolves only

/-- The error is that of a read of the adapter, and nothing has been added on the way to it. -/
structure Rejected (reads : Call → Prop) (own : Instance) (start : MemoryCache) (error : String)
    (w : Observed Instance) : Prop where
  cause : ∃ call rejection, reads call ∧ (call, some rejection) ∈ w.log ∧ rejection.error = error
  nothing : NothingAdded own start w

def ReadEnds {Value : Type} (reads : Call → Prop) (own : Instance) (start : MemoryCache) :
    Except String Value → Observed Instance → Prop
  | .ok _, w => Unrejected w
  | .error error, w => Rejected reads own start error w

theorem triple_caches {start : MemoryCache} {reads : Call → Prop} {Value : Type}
    {program : Program Value} (resolves : program.Resolves)
    (only : program.Only fun call => ¬ FromAdapter call) :
    Triple (observe settings self) (fun _ _ _ => True)
      (fun w => NothingAdded self start w ∧ Unrejected w) program (ReadEnds reads self start) := by
  have kept : Triple (observe settings self) (fun _ _ _ => True) Unrejected program
      (Returns fun _ => Unrejected) :=
    triple_settles (fun _ moment _ cache holds =>
      holds.step moment fun adapter => absurd adapter cache) resolves only
  constructor
  intro oracle w holds along
  obtain ⟨value, settled, unrejected⟩ := triple_returns kept holds.2 along
  rw [settled]
  exact unrejected

theorem observe_read (settings : Settings) {start : MemoryCache} {reads : Call → Prop} {call : Call}
    (read : reads call)
    (subtracts : Subtracts call) (moment : Moment Instance) {w : Observed Instance}
    (holds : NothingAdded self start w ∧ Unrejected w) :
    match moment.choice.rejection with
    | none => NothingAdded self start (observe settings self call moment w).2 ∧
        Unrejected (observe settings self call moment w).2
    | some rejection => Rejected reads self start rejection.error
        (observe settings self call moment w).2 := by
  have nothing := holds.1.step settings subtracts moment
  cases rejected : moment.choice.rejection with
  | none => exact ⟨nothing, holds.2.step moment fun _ => rejected⟩
  | some rejection =>
    refine ⟨⟨call, rejection, read, ?_, rfl⟩, nothing⟩
    rw [observe_log, rejected]
    exact List.mem_append_right _ List.mem_cons_self

def Ending {Value : Type} (reads : Call → Prop) (own : Instance) (start : MemoryCache) :
    Except String Value → Observed Instance → Prop
  | .ok _, w => NothingAdded own start w ∧ Unrejected w
  | .error error, w => Rejected reads own start error w

theorem triple_read {start : MemoryCache} {reads : Call → Prop} {call : Call} {Value : Type}
    {next : Reply call → Program Value} (read : reads call) (subtracts : Subtracts call)
    (answers : ∀ choice w, ∃ value, next (effect settings self call choice w).1 =
      settle (choice.answer value)) :
    Triple (observe settings self) (fun _ _ _ => True)
      (fun w => NothingAdded self start w ∧ Unrejected w) (.await call next)
      (Ending reads self start) := by
  constructor
  intro oracle w holds _
  have after := observe_read settings read subtracts (oracle 0) holds
  obtain ⟨value, same⟩ := answers (oracle 0).choice w.cluster
  rw [evaluate, observe_answer, same, Choice.answer]
  cases rejected : (oracle 0).choice.rejection <;>
  · rw [rejected] at after
    exact after

end Steps

section Reads

variable {settings : Settings} {self : Instance} {start : MemoryCache} {sessionId : String}
  (redis : Option RedisMode)

theorem readDatabase_ends (key : String) :
    Triple (observe settings self) (fun _ _ _ => True)
      (fun w => NothingAdded self start w ∧ Unrejected w) (readDatabase redis sessionId key)
      (ReadEnds (· = .dbGet sessionId key) self start) := by
  have read : Triple (observe settings self) (fun _ _ _ => True)
      (fun w => NothingAdded self start w ∧ Unrejected w) (adapterGet sessionId key)
      (Ending (· = .dbGet sessionId key) self start) :=
    triple_read rfl trivial fun choice w => ⟨w.db.get sessionId key, rfl⟩
  refine triple_bind read (fun record => ?_) fun _ _ rejected => rejected
  cases record with
  | none => exact triple_caches trivial trivial
  | some record =>
    apply triple_caches
    · intro _
      apply resolves_bind safeL2Set_resolves
      exact fun _ => trivial
    · refine ⟨id, fun _ => ?_⟩
      apply only_bind (safeL2Set_only id)
      exact fun _ => trivial

theorem safeL2Get_resolves (compositeKey : String) : (safeL2Get redis compositeKey).Resolves := by
  cases redis with
  | none => trivial
  | some mode => exact resolves_recover _ fun _ => trivial

theorem safeL2Get_settles (compositeKey : String) :
    Triple (observe settings self) (fun _ _ _ => True)
      (fun w => NothingAdded self start w ∧ Unrejected w) (safeL2Get redis compositeKey)
      (Returns fun _ w => NothingAdded self start w ∧ Unrejected w) :=
  triple_subtracts (safeL2Get_resolves redis compositeKey) (safeL2Get_only ⟨trivial, id⟩)

theorem readL2_ends (key : String) :
    Triple (observe settings self) (fun _ _ _ => True)
      (fun w => NothingAdded self start w ∧ Unrejected w) (readL2 redis sessionId key)
      (ReadEnds (· = .dbGet sessionId key) self start) := by
  refine triple_then (safeL2Get_settles redis _) fun l2Hit => ?_
  cases l2Hit with
  | none => exact readDatabase_ends redis key
  | some hit => exact triple_caches (fun _ => trivial) ⟨id, fun _ => trivial⟩

theorem get_ends (key : String) :
    Triple (observe settings self) (fun _ _ _ => True)
      (fun w => NothingAdded self start w ∧ Unrejected w) (get redis sessionId key)
      (ReadEnds (· = .dbGet sessionId key) self start) := by
  have looked : Triple (observe settings self) (fun _ _ _ => True)
      (fun w => NothingAdded self start w ∧ Unrejected w) (l1Get (cacheKey sessionId key))
      (Returns fun _ w => NothingAdded self start w ∧ Unrejected w) :=
    triple_subtracts (fun _ => trivial) ⟨⟨trivial, id⟩, fun _ => trivial⟩
  rw [get_afterL1]
  refine triple_then looked fun l1Hit => ?_
  cases l1Hit with
  | none => exact readL2_ends redis key
  | some hit =>
    dsimp only [afterL1]
    split
    · refine triple_then (safeL2Get_settles redis _) fun l2Check => ?_
      cases l2Check with
      | none => exact triple_caches trivial trivial
      | some check =>
        dsimp only
        split
        · have dropped : Triple (observe settings self) (fun _ _ _ => True)
              (fun w => NothingAdded self start w ∧ Unrejected w) (l1Delete (cacheKey sessionId key))
              (Returns fun _ w => NothingAdded self start w ∧ Unrejected w) :=
            triple_subtracts (fun _ => trivial) ⟨⟨trivial, id⟩, fun _ => trivial⟩
          exact triple_then dropped fun _ => readL2_ends redis key
        · exact triple_caches trivial trivial
    · exact triple_caches trivial trivial

theorem lookupL1_resolves (keys : List String) (result : InsertionMap String String)
    (misses : List String) : (lookupL1 redis sessionId keys result misses).Resolves := by
  induction keys generalizing result misses with
  | nil => trivial
  | cons key rest ih =>
    intro l1Hit
    cases l1Hit with
    | none => exact ih _ _
    | some hit =>
      show Async.Resolves (if redis ≠ some .http then _ else _)
      split
      · exact ih _ _
      · exact ih _ _

theorem backfill_resolves (records : List (String × SessionRecord))
    (result : InsertionMap String String) : (backfill redis sessionId records result).Resolves := by
  induction records generalizing result with
  | nil => trivial
  | cons record rest ih =>
    intro _
    apply resolves_bind safeL2Set_resolves
    exact fun _ => ih _

def ManyRead (sessionId : String) (call : Call) : Prop := ∃ misses, call = .dbGetMany sessionId misses

theorem getMany_ends (keys : List String) :
    Triple (observe settings self) (fun _ _ _ => True)
      (fun w => NothingAdded self start w ∧ Unrejected w) (getMany redis sessionId keys)
      (ReadEnds (ManyRead sessionId) self start) := by
  refine triple_then (triple_subtracts (lookupL1_resolves redis keys _ _)
    (lookupL1_only (fun _ => ⟨trivial, id⟩) keys _ _)) fun found => ?_
  obtain ⟨result, misses⟩ := found
  dsimp only
  split
  · exact triple_caches trivial trivial
  · have read : Triple (observe settings self) (fun _ _ _ => True)
        (fun w => NothingAdded self start w ∧ Unrejected w) (adapterGetMany sessionId misses)
        (Ending (ManyRead sessionId) self start) :=
      triple_read ⟨misses, rfl⟩ trivial fun choice w => ⟨w.db.getMany sessionId misses, rfl⟩
    refine triple_bind read (fun records => ?_) fun _ _ rejected => rejected
    exact triple_caches (backfill_resolves redis _ _)
      (backfill_only _ (fun _ _ => ⟨id, id⟩) _)

end Reads

section Writes

variable {settings : Settings} {self : Instance}

/-- A command to Redis that follows the update of L1. -/
def Announces : Call → Prop
  | .l2Set _ _ _ | .l2Del _ | .publishInvalidation _ => True
  | _ => False

theorem announces_l1 (settings : Settings) (self : Instance) {call : Call}
    (announces : Announces call) (choice : Choice) (w : Cluster Instance) :
    (effect settings self call choice w).2.l1 = w.l1 := by
  cases call <;> first | rfl | exact False.elim announces

/-- The L1 of this instance is the given one but for the messages that were delivered. -/
def Delivered (own : Instance) (cache : MemoryCache) (w : Observed Instance) : Prop :=
  w.cluster.l1 own = w.delivered.foldl MemoryCache.delete cache

theorem Delivered.step {cache : MemoryCache} {call : Call} (announces : Announces call)
    (moment : Moment Instance) {w : Observed Instance} (delivered : Delivered self cache w) :
    Delivered self cache (observe settings self call moment w).2 := by
  have asynchronous : call.synchronous = false := by
    cases call <;> first | rfl | exact False.elim announces
  have messages : (observe settings self call moment w).2.delivered =
      w.delivered ++ moment.meanwhile.delivered := by
    unfold observe
    rw [asynchronous]
    rfl
  rw [Delivered, observe_l1, asynchronous, announces_l1 settings self announces, messages,
    List.foldl_append, ← delivered]
  rfl

theorem ready_settled {l2 : Option RedisCacheAdapter} {subscription settled : Except String Unit}
    (ready : invalidationReady l2 subscription = some settled) : settled = .ok () := by
  unfold invalidationReady at ready
  cases l2 with
  | none => cases ready
  | some redis =>
    dsimp only at ready
    split at ready
    · cases subscription <;> exact (Option.some.inj ready).symm
    · cases ready

theorem awaitReady_done (l2 : Option RedisCacheAdapter) (subscription : Except String Unit) :
    awaitReady (invalidationReady l2 subscription) = pure () := by
  cases ready : invalidationReady l2 subscription with
  | none => rfl
  | some settled =>
    rw [ready_settled ready]
    rfl

def announceWritten (l2 : Option RedisCacheAdapter) (ready : Option (Except String Unit))
    (compositeKey value : String) (version : Int) : Program Unit := do
  safeL2Set (l2.map RedisCacheAdapter.mode) compositeKey value version
  publishWritten l2 ready compositeKey

def announceDeleted (l2 : Option RedisCacheAdapter) (compositeKey : String) : Program Unit := do
  deleteL2 (l2.map RedisCacheAdapter.mode) compositeKey
  publishDeleted l2 compositeKey

theorem publishDeleted_announces (l2 : Option RedisCacheAdapter) (compositeKey : String) :
    (publishDeleted l2 compositeKey).Resolves ∧
      (publishDeleted l2 compositeKey).Only Announces := by
  cases l2 with
  | none => exact ⟨trivial, trivial⟩
  | some redis =>
    dsimp only [publishDeleted]
    split
    · exact ⟨resolves_recover _ fun _ => trivial,
        only_recover ⟨trivial, settle_only⟩ fun _ => trivial⟩
    · exact ⟨trivial, trivial⟩

theorem publishWritten_eq (l2 : Option RedisCacheAdapter) (subscription : Except String Unit)
    (compositeKey : String) :
    publishWritten l2 (invalidationReady l2 subscription) compositeKey =
      publishDeleted l2 compositeKey := by
  cases l2 with
  | none => rfl
  | some redis =>
    dsimp only [publishWritten, publishDeleted]
    rw [awaitReady_done]
    rfl

theorem announceWritten_announces (l2 : Option RedisCacheAdapter)
    (subscription : Except String Unit) (compositeKey value : String) (version : Int) :
    (announceWritten l2 (invalidationReady l2 subscription) compositeKey value version).Resolves ∧
      (announceWritten l2 (invalidationReady l2 subscription) compositeKey value version).Only
        Announces := by
  unfold announceWritten
  rw [publishWritten_eq]
  obtain ⟨resolves, only⟩ := publishDeleted_announces l2 compositeKey
  exact ⟨resolves_bind safeL2Set_resolves fun _ => resolves,
    only_bind (safeL2Set_only trivial) fun _ => only⟩

theorem announceDeleted_announces (l2 : Option RedisCacheAdapter) (compositeKey : String) :
    (announceDeleted l2 compositeKey).Resolves ∧
      (announceDeleted l2 compositeKey).Only Announces := by
  obtain ⟨resolves, only⟩ := publishDeleted_announces l2 compositeKey
  exact ⟨resolves_bind deleteL2_resolves fun _ => resolves,
    only_bind (deleteL2_only trivial) fun _ => only⟩

theorem announced {program : Program Unit} (resolves : program.Resolves)
    (only : program.Only Announces) (cache : MemoryCache) (oracle : Oracle (Moment Instance))
    {w : Observed Instance} (delivered : Delivered self cache w) :
    (evaluate (observe settings self) program oracle w).result = .ok () ∧
      Delivered self cache (evaluate (observe settings self) program oracle w).world := by
  obtain ⟨_, settled⟩ := evaluate_resolves (observe settings self) resolves oracle w
  exact ⟨settled, evaluate_invariant (fun _ moment _ announces held => held.step announces moment)
    only oracle delivered⟩

theorem announced_faultless (settings : Settings) (self : Instance) {program : Program Unit}
    (only : program.Only Announces) (oracle : Oracle Choice) (w : Cluster Instance) :
    (evaluate (effect settings self) program oracle w).world.l1 = w.l1 := by
  induction program generalizing oracle w with
  | done => rfl
  | failed => rfl
  | await call next ih =>
    exact (ih _ (only.2 _) oracle.later _).trans (announces_l1 settings self only.1 (oracle 0) w)

end Writes

def faultless (oracle : Oracle (Moment Instance)) : Oracle Choice := fun index =>
  ⟨(oracle index).choice.dateNow, none⟩

/-- The read is rejected exactly if a read of the adapter was, then with that error and before
anything was added to a cache. -/
def FailsOnlyBy {Value : Type} (reads : Call → Prop) (own : Instance) (start : MemoryCache)
    (outcome : Outcome String Value (Moment Instance) (Observed Instance)) : Prop :=
  ((∃ error, outcome.result = .error error) ↔
    ∃ call rejection, reads call ∧ (call, some rejection) ∈ outcome.world.log) ∧
  ∀ error, outcome.result = .error error → Rejected reads own start error outcome.world

/-- The write resolves and leaves L1 as it would without failures, less what was invalidated. -/
def UpdatesL1 (own : Instance) (expected : MemoryCache)
    (outcome : Outcome String Unit (Moment Instance) (Observed Instance)) : Prop :=
  outcome.result = .ok () ∧
    outcome.world.cluster.l1 own = outcome.world.delivered.foldl MemoryCache.delete expected

section Calls

variable (settings : Settings) (self : Instance) (oracle : Oracle (Moment Instance))
  (w : Cluster Instance) (l2 : Option RedisCacheAdapter)

theorem fails_only_by {Value : Type} {program : Program Value} {reads : Call → Prop}
    (adapter : ∀ call, reads call → FromAdapter call)
    (ends : Triple (observe settings self) (fun _ _ _ => True)
      (fun later => NothingAdded self (w.l1 self) later ∧ Unrejected later) program
      (ReadEnds reads self (w.l1 self))) :
    FailsOnlyBy reads self (w.l1 self)
      (evaluate (observe settings self) program oracle ⟨w, [], []⟩) := by
  have start : NothingAdded self (w.l1 self) (⟨w, [], []⟩ : Observed Instance) ∧
      Unrejected (⟨w, [], []⟩ : Observed Instance) :=
    ⟨⟨by simp, .refl _⟩, by simp [Unrejected]⟩
  have settled := ends.run oracle _ start (along_always _ _ _ _)
  unfold FailsOnlyBy
  cases result : (evaluate (observe settings self) program oracle ⟨w, [], []⟩).result with
  | ok value =>
    rw [result] at settled
    refine ⟨⟨fun failed => by simp at failed, ?_⟩, fun error failed => by simp at failed⟩
    rintro ⟨call, rejection, read, logged⟩
    cases settled _ logged (adapter call read)
  | error error =>
    rw [result] at settled
    refine ⟨⟨fun _ => ?_, fun _ => ⟨error, rfl⟩⟩, ?_⟩
    · obtain ⟨call, rejection, read, logged, -⟩ := settled.cause
      exact ⟨call, rejection, read, logged⟩
    · rintro _ ⟨⟩
      exact settled

theorem updates_l1 {call : Call} (cache : MemoryCache) {faulty clean : Program Unit}
    (immediate : call.synchronous = true)
    (updates : ∀ choice, choice.dateNow = (oracle 0).choice.dateNow →
      (effect settings self call choice w).2 = w.withL1 self cache)
    (announces : faulty.Resolves ∧ faulty.Only Announces) (cleanly : clean.Only Announces) :
    UpdatesL1 self
      ((evaluate (effect settings self) (.await call fun _ => clean) (faultless oracle) w).world.l1
        self)
      (evaluate (observe settings self) (.await call fun _ => faulty) oracle ⟨w, [], []⟩) := by
  have updated : (w.withL1 self cache).l1 self = cache := by simp [Cluster.withL1]
  have expected : (evaluate (effect settings self) (.await call fun _ => clean) (faultless oracle)
      w).world.l1 self = cache := by
    have kept := announced_faultless settings self cleanly
      (faultless oracle).later (effect settings self call (faultless oracle 0) w).2
    rw [evaluate, kept, updates (faultless oracle 0) rfl, updated]
  have start : Delivered self cache (observe settings self call (oracle 0) ⟨w, [], []⟩).2 := by
    have cluster := observe_l1 settings self call (oracle 0) ⟨w, [], []⟩
    rw [immediate, if_pos rfl, updates _ rfl, updated] at cluster
    rw [Delivered, cluster]
    simp [observe, immediate]
  rw [UpdatesL1, expected]
  exact announced announces.1 announces.2 cache oracle.later start

/-- In every run, whatever Redis rejects: the four calls of the cache manager fail for the adapter's
sake only, and the writes reach L1. -/
theorem redis_failures_isolated (subscription : Except String Unit)
    (sessionId key value : String) (version : Int) (keys : List String) :
    FailsOnlyBy (· = .dbGet sessionId key) self (w.l1 self)
        (evaluate (observe settings self) (get (l2.map RedisCacheAdapter.mode) sessionId key) oracle
          ⟨w, [], []⟩) ∧
      FailsOnlyBy (ManyRead sessionId) self (w.l1 self)
        (evaluate (observe settings self) (getMany (l2.map RedisCacheAdapter.mode) sessionId keys)
          oracle ⟨w, [], []⟩) ∧
      UpdatesL1 self
        ((evaluate (effect settings self) (onWritten l2 (invalidationReady l2 (.ok ())) sessionId key
          value version) (faultless oracle) w).world.l1 self)
        (evaluate (observe settings self) (onWritten l2 (invalidationReady l2 subscription) sessionId
          key value version) oracle ⟨w, [], []⟩) ∧
      UpdatesL1 self
        ((evaluate (effect settings self) (onDeleted l2 sessionId key) (faultless oracle) w).world.l1
          self)
        (evaluate (observe settings self) (onDeleted l2 sessionId key) oracle ⟨w, [], []⟩) := by
  refine ⟨?_, ?_, ?_, ?_⟩
  · apply fails_only_by _ _ _ _ _ (get_ends _ key)
    rintro _ rfl
    trivial
  · apply fails_only_by _ _ _ _ _ (getMany_ends _ keys)
    rintro _ ⟨_, rfl⟩
    trivial
  · apply updates_l1 settings self oracle w
      ((w.l1 self).set (oracle 0).choice.dateNow (cacheKey sessionId key) value version) rfl
    · intro choice clock
      rw [← clock]
      rfl
    · exact announceWritten_announces l2 subscription _ value version
    · exact (announceWritten_announces l2 (.ok ()) _ value version).2
  · apply updates_l1 settings self oracle w ((w.l1 self).delete (cacheKey sessionId key)) rfl
    · exact fun _ _ => rfl
    · exact announceDeleted_announces l2 _
    · exact (announceDeleted_announces l2 _).2

end Calls

end BaileysSession.RedisIsolation
