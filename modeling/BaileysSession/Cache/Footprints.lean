import BaileysSession.Cache.Operations

set_option autoImplicit false

namespace BaileysSession.CacheManager

open Async

variable {allowed : Call → Prop} {redis : Option RedisMode} {compositeKey : String}

theorem settle_only {Value : Type} (reply : Except String Value) :
    (settle reply).Only allowed := by
  cases reply <;> trivial

theorem safeL2Get_only (get : allowed (.l2Get compositeKey)) :
    (safeL2Get redis compositeKey).Only allowed := by
  cases redis with
  | none => trivial
  | some mode =>
    apply only_recover
    · exact ⟨get, settle_only⟩
    · exact fun _ => trivial

theorem safeL2Set_only {value : String} {version : Int}
    (set : allowed (.l2Set compositeKey value version)) :
    (safeL2Set redis compositeKey value version).Only allowed := by
  cases redis with
  | none => trivial
  | some mode =>
    apply only_recover
    · exact ⟨set, settle_only⟩
    · exact fun _ => trivial

theorem deleteL2_only (del : allowed (.l2Del compositeKey)) :
    (deleteL2 redis compositeKey).Only allowed := by
  cases redis with
  | none => trivial
  | some mode =>
    apply only_recover
    · exact ⟨del, settle_only⟩
    · exact fun _ => trivial

theorem publish_only (publishes : allowed (.publishInvalidation compositeKey)) :
    (publish redis compositeKey).Only allowed := by
  unfold publish
  split
  · apply only_recover
    · exact ⟨publishes, settle_only⟩
    · exact fun _ => trivial
  · trivial

section Reads

def afterL1 (redis : Option RedisMode) (sessionId key : String) (l1Hit : Option Versioned) :
    Program (Option String) :=
  match l1Hit with
  | none => readL2 redis sessionId key
  | some hit =>
    if redis = some .http then
      safeL2Get redis (cacheKey sessionId key) >>= fun l2Check =>
        match l2Check with
        | some check =>
          if check.version ≠ hit.version then
            l1Delete (cacheKey sessionId key) >>= fun _ => readL2 redis sessionId key
          else pure (some hit.value)
        | none => pure (some hit.value)
    else pure (some hit.value)

theorem get_afterL1 (redis : Option RedisMode) (sessionId key : String) :
    CacheManager.get redis sessionId key =
      l1Get (cacheKey sessionId key) >>= afterL1 redis sessionId key := rfl

structure Readable (allowed : Call → Prop) (sessionId key : String) : Prop where
  l1Set : ∀ value version, allowed (.l1Set (cacheKey sessionId key) value version)
  l1Delete : allowed (.l1Delete (cacheKey sessionId key))
  l2Get : allowed (.l2Get (cacheKey sessionId key))
  l2Set : ∀ value version, allowed (.l2Set (cacheKey sessionId key) value version)
  dbGet : allowed (.dbGet sessionId key)

variable {sessionId key : String} (readable : Readable allowed sessionId key)

include readable

theorem readDatabase_only : (readDatabase redis sessionId key).Only allowed := by
  apply only_bind
  · exact ⟨readable.dbGet, settle_only⟩
  · intro record
    cases record with
    | none => trivial
    | some record =>
      refine ⟨readable.l1Set record.value record.version, fun _ => ?_⟩
      apply only_bind (safeL2Set_only (readable.l2Set record.value record.version))
      exact fun _ => trivial

theorem readL2_only : (readL2 redis sessionId key).Only allowed := by
  apply only_bind (safeL2Get_only readable.l2Get)
  intro l2Hit
  cases l2Hit with
  | none => exact readDatabase_only readable
  | some hit => exact ⟨readable.l1Set hit.value hit.version, fun _ => trivial⟩

theorem afterL1_only (l1Hit : Option Versioned) :
    (afterL1 redis sessionId key l1Hit).Only allowed := by
  cases l1Hit with
  | none => exact readL2_only readable
  | some hit =>
    dsimp only [afterL1]
    split
    · apply only_bind (safeL2Get_only readable.l2Get)
      intro l2Check
      cases l2Check with
      | none => trivial
      | some check =>
        dsimp only
        split
        · exact ⟨readable.l1Delete, fun _ => readL2_only readable⟩
        · trivial
    · trivial

theorem get_only (l1Get : allowed (.l1Get (cacheKey sessionId key))) :
    (CacheManager.get redis sessionId key).Only allowed :=
  ⟨l1Get, afterL1_only readable⟩

end Reads

section ManyReads

variable {sessionId : String}

theorem lookupL1_only (l1Get : ∀ key, allowed (.l1Get (cacheKey sessionId key)))
    (keys : List String) (result : InsertionMap String String) (misses : List String) :
    (lookupL1 redis sessionId keys result misses).Only allowed := by
  induction keys generalizing result misses with
  | nil => trivial
  | cons key rest ih =>
    refine ⟨l1Get key, ?_⟩
    intro l1Hit
    cases l1Hit with
    | none => exact ih _ _
    | some hit =>
      dsimp only [Async.bind]
      split <;> exact ih _ _

theorem backfill_only (records : List (String × SessionRecord))
    (fills : ∀ entry ∈ records,
      allowed (.l1Set (cacheKey sessionId entry.1) entry.2.value entry.2.version) ∧
        allowed (.l2Set (cacheKey sessionId entry.1) entry.2.value entry.2.version))
    (result : InsertionMap String String) :
    (backfill redis sessionId records result).Only allowed := by
  induction records generalizing result with
  | nil => trivial
  | cons entry rest ih =>
    obtain ⟨key, record⟩ := entry
    have fill := fills (key, record) List.mem_cons_self
    refine ⟨fill.1, fun _ => ?_⟩
    apply only_bind (safeL2Set_only fill.2)
    exact fun _ => ih (fun other inside => fills other (List.mem_cons_of_mem _ inside)) _

theorem getMany_only (l1Get : ∀ key, allowed (.l1Get (cacheKey sessionId key)))
    (readable : ∀ key, Readable allowed sessionId key)
    (dbGetMany : ∀ keys, allowed (.dbGetMany sessionId keys)) (keys : List String) :
    (getMany redis sessionId keys).Only allowed := by
  unfold getMany
  apply only_bind (lookupL1_only l1Get keys .empty [])
  rintro ⟨result, misses⟩
  dsimp only
  split
  · trivial
  · apply only_bind
    · exact ⟨dbGetMany misses, settle_only⟩
    · intro records
      exact backfill_only records.entries
        (fun entry _ => ⟨(readable entry.1).l1Set _ _, (readable entry.1).l2Set _ _⟩) result

end ManyReads

section Announcements

variable {sessionId key : String}

theorem onWritten_only {value : String} {version : Int}
    (l1Set : allowed (.l1Set (cacheKey sessionId key) value version))
    (l2Set : allowed (.l2Set (cacheKey sessionId key) value version))
    (publishes : allowed (.publishInvalidation (cacheKey sessionId key))) :
    (onWritten redis sessionId key value version).Only allowed := by
  refine ⟨l1Set, fun _ => ?_⟩
  apply only_bind (safeL2Set_only l2Set)
  exact fun _ => publish_only publishes

theorem onDeleted_only (l1Delete : allowed (.l1Delete (cacheKey sessionId key)))
    (l2Del : allowed (.l2Del (cacheKey sessionId key)))
    (publishes : allowed (.publishInvalidation (cacheKey sessionId key))) :
    (onDeleted redis sessionId key).Only allowed := by
  refine ⟨l1Delete, fun _ => ?_⟩
  apply only_bind (deleteL2_only l2Del)
  exact fun _ => publish_only publishes

theorem onWrittenEach_only (dateNow : allowed .dateNow) (entries : List Entry)
    (announced : ∀ entry ∈ entries, ∀ version,
      (onWritten redis sessionId entry.key entry.value version).Only allowed) :
    (onWrittenEach redis sessionId entries).Only allowed := by
  induction entries with
  | nil => trivial
  | cons entry rest ih =>
    refine ⟨dateNow, fun version => ?_⟩
    apply only_bind (announced entry List.mem_cons_self version)
    exact fun _ => ih fun other inside => announced other (List.mem_cons_of_mem entry inside)

theorem onDeletedEach_only (keys : List String)
    (announced : ∀ key ∈ keys, (onDeleted redis sessionId key).Only allowed) :
    (onDeletedEach redis sessionId keys).Only allowed := by
  induction keys with
  | nil => trivial
  | cons key rest ih =>
    apply only_bind (announced key List.mem_cons_self)
    exact fun _ => ih fun other inside => announced other (List.mem_cons_of_mem key inside)

theorem upsert_only {entries : List Entry} (writes : allowed (.dbSetMany sessionId entries))
    (dateNow : allowed .dateNow)
    (written : ∀ entry ∈ entries, ∀ version,
      (onWritten redis sessionId entry.key entry.value version).Only allowed) :
    (runSection redis sessionId (.upsert entries)).Only allowed := by
  apply only_bind
  · exact ⟨writes, settle_only⟩
  · exact fun _ => onWrittenEach_only dateNow entries written

theorem remove_only {deletions : List String}
    (deletes : allowed (.dbDeleteMany sessionId deletions))
    (deleted : ∀ key ∈ deletions, (onDeleted redis sessionId key).Only allowed) :
    (runSection redis sessionId (.remove deletions)).Only allowed := by
  apply only_bind
  · exact ⟨deletes, settle_only⟩
  · exact fun _ => onDeletedEach_only deletions deleted

theorem runSections_only (sections : List KeysSet.Section)
    (each : ∀ change ∈ sections, (runSection redis sessionId change).Only allowed) :
    (runSections redis sessionId sections).Only allowed := by
  induction sections with
  | nil => trivial
  | cons change rest ih =>
    apply only_bind (each change List.mem_cons_self)
    exact fun _ => ih fun other inside => each other (List.mem_cons_of_mem change inside)

end Announcements

section Sessions

variable {sessionId : String}

theorem deleteSession_only (deletes : allowed (.dbDeleteSession sessionId))
    (clears : allowed (.l1DeleteByPrefix (sessionId ++ ":"))) :
    (deleteSession sessionId).Only allowed := by
  apply only_bind
  · exact ⟨deletes, settle_only⟩
  · exact fun _ => ⟨clears, fun _ => trivial⟩

theorem importSession_only {data : InsertionMap String String}
    (writes : allowed (.dbSetMany sessionId (data.entries.map fun entry => ⟨entry.1, entry.2⟩)))
    (clears : allowed (.l1DeleteByPrefix (sessionId ++ ":"))) :
    (importSession sessionId data).Only allowed := by
  apply only_bind
  · exact ⟨writes, settle_only⟩
  · exact fun _ => ⟨clears, fun _ => trivial⟩

theorem clearCache_only (named : Option String) (clear : allowed .l1Clear)
    (clears : ∀ start, allowed (.l1DeleteByPrefix start)) : (clearCache named).Only allowed := by
  unfold clearCache
  split
  · split
    · exact ⟨clears _, fun _ => trivial⟩
    · exact ⟨clear, fun _ => trivial⟩
  · exact ⟨clear, fun _ => trivial⟩

end Sessions

section Settling

/-- The adapter accepts its calls; a Redis command may fail in any way. -/
def AdapterAccepts {Instance : Type} (_ : Cluster Instance) : Call → Choice → Prop
  | .dbGet _ _, choice | .dbGetMany _ _, choice | .dbSetMany _ _, choice
  | .dbDeleteMany _ _, choice | .dbDeleteSession _, choice | .dbGetAllKeys _, choice =>
    choice.rejection = none
  | _, _ => True

variable {sessionId key : String}

theorem deleteL2_resolves : (deleteL2 redis compositeKey).Resolves := by
  cases redis with
  | none => trivial
  | some mode => exact resolves_recover _ fun _ => trivial

theorem safeL2Set_resolves {value : String} {version : Int} :
    (safeL2Set redis compositeKey value version).Resolves := by
  cases redis with
  | none => trivial
  | some mode => exact resolves_recover _ fun _ => trivial

theorem publish_resolves : (publish redis compositeKey).Resolves := by
  unfold publish
  split
  · exact resolves_recover _ fun _ => trivial
  · trivial

theorem onWritten_resolves {value : String} {version : Int} :
    (onWritten redis sessionId key value version).Resolves := by
  have announces : (announceWritten redis (cacheKey sessionId key) value version).Resolves :=
    resolves_bind safeL2Set_resolves fun _ => publish_resolves
  exact fun _ => announces

theorem onDeleted_resolves : (onDeleted redis sessionId key).Resolves := by
  have announces : (announceDeleted redis (cacheKey sessionId key)).Resolves :=
    resolves_bind deleteL2_resolves fun _ => publish_resolves
  exact fun _ => announces

theorem onWrittenEach_resolves (entries : List Entry) :
    (onWrittenEach redis sessionId entries).Resolves := by
  induction entries with
  | nil => trivial
  | cons entry rest ih =>
    have continues : ∀ version, (onWritten redis sessionId entry.key entry.value version >>= fun _ =>
        onWrittenEach redis sessionId rest).Resolves :=
      fun _ => resolves_bind onWritten_resolves fun _ => ih
    exact continues

theorem onDeletedEach_resolves (keys : List String) :
    (onDeletedEach redis sessionId keys).Resolves := by
  induction keys with
  | nil => trivial
  | cons key rest ih => exact resolves_bind onDeleted_resolves fun _ => ih

end Settling

section Reading

def Call.Reading : Call → Prop
  | .dbSetMany _ _ | .dbDeleteMany _ _ | .dbDeleteSession _ => False
  | _ => True

variable {Instance : Type} [DecidableEq Instance] {settings : Settings} {self : Instance}

theorem evaluate_reading {Result : Type} {program : Program Result}
    (reading : program.Only Call.Reading) (oracle : Async.Oracle Choice) (w : Cluster Instance) :
    (Async.evaluate (effect settings self) program oracle w).world.db = w.db := by
  have kept : ∀ (call : Call) (choice : Choice) (next : Cluster Instance), call.Reading →
      next.db = w.db → (effect settings self call choice next).2.db = w.db := by
    intro call choice next only same
    cases call with
    | dbSetMany | dbDeleteMany | dbDeleteSession => exact False.elim only
    | _ => exact same
  exact Async.evaluate_invariant kept reading oracle rfl

end Reading

end BaileysSession.CacheManager
