import BaileysSession.Cache.ClusterRuns
import BaileysSession.Cache.MemoryCacheRuns

set_option autoImplicit false

namespace BaileysSession.CacheManager

open Async MemoryCache Transition

variable {settings : Settings} {sessionId : String} {since : Int} {db : Database}

/-- Whatever the levels still hold of the session at this time is what its rows hold. -/
structure AgreesSince (settings : Settings) (sessionId : String) (since : Int) (db : Database)
    (w : Cluster Unit) : Prop where
  l1 : ∀ key entry, (w.l1 ()).store.get? (cacheKey sessionId key) = some entry →
    since < entry.expiresAt → db.value? sessionId key = some entry.value
  l2 : settings.redis ≠ none → ∀ key held, w.l2.get? (cacheKey sessionId key) = some held →
    db.value? sessionId key = some held.value
  db : w.db = db

-- No clock is behind the time, and no call fails.
def Since (since : Int) (choice : Choice) : Prop :=
  choice.rejection = none ∧ since ≤ choice.dateNow

def CallsSince (since : Int) (_ : Cluster Unit) (_ : Call) (choice : Choice) : Prop :=
  Since since choice

theorem callsSince_tolerable (w : Cluster Unit) (call : Call) (choice : Choice)
    (later : CallsSince since w call choice) : Tolerable False w call choice :=
  accepted_tolerable w call choice later.1

theorem cacheKey_inj {key other : String}
    (same : cacheKey sessionId key = cacheKey sessionId other) : key = other :=
  (only_owns sessionId other sessionId key rfl same).2

theorem AgreesSince.kept {w : Cluster Unit} (agrees : AgreesSince settings sessionId since db w)
    {cache : MemoryCache} (kept : EntriesFrom (w.l1 ()) cache) :
    AgreesSince settings sessionId since db (w.withL1 () cache) := by
  refine ⟨fun key entry present => ?_, agrees.l2, agrees.db⟩
  rw [withL1_l1, if_pos rfl] at present
  exact agrees.l1 key entry (kept _ entry present)

theorem AgreesSince.stored {w : Cluster Unit} (agrees : AgreesSince settings sessionId since db w)
    {key value : String} (current : db.value? sessionId key = some value) (now version : Int) :
    AgreesSince settings sessionId since db
      (w.withL1 () ((w.l1 ()).set now (cacheKey sessionId key) value version)) := by
  refine ⟨fun other entry present alive => ?_, agrees.l2, agrees.db⟩
  rw [withL1_l1, if_pos rfl] at present
  rcases set_entry present with ⟨same, rfl⟩ | ⟨-, before⟩
  · rw [cacheKey_inj same]
    exact current
  · exact agrees.l1 other entry before alive

section Calls

variable (key : String)

theorem l1Get_since :
    Triple (effect settings ()) (CallsSince since) (AgreesSince settings sessionId since db)
      (l1Get (cacheKey sessionId key))
      (Returns fun hit w => AgreesSince settings sessionId since db w ∧
        ∀ held, hit = some held → db.value? sessionId key = some held.value) := by
  constructor
  rintro oracle w agrees ⟨⟨-, later⟩, -⟩
  refine ⟨agrees.kept (get_from _ _ _), fun held hit => ?_⟩
  obtain ⟨entry, present, alive, rfl⟩ := get_live hit
  exact agrees.l1 key entry present (Int.lt_of_le_of_lt later alive)

theorem l1Delete_since :
    Triple (effect settings ()) (CallsSince since) (AgreesSince settings sessionId since db)
      (l1Delete (cacheKey sessionId key))
      (Returns fun _ => AgreesSince settings sessionId since db) :=
  ⟨fun _ w agrees _ => agrees.kept (delete_from (w.l1 ()) _)⟩

theorem l1Set_since {value : String} (current : db.value? sessionId key = some value)
    (version : Int) :
    Triple (effect settings ()) (CallsSince since) (AgreesSince settings sessionId since db)
      (l1Set (cacheKey sessionId key) value version)
      (Returns fun _ => AgreesSince settings sessionId since db) :=
  ⟨fun oracle _ agrees _ => agrees.stored current (oracle 0).dateNow version⟩

theorem safeL2Set_since {value : String} (current : db.value? sessionId key = some value)
    (version : Int) :
    Triple (effect settings ()) (CallsSince since) (AgreesSince settings sessionId since db)
      (safeL2Set settings.redis (cacheKey sessionId key) value version)
      (Returns fun _ => AgreesSince settings sessionId since db) := by
  apply triple_from
  intro w agrees
  apply triple_consequence ((safeL2Set_spec w _ value version).stricter callsSince_tolerable)
    (fun _ same => same)
  rintro - _ ⟨l2, rfl, replaced⟩
  refine ⟨agrees.l1, fun redis other held present => ?_, agrees.db⟩
  rcases replaced redis _ held present with ⟨same, fits⟩ | ⟨-, before⟩
  · rw [cacheKey_inj same, current, fits]
  · exact agrees.l2 redis other held before

theorem adapterGet_since :
    Triple (effect settings ()) (CallsSince since) (AgreesSince settings sessionId since db)
      (adapterGet sessionId key)
      (Returns fun record w => AgreesSince settings sessionId since db w ∧
        record = db.get sessionId key) := by
  constructor
  rintro oracle w agrees ⟨⟨accepted, -⟩, -⟩
  simp only [adapterGet, evaluate, effect, settle_accepted accepted]
  exact ⟨agrees, by rw [agrees.db]⟩

theorem adapterGetMany_since (keys : List String) :
    Triple (effect settings ()) (CallsSince since) (AgreesSince settings sessionId since db)
      (adapterGetMany sessionId keys)
      (Returns fun records w => AgreesSince settings sessionId since db w ∧
        records = db.getMany sessionId keys) := by
  constructor
  rintro oracle w agrees ⟨⟨accepted, -⟩, -⟩
  simp only [adapterGetMany, evaluate, effect, settle_accepted accepted]
  exact ⟨agrees, by rw [agrees.db]⟩

end Calls

def AnswersSince (settings : Settings) (sessionId : String) (since : Int) (db : Database)
    (key : String) : Except String (Option String) → Cluster Unit → Prop :=
  Returns fun result w => AgreesSince settings sessionId since db w ∧
    result = db.value? sessionId key

theorem readDatabase_since (key : String) :
    Triple (effect settings ()) (CallsSince since) (AgreesSince settings sessionId since db)
      (readDatabase settings.redis sessionId key)
      (AnswersSince settings sessionId since db key) := by
  unfold readDatabase
  apply triple_then (adapterGet_since key)
  intro record
  apply triple_from
  rintro w ⟨agrees, rfl⟩
  cases stored : db.get sessionId key with
  | none =>
    apply triple_done
    rintro _ rfl
    exact ⟨agrees, by simp [Database.value?, stored]⟩
  | some record =>
    have current : db.value? sessionId key = some record.value := by simp [Database.value?, stored]
    dsimp only
    apply triple_then (triple_at agrees (l1Set_since key current record.version))
    intro _
    apply triple_then (safeL2Set_since key current record.version)
    intro _
    apply triple_done
    exact fun _ after => ⟨after, current.symm⟩

theorem readL2_since (key : String) :
    Triple (effect settings ()) (CallsSince since) (AgreesSince settings sessionId since db)
      (readL2 settings.redis sessionId key) (AnswersSince settings sessionId since db key) := by
  unfold readL2
  apply triple_from
  intro w agrees
  apply triple_then (safeL2Get_spec w _)
  intro l2Hit
  apply triple_from
  rintro _ ⟨rfl, found⟩
  cases l2Hit with
  | none => exact triple_at agrees (readDatabase_since key)
  | some hit =>
    obtain ⟨redis, present⟩ := found hit rfl
    have current := agrees.l2 redis key hit present
    dsimp only
    apply triple_then (triple_at agrees (l1Set_since key current hit.version))
    intro _
    apply triple_done
    exact fun _ after => ⟨after, current.symm⟩

theorem get_since (key : String) :
    Triple (effect settings ()) (CallsSince since) (AgreesSince settings sessionId since db)
      (get settings.redis sessionId key) (AnswersSince settings sessionId since db key) := by
  unfold CacheManager.get
  apply triple_then (l1Get_since key)
  intro l1Hit
  apply triple_from
  rintro w ⟨agrees, held⟩
  cases l1Hit with
  | none => exact triple_at agrees (readL2_since key)
  | some hit =>
    have served : Triple (effect settings ()) (CallsSince since) (· = w)
        (pure (some hit.value) : Program (Option String))
        (AnswersSince settings sessionId since db key) := by
      apply triple_done
      rintro _ rfl
      exact ⟨agrees, (held hit rfl).symm⟩
    dsimp only
    split
    · apply triple_then (safeL2Get_spec w _)
      intro l2Check
      apply triple_from
      rintro _ ⟨rfl, -⟩
      cases l2Check with
      | none => exact served
      | some check =>
        dsimp only
        split
        · exact triple_then (triple_at agrees (l1Delete_since key)) fun _ => readL2_since key
        · exact served
    · exact served

theorem backfill_since (records : List (String × SessionRecord))
    (stored : ∀ entry ∈ records, db.get sessionId entry.1 = some entry.2)
    (result : InsertionMap String String) :
    Triple (effect settings ()) (CallsSince since) (AgreesSince settings sessionId since db)
      (backfill settings.redis sessionId records result)
      (Returns fun _ => AgreesSince settings sessionId since db) := by
  induction records generalizing result with
  | nil =>
    apply triple_done
    exact fun _ agrees => agrees
  | cons entry rest ih =>
    obtain ⟨key, record⟩ := entry
    have current : db.value? sessionId key = some record.value := by
      simp [Database.value?, stored (key, record) List.mem_cons_self]
    rw [backfill]
    apply triple_then (l1Set_since key current record.version)
    intro _
    apply triple_then (safeL2Set_since key current record.version)
    exact fun _ => ih (fun other inside => stored other (List.mem_cons_of_mem _ inside)) _

theorem getMany_since (keys : List String) :
    Triple (effect settings ()) (CallsSince since) (AgreesSince settings sessionId since db)
      (getMany settings.redis sessionId keys)
      (Ends (AgreesSince settings sessionId since db) fun _ =>
        AgreesSince settings sessionId since db) := by
  have looks : ∀ key, Triple (effect settings ()) (CallsSince since)
      (AgreesSince settings sessionId since db) (l1Get (cacheKey sessionId key))
      (Ends (AgreesSince settings sessionId since db) fun _ =>
        AgreesSince settings sessionId since db) := by
    intro key
    apply triple_anyhow
    apply triple_consequence (l1Get_since key) (fun _ same => same)
    exact fun _ _ after => after.1
  unfold getMany
  apply triple_ends (lookupL1_asked looks keys .empty [])
  rintro ⟨result, misses⟩
  apply triple_from
  rintro w ⟨agrees, -⟩
  dsimp only
  split
  · apply triple_done
    rintro _ rfl
    exact agrees
  · apply triple_ends (triple_anyhow (triple_at agrees (adapterGetMany_since misses)))
    intro records
    apply triple_from
    rintro next ⟨later, rfl⟩
    apply triple_anyhow
    apply triple_at later
    have recorded := recorded_owned db fun key (_ : key ∈ misses) => only_owns sessionId key
    exact backfill_since _ (fun entry inside => (recorded entry inside).2) result

section Runs

/-- Reads of the session that succeed, on clocks that are not behind the time, and all that
happens to the caches by itself. -/
def Reads (sessionId : String) (since : Int) (_ : Cluster Unit) : Event Unit → Prop
  | .operate _ (.get other _) oracle | .operate _ (.getMany other _) oracle =>
    other = sessionId ∧ ∀ index, Since since (oracle index)
  | .operate _ _ _ => False
  | _ => True

theorem along_since {Result : Type} (program : Program Result) (w : Cluster Unit)
    {oracle : Oracle Choice} (later : ∀ index, Since since (oracle index)) :
    Along (effect settings ()) (CallsSince since) program oracle w :=
  Along.of_oracle (effect settings ()) program w later

theorem step_since {w next : Cluster Unit} {event : Event Unit}
    (agrees : AgreesSince settings sessionId since db w) (reads : Reads sessionId since w event)
    (taken : step settings w event = some next) :
    AgreesSince settings sessionId since db next := by
  cases event with
  | operate self operation oracle =>
    cases taken
    cases operation with
    | get other key =>
      obtain ⟨rfl, later⟩ := reads
      have asked : Triple (effect settings ()) (CallsSince since)
          (AgreesSince settings other since db) (Operation.program settings.redis (.get other key))
          (Ends (AgreesSince settings other since db) fun _ =>
            AgreesSince settings other since db) := by
        apply triple_anyhow
        apply triple_then (get_since key)
        intro _
        apply triple_done
        exact fun _ after => after.1
      exact triple_keeps asked agrees (along_since _ w later)
    | getMany other keys =>
      obtain ⟨rfl, later⟩ := reads
      have asked : Triple (effect settings ()) (CallsSince since)
          (AgreesSince settings other since db)
          (Operation.program settings.redis (.getMany other keys))
          (Ends (AgreesSince settings other since db) fun _ =>
            AgreesSince settings other since db) := by
        apply triple_ends (getMany_since keys)
        intro _
        apply triple_done
        exact fun _ after => after
      exact triple_keeps asked agrees (along_since _ w later)
    | keysSet | deleteSession | importSession | clearCache => exact False.elim reads
  | deliver subscriber key =>
    obtain ⟨-, rfl⟩ := deliver_taken taken
    have dropped := agrees.kept (delete_from (w.l1 ()) key)
    exact ⟨dropped.l1, dropped.l2, dropped.db⟩
  | sweepExpired self now =>
    cases taken
    exact agrees.kept (sweepExpired_from _ now)
  | evict self key =>
    cases taken
    exact agrees.kept (delete_from _ key)
  | loseL2 key =>
    cases taken
    refine ⟨agrees.l1, fun redis other held present => ?_, agrees.db⟩
    rw [InsertionMap.get?_erase] at present
    split at present
    · cases present
    · exact agrees.l2 redis other held present
  | restart self =>
    cases taken
    have emptied : AgreesSince settings sessionId since db (w.withL1 () (.new settings.memory)) :=
      agrees.kept fun _ _ held => by cases held
    exact ⟨emptied.l1, emptied.l2, emptied.db⟩

theorem run_since {w final : Cluster Unit} {events : List (Event Unit)}
    (agrees : AgreesSince settings sessionId since db w)
    (run : Run (step settings) (Reads sessionId since) w events final) :
    AgreesSince settings sessionId since db final :=
  run.invariant _ (fun _ _ _ before reads taken => step_since before reads taken) agrees

/-- Every read of the key from this time on gives what the database holds. -/
def ReadsRight (settings : Settings) (sessionId : String) (since : Int) (key : String)
    (w : Cluster Unit) : Prop :=
  ∀ events later, Run (step settings) (Reads sessionId since) w events later →
    ∀ reading : Oracle Choice, (∀ index, Since since (reading index)) →
      (evaluate (effect settings ()) (get settings.redis sessionId key) reading later).result =
        .ok (later.db.value? sessionId key)

theorem AgreesSince.readsRight {w : Cluster Unit}
    (agrees : AgreesSince settings sessionId since db w) (key : String) :
    ReadsRight settings sessionId since key w := by
  intro events later run reading accepted
  have still := run_since agrees run
  obtain ⟨_, returned, after⟩ :=
    triple_returns (get_since key) still (along_since _ later accepted)
  rw [returned, after.2, still.db]

end Runs

end BaileysSession.CacheManager
