import BaileysSession.Cache.HttpDeletes
import Mathlib.Data.Fintype.Basic

set_option autoImplicit false

namespace BaileysSession.CacheManager

open Async MemoryCache Transition

variable {Instance : Type} [DecidableEq Instance] {settings : Settings} {self : Instance}
  {sessionId key : String} {sole before after : Prop} {db : Database}

/-- No instance holds another value of the key under the version that L2 is about to be given. -/
def Fresh (compositeKey : String) (w : Cluster Instance) : Call → Prop
  | .l2Set key value version => key = compositeKey →
      ∀ reader, ∀ held ∈ (w.l1 reader).peek key, held.version = version → held.value = value
  | _ => True

instance [Fintype Instance] (compositeKey : String) (w : Cluster Instance) (call : Call) :
    Decidable (Fresh compositeKey w call) :=
  match call with
  | .l2Set key value version => inferInstanceAs (Decidable (key = compositeKey →
      ∀ reader, ∀ held ∈ (w.l1 reader).peek key, held.version = version → held.value = value))
  | .dateNow | .l1Get _ | .l1Set _ _ _ | .l1Delete _ | .l1DeleteByPrefix _ | .l1Clear | .l2Get _
  | .l2Del _ | .publishInvalidation _ | .dbGet _ _ | .dbGetMany _ _ | .dbSetMany _ _
  | .dbDeleteMany _ _ | .dbDeleteSession _ | .dbGetAllKeys _ => isTrue trivial

abbrev FreshCall (compositeKey : String) (w : Cluster Instance) (call : Call) (choice : Choice) :
    Prop :=
  Accepted w call choice ∧ Fresh compositeKey w call

/-- Of one cache key L1 and L2 hold no two values under one version, and L1 none that L2 has
nothing for; and L2 is right about the pair, if that is the only one with this cache key. -/
structure Agreeing (sessionId key : String) (sole pending : Prop) (w : Cluster Instance) :
    Prop where
  same : ∀ reader held check, (w.l1 reader).peek (cacheKey sessionId key) = some held →
    w.l2.get? (cacheKey sessionId key) = some check → held.version = check.version →
      held.value = check.value
  backed : ∀ reader held, (w.l1 reader).peek (cacheKey sessionId key) = some held →
    w.l2.get? (cacheKey sessionId key) ≠ none
  current : sole → ¬ pending → ∀ check, w.l2.get? (cacheKey sessionId key) = some check →
    w.db.value? sessionId key = some check.value

def AgreeingOver (sessionId key : String) (sole pending : Prop) (db : Database)
    (w : Cluster Instance) : Prop :=
  Agreeing sessionId key sole pending w ∧ w.db = db

omit [DecidableEq Instance] in
theorem initial_agreeing (db : Database) :
    Agreeing sessionId key sole False (Cluster.initial settings db : Cluster Instance) := by
  constructor
  · intro _ _ _ held
    cases held
  · intro _ _ held
    cases held
  · intro _ _ _ held
    cases held

theorem Agreeing.shrink {w : Cluster Instance} (agreeing : Agreeing sessionId key sole before w)
    {cache : MemoryCache} (shrinks : Shrinks (w.l1 self) cache) :
    Agreeing sessionId key sole before (w.withL1 self cache) := by
  have kept : ∀ reader held,
      ((w.withL1 self cache).l1 reader).peek (cacheKey sessionId key) = some held →
        (w.l1 reader).peek (cacheKey sessionId key) = some held := by
    intro reader held present
    rw [withL1_l1] at present
    split at present
    · rename_i here
      rw [here]
      exact shrinks _ held present
    · exact present
  constructor
  · exact fun reader held check present => agreeing.same reader held check (kept reader held present)
  · exact fun reader held present => agreeing.backed reader held (kept reader held present)
  · exact agreeing.current

theorem Agreeing.copied {w : Cluster Instance} (agreeing : Agreeing sessionId key sole before w)
    {compositeKey : String} {hit : Versioned} (present : w.l2.get? compositeKey = some hit)
    {cache : MemoryCache}
    (replaced : Replaces compositeKey (some hit.value) (w.l1 self).peek cache.peek) :
    Agreeing sessionId key sole before (w.withL1 self cache) := by
  have unchanged : (w.withL1 self cache).l2 = w.l2 := rfl
  constructor
  · intro reader held check inL1 inL2 versions
    rw [withL1_l1] at inL1
    split at inL1
    · rcases replaced _ held inL1 with ⟨rfl, value⟩ | ⟨-, earlier⟩
      · rw [unchanged, present] at inL2
        cases inL2
        exact (Option.some.inj value).symm
      · exact agreeing.same self held check earlier inL2 versions
    · exact agreeing.same reader held check inL1 inL2 versions
  · intro reader held inL1
    rw [withL1_l1] at inL1
    split at inL1
    · rcases replaced _ held inL1 with ⟨rfl, -⟩ | ⟨-, earlier⟩
      · rw [unchanged, present]
        nofun
      · exact agreeing.backed self held earlier
    · exact agreeing.backed reader held inL1
  · exact agreeing.current

theorem Agreeing.filled {w : Cluster Instance} (agreeing : Agreeing sessionId key sole before w)
    {compositeKey value : String} {version : Int} {cache : MemoryCache}
    (replaced : Replaces compositeKey (some value) (w.l1 self).peek cache.peek)
    (fresh : Fresh (cacheKey sessionId key) (w.withL1 self cache)
      (.l2Set compositeKey value version))
    (fits : compositeKey = cacheKey sessionId key → sole → ¬ after →
      w.db.value? sessionId key = some value)
    (apart : compositeKey ≠ cacheKey sessionId key → before → after) :
    Agreeing sessionId key sole after { w.withL1 self cache with
      l2 := w.l2.set compositeKey ⟨value, version⟩ } := by
  by_cases mine : compositeKey = cacheKey sessionId key
  · constructor
    · intro reader held check inL1 inL2 versions
      rw [InsertionMap.get?_set, if_pos mine.symm] at inL2
      cases inL2
      exact fresh mine reader held (mine ▸ inL1) versions
    · intro reader held inL1
      rw [InsertionMap.get?_set, if_pos mine.symm]
      nofun
    · intro alone done check inL2
      rw [InsertionMap.get?_set, if_pos mine.symm] at inL2
      cases inL2
      exact fits mine alone done
  · have shrunk : ∀ reader held,
        ((w.withL1 self cache).l1 reader).peek (cacheKey sessionId key) = some held →
          (w.l1 reader).peek (cacheKey sessionId key) = some held := by
      intro reader held inL1
      rw [withL1_l1] at inL1
      split at inL1
      · rename_i here
        rcases replaced _ held inL1 with ⟨same, -⟩ | ⟨-, earlier⟩
        · exact absurd same.symm mine
        · rw [here]
          exact earlier
      · exact inL1
    have other : (w.l2.set compositeKey ⟨value, version⟩).get? (cacheKey sessionId key) =
        w.l2.get? (cacheKey sessionId key) := by
      rw [InsertionMap.get?_set, if_neg fun same => mine same.symm]
    constructor
    · intro reader held check inL1 inL2
      rw [other] at inL2
      exact agreeing.same reader held check (shrunk reader held inL1) inL2
    · intro reader held inL1
      rw [other]
      exact agreeing.backed reader held (shrunk reader held inL1)
    · intro alone done check inL2
      rw [other] at inL2
      exact agreeing.current alone (fun waiting => done (apart mine waiting)) check inL2

section Specs

variable (http : settings.redis = some .http)

include http

theorem safeL2Set_fresh (w : Cluster Instance) (compositeKey value : String) (version : Int) :
    Triple (effect settings self) (FreshCall (cacheKey sessionId key)) (· = w)
      (safeL2Set settings.redis compositeKey value version)
      (Returns fun _ next => next = { w with l2 := w.l2.set compositeKey ⟨value, version⟩ } ∧
        Fresh (cacheKey sessionId key) w (.l2Set compositeKey value version)) := by
  rw [http]
  constructor
  rintro oracle _ rfl ⟨⟨accepted, fresh⟩, -⟩
  have stored : (oracle 0).rejection = none := accepted
  simp only [safeL2Set, tryCatch, l2Set, recover, evaluate, effect, settle_accepted stored,
    applies_accepted stored, if_true]
  exact ⟨rfl, fresh⟩

theorem fill_agreeing {Result : Type} {next : Program Result}
    {outcome : Except String Result → Cluster Instance → Prop} {compositeKey value : String}
    {version : Int}
    (fits : compositeKey = cacheKey sessionId key → sole → ¬ after →
      db.value? sessionId key = some value)
    (apart : compositeKey ≠ cacheKey sessionId key → before → after)
    (continues : Triple (effect settings self) (FreshCall (cacheKey sessionId key))
      (AgreeingOver sessionId key sole after db) next outcome) :
    Triple (effect settings self) (FreshCall (cacheKey sessionId key))
      (AgreeingOver sessionId key sole before db)
      (do
        l1Set compositeKey value version
        safeL2Set settings.redis compositeKey value version
        next)
      outcome := by
  apply triple_from
  rintro w ⟨agreeing, rfl⟩
  apply triple_then (l1Set_spec w compositeKey value version)
  intro _
  apply triple_from
  rintro _ ⟨cache, rfl, replaced⟩
  apply triple_then (safeL2Set_fresh http _ compositeKey value version)
  intro _
  apply triple_from
  rintro _ ⟨rfl, fresh⟩
  exact triple_at ⟨agreeing.filled replaced fresh fits apart, rfl⟩ continues

theorem readDatabase_agreeing {other name : String}
    (owns : sole → Owns (pair sessionId key) other name) :
    Triple (effect settings self) (FreshCall (cacheKey sessionId key))
      (AgreeingOver sessionId key sole False db) (readDatabase settings.redis other name)
      (Returns fun _ => AgreeingOver sessionId key sole False db) := by
  have read : Triple (effect settings self) (FreshCall (cacheKey sessionId key))
      (AgreeingOver sessionId key sole False db) (adapterGet other name)
      (Returns fun record w => AgreeingOver sessionId key sole False db w ∧
        record = db.get other name) := by
    constructor
    rintro oracle w ⟨agreeing, rfl⟩ ⟨⟨accepted, -⟩, -⟩
    have answered : (oracle 0).rejection = none := accepted
    simp only [adapterGet, evaluate, effect, settle_accepted answered]
    exact ⟨⟨agreeing, rfl⟩, rfl⟩
  unfold readDatabase
  apply triple_then read
  intro record
  apply triple_from
  rintro w ⟨agreeing, stored⟩
  cases record with
  | none =>
    apply triple_done
    rintro _ rfl
    exact agreeing
  | some record =>
    have fits : cacheKey other name = cacheKey sessionId key → sole → ¬ False →
        db.value? sessionId key = some record.value := by
      intro same alone _
      obtain ⟨rfl, rfl⟩ := owns alone sessionId key ⟨rfl, rfl⟩ same.symm
      simp [Database.value?, ← stored]
    exact triple_at agreeing (fill_agreeing http fits (fun _ => id) (triple_done fun _ => id))

theorem readL2_agreeing {other name : String}
    (owns : sole → Owns (pair sessionId key) other name) :
    Triple (effect settings self) (FreshCall (cacheKey sessionId key))
      (AgreeingOver sessionId key sole False db) (readL2 settings.redis other name)
      (Returns fun _ => AgreeingOver sessionId key sole False db) := by
  unfold readL2
  apply triple_from
  rintro w ⟨agreeing, rfl⟩
  apply triple_then (safeL2Get_spec w _)
  intro l2Hit
  apply triple_from
  rintro world ⟨rfl, found⟩
  cases l2Hit with
  | none => exact triple_at ⟨agreeing, rfl⟩ (readDatabase_agreeing http owns)
  | some hit =>
    dsimp only
    apply triple_then (l1Set_spec world _ hit.value hit.version)
    intro _
    apply triple_done
    rintro _ ⟨cache, rfl, replaced⟩
    exact ⟨agreeing.copied (found hit rfl).2 replaced, rfl⟩

omit http in
theorem l1Get_agreeing (compositeKey : String) :
    Triple (effect settings self) (FreshCall (cacheKey sessionId key))
      (AgreeingOver sessionId key sole before db) (l1Get compositeKey)
      (Returns fun _ => AgreeingOver sessionId key sole before db) := by
  constructor
  rintro oracle w ⟨agreeing, rfl⟩ -
  exact ⟨agreeing.shrink (get_shrinks (w.l1 self) _ _), rfl⟩

omit http in
theorem l1Delete_agreeing (compositeKey : String) :
    Triple (effect settings self) (FreshCall (cacheKey sessionId key))
      (AgreeingOver sessionId key sole before db) (l1Delete compositeKey)
      (Returns fun _ => AgreeingOver sessionId key sole before db) := by
  constructor
  rintro oracle w ⟨agreeing, rfl⟩ -
  exact ⟨agreeing.shrink (delete_shrinks (w.l1 self) _), rfl⟩

theorem get_agreeing {other name : String} (owns : sole → Owns (pair sessionId key) other name) :
    Triple (effect settings self) (FreshCall (cacheKey sessionId key))
      (AgreeingOver sessionId key sole False db) (CacheManager.get settings.redis other name)
      (Returns fun _ => AgreeingOver sessionId key sole False db) := by
  have served : ∀ value : Option String, Triple (effect settings self)
      (FreshCall (cacheKey sessionId key)) (AgreeingOver sessionId key sole False db)
      (pure value : Program (Option String))
      (Returns fun _ => AgreeingOver sessionId key sole False db) :=
    fun _ => triple_done fun _ => id
  unfold CacheManager.get
  apply triple_then (l1Get_agreeing _)
  intro l1Hit
  cases l1Hit with
  | none => exact readL2_agreeing http owns
  | some hit =>
    dsimp only
    rw [if_pos http]
    apply triple_from
    intro w agreeing
    apply triple_then (safeL2Get_spec w _)
    intro l2Check
    apply triple_from
    rintro w ⟨rfl, -⟩
    apply triple_at agreeing
    cases l2Check with
    | none => exact served _
    | some check =>
      dsimp only
      split
      · exact triple_then (l1Delete_agreeing _) fun _ => readL2_agreeing http owns
      · exact served _

theorem backfill_agreeing {other : String} (records : List (String × SessionRecord))
    (recorded : sole → ∀ entry ∈ records,
      Owns (pair sessionId key) other entry.1 ∧ db.get other entry.1 = some entry.2)
    (result : InsertionMap String String) :
    Triple (effect settings self) (FreshCall (cacheKey sessionId key))
      (AgreeingOver sessionId key sole False db) (backfill settings.redis other records result)
      (Returns fun _ => AgreeingOver sessionId key sole False db) := by
  induction records generalizing result with
  | nil => exact triple_done fun _ => id
  | cons entry rest ih =>
    obtain ⟨name, record⟩ := entry
    have fits : cacheKey other name = cacheKey sessionId key → sole → ¬ False →
        db.value? sessionId key = some record.value := by
      intro same alone _
      obtain ⟨owned, stored⟩ := recorded alone (name, record) List.mem_cons_self
      obtain ⟨rfl, rfl⟩ := owned sessionId key ⟨rfl, rfl⟩ same.symm
      simp [Database.value?, stored]
    apply fill_agreeing http fits fun _ => id
    exact ih (fun alone entry inside => recorded alone entry (List.mem_cons_of_mem _ inside)) _

theorem getMany_agreeing {other : String} {names : List String}
    (owns : sole → ∀ name ∈ names, Owns (pair sessionId key) other name) :
    Triple (effect settings self) (FreshCall (cacheKey sessionId key))
      (AgreeingOver sessionId key sole False db) (getMany settings.redis other names)
      (Ends (AgreeingOver sessionId key sole False db) fun _ =>
        AgreeingOver sessionId key sole False db) := by
  unfold getMany
  apply triple_ends (lookupL1_asked (fun name => triple_anyhow (l1Get_agreeing _)) names .empty [])
  rintro ⟨result, misses⟩
  apply triple_from
  rintro w ⟨agreeing, asked⟩
  dsimp only at asked ⊢
  split
  · exact triple_at agreeing (triple_done fun _ => id)
  · apply triple_attempt agreeing (adapterGetMany_ends misses)
    intro records
    apply triple_from
    rintro w ⟨rfl, rfl⟩
    rw [agreeing.2]
    apply triple_at agreeing
    apply triple_anyhow
    apply backfill_agreeing http
    intro alone
    exact recorded_owned db fun name missed =>
      owns alone name ((asked name missed).resolve_left List.not_mem_nil)

theorem onWritten_agreeing {other name value : String} {version : Int}
    (fits : cacheKey other name = cacheKey sessionId key → sole → ¬ after →
      db.value? sessionId key = some value)
    (apart : cacheKey other name ≠ cacheKey sessionId key → before → after) :
    Triple (effect settings self) (FreshCall (cacheKey sessionId key))
      (AgreeingOver sessionId key sole before db)
      (onWritten settings.redis other name value version)
      (Returns fun _ => AgreeingOver sessionId key sole after db) := by
  unfold onWritten announceWritten publish
  rw [if_neg (by rw [http]; nofun)]
  exact fill_agreeing http fits apart (triple_done fun _ => id)

theorem onWrittenEach_agreeing {other : String} (entries : List Entry)
    (owns : sole → ∀ name ∈ entries.map Entry.key, Owns (pair sessionId key) other name)
    (stored : other = sessionId → key ∈ entries.map Entry.key →
      db.value? sessionId key = Database.written entries key) :
    Triple (effect settings self) (FreshCall (cacheKey sessionId key))
      (AgreeingOver sessionId key sole (other = sessionId ∧ key ∈ entries.map Entry.key) db)
      (onWrittenEach settings.redis other entries)
      (Returns fun _ => AgreeingOver sessionId key sole False db) := by
  induction entries with
  | nil =>
    apply triple_done
    rintro w ⟨agreeing, rows⟩
    exact ⟨⟨agreeing.same, agreeing.backed, fun alone _ => agreeing.current alone nofun⟩, rows⟩
  | cons entry rest ih =>
    have later := ih (fun alone name inside => owns alone name (List.mem_cons_of_mem _ inside))
      fun session inside => by
        rw [stored session (List.mem_cons_of_mem _ inside), Database.written_later inside]
    have fits : cacheKey other entry.key = cacheKey sessionId key → sole →
        ¬ (other = sessionId ∧ key ∈ rest.map Entry.key) →
          db.value? sessionId key = some entry.value := by
      intro same alone last
      obtain ⟨rfl, rfl⟩ := owns alone entry.key List.mem_cons_self sessionId key ⟨rfl, rfl⟩ same.symm
      rw [stored rfl List.mem_cons_self, Database.written_last fun again => last ⟨rfl, again⟩]
    have apart : cacheKey other entry.key ≠ cacheKey sessionId key →
        other = sessionId ∧ key ∈ (entry :: rest).map Entry.key →
          other = sessionId ∧ key ∈ rest.map Entry.key := by
      rintro different ⟨rfl, inside⟩
      rcases List.mem_cons.mp inside with rfl | later
      · exact absurd rfl different
      · exact ⟨rfl, later⟩
    rw [onWrittenEach]
    apply triple_then dateNow_spec
    intro version
    exact triple_then (onWritten_agreeing http fits apart) fun _ => later

theorem keysSet_agreeing {w : Cluster Instance} {other : String} {changes : KeysSet.Changes}
    (agreeing : Agreeing sessionId key sole False w) (kept : changes.deletions = [])
    (owns : sole → ∀ name ∈ changes.entries.map Entry.key, Owns (pair sessionId key) other name) :
    Triple (effect settings self) (FreshCall (cacheKey sessionId key)) (· = w)
      (keysSet settings.redis other changes)
      (Returns fun _ next => ∃ now, AgreeingOver sessionId key sole False
        (w.db.setMany settings.versioning now other changes.entries) next) := by
  have stored : ∀ now, other = sessionId → key ∈ changes.entries.map Entry.key →
      (w.db.setMany settings.versioning now other changes.entries).value? sessionId key =
        Database.written changes.entries key := by
    intro now session present
    have written := mt (Database.written_eq_none_iff changes.entries key).mp (not_not.mpr present)
    obtain ⟨value, found⟩ := Option.ne_none_iff_exists'.mp written
    rw [Database.value?_setMany, if_pos session.symm, found]
    rfl
  have waiting : ∀ now, AgreeingOver sessionId key sole
      (other = sessionId ∧ key ∈ changes.entries.map Entry.key)
      (w.db.setMany settings.versioning now other changes.entries)
      { w with db := w.db.setMany settings.versioning now other changes.entries } := by
    intro now
    refine ⟨⟨agreeing.same, agreeing.backed, ?_⟩, rfl⟩
    intro alone untouched check present
    rw [Database.value?_setMany]
    split
    · rename_i session
      have unwritten := (Database.written_eq_none_iff changes.entries key).mpr
        fun inside => untouched ⟨session.symm, inside⟩
      rw [unwritten]
      exact agreeing.current alone id check present
    · exact agreeing.current alone id check present
  unfold keysSet KeysSet.Changes.sections
  rw [kept]
  by_cases storing : changes.entries.length > 0
  · simp only [storing, if_true, List.length_nil, gt_iff_lt, Nat.lt_irrefl, if_false, List.append_nil,
      runSections, runSection]
    have tolerable : ∀ (world : Cluster Instance) call choice,
        FreshCall (cacheKey sessionId key) world call choice →
        Tolerable False world call choice :=
      fun world call choice fresh => accepted_tolerable world call choice fresh.1
    apply triple_then (triple_then ((adapterSetMany_spec w other changes.entries).stricter
      tolerable) fun _ => ?_) fun _ => triple_done fun _ => id
    apply triple_from
    rintro _ ⟨now, rfl⟩
    exact triple_consequence (triple_at (waiting now)
      (onWrittenEach_agreeing http changes.entries owns (stored now))) (fun _ same => same)
      fun _ _ after => ⟨now, after⟩
  · have empty : changes.entries = [] := List.length_eq_zero_iff.mp (Nat.eq_zero_of_not_pos storing)
    rw [empty]
    apply triple_done
    rintro _ rfl
    exact ⟨0, agreeing, rfl⟩

end Specs

def Operation.Keeps : Operation → Prop
  | .get _ _ | .getMany _ _ | .clearCache _ => True
  | .keysSet _ changes => changes.deletions = []
  | .deleteSession _ | .importSession _ _ => False

/-- It is about no other pair with the cache key of this one. -/
def Operation.Sole (sessionId key : String) : Operation → Prop
  | .get other name => Owns (pair sessionId key) other name
  | .getMany other names => ∀ name ∈ names, Owns (pair sessionId key) other name
  | .keysSet other changes =>
    ∀ name ∈ changes.entries.map Entry.key, Owns (pair sessionId key) other name
  | .deleteSession _ | .importSession _ _ | .clearCache _ => True

section Runs

variable (http : settings.redis = some .http)

include http

theorem operation_agreeing {operation : Operation} (keeps : operation.Keeps)
    (owned : sole → operation.Sole sessionId key) :
    Triple (effect settings self) (FreshCall (cacheKey sessionId key))
      (Agreeing sessionId key sole False) (operation.program settings.redis)
      (Ends (Agreeing sessionId key sole False) fun _ => Agreeing sessionId key sole False) := by
  apply triple_from
  intro w agreeing
  have unchanged : AgreeingOver sessionId key sole False w.db w := ⟨agreeing, rfl⟩
  cases operation with
  | get other name =>
    apply triple_anyhow
    exact triple_then (triple_at unchanged (get_agreeing http owned)) fun _ =>
      triple_done fun _ after => after.1
  | getMany other names =>
    apply triple_ends (triple_weaken (triple_at unchanged (getMany_agreeing http owned))
      (fun _ same => same) (fun _ left => left.1) fun _ _ after => after)
    exact fun _ => triple_done fun _ after => after.1
  | keysSet other changes =>
    apply triple_anyhow
    apply triple_consequence (keysSet_agreeing http agreeing keeps owned) (fun _ same => same)
    rintro - next ⟨now, after⟩
    exact after.1
  | clearCache other =>
    apply triple_anyhow
    apply triple_consequence (clearCache_spec w other) (fun _ same => same)
    rintro - _ ⟨cache, rfl, shrinks⟩
    exact agreeing.shrink shrinks
  | deleteSession | importSession => exact False.elim keeps

/-- Reads and writes that never fail, each giving L2 a version that no instance has another value
under, and what happens to the caches in between. -/
def Unreusing (settings : Settings) (sessionId key : String) (w : Cluster Instance) :
    Event Instance → Prop
  | .operate self operation oracle => operation.Keeps ∧
      Along (effect settings self) (FreshCall (cacheKey sessionId key))
        (operation.program settings.redis) oracle w
  | .loseL2 _ => False
  | .deliver _ _ | .sweepExpired _ _ | .evict _ _ | .restart _ => True

theorem step_agreeing {w next : Cluster Instance} {event : Event Instance}
    (unreusing : Unreusing settings sessionId key w event)
    (owned : sole → ∀ self operation oracle, event = .operate self operation oracle →
      operation.Sole sessionId key)
    (agreeing : Agreeing sessionId key sole False w) (taken : step settings w event = some next) :
    Agreeing sessionId key sole False next := by
  cases event with
  | operate self operation oracle =>
    cases taken
    exact triple_keeps (operation_agreeing http unreusing.1
      fun alone => owned alone self operation oracle rfl) agreeing unreusing.2
  | deliver subscriber name =>
    obtain ⟨-, rfl⟩ := deliver_taken taken
    have kept := agreeing.shrink (delete_shrinks (w.l1 subscriber) name)
    exact ⟨kept.same, kept.backed, kept.current⟩
  | sweepExpired self now =>
    cases taken
    exact agreeing.shrink (sweepExpired_shrinks _ now)
  | evict self name =>
    cases taken
    exact agreeing.shrink (delete_shrinks _ name)
  | loseL2 => exact False.elim unreusing
  | restart self =>
    cases taken
    have nothing : Shrinks (w.l1 self) (.new settings.memory) := by
      intro _ _ held
      cases held
    have kept := agreeing.shrink nothing
    exact ⟨kept.same, kept.backed, kept.current⟩

theorem run_agreeing {w final : Cluster Instance} {events : List (Event Instance)}
    (run : Run (step settings) (Unreusing settings sessionId key) w events final)
    (owned : sole → ∀ self operation oracle, .operate self operation oracle ∈ events →
      operation.Sole sessionId key)
    (agreeing : Agreeing sessionId key sole False w) : Agreeing sessionId key sole False final := by
  induction run with
  | nil => exact agreeing
  | cons permitted taken _ ih =>
    apply ih fun alone self operation oracle inside =>
      owned alone self operation oracle (List.mem_cons_of_mem _ inside)
    exact step_agreeing http permitted (fun alone self operation oracle same =>
      owned alone self operation oracle (same ▸ List.mem_cons_self)) agreeing taken

theorem Agreeing.read {w : Cluster Instance} (agreeing : Agreeing sessionId key sole False w)
    (alone : sole) (reader : Instance) {asked : Oracle Choice}
    (answered : ∀ index, (asked index).rejection = none) :
    (evaluate (effect settings reader) (CacheManager.get settings.redis sessionId key) asked
      w).result = .ok (w.db.value? sessionId key) := by
  rw [get_result http answered]
  congr 1
  cases looked : ((w.l1 reader).get (asked 0).dateNow (cacheKey sessionId key)).1 with
  | none =>
    cases present : w.l2.get? (cacheKey sessionId key) with
    | none => rfl
    | some check => exact (agreeing.current alone id check present).symm
  | some hit =>
    cases present : w.l2.get? (cacheKey sessionId key) with
    | none => exact absurd present (agreeing.backed reader hit (get_hit looked))
    | some check =>
      rw [agreeing.current alone id check present]
      simp only [httpAnswer]
      split
      · rfl
      · rename_i versions
        rw [agreeing.same reader hit check (get_hit looked) present (not_not.mp versions).symm]

end Runs

section UsedOnce

/-- The caches are given the version for this value of the key only. -/
def Assigned (valueOf : Int → String) (compositeKey : String) : Call → Prop
  | .l1Set key value version | .l2Set key value version =>
    key = compositeKey → valueOf version = value
  | _ => True

abbrev AssignedCall (valueOf : Int → String) (compositeKey : String) (w : Cluster Instance)
    (call : Call) (choice : Choice) : Prop :=
  Accepted w call choice ∧ Assigned valueOf compositeKey call

/-- Reads and writes that never fail and use no version for two values of the key, and what happens
to the caches in between. -/
def UsedOnce (settings : Settings) (valueOf : Int → String) (compositeKey : String)
    (w : Cluster Instance) : Event Instance → Prop
  | .operate self operation oracle => operation.Keeps ∧
      Along (effect settings self) (AssignedCall valueOf compositeKey)
        (operation.program settings.redis) oracle w
  | .loseL2 _ => False
  | .deliver _ _ | .sweepExpired _ _ | .evict _ _ | .restart _ => True

def Known (valueOf : Int → String) (compositeKey : String) (w : Cluster Instance) : Prop :=
  ∀ reader held, (w.l1 reader).peek compositeKey = some held → valueOf held.version = held.value

variable {valueOf : Int → String} {compositeKey : String} {w : Cluster Instance}

theorem Known.withL1 (known : Known valueOf compositeKey w) {cache : MemoryCache}
    (added : ∀ held, cache.peek compositeKey = some held →
      (w.l1 self).peek compositeKey = some held ∨ valueOf held.version = held.value) :
    Known valueOf compositeKey (w.withL1 self cache) := by
  intro reader held present
  rw [withL1_l1] at present
  split at present
  · exact (added held present).elim (known self held) id
  · exact known reader held present

theorem Known.shrink (known : Known valueOf compositeKey w) {cache : MemoryCache}
    (shrinks : Shrinks (w.l1 self) cache) : Known valueOf compositeKey (w.withL1 self cache) :=
  known.withL1 fun held present => .inl (shrinks _ held present)

theorem effect_known (call : Call) (choice : Choice) (known : Known valueOf compositeKey w)
    (assigned : Assigned valueOf compositeKey call) :
    Known valueOf compositeKey (effect settings self call choice w).2 := by
  cases call with
  | l1Get key => exact known.shrink (get_shrinks (w.l1 self) _ key)
  | l1Set key value version =>
    refine known.withL1 fun held present => ?_
    rcases set_held present with ⟨same, rfl⟩ | ⟨-, before⟩
    · exact .inr (assigned same.symm)
    · exact .inl before
  | l1Delete key => exact known.shrink (delete_shrinks (w.l1 self) key)
  | l1DeleteByPrefix start =>
    refine known.withL1 fun held present => .inl ?_
    rw [peek_deleteByPrefix] at present
    split at present
    · cases present
    · exact present
  | l1Clear =>
    refine known.withL1 fun held present => ?_
    rw [peek_clear] at present
    cases present
  | _ => exact known

omit [DecidableEq Instance] in
theorem fresh_of_known (known : Known valueOf compositeKey w) (call : Call)
    (assigned : Assigned valueOf compositeKey call) : Fresh compositeKey w call := by
  cases call with
  | l2Set key value version =>
    rintro rfl reader held present rfl
    rw [← known reader held present, assigned rfl]
  | _ => trivial

theorem step_known {next : Cluster Instance} {event : Event Instance}
    (known : Known valueOf (cacheKey sessionId key) w)
    (once : UsedOnce settings valueOf (cacheKey sessionId key) w event)
    (taken : step settings w event = some next) :
    Unreusing settings sessionId key w event ∧ Known valueOf (cacheKey sessionId key) next := by
  cases event with
  | operate self operation oracle =>
    cases taken
    obtain ⟨along, after⟩ := once.2.kept
      (fun _ call choice before fine => effect_known call choice before fine.2) known
    exact ⟨⟨once.1, along.mono fun _ call _ fine =>
      ⟨fine.1.1, fresh_of_known fine.2 call fine.1.2⟩⟩, after⟩
  | deliver subscriber name =>
    obtain ⟨-, rfl⟩ := deliver_taken taken
    exact ⟨trivial, known.shrink (delete_shrinks (w.l1 subscriber) name)⟩
  | sweepExpired self now =>
    cases taken
    exact ⟨trivial, known.shrink (sweepExpired_shrinks _ now)⟩
  | evict self name =>
    cases taken
    exact ⟨trivial, known.shrink (delete_shrinks _ name)⟩
  | loseL2 => exact False.elim once
  | restart self =>
    cases taken
    refine ⟨trivial, known.shrink fun _ _ held => ?_⟩
    cases held

/-- A run in which no version stands for two values of the key reuses none. -/
theorem used_once_unreusing (valueOf : Int → String) {db : Database}
    {events : List (Event Instance)} (run : Run (step settings)
      (UsedOnce settings valueOf (cacheKey sessionId key)) (Cluster.initial settings db) events w) :
    Run (step settings) (Unreusing settings sessionId key) (Cluster.initial settings db) events w := by
  have initially : Known valueOf (cacheKey sessionId key)
      (Cluster.initial settings db : Cluster Instance) := by
    intro _ _ held
    cases held
  generalize Cluster.initial settings db = start at run initially ⊢
  induction run with
  | nil => exact .nil _
  | cons permitted taken _ ih =>
    obtain ⟨unreusing, after⟩ := step_known initially permitted taken
    exact .cons unreusing taken (ih after)

end UsedOnce

/-- While L2 is never given a version under which an instance holds another value, equal versions
mean equal values; and while no other pair has the cache key, every instance reads what the last
completed write stored. -/
theorem equal_versions_equal_values (settings : Settings) (http : settings.redis = some .http)
    (db : Database) (sessionId key : String) (events : List (Event Instance))
    (w : Cluster Instance)
    (run : Run (step settings) (Unreusing settings sessionId key) (Cluster.initial settings db)
      events w) :
    (∀ reader hit check, (w.l1 reader).peek (cacheKey sessionId key) = some hit →
      w.l2.get? (cacheKey sessionId key) = some check → hit.version = check.version →
        hit.value = check.value) ∧
    ((∀ self operation oracle, .operate self operation oracle ∈ events →
        operation.Sole sessionId key) →
      (∀ reader asked, (∀ index, (asked index).rejection = none) →
        (evaluate (effect settings reader) (CacheManager.get settings.redis sessionId key) asked
          w).result = .ok (w.db.value? sessionId key)) ∧
      ∀ writer changes oracle value, changes.deletions = [] →
        Database.written changes.entries key = some value →
        Along (effect settings writer) (FreshCall (cacheKey sessionId key))
          (keysSet settings.redis sessionId changes) oracle w →
        ∀ reader asked, (∀ index, (asked index).rejection = none) →
          (evaluate (effect settings reader) (CacheManager.get settings.redis sessionId key) asked
            (evaluate (effect settings writer) (keysSet settings.redis sessionId changes) oracle
              w).world).result = .ok (some value)) := by
  constructor
  · have agreeing : Agreeing sessionId key False False w :=
      run_agreeing http run False.elim (initial_agreeing db)
    exact agreeing.same
  · intro owned
    have agreeing : Agreeing sessionId key True False w :=
      run_agreeing http run (fun _ => owned) (initial_agreeing db)
    refine ⟨fun reader asked answered => agreeing.read http trivial reader answered, ?_⟩
    intro writer changes oracle value kept written fresh reader asked answered
    have owns : True → ∀ name ∈ changes.entries.map Entry.key,
        Owns (pair sessionId key) sessionId name :=
      fun _ name _ other found inScope same => only_owns sessionId name other found inScope.1 same
    obtain ⟨_, -, now, after, rows⟩ := triple_returns
      (keysSet_agreeing http agreeing kept owns) rfl fresh
    rw [after.read http trivial reader answered, rows, Database.value?_setMany, if_pos rfl, written]
    rfl

def storedAt (now : Int) (value : String) : Event Bool :=
  .operate false (store "session-x" value) fun _ => ⟨now, none⟩

def rewrittenAt (first second : Int) : List (Event Bool) :=
  [storedAt first "1", .operate true (.get "bot" "session-x") quiet, storedAt second "2"]

theorem equal_versions_equal_values_rewritten :
    ∃ w, Run (step httpSettings) (Unreusing httpSettings "bot" "session-x")
        (Cluster.initial httpSettings .empty) (rewrittenAt 1 2) w ∧
      (evaluate (effect httpSettings true) (CacheManager.get httpSettings.redis "bot" "session-x")
        quiet w).result = .ok (some "2") := by
  have run : Run (step httpSettings) (Unreusing httpSettings "bot" "session-x")
      (Cluster.initial httpSettings .empty) (rewrittenAt 1 2) _ :=
    .cons ⟨rfl, by decide⟩ rfl (.cons ⟨trivial, by decide⟩ rfl
      (.cons ⟨rfl, by decide⟩ rfl (.nil _)))
  have sole : ∀ self operation oracle, .operate self operation oracle ∈ rewrittenAt 1 2 →
      operation.Sole "bot" "session-x" := by
    intro self operation oracle inside
    simp only [rewrittenAt, storedAt, store, List.mem_cons, Event.operate.injEq,
      List.not_mem_nil, or_false] at inside
    rcases inside with ⟨-, rfl, -⟩ | ⟨-, rfl, -⟩ | ⟨-, rfl, -⟩
    · exact List.forall_mem_singleton.mpr (pair_owns _ _)
    · exact pair_owns _ _
    · exact List.forall_mem_singleton.mpr (pair_owns _ _)
  exact ⟨_, run, ((equal_versions_equal_values httpSettings rfl .empty "bot" "session-x" _ _
    run).2 sole).1 true quiet fun _ => rfl⟩

theorem version_reused_in_one_millisecond :
    ∃ w, replay (step httpSettings) (Permitted httpSettings Plain Accepted)
        (Cluster.initial httpSettings .empty) (rewrittenAt 1 1) = some w ∧
      (w.l1 true).peek "bot:session-x" = some ⟨"1", 1⟩ ∧
      w.l2.get? "bot:session-x" = some ⟨"2", 1⟩ ∧
      (evaluate (effect httpSettings true) (CacheManager.get httpSettings.redis "bot" "session-x")
        quiet w).result = .ok (some "1") :=
  ⟨_, rfl, rfl, rfl, rfl⟩

end BaileysSession.CacheManager
