import BaileysSession.Cache.Footprints
import BaileysSession.Cache.SessionOperations

set_option autoImplicit false

namespace BaileysSession.SessionIsolation

open Async CacheManager MemoryCache Transition

inductive Operation where
  | get (sessionId key : String)
  | getMany (sessionId : String) (keys : List String)
  | onWritten (sessionId key value : String) (version : Int)
  | onDeleted (sessionId key : String)
  -- What the write paths call before: the adapter.
  | setMany (sessionId : String) (entries : List Entry)
  | deleteMany (sessionId : String) (keys : List String)

def Operation.program (redis : Option RedisMode) : Operation → Program Unit
  | .get sessionId key => do
    let _ ← CacheManager.get redis sessionId key
    pure ()
  | .getMany sessionId keys => do
    let _ ← CacheManager.getMany redis sessionId keys
    pure ()
  | .onWritten sessionId key value version => CacheManager.onWritten redis sessionId key value version
  | .onDeleted sessionId key => CacheManager.onDeleted redis sessionId key
  | .setMany sessionId entries => adapterSetMany sessionId entries
  | .deleteMany sessionId keys => adapterDeleteMany sessionId keys

def Operation.session : Operation → String
  | .get sessionId _ | .getMany sessionId _ | .onWritten sessionId _ _ _ | .onDeleted sessionId _
  | .setMany sessionId _ | .deleteMany sessionId _ => sessionId

inductive Event (Instance : Type) where
  | operate (self : Instance) (operation : Operation) (oracle : Oracle Choice)
  | deliver (subscriber : Instance) (key : String)
  | sweepExpired (self : Instance) (now : Int)
  | evict (self : Instance) (key : String)
  | loseL2 (key : String)
  | restart (self : Instance)

variable {Instance : Type} [DecidableEq Instance] {settings : Settings} {self : Instance}

def step (settings : Settings) : Step (Cluster Instance) (Event Instance) := fun w event =>
  match event with
  | .operate self operation oracle =>
    some (evaluate (effect settings self) (operation.program settings.redis) oracle w).world
  | .deliver subscriber key => CacheManager.step settings w (.deliver subscriber key)
  | .sweepExpired self now => CacheManager.step settings w (.sweepExpired self now)
  | .evict self key => CacheManager.step settings w (.evict self key)
  | .loseL2 key => CacheManager.step settings w (.loseL2 key)
  | .restart self => CacheManager.step settings w (.restart self)

section Provenance

abbrev Known := String → String → String → Prop

def Operation.Stores (sessionId key value : String) : Operation → Prop
  | .onWritten other name written _ => other = sessionId ∧ name = key ∧ written = value
  | .setMany other entries => other = sessionId ∧ ⟨key, value⟩ ∈ entries
  | .get _ _ | .getMany _ _ | .onDeleted _ _ | .deleteMany _ _ => False

def Event.Stores (sessionId key value : String) : Event Instance → Prop
  | .operate _ operation _ => operation.Stores sessionId key value
  | .deliver _ _ | .sweepExpired _ _ | .evict _ _ | .loseL2 _ | .restart _ => False

/-- The value is in the database from the start, or some event stores it for the pair. -/
def Stored (db : Database) (events : List (Event Instance)) : Known := fun sessionId key value =>
  db.value? sessionId key = some value ∨ ∃ event ∈ events, event.Stores sessionId key value

/-- The value is known for a pair with this cache key. -/
def Named (known : Known) (compositeKey value : String) : Prop :=
  ∃ sessionId key, cacheKey sessionId key = compositeKey ∧ known sessionId key value

/-- Whatever is held anywhere is known for a pair it is held for. -/
structure Sourced (known : Known) (w : Cluster Instance) : Prop where
  l1 : ∀ reader compositeKey held, (w.l1 reader).peek compositeKey = some held →
    Named known compositeKey held.value
  l2 : ∀ compositeKey held, w.l2.get? compositeKey = some held → Named known compositeKey held.value
  db : ∀ sessionId key value, w.db.value? sessionId key = some value → known sessionId key value

def Sound (known : Known) : Call → Prop
  | .l1Set compositeKey value _ | .l2Set compositeKey value _ => Named known compositeKey value
  | .dbSetMany sessionId entries => ∀ entry ∈ entries, known sessionId entry.key entry.value
  | _ => True

variable {known : Known}

theorem Sourced.shrink {w : Cluster Instance} (sourced : Sourced known w) {cache : MemoryCache}
    (shrinks : Shrinks (w.l1 self) cache) : Sourced known (w.withL1 self cache) := by
  refine ⟨?_, sourced.l2, sourced.db⟩
  intro reader compositeKey held present
  rw [withL1_l1] at present
  split at present
  · exact sourced.l1 self compositeKey held (shrinks _ held present)
  · exact sourced.l1 reader compositeKey held present

theorem effect_sourced (call : Call) (choice : Choice) (w : Cluster Instance)
    (sound : Sound known call) (sourced : Sourced known w) :
    Sourced known (effect settings self call choice w).2 := by
  cases call with
  | l1Get compositeKey => exact sourced.shrink (get_shrinks _ _ _)
  | l1Delete compositeKey => exact sourced.shrink (delete_shrinks _ _)
  | l1DeleteByPrefix start => exact sourced.shrink (deleteByPrefix_shrinks _ _)
  | l1Clear => exact sourced.shrink nofun
  | l1Set compositeKey value version =>
    refine ⟨?_, sourced.l2, sourced.db⟩
    intro reader other held present
    simp only [effect, withL1_l1] at present
    split at present
    · rcases set_held present with ⟨rfl, rfl⟩ | ⟨-, before⟩
      · exact sound
      · exact sourced.l1 self other held before
    · exact sourced.l1 reader other held present
  | l2Set compositeKey value version =>
    refine ⟨sourced.l1, ?_, sourced.db⟩
    intro other held present
    simp only [effect] at present
    split at present
    · rw [InsertionMap.get?_set] at present
      split at present
      · rename_i same
        cases present
        exact same ▸ sound
      · exact sourced.l2 other held present
    · exact sourced.l2 other held present
  | l2Del compositeKey =>
    refine ⟨sourced.l1, ?_, sourced.db⟩
    intro other held present
    simp only [effect] at present
    split at present
    · rw [InsertionMap.get?_erase] at present
      split at present
      · cases present
      · exact sourced.l2 other held present
    · exact sourced.l2 other held present
  | dbSetMany other entries =>
    refine ⟨sourced.l1, sourced.l2, ?_⟩
    intro sessionId key value present
    simp only [effect, Database.value?_setMany] at present
    split at present
    · rename_i same
      rcases Option.or_eq_some_iff.mp present with written | ⟨-, before⟩
      · exact same ▸ sound _ (List.mem_filter.mp (Database.written_mem written)).1
      · exact sourced.db sessionId key value before
    · exact sourced.db sessionId key value present
  | dbDeleteMany other keys =>
    refine ⟨sourced.l1, sourced.l2, ?_⟩
    intro sessionId key value present
    simp only [effect, Database.value?_deleteMany] at present
    split at present
    · cases present
    · exact sourced.db sessionId key value present
  | dbDeleteSession other =>
    refine ⟨sourced.l1, sourced.l2, ?_⟩
    intro sessionId key value present
    simp only [effect] at present
    split at present
    · rw [Database.value?_deleteSession] at present
      split at present
      · cases present
      · exact sourced.db sessionId key value present
    · rw [Database.value?_deleteMany] at present
      split at present
      · cases present
      · exact sourced.db sessionId key value present
  | publishInvalidation => exact ⟨sourced.l1, sourced.l2, sourced.db⟩
  | dateNow | l2Get | dbGet | dbGetMany | dbGetAllKeys => exact sourced

variable {ok : Cluster Instance → Call → Choice → Prop}

theorem sound_only {Result : Type} {program : Program Result} (sound : program.Only (Sound known)) :
    Triple (effect settings self) ok (Sourced known) program
      (Ends (Sourced known) fun _ => Sourced known) :=
  triple_kept fun oracle _ sourced => evaluate_invariant effect_sourced sound oracle sourced

def Answers (known : Known) (compositeKey : String) (result : Option String)
    (w : Cluster Instance) : Prop :=
  Sourced known w ∧ ∀ value, result = some value → Named known compositeKey value

theorem served_answers {compositeKey value : String} (named : Named known compositeKey value) :
    Triple (effect settings self) ok (Sourced known) (pure (some value) : Program (Option String))
      (Ends (Sourced known) (Answers known compositeKey)) := by
  apply triple_done
  rintro w sourced
  refine ⟨sourced, ?_⟩
  rintro _ ⟨⟩
  exact named

theorem readDatabase_answers (sessionId key : String) :
    Triple (effect settings self) ok (Sourced known) (readDatabase settings.redis sessionId key)
      (Ends (Sourced known) (Answers known (cacheKey sessionId key))) := by
  apply triple_from
  intro w sourced
  apply triple_attempt sourced (adapterGet_ends key)
  intro record
  apply triple_from
  rintro w ⟨rfl, stored⟩
  apply triple_at sourced
  cases record with
  | none => exact triple_done fun _ kept => ⟨kept, nofun⟩
  | some record =>
    have named : Named known (cacheKey sessionId key) record.value :=
      ⟨sessionId, key, rfl, sourced.db _ _ _ (by simp [Database.value?, ← stored])⟩
    have caching : (l1Set (cacheKey sessionId key) record.value record.version).Only
        (Sound known) := ⟨named, fun _ => trivial⟩
    apply triple_ends (sound_only caching)
    intro _
    apply triple_ends (sound_only (safeL2Set_only named))
    exact fun _ => served_answers named

theorem readL2_answers (sessionId key : String) :
    Triple (effect settings self) ok (Sourced known) (readL2 settings.redis sessionId key)
      (Ends (Sourced known) (Answers known (cacheKey sessionId key))) := by
  unfold readL2
  apply triple_from
  intro w sourced
  apply triple_ends (triple_anyhow (safeL2Get_spec w _))
  intro l2Hit
  apply triple_from
  rintro w ⟨rfl, found⟩
  apply triple_at sourced
  cases l2Hit with
  | none => exact readDatabase_answers sessionId key
  | some hit =>
    have named := sourced.l2 _ hit (found hit rfl).2
    have caching : (l1Set (cacheKey sessionId key) hit.value hit.version).Only (Sound known) :=
      ⟨named, fun _ => trivial⟩
    exact triple_ends (sound_only caching) fun _ => served_answers named

theorem l1Get_answers (compositeKey : String) :
    Triple (effect settings self) ok (Sourced known) (l1Get compositeKey)
      (Ends (Sourced known) fun hit w => Sourced known w ∧
        ∀ held, hit = some held → Named known compositeKey held.value) := by
  constructor
  intro oracle w sourced _
  exact ⟨sourced.shrink (get_shrinks _ _ _), fun held hit => sourced.l1 self _ held (get_hit hit)⟩

theorem get_answers (sessionId key : String) :
    Triple (effect settings self) ok (Sourced known) (CacheManager.get settings.redis sessionId key)
      (Ends (Sourced known) (Answers known (cacheKey sessionId key))) := by
  have check : (safeL2Get settings.redis (cacheKey sessionId key)).Only (Sound known) :=
    safeL2Get_only trivial
  have drop : (l1Delete (cacheKey sessionId key)).Only (Sound known) :=
    ⟨trivial, fun _ => trivial⟩
  unfold CacheManager.get
  apply triple_ends (l1Get_answers _)
  intro l1Hit
  apply triple_from
  rintro w ⟨sourced, held⟩
  apply triple_at sourced
  cases l1Hit with
  | none => exact readL2_answers sessionId key
  | some hit =>
    have named := held hit rfl
    dsimp only
    split
    · apply triple_ends (sound_only check)
      intro l2Check
      cases l2Check with
      | none => exact served_answers named
      | some check =>
        dsimp only
        split
        · exact triple_ends (sound_only drop) fun _ => readL2_answers sessionId key
        · exact served_answers named
    · exact served_answers named

theorem getMany_sourced (sessionId : String) (keys : List String) :
    Triple (effect settings self) ok (Sourced known) (getMany settings.redis sessionId keys)
      (Ends (Sourced known) fun _ => Sourced known) := by
  unfold getMany
  apply triple_ends (sound_only (lookupL1_only (fun _ => trivial) keys .empty []))
  rintro ⟨result, misses⟩
  dsimp only
  split
  · exact sound_only trivial
  · apply triple_from
    intro w sourced
    apply triple_attempt sourced (adapterGetMany_ends misses)
    intro records
    apply triple_from
    rintro w ⟨rfl, rfl⟩
    apply triple_at sourced
    apply sound_only
    apply backfill_only
    rintro ⟨key, record⟩ inside
    have stored := (InsertionMap.get?_eq_some_iff _ _ _).mpr inside
    rw [Database.get?_getMany] at stored
    split at stored
    · have named : Named known (cacheKey sessionId key) record.value :=
        ⟨sessionId, key, rfl, sourced.db _ _ _ (by simp [Database.value?, stored])⟩
      exact ⟨named, named⟩
    · cases stored

theorem operation_sourced {operation : Operation}
    (recorded : ∀ sessionId key value, operation.Stores sessionId key value →
      known sessionId key value) :
    Triple (effect settings self) ok (Sourced known) (operation.program settings.redis)
      (Ends (Sourced known) fun _ => Sourced known) := by
  cases operation with
  | get sessionId key =>
    exact triple_ends (triple_weaken (get_answers sessionId key) (fun _ same => same)
      (fun _ left => left) fun _ _ answers => answers.1) fun _ => sound_only trivial
  | getMany sessionId keys =>
    exact triple_ends (getMany_sourced sessionId keys) fun _ => sound_only trivial
  | onWritten sessionId key value version =>
    have named : Named known (cacheKey sessionId key) value :=
      ⟨sessionId, key, rfl, recorded _ _ _ ⟨rfl, rfl, rfl⟩⟩
    exact sound_only (onWritten_only named named trivial)
  | onDeleted sessionId key => exact sound_only (onDeleted_only trivial trivial trivial)
  | setMany sessionId entries =>
    exact sound_only ⟨fun entry inside => recorded _ _ _ ⟨rfl, inside⟩, settle_only⟩
  | deleteMany sessionId keys => exact sound_only ⟨trivial, settle_only⟩

theorem step_sourced {w next : Cluster Instance} {event : Event Instance}
    (recorded : ∀ sessionId key value, event.Stores sessionId key value →
      known sessionId key value)
    (sourced : Sourced known w) (taken : step settings w event = some next) :
    Sourced known next := by
  cases event with
  | operate self operation oracle =>
    cases taken
    exact triple_keeps (operation_sourced recorded) sourced (along_always (effect settings self) _ _ w)
  | deliver subscriber key =>
    obtain ⟨-, rfl⟩ := @deliver_taken _ _ settings _ _ _ _ taken
    have kept := sourced.shrink (delete_shrinks (w.l1 subscriber) key)
    exact ⟨kept.l1, kept.l2, kept.db⟩
  | sweepExpired self now =>
    cases taken
    exact sourced.shrink (sweepExpired_shrinks _ now)
  | evict self key =>
    cases taken
    exact sourced.shrink (delete_shrinks _ key)
  | loseL2 key =>
    cases taken
    refine ⟨sourced.l1, ?_, sourced.db⟩
    intro other held present
    rw [InsertionMap.get?_erase] at present
    split at present
    · cases present
    · exact sourced.l2 other held present
  | restart self =>
    cases taken
    have lost : Shrinks (w.l1 self) (.new settings.memory) := by
      rintro _ _ ⟨⟩
    have kept := sourced.shrink lost
    exact ⟨kept.l1, kept.l2, kept.db⟩

theorem run_sourced {allowed : Cluster Instance → Event Instance → Prop}
    {w final : Cluster Instance} {events : List (Event Instance)}
    (run : Run (step settings) allowed w events final)
    (recorded : ∀ event ∈ events, ∀ sessionId key value, event.Stores sessionId key value →
      known sessionId key value)
    (sourced : Sourced known w) : Sourced known final := by
  induction run with
  | nil => exact sourced
  | cons _ taken _ ih =>
    apply ih fun event inside => recorded event (List.mem_cons_of_mem _ inside)
    exact step_sourced (recorded _ List.mem_cons_self) sourced taken

omit [DecidableEq Instance] in
theorem initial_sourced (db : Database) (events : List (Event Instance)) :
    Sourced (Stored db events) (Cluster.initial settings db : Cluster Instance) := by
  constructor
  · intro _ _ _ held
    cases held
  · intro _ _ held
    cases held
  · exact fun _ _ _ present => .inl present

end Provenance

section Frame

variable {sessionId key : String}

/-- What a read of the pair depends on is as it was, but that the reader may have lost its
L1 entry. -/
structure Unseen (reader : Instance) (sessionId key : String) (before after : Cluster Instance) :
    Prop where
  l1 : KeptOrGone (before.l1 reader) (after.l1 reader) (cacheKey sessionId key)
  l2 : after.l2.get? (cacheKey sessionId key) = before.l2.get? (cacheKey sessionId key)
  db : after.db.get sessionId key = before.db.get sessionId key

def Foreign (sessionId key : String) : Call → Prop
  | .l1Get compositeKey | .l1Set compositeKey _ _ | .l1Delete compositeKey | .l2Get compositeKey
  | .l2Set compositeKey _ _ | .l2Del compositeKey => compositeKey ≠ cacheKey sessionId key
  | .dbSetMany other _ | .dbDeleteMany other _ | .dbDeleteSession other => other ≠ sessionId
  | .l1DeleteByPrefix _ | .l1Clear => False
  | .dateNow | .publishInvalidation _ | .dbGet _ _ | .dbGetMany _ _ | .dbGetAllKeys _ => True

omit [DecidableEq Instance] in
theorem unseen_refl (reader : Instance) (w : Cluster Instance) :
    Unseen reader sessionId key w w :=
  ⟨.inl rfl, rfl, rfl⟩

theorem Unseen.withL1 {reader : Instance} {before w : Cluster Instance}
    (unseen : Unseen reader sessionId key before w) {cache : MemoryCache}
    (kept : KeptOrGone (w.l1 self) cache (cacheKey sessionId key)) :
    Unseen reader sessionId key before (w.withL1 self cache) := by
  refine ⟨?_, unseen.l2, unseen.db⟩
  rw [withL1_l1]
  split
  · rename_i here
    exact unseen.l1.trans (here ▸ kept)
  · exact unseen.l1

theorem effect_unseen {reader : Instance} {before : Cluster Instance} (call : Call)
    (choice : Choice) (w : Cluster Instance) (foreign : Foreign sessionId key call)
    (unseen : Unseen reader sessionId key before w) :
    Unseen reader sessionId key before (effect settings self call choice w).2 := by
  cases call with
  | l1Get compositeKey =>
    exact unseen.withL1 (.inl (store_get_other _ _ fun same => foreign same.symm))
  | l1Set compositeKey value version =>
    exact unseen.withL1 (set_keptOrGone _ _ value version fun same => foreign same.symm)
  | l1Delete compositeKey => exact unseen.withL1 (delete_keptOrGone _ _ _)
  | l1DeleteByPrefix | l1Clear => exact False.elim foreign
  | l2Set compositeKey value version =>
    refine ⟨unseen.l1, ?_, unseen.db⟩
    simp only [effect]
    split
    · rw [InsertionMap.get?_set, if_neg fun same => foreign same.symm]
      exact unseen.l2
    · exact unseen.l2
  | l2Del compositeKey =>
    refine ⟨unseen.l1, ?_, unseen.db⟩
    simp only [effect]
    split
    · rw [InsertionMap.get?_erase, if_neg fun same => foreign same.symm]
      exact unseen.l2
    · exact unseen.l2
  | dbSetMany other entries =>
    refine ⟨unseen.l1, unseen.l2, ?_⟩
    simp only [effect]
    rw [Database.get_setMany_other _ _ _ fun same => foreign same.symm]
    exact unseen.db
  | dbDeleteMany other keys =>
    refine ⟨unseen.l1, unseen.l2, ?_⟩
    simp only [effect]
    rw [Database.get_deleteMany, if_neg fun same => foreign same.1.symm]
    exact unseen.db
  | dbDeleteSession other =>
    refine ⟨unseen.l1, unseen.l2, ?_⟩
    simp only [effect]
    split
    · rw [Database.get_deleteSession, if_neg fun same => foreign same.symm]
      exact unseen.db
    · rw [Database.get_deleteMany, if_neg fun same => foreign same.1.symm]
      exact unseen.db
  | publishInvalidation => exact ⟨unseen.l1, unseen.l2, unseen.db⟩
  | dateNow | l2Get | dbGet | dbGetMany | dbGetAllKeys => exact unseen

theorem operation_foreign {redis : Option RedisMode} {operation : Operation}
    (different : operation.session ≠ sessionId)
    (apart : ∀ name, cacheKey operation.session name ≠ cacheKey sessionId key) :
    (operation.program redis).Only (Foreign sessionId key) := by
  have readable : ∀ name, Readable (Foreign sessionId key) operation.session name :=
    fun name => ⟨fun _ _ => apart name, apart name, apart name, fun _ _ => apart name, trivial⟩
  cases operation with
  | get other name => exact only_bind (get_only (readable name) (apart name)) fun _ => trivial
  | getMany other names =>
    exact only_bind (getMany_only apart readable (fun _ => trivial) names) fun _ => trivial
  | onWritten other name value version => exact onWritten_only (apart name) (apart name) trivial
  | onDeleted other name => exact onDeleted_only (apart name) (apart name) trivial
  | setMany other entries => exact ⟨different, settle_only⟩
  | deleteMany other names => exact ⟨different, settle_only⟩

def Event.About (sessionId : String) : Event Instance → Prop
  | .operate _ operation _ => operation.session = sessionId
  | .deliver _ compositeKey => ∃ key, compositeKey = cacheKey sessionId key
  | .sweepExpired _ _ | .evict _ _ | .loseL2 _ | .restart _ => False

theorem run_unseen {other : String} (different : other ≠ sessionId)
    (apart : ∀ name, cacheKey other name ≠ cacheKey sessionId key) (reader : Instance)
    {w next : Cluster Instance} {events : List (Event Instance)}
    (run : Run (step settings) (fun _ event => event.About other) w events next) :
    Unseen reader sessionId key w next := by
  apply run.invariant (Unseen reader sessionId key w) _ (unseen_refl reader w)
  intro before event after unseen about taken
  cases event with
  | operate self operation oracle =>
    cases taken
    have session : operation.session = other := about
    subst session
    exact evaluate_invariant effect_unseen (operation_foreign different apart) oracle unseen
  | deliver subscriber compositeKey =>
    obtain ⟨-, rfl⟩ := @deliver_taken _ _ settings _ _ _ _ taken
    have kept := unseen.withL1 (delete_keptOrGone (before.l1 subscriber) compositeKey _)
    exact ⟨kept.l1, kept.l2, kept.db⟩
  | sweepExpired | evict | loseL2 | restart => exact False.elim about

def AsksOnly (sessionId key : String) : Call → Prop
  | .l2Get compositeKey | .l2Set compositeKey _ _ => compositeKey = cacheKey sessionId key
  | .dbGet other name => other = sessionId ∧ name = key
  | .l1Set _ _ _ | .l1Delete _ => True
  | _ => False

def Alike (sessionId key : String) (first second : Cluster Instance) : Prop :=
  first.l2.get? (cacheKey sessionId key) = second.l2.get? (cacheKey sessionId key) ∧
    first.db.get sessionId key = second.db.get sessionId key

theorem effect_alike (call : Call) (choice : Choice) (first second : Cluster Instance)
    (asks : AsksOnly sessionId key call) (alike : Alike sessionId key first second) :
    (effect settings self call choice first).1 = (effect settings self call choice second).1 ∧
      Alike sessionId key (effect settings self call choice first).2
        (effect settings self call choice second).2 := by
  obtain ⟨l2, db⟩ := alike
  cases call with
  | l1Set | l1Delete => exact ⟨rfl, l2, db⟩
  | l2Get compositeKey =>
    obtain rfl : compositeKey = _ := asks
    exact ⟨congrArg choice.answer l2, l2, db⟩
  | l2Set compositeKey value version =>
    obtain rfl : compositeKey = _ := asks
    refine ⟨rfl, ?_, db⟩
    simp only [effect]
    split
    · simp
    · exact l2
  | dbGet other name =>
    obtain ⟨rfl, rfl⟩ := asks
    exact ⟨congrArg choice.answer db, l2, db⟩
  | _ => exact False.elim asks

abbrev read (settings : Settings) (reader : Instance) (sessionId key : String)
    (asked : Oracle Choice) (w : Cluster Instance) : Except String (Option String) :=
  (evaluate (effect settings reader) (CacheManager.get settings.redis sessionId key) asked w).result

theorem read_agrees {reader : Instance} {first second : Cluster Instance} (asked : Oracle Choice)
    (l1 : (first.l1 reader).store.get? (cacheKey sessionId key) =
      (second.l1 reader).store.get? (cacheKey sessionId key))
    (alike : Alike sessionId key first second) :
    read settings reader sessionId key asked first =
      read settings reader sessionId key asked second := by
  have readable : Readable (AsksOnly sessionId key) sessionId key :=
    ⟨fun _ _ => trivial, trivial, rfl, fun _ _ => rfl, ⟨rfl, rfl⟩⟩
  have hits := get_eq_of_store (asked 0).dateNow l1
  unfold read
  rw [get_afterL1, evaluate_bind, evaluate_bind]
  simp only [l1Get, perform, evaluate, effect, hits]
  exact evaluate_agrees effect_alike (afterL1_only readable _) asked.later alike

def evicted (reader : Instance) (sessionId key : String) (w : Cluster Instance) :
    Cluster Instance :=
  w.withL1 reader ((w.l1 reader).delete (cacheKey sessionId key))

theorem Unseen.read {reader : Instance} {before after : Cluster Instance}
    (unseen : Unseen reader sessionId key before after) (asked : Oracle Choice) :
    SessionIsolation.read settings reader sessionId key asked after =
        SessionIsolation.read settings reader sessionId key asked before ∨
      SessionIsolation.read settings reader sessionId key asked after =
        SessionIsolation.read settings reader sessionId key asked
          (evicted reader sessionId key before) := by
  rcases unseen.l1 with kept | gone
  · exact .inl (read_agrees asked kept ⟨unseen.l2, unseen.db⟩)
  · right
    have alike : Alike sessionId key after (evicted reader sessionId key before) :=
      ⟨unseen.l2, unseen.db⟩
    apply read_agrees asked _ alike
    rw [gone, evicted, withL1_l1, if_pos rfl, store_delete_self]

end Frame

section Collisions

theorem cacheKey_collides {sessionId other : String} (different : sessionId ≠ other) :
    (∃ key name, cacheKey other name = cacheKey sessionId key) ↔
      Text.startsWith other (sessionId ++ ":") = true ∨
        Text.startsWith sessionId (other ++ ":") = true := by
  constructor
  · rintro ⟨key, name, same⟩
    have lists := congrArg String.toList same
    rw [cacheKey_toList, cacheKey_toList] at lists
    have separated : ∀ (first second : String) (rest more tail : List Char), first ≠ second →
        second.toList = first.toList ++ tail → ':' :: rest = tail ++ ':' :: more →
          Text.startsWith second (first ++ ":") = true := by
      intro first second rest more tail apart longer tails
      cases tail with
      | nil => exact absurd (String.toList_inj.mp (by simpa using longer.symm)) apart
      | cons head tail =>
        rw [List.cons_append, List.cons.injEq] at tails
        refine (Text.startsWith_iff _ _).mpr ⟨String.ofList tail, String.toList_inj.mp ?_⟩
        simp [String.toList_append, longer, ← tails.1]
    rcases List.append_eq_append_iff.mp lists with ⟨tail, longer, tails⟩ | ⟨tail, longer, tails⟩
    · exact .inr (separated other sessionId _ _ tail different.symm longer tails)
    · exact .inl (separated sessionId other _ _ tail different longer tails)
  · rintro (nested | nested)
    · obtain ⟨rest, rfl⟩ := (Text.startsWith_iff _ _).mp nested
      refine ⟨rest ++ ":", "", ?_⟩
      simp [cacheKey, String.append_assoc]
    · obtain ⟨rest, rfl⟩ := (Text.startsWith_iff _ _).mp nested
      refine ⟨"", rest ++ ":", ?_⟩
      simp [cacheKey, String.append_assoc]

def plainSettings : Settings where
  memory := ⟨none, none, none⟩
  redis := none
  versioning := fun version => version.getD 0 + 1

def cachedFor (sessionId key : String) : Cluster Unit :=
  (Cluster.initial plainSettings .empty).withL1 ()
    ((MemoryCache.new plainSettings.memory).set 0 (cacheKey sessionId key) "v" 1)

def calm : Oracle Choice := fun _ => ⟨0, none⟩

theorem cachedFor_run (sessionId key : String) :
    Run (step plainSettings) anything (Cluster.initial plainSettings .empty)
      [.operate () (.onWritten sessionId key "v" 1) calm] (cachedFor sessionId key) :=
  .cons trivial rfl (.nil _)

theorem read_cachedFor {sessionId other key name : String}
    (same : cacheKey other name = cacheKey sessionId key) :
    read plainSettings () sessionId key calm (cachedFor other name) = .ok (some "v") := by
  have hit : (((cachedFor other name).l1 ()).get 0 (cacheKey sessionId key)).1 =
      some ⟨"v", 1⟩ := by
    simp only [cachedFor, withL1_l1, if_true, ← same]
    generalize cacheKey other name = compositeKey
    have shape : (MemoryCache.new plainSettings.memory).set 0 compositeKey "v" 1 =
        { MemoryCache.new plainSettings.memory with
          store := InsertionMap.empty.set compositeKey ⟨"v", 1, 30000, 1⟩
          currentBytes := 1 } := rfl
    rw [shape]
    simp [MemoryCache.get]
  unfold read
  rw [get_afterL1, evaluate_bind]
  simp only [l1Get, perform, evaluate, effect, calm, hit]
  rfl

end Collisions

/-- A read on the first session never gives a value that was only ever stored for the second, and
operations on the second change what it gives at most by evicting the reader's L1 entry. -/
structure Isolated (sessionId other : String) : Prop where
  provenance : ∀ (Instance : Type) [DecidableEq Instance] (settings : Settings) (db : Database)
    (events : List (Event Instance)) (w : Cluster Instance),
    Run (step settings) anything (Cluster.initial settings db) events w →
      ∀ reader key asked value,
        read settings reader sessionId key asked w = .ok (some value) →
          ∃ owner name, owner ≠ other ∧ Stored db events owner name value
  frame : ∀ (Instance : Type) [DecidableEq Instance] (settings : Settings)
    (events : List (Event Instance)) (w next : Cluster Instance),
    Run (step settings) (fun _ event => event.About other) w events next →
      ∀ reader key asked,
        read settings reader sessionId key asked next = read settings reader sessionId key asked w ∨
          read settings reader sessionId key asked next =
            read settings reader sessionId key asked (evicted reader sessionId key w)

theorem isolated_iff (sessionId other : String) (different : sessionId ≠ other) :
    Isolated sessionId other ↔ ¬ Text.startsWith other (sessionId ++ ":") = true ∧
      ¬ Text.startsWith sessionId (other ++ ":") = true := by
  rw [← not_or, ← cacheKey_collides different]
  constructor
  · rintro isolated ⟨key, name, same⟩
    obtain ⟨owner, held, apart, stored | ⟨event, inside, stores⟩⟩ := isolated.provenance Unit
      plainSettings .empty _ _ (cachedFor_run other name) () key calm "v" (read_cachedFor same)
    · cases stored
    · rw [List.mem_singleton] at inside
      rw [inside] at stores
      exact apart stores.1.symm
  · intro apart
    have distinct : ∀ key name, cacheKey other name ≠ cacheKey sessionId key :=
      fun key name same => apart ⟨key, name, same⟩
    constructor
    · intro Instance _ settings db events w run reader key asked value found
      have recorded : ∀ event ∈ events, ∀ sessionId key value, event.Stores sessionId key value →
          Stored db events sessionId key value :=
        fun event inside _ _ _ stores => .inr ⟨event, inside, stores⟩
      have sourced := run_sourced run recorded (initial_sourced db events)
      obtain ⟨owner, name, same, stored⟩ := ((triple_ending (get_answers sessionId key) sourced
        (along_always (effect settings reader) _ asked w)).1 _ found).2 value rfl
      refine ⟨owner, name, ?_, stored⟩
      rintro rfl
      exact distinct key name same
    · intro Instance _ settings events w next run reader key asked
      exact (run_unseen different.symm (distinct key) reader run).read asked

theorem isolated_bots : Isolated "bot-1" "bot-2" :=
  (isolated_iff "bot-1" "bot-2" (by decide)).mpr ⟨by decide, by decide⟩

theorem other_session_read :
    Run (step plainSettings) anything (Cluster.initial plainSettings .empty)
        [.operate () (.onWritten "bot:1" "session-x" "v" 1) calm] (cachedFor "bot:1" "session-x") ∧
      (∀ owner name, Stored .empty [.operate () (.onWritten "bot:1" "session-x" "v" 1) calm] owner
        name "v" → owner = "bot:1" ∧ name = "session-x") ∧
      read plainSettings () "bot" "1:session-x" calm (cachedFor "bot:1" "session-x") =
        .ok (some "v") := by
  refine ⟨cachedFor_run _ _, ?_, rfl⟩
  rintro owner name (stored | ⟨event, inside, stores⟩)
  · cases stored
  · rw [List.mem_singleton] at inside
    rw [inside] at stores
    exact ⟨stores.1.symm, stores.2.1.symm⟩

end BaileysSession.SessionIsolation
