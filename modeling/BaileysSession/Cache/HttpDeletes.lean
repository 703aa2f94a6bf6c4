import BaileysSession.Cache.Footprints
import BaileysSession.Cache.HttpReads
import BaileysSession.Cache.SessionOperations
import BaileysSession.Cache.TcpCoherence

set_option autoImplicit false

namespace BaileysSession.CacheManager

open Async MemoryCache Transition

variable {Instance : Type} [DecidableEq Instance] {settings : Settings} {self : Instance}
  {sessionId key : String}

def Operation.Stores (sessionId key : String) : Operation → Prop
  | .keysSet other changes => other = sessionId ∧ key ∈ changes.entries.map Entry.key
  | .importSession other data => other = sessionId ∧ key ∈ data.keys
  | .get _ _ | .getMany _ _ | .deleteSession _ | .clearCache _ => False

instance (sessionId key : String) (operation : Operation) :
    Decidable (operation.Stores sessionId key) :=
  match operation with
  | .keysSet _ _ | .importSession _ _ => inferInstanceAs (Decidable (_ ∧ _))
  | .get _ _ | .getMany _ _ | .deleteSession _ | .clearCache _ => isFalse id

/-- Operations that never fail and do not store the pair, and all that happens in between. -/
def Unwriting (settings : Settings) (sessionId key : String) (w : Cluster Instance) :
    Event Instance → Prop
  | .operate self operation oracle => ¬ operation.Stores sessionId key ∧
      Along (effect settings self) Accepted (operation.program settings.redis) oracle w
  | _ => True

def KeepsAway (sessionId key : String) : Call → Prop
  | .dbSetMany other entries => ¬ (other = sessionId ∧ key ∈ entries.map Entry.key)
  | _ => True

theorem readable_keepsAway (other name : String) : Readable (KeepsAway sessionId key) other name :=
  ⟨fun _ _ => trivial, trivial, trivial, fun _ _ => trivial, trivial⟩

theorem importEntries_keys (data : InsertionMap String String) :
    (importEntries data).map Entry.key = data.keys := by
  simp [importEntries, InsertionMap.keys, Function.comp_def]

theorem operation_keepsAway {redis : Option RedisMode} {operation : Operation}
    (unstored : ¬ operation.Stores sessionId key) :
    (operation.program redis).Only (KeepsAway sessionId key) := by
  cases operation with
  | get other name => exact only_bind (get_only (readable_keepsAway other name) trivial) fun _ => trivial
  | getMany other names =>
    apply only_bind (getMany_only (fun _ => trivial) (readable_keepsAway other) (fun _ => trivial) names)
    exact fun _ => trivial
  | keysSet other changes =>
    apply runSections_only
    intro change inside
    cases change with
    | upsert entries =>
      rw [upsert_entries inside]
      exact upsert_only unstored trivial fun _ _ _ => onWritten_only trivial trivial trivial
    | remove deletions => exact remove_only trivial fun _ _ => onDeleted_only trivial trivial trivial
  | deleteSession other => exact deleteSession_only trivial trivial
  | importSession other data =>
    apply importSession_only _ trivial
    rintro ⟨same, stored⟩
    exact unstored ⟨same, importEntries_keys data ▸ stored⟩
  | clearCache other => exact clearCache_only other trivial fun _ => trivial

def Rowless (sessionId key : String) (w : Cluster Instance) : Prop :=
  w.db.value? sessionId key = none

theorem effect_rowless (call : Call) (choice : Choice) (w : Cluster Instance)
    (away : KeepsAway sessionId key call) (rowless : Rowless sessionId key w) :
    Rowless sessionId key (effect settings self call choice w).2 := by
  unfold Rowless at rowless ⊢
  cases call with
  | dbSetMany other entries =>
    simp only [effect, Database.value?_setMany]
    split
    · rename_i same
      have absent : key ∉ (entries.filter fun entry => choice.applies entry.key).map Entry.key := by
        intro inside
        obtain ⟨entry, kept, rfl⟩ := List.mem_map.mp inside
        exact away ⟨same.symm, List.mem_map_of_mem (List.mem_filter.mp kept).1⟩
      rw [(Database.written_eq_none_iff _ key).mpr absent, rowless]
      rfl
    · exact rowless
  | dbDeleteMany other keys =>
    simp only [effect, Database.value?_deleteMany]
    split
    · rfl
    · exact rowless
  | dbDeleteSession other =>
    simp only [effect]
    split
    · rw [Database.value?_deleteSession]
      split
      · rfl
      · exact rowless
    · rw [Database.value?_deleteMany]
      split
      · rfl
      · exact rowless
  | _ => exact rowless

theorem program_rowless {Result : Type} {program : Program Result}
    (away : program.Only (KeepsAway sessionId key)) (oracle : Oracle Choice)
    {w : Cluster Instance} (rowless : Rowless sessionId key w) :
    Rowless sessionId key (evaluate (effect settings self) program oracle w).world :=
  evaluate_invariant effect_rowless away oracle rowless

theorem step_rowless {w next : Cluster Instance} {event : Event Instance}
    (unwriting : Unwriting settings sessionId key w event) (rowless : Rowless sessionId key w)
    (taken : step settings w event = some next) : Rowless sessionId key next := by
  cases event with
  | operate self operation oracle =>
    cases taken
    exact program_rowless (operation_keepsAway unwriting.1) oracle rowless
  | deliver subscriber name =>
    obtain ⟨-, rfl⟩ := deliver_taken taken
    exact rowless
  | sweepExpired | evict | loseL2 | restart =>
    cases taken
    exact rowless

theorem run_rowless {w final : Cluster Instance} {events : List (Event Instance)}
    (run : Run (step settings) (Unwriting settings sessionId key) w events final)
    (rowless : Rowless sessionId key w) : Rowless sessionId key final :=
  run.invariant _ (fun _ _ _ before unwriting taken => step_rowless unwriting before taken) rowless

theorem get_result_none_iff {w : Cluster Instance} {oracle : Oracle Choice}
    (http : settings.redis = some .http) (rowless : Rowless sessionId key w)
    (accepted : ∀ index, (oracle index).rejection = none) :
    (evaluate (effect settings self) (CacheManager.get settings.redis sessionId key) oracle
        w).result = .ok none ↔
      ¬ Live (w.l1 self) (oracle 0).dateNow (cacheKey sessionId key) ∧
        w.l2.get? (cacheKey sessionId key) = none := by
  rw [get_result http accepted, ← get_eq_none_iff, rowless]
  cases ((w.l1 self).get (oracle 0).dateNow (cacheKey sessionId key)).1 with
  | none => cases w.l2.get? (cacheKey sessionId key) <;> simp [httpAnswer]
  | some hit =>
    cases w.l2.get? (cacheKey sessionId key) with
    | none => simp [httpAnswer]
    | some check =>
      simp only [httpAnswer]
      split <;> simp

section Gone

variable {ok : Cluster Instance → Call → Choice → Prop}

def Gone (sessionId key : String) (w : Cluster Instance) : Prop :=
  Rowless sessionId key w ∧ w.l2.get? (cacheKey sessionId key) = none

def LeavesGone (sessionId key : String) : Call → Prop
  | .l2Set name _ _ => name ≠ cacheKey sessionId key
  | call => KeepsAway sessionId key call

theorem effect_gone (call : Call) (choice : Choice) (w : Cluster Instance)
    (leaves : LeavesGone sessionId key call) (gone : Gone sessionId key w) :
    Gone sessionId key (effect settings self call choice w).2 := by
  have away : KeepsAway sessionId key call := by
    cases call with
    | dbSetMany other entries => exact leaves
    | _ => trivial
  refine ⟨effect_rowless call choice w away gone.1, ?_⟩
  cases call with
  | l2Set name value version =>
    simp only [effect]
    split
    · rw [InsertionMap.get?_set, if_neg fun same => leaves same.symm]
      exact gone.2
    · exact gone.2
  | l2Del name =>
    simp only [effect]
    split
    · rw [InsertionMap.get?_erase]
      split
      · rfl
      · exact gone.2
    · exact gone.2
  | _ => exact gone.2

theorem gone_only {Result : Type} {program : Program Result}
    (only : program.Only (LeavesGone sessionId key)) :
    Triple (effect settings self) ok (Gone sessionId key) program
      (Ends (Gone sessionId key) fun _ => Gone sessionId key) :=
  triple_kept fun oracle _ gone => evaluate_invariant effect_gone only oracle gone

theorem readable_leaves {other name : String} (apart : cacheKey other name ≠ cacheKey sessionId key) :
    Readable (LeavesGone sessionId key) other name :=
  ⟨fun _ _ => trivial, trivial, trivial, fun _ _ => apart, trivial⟩

theorem readL2_gone :
    Triple (effect settings self) ok (Gone sessionId key) (readL2 settings.redis sessionId key)
      (Ends (Gone sessionId key) fun _ => Gone sessionId key) := by
  apply triple_from
  intro w gone
  unfold readL2
  apply triple_ends (triple_anyhow (safeL2Get_spec w _))
  intro l2Hit
  apply triple_from
  rintro _ ⟨rfl, found⟩
  cases l2Hit with
  | some hit =>
    have present := (found hit rfl).2
    rw [gone.2] at present
    cases present
  | none =>
    apply triple_attempt gone (adapterGet_ends key)
    intro record
    apply triple_from
    rintro world ⟨rfl, rfl⟩
    have absent : world.db.get sessionId key = none := by
      simpa [Rowless, Database.value?] using gone.1
    rw [absent]
    apply triple_done
    rintro _ rfl
    exact gone

theorem get_gone {other name : String} (owns : Owns (pair sessionId key) other name) :
    Triple (effect settings self) ok (Gone sessionId key)
      (CacheManager.get settings.redis other name)
      (Ends (Gone sessionId key) fun _ => Gone sessionId key) := by
  by_cases same : cacheKey other name = cacheKey sessionId key
  · obtain ⟨rfl, rfl⟩ := owns sessionId key ⟨rfl, rfl⟩ same.symm
    have lookup : (l1Get (cacheKey sessionId key)).Only (LeavesGone sessionId key) :=
      ⟨trivial, fun _ => trivial⟩
    have check : (safeL2Get settings.redis (cacheKey sessionId key)).Only
        (LeavesGone sessionId key) := safeL2Get_only trivial
    have drop : (l1Delete (cacheKey sessionId key)).Only (LeavesGone sessionId key) :=
      ⟨trivial, fun _ => trivial⟩
    unfold CacheManager.get
    apply triple_ends (gone_only lookup)
    intro l1Hit
    cases l1Hit with
    | none => exact readL2_gone
    | some hit =>
      dsimp only
      split
      · apply triple_ends (gone_only check)
        intro l2Check
        cases l2Check with
        | none => exact gone_only trivial
        | some held =>
          dsimp only
          split
          · exact triple_ends (gone_only drop) fun _ => readL2_gone
          · exact gone_only trivial
      · exact gone_only trivial
  · exact gone_only (get_only (readable_leaves same) trivial)

theorem getMany_gone {other : String} {names : List String}
    (owns : ∀ name ∈ names, Owns (pair sessionId key) other name) :
    Triple (effect settings self) ok (Gone sessionId key) (getMany settings.redis other names)
      (Ends (Gone sessionId key) fun _ => Gone sessionId key) := by
  have looks : ∀ name, Triple (effect settings self) ok (Gone sessionId key)
      (l1Get (cacheKey other name)) (Ends (Gone sessionId key) fun _ => Gone sessionId key) :=
    fun name => gone_only ⟨trivial, fun _ => trivial⟩
  unfold getMany
  apply triple_ends (lookupL1_asked looks names .empty [])
  rintro ⟨result, misses⟩
  apply triple_from
  rintro w ⟨gone, asked⟩
  dsimp only at asked ⊢
  split
  · exact triple_at gone (gone_only trivial)
  · apply triple_attempt gone (adapterGetMany_ends misses)
    intro records
    apply triple_from
    rintro w ⟨rfl, rfl⟩
    apply triple_at gone
    apply gone_only
    apply backfill_only
    rintro ⟨name, record⟩ inside
    refine ⟨trivial, ?_⟩
    -- What the adapter returned has a row, and the pair has none.
    intro same
    obtain ⟨owned, stored⟩ := recorded_owned w.db
      (fun name missed => owns name ((asked name missed).resolve_left List.not_mem_nil)) _ inside
    obtain ⟨rfl, rfl⟩ := owned sessionId key ⟨rfl, rfl⟩ same.symm
    have rowless := gone.1
    simp [Rowless, Database.value?, stored] at rowless

theorem operation_gone {operation : Operation} (spares : operation.Spares sessionId key) :
    Triple (effect settings self) ok (Gone sessionId key) (operation.program settings.redis)
      (Ends (Gone sessionId key) fun _ => Gone sessionId key) := by
  cases operation with
  | get other name => exact triple_ends (get_gone spares) fun _ => gone_only trivial
  | getMany other names => exact triple_ends (getMany_gone spares) fun _ => gone_only trivial
  | keysSet other changes =>
    obtain ⟨owned, unwritten⟩ := spares
    apply gone_only
    apply runSections_only
    intro change inside
    cases change with
    | upsert entries =>
      have stored := upsert_entries inside
      refine upsert_only (stored ▸ unwritten) trivial fun entry present _ => ?_
      apply onWritten_only trivial _ trivial
      intro same
      obtain ⟨rfl, rfl⟩ := owned _ inside entry.key (List.mem_map_of_mem present) sessionId key
        ⟨rfl, rfl⟩ same.symm
      exact unwritten ⟨rfl, stored ▸ List.mem_map_of_mem present⟩
    | remove deletions => exact remove_only trivial fun _ _ => onDeleted_only trivial trivial trivial
  | deleteSession other => exact gone_only (deleteSession_only trivial trivial)
  | importSession other data =>
    apply gone_only
    apply importSession_only _ trivial
    rintro ⟨same, stored⟩
    exact spares ⟨same, importEntries_keys data ▸ stored⟩
  | clearCache other => exact gone_only (clearCache_only other trivial fun _ => trivial)

theorem step_gone {w next : Cluster Instance} {event : Event Instance}
    (spares : ∀ self operation oracle, event = .operate self operation oracle →
      operation.Spares sessionId key)
    (gone : Gone sessionId key w) (taken : step settings w event = some next) :
    Gone sessionId key next := by
  cases event with
  | operate self operation oracle =>
    cases taken
    exact triple_keeps (operation_gone (spares self operation oracle rfl)) gone
      (along_always (effect settings self) _ oracle w)
  | deliver subscriber name =>
    obtain ⟨-, rfl⟩ := deliver_taken taken
    exact gone
  | loseL2 name =>
    cases taken
    refine ⟨gone.1, ?_⟩
    rw [InsertionMap.get?_erase]
    split
    · rfl
    · exact gone.2
  | sweepExpired | evict | restart =>
    cases taken
    exact gone

theorem run_gone {allowed : Cluster Instance → Event Instance → Prop} {w final : Cluster Instance}
    {events : List (Event Instance)} (run : Run (step settings) allowed w events final)
    (spares : ∀ self operation oracle, .operate self operation oracle ∈ events →
      operation.Spares sessionId key)
    (gone : Gone sessionId key w) : Gone sessionId key final := by
  induction run with
  | nil => exact gone
  | cons _ taken _ ih =>
    apply ih fun self operation oracle inside =>
      spares self operation oracle (List.mem_cons_of_mem _ inside)
    exact step_gone (fun self operation oracle same =>
      spares self operation oracle (same ▸ List.mem_cons_self)) gone taken

section Deletion

variable (http : settings.redis = some .http)

include http

theorem onDeleted_http (w : Cluster Instance) (other name : String) :
    Triple (effect settings self) (Tolerable False) (· = w) (onDeleted settings.redis other name)
      (Returns fun _ next => next.db = w.db ∧
        Replaces (cacheKey other name) none w.l2.get? next.l2.get?) := by
  have redis : settings.redis ≠ none := by
    rw [http]
    nofun
  have silent : publish settings.redis (cacheKey other name) = pure () := by
    rw [publish, if_neg (by rw [http]; nofun)]
  unfold onDeleted announceDeleted
  rw [silent]
  apply triple_then (l1Delete_spec w _)
  intro _
  apply triple_from
  rintro _ ⟨cache, rfl, -⟩
  apply triple_then (deleteL2_spec _ _)
  intro _
  apply triple_done
  rintro _ ⟨l2, rfl, replaced⟩
  exact ⟨rfl, replaced redis⟩

theorem onDeletedEach_gone {keys : List String} (deleted : key ∈ keys) :
    Triple (effect settings self) (Tolerable False) (Rowless sessionId key)
      (onDeletedEach settings.redis sessionId keys)
      (Ends (Gone sessionId key) fun _ => Gone sessionId key) := by
  induction keys with
  | nil => cases deleted
  | cons name rest ih =>
    rw [onDeletedEach]
    apply triple_from
    intro w rowless
    apply triple_ends (triple_anyhow (onDeleted_http http w sessionId name))
    intro _
    by_cases same : name = key
    · subst same
      apply triple_from
      rintro next ⟨rows, replaced⟩
      have emptied : next.l2.get? (cacheKey sessionId name) = none := by
        cases present : next.l2.get? (cacheKey sessionId name) with
        | none => rfl
        | some held =>
          rcases replaced _ held present with ⟨-, impossible⟩ | ⟨apart, -⟩
          · cases impossible
          · exact absurd rfl apart
      have gone : Gone sessionId name next := ⟨by rw [Rowless, rows]; exact rowless, emptied⟩
      exact triple_at gone (gone_only (onDeletedEach_only rest fun _ _ =>
        onDeleted_only trivial trivial trivial))
    · have later : key ∈ rest := (List.mem_cons.mp deleted).resolve_left fun h => same h.symm
      apply triple_from
      rintro next ⟨rows, -⟩
      exact triple_at (by rw [Rowless, rows]; exact rowless) (ih later)

theorem removal_gone {keys : List String} (deleted : key ∈ keys) (w : Cluster Instance) :
    Triple (effect settings self) (Tolerable False) (· = w)
      (runSection settings.redis sessionId (.remove keys))
      (Ends (Gone sessionId key) fun _ => Gone sessionId key) := by
  apply triple_ends (triple_anyhow (adapterDeleteMany_spec w sessionId keys))
  intro _
  apply triple_from
  rintro _ rfl
  have rowless : Rowless sessionId key { w with db := w.db.deleteMany sessionId keys } := by
    rw [Rowless, Database.value?_deleteMany, if_pos ⟨rfl, deleted⟩]
  exact triple_at rowless (onDeletedEach_gone http deleted)

end Deletion

end Gone

/-- After a delete a read on any instance finds nothing exactly when its L1 holds no live entry
for the pair and L2 holds none; and L2 holds none while nobody touches a pair with its cache key. -/
theorem deleted_read_iff (settings : Settings) (http : settings.redis = some .http)
    (w : Cluster Instance) (deleter : Instance) (sessionId key : String) (keys : List String)
    (deleted : key ∈ keys) (oracle : Oracle Choice)
    (accepted : ∀ index, (oracle index).rejection = none)
    (events : List (Event Instance)) (later : Cluster Instance)
    (run : Run (step settings) (Unwriting settings sessionId key)
      (evaluate (effect settings deleter) (runSection settings.redis sessionId (.remove keys))
        oracle w).world events later)
    (reader : Instance) (asked : Oracle Choice)
    (answered : ∀ index, (asked index).rejection = none) :
    ((evaluate (effect settings reader) (CacheManager.get settings.redis sessionId key) asked
        later).result = .ok none ↔
      ¬ Live (later.l1 reader) (asked 0).dateNow (cacheKey sessionId key) ∧
        later.l2.get? (cacheKey sessionId key) = none) ∧
    ((∀ self operation oracle, .operate self operation oracle ∈ events →
        operation.Spares sessionId key) →
      later.l2.get? (cacheKey sessionId key) = none) := by
  have gone : Gone sessionId key (evaluate (effect settings deleter)
      (runSection settings.redis sessionId (.remove keys)) oracle w).world :=
    triple_keeps (removal_gone http deleted w) rfl (along_accepted _ w accepted)
  exact ⟨get_result_none_iff http (run_rowless run gone.1) answered,
    fun spares => (run_gone run spares gone).2⟩

def httpSettings : Settings where
  memory := ⟨none, none, none⟩
  redis := some .http
  versioning := fun version => version.getD 0 + 1

def servedRun : List (Event Bool) :=
  [.operate false (store "session-x" "1") quiet, .operate true (.get "bot" "session-x") quiet]

def served : Cluster Bool :=
  ((replay (step httpSettings) anything (Cluster.initial httpSettings .empty) servedRun).getD
    (Cluster.initial httpSettings .empty))

def deletedAt (w : Cluster Bool) : Cluster Bool :=
  (evaluate (effect httpSettings false) (runSection httpSettings.redis "bot"
    (.remove ["session-x"])) quiet w).world

theorem deleted_read_expired :
    (evaluate (effect httpSettings true) (CacheManager.get httpSettings.redis "bot" "session-x")
      (fun _ => ⟨30000, none⟩) (deletedAt served)).result = .ok none := by
  have expired : ¬ Live ((deletedAt served).l1 true) 30000 (cacheKey "bot" "session-x") := by
    rintro ⟨entry, present, live⟩
    cases present
    exact absurd live (by decide)
  exact (deleted_read_iff httpSettings rfl served false "bot" "session-x" ["session-x"] (by decide)
    quiet (fun _ => rfl) [] _ (.nil _) true (fun _ => ⟨30000, none⟩) fun _ => rfl).1.mpr
    ⟨expired, rfl⟩

theorem deleted_value_read_from_l1 :
    replay (step httpSettings) (Permitted httpSettings Plain Accepted)
        (Cluster.initial httpSettings .empty) servedRun = some served ∧
      (evaluate (effect httpSettings true) (CacheManager.get httpSettings.redis "bot" "session-x")
        quiet (deletedAt served)).result = .ok (some "1") :=
  ⟨rfl, rfl⟩

end BaileysSession.CacheManager
