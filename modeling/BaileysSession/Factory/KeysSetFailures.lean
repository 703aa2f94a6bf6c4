import BaileysSession.Cache.SingleProcess
import BaileysSession.Factory.KeyNames
import BaileysSession.Factory.KeysCollect
import BaileysSession.Lock.RedisLock

set_option autoImplicit false

namespace BaileysSession.KeysSetFailures

open Async CacheManager KeysSet
open SingleProcess (Clean deleteMany_nil)

variable {Instance : Type} [DecidableEq Instance] {Value : Type}

/-- What `withLock` comes to: it gives up without having called the function, or gives what the
function gives; a release that fails is not reported. -/
def withLock (timedOut : Option String) (fn : Program Unit) : Program Unit :=
  match timedOut with
  | some error => throw error
  | none => fn

def keysSet (redis : Option RedisMode) (sessionId : String) (first second : Option String)
    (changes : Changes) : Program Unit := do
  if changes.entries.length > 0 then
    withLock first (runSection redis sessionId (.upsert changes.entries))
  if changes.deletions.length > 0 then
    withLock second (runSection redis sessionId (.remove changes.deletions))

theorem bind_done (program : Program Unit) : (program >>= fun _ => pure ()) = program := by
  induction program with
  | done => rfl
  | failed => rfl
  | await call next ih => exact congrArg (Async.await call) (funext ih)

theorem keysSet_unlocked (redis : Option RedisMode) (sessionId : String) (changes : Changes) :
    keysSet redis sessionId none none changes = CacheManager.keysSet redis sessionId changes := by
  unfold keysSet CacheManager.keysSet Changes.sections withLock
  by_cases storing : changes.entries.length > 0
  · by_cases deleting : changes.deletions.length > 0
    · simp only [if_pos storing, if_pos deleting, List.singleton_append, runSections, bind_done]
    · simp only [if_pos storing, if_neg deleting, List.append_nil, runSections]
  · by_cases deleting : changes.deletions.length > 0
    · simp only [if_neg storing, if_pos deleting, List.nil_append, runSections, bind_done]
    · simp only [if_neg storing, if_neg deleting, List.nil_append, runSections]

/-- `setMany` and `deleteMany` take full effect and resolve, or have no effect and reject. -/
def AtomicAdapter (_ : Cluster Instance) : CacheManager.Call → Choice → Prop
  | .dbSetMany _ _, choice | .dbDeleteMany _ _, choice => Clean choice
  | _, _ => True

variable {settings : Settings} {self : Instance} {sessionId : String}

section Sections

def Atomically (settings : Settings) (sessionId : String) (change : Section) (w : Cluster Instance)
    (outcome : Outcome String Unit Choice (Cluster Instance)) : Prop :=
  (∃ error, outcome.result = .error error ∧ outcome.world = w) ∨
    (outcome.result = .ok () ∧ ∃ now,
      outcome.world.db = change.write settings.versioning now sessionId w.db)

theorem clean_unapplied {choice : Choice} {rejection : Rejection} (clean : Clean choice)
    (rejected : choice.rejection = some rejection) : choice.applies = fun _ => false := by
  funext key
  simp only [Choice.applies, rejected]
  exact clean rejection rejected key

theorem announced {announce : Program Unit} (resolves : announce.Resolves)
    (reading : announce.Only CacheManager.Call.Reading) (oracle : Oracle Choice) (w : Cluster Instance) :
    (evaluate (effect settings self) announce oracle w).result = .ok () ∧
      (evaluate (effect settings self) announce oracle w).world.db = w.db := by
  obtain ⟨_, resolved⟩ := evaluate_resolves (effect settings self) resolves oracle w
  exact ⟨resolved, evaluate_reading reading oracle w⟩

theorem runSection_atomically (change : Section) {oracle : Oracle Choice} {w : Cluster Instance}
    (atomic : Along (effect settings self) AtomicAdapter
      (runSection settings.redis sessionId change) oracle w) :
    Atomically settings sessionId change w
      (evaluate (effect settings self) (runSection settings.redis sessionId change) oracle w) := by
  cases change with
  | upsert entries =>
    have clean : Clean (oracle 0) := ((along_bind _ _ _ _ _ _).mp atomic).1.1
    have reading : (onWrittenEach settings.redis sessionId entries).Only CacheManager.Call.Reading :=
      onWrittenEach_only trivial entries fun _ _ _ => onWritten_only trivial trivial trivial
    simp only [runSection, adapterSetMany, evaluate_bind, evaluate, effect]
    cases rejected : (oracle 0).rejection with
    | none =>
      right
      simp only [settle_accepted rejected, applies_accepted rejected, List.filter_true, evaluate]
      obtain ⟨resolved, kept⟩ := @announced _ _ settings self _ (onWrittenEach_resolves entries)
        reading oracle.later { w with
          db := w.db.setMany settings.versioning (oracle 0).dateNow sessionId entries }
      exact ⟨resolved, _, kept⟩
    | some rejection =>
      simp only [Choice.answer, rejected, clean_unapplied clean rejected, List.filter_false]
      exact .inl ⟨_, rfl, rfl⟩
  | remove deletions =>
    have clean : Clean (oracle 0) := ((along_bind _ _ _ _ _ _).mp atomic).1.1
    have reading : (onDeletedEach settings.redis sessionId deletions).Only CacheManager.Call.Reading :=
      onDeletedEach_only deletions fun _ _ => onDeleted_only trivial trivial trivial
    simp only [runSection, adapterDeleteMany, evaluate_bind, evaluate, effect]
    cases rejected : (oracle 0).rejection with
    | none =>
      right
      simp only [settle_accepted rejected, applies_accepted rejected, List.filter_true, evaluate]
      obtain ⟨resolved, kept⟩ := @announced _ _ settings self _ (onDeletedEach_resolves deletions)
        reading oracle.later { w with db := w.db.deleteMany sessionId deletions }
      exact ⟨resolved, 0, kept⟩
    | some rejection =>
      simp only [Choice.answer, rejected, clean_unapplied clean rejected, List.filter_false,
        deleteMany_nil]
      exact .inl ⟨_, rfl, rfl⟩

theorem withLock_atomically (timedOut : Option String) (change : Section) {oracle : Oracle Choice}
    {w : Cluster Instance}
    (atomic : Along (effect settings self) AtomicAdapter
      (withLock timedOut (runSection settings.redis sessionId change)) oracle w) :
    Atomically settings sessionId change w (evaluate (effect settings self)
      (withLock timedOut (runSection settings.redis sessionId change)) oracle w) := by
  cases timedOut with
  | some error => exact .inl ⟨error, rfl, rfl⟩
  | none => exact runSection_atomically change atomic

-- A section that there is nothing to do in is left out.
def phase (redis : Option RedisMode) (sessionId : String) (timedOut : Option String)
    (change : Section) : Program Unit :=
  if change.keys = [] then pure () else withLock timedOut (runSection redis sessionId change)

theorem keysSet_phases (redis : Option RedisMode) (first second : Option String)
    (changes : Changes) :
    keysSet redis sessionId first second changes =
      phase redis sessionId first (.upsert changes.entries) >>= fun _ =>
        phase redis sessionId second (.remove changes.deletions) := by
  obtain ⟨entries, deletions⟩ := changes
  unfold keysSet phase
  cases entries <;> cases deletions <;> rfl

theorem phase_atomically (timedOut : Option String) (change : Section) {oracle : Oracle Choice}
    {w : Cluster Instance}
    (atomic : Along (effect settings self) AtomicAdapter
      (phase settings.redis sessionId timedOut change) oracle w) :
    Atomically settings sessionId change w (evaluate (effect settings self)
        (phase settings.redis sessionId timedOut change) oracle w) ∧
      (change.keys = [] → (evaluate (effect settings self)
        (phase settings.redis sessionId timedOut change) oracle w) = ⟨.ok (), w, oracle⟩) := by
  unfold phase at atomic ⊢
  by_cases nothing : change.keys = []
  · rw [if_pos nothing]
    refine ⟨.inr ⟨rfl, 0, ?_⟩, fun _ => rfl⟩
    cases change with
    | upsert entries =>
      rw [List.map_eq_nil_iff.mp nothing]
      rfl
    | remove deletions =>
      rw [show deletions = [] from nothing]
      exact (deleteMany_nil w.db sessionId).symm
  · rw [if_neg nothing] at atomic ⊢
    exact ⟨withLock_atomically timedOut change atomic, fun empty => absurd empty nothing⟩

end Sections

section Names

/-- No two ids that the data mentions have the same row. -/
def Unambiguous (call : KeysSet.Call Value) : Prop :=
  ∀ first second : Category × String, (request call.data first.1 first.2).isSome →
    (request call.data second.1 second.2).isSome →
      cacheKeyName first.1 first.2 = cacheKeyName second.1 second.2 → first = second

variable {call : KeysSet.Call Value} (unambiguous : Unambiguous call)
  {category : Category} {id : String} {value : Value}

include unambiguous

theorem request_unique (requested : request call.data category id = some value)
    {other : Category} {name : String} {found : Value}
    (alsoRequested : request call.data other name = some found)
    (same : cacheKeyName category id = cacheKeyName other name) :
    category = other ∧ id = name ∧ value = found := by
  have twins := unambiguous (category, id) (other, name) (by rw [requested]; rfl)
    (by rw [alsoRequested]; rfl) same
  cases twins
  exact ⟨rfl, rfl, Option.some.inj (requested.symm.trans alsoRequested)⟩

theorem written_collected (requested : request call.data category id = some value)
    (stored : call.truthy value = true) :
    Database.written (collect call).entries (cacheKeyName category id) =
      some (call.encode category id value) := by
  have inside := (mem_entries call _).mpr ⟨category, id, value, requested, stored, rfl⟩
  cases written : Database.written (collect call).entries (cacheKeyName category id) with
  | none =>
    exact absurd (List.mem_map_of_mem inside) ((Database.written_eq_none_iff _ _).mp written)
  | some text =>
    obtain ⟨other, name, found, alsoRequested, -, same⟩ :=
      (mem_entries call _).mp (Database.written_mem written)
    rw [Entry.mk.injEq] at same
    obtain ⟨rfl, rfl, rfl⟩ := request_unique unambiguous requested alsoRequested same.1
    rw [same.2]

theorem stored_not_deleted (requested : request call.data category id = some value)
    (stored : call.truthy value = true) :
    cacheKeyName category id ∉ (collect call).deletions := by
  intro deleted
  obtain ⟨other, name, found, alsoRequested, falsy, same⟩ := (mem_deletions call _).mp deleted
  obtain ⟨rfl, rfl, rfl⟩ := request_unique unambiguous requested alsoRequested same
  rw [stored] at falsy
  cases falsy

theorem deleted_not_stored (requested : request call.data category id = some value)
    (deleted : call.truthy value = false) :
    cacheKeyName category id ∉ (collect call).entries.map Entry.key := by
  intro inside
  obtain ⟨entry, collected, name⟩ := List.mem_map.mp inside
  obtain ⟨other, id', found, alsoRequested, truthy, rfl⟩ := (mem_entries call _).mp collected
  obtain ⟨rfl, rfl, rfl⟩ := request_unique unambiguous requested alsoRequested name.symm
  rw [truthy] at deleted
  cases deleted

end Names

section Outcome

def Stores (call : KeysSet.Call Value) (sessionId : String) (db : Database) : Prop :=
  ∀ category id value, request call.data category id = some value → call.truthy value = true →
    db.value? sessionId (cacheKeyName category id) = some (call.encode category id value)

def Deletes (call : KeysSet.Call Value) (sessionId : String) (db : Database) : Prop :=
  ∀ category id value, request call.data category id = some value → call.truthy value = false →
    db.get sessionId (cacheKeyName category id) = none

def SparesNulls (call : KeysSet.Call Value) (sessionId : String) (before after : Database) : Prop :=
  ∀ category id value, request call.data category id = some value → call.truthy value = false →
    after.get sessionId (cacheKeyName category id) =
      before.get sessionId (cacheKeyName category id)

variable {call : KeysSet.Call Value} (unambiguous : Unambiguous call) {db next : Database} {now : Int}
  {versioning : Versioning}

include unambiguous

theorem stores_setMany :
    Stores call sessionId (db.setMany versioning now sessionId (collect call).entries) := by
  intro category id value requested stored
  rw [Database.value?_setMany, if_pos rfl, written_collected unambiguous requested stored]
  rfl

theorem sparesNulls_setMany :
    SparesNulls call sessionId db (db.setMany versioning now sessionId (collect call).entries) := by
  intro category id value requested deleted
  exact Database.get_setMany_of_not_mem db versioning now sessionId _ _
    (deleted_not_stored unambiguous requested deleted)

theorem stores_deleteMany (stores : Stores call sessionId db) :
    Stores call sessionId (db.deleteMany sessionId (collect call).deletions) := by
  intro category id value requested stored
  rw [Database.value?_deleteMany, if_neg fun gone =>
    stored_not_deleted unambiguous requested stored gone.2]
  exact stores category id value requested stored

omit unambiguous in
theorem deletes_deleteMany :
    Deletes call sessionId (db.deleteMany sessionId (collect call).deletions) := by
  intro category id value requested deleted
  rw [Database.get_deleteMany, if_pos]
  exact ⟨rfl, (mem_deletions call _).mpr ⟨category, id, value, requested, deleted, rfl⟩⟩

end Outcome

/-- A `keys.set` that resolves has stored every value and deleted every null. One that rejects has
changed nothing, or has stored the values and not come to the nulls. -/
theorem keysSet_outcome (settings : Settings) (self : Instance) (sessionId : String)
    (call : KeysSet.Call Value) (unambiguous : Unambiguous call) (first second : Option String)
    (oracle : Oracle Choice) (w : Cluster Instance)
    (atomic : Along (effect settings self) AtomicAdapter
      (keysSet settings.redis sessionId first second (collect call)) oracle w) :
    let outcome := evaluate (effect settings self)
      (keysSet settings.redis sessionId first second (collect call)) oracle w
    (outcome.result = .ok () → Stores call sessionId outcome.world.db ∧
        Deletes call sessionId outcome.world.db) ∧
      ∀ error, outcome.result = .error error → outcome.world = w ∨
        ((collect call).entries ≠ [] ∧ (collect call).deletions ≠ [] ∧
          (let stored := evaluate (effect settings self)
            (keysSet settings.redis sessionId first second ⟨(collect call).entries, []⟩) oracle w
           stored.result = .ok () ∧ outcome.world = stored.world) ∧
          Stores call sessionId outcome.world.db ∧
          SparesNulls call sessionId w.db outcome.world.db) := by
  intro outcome
  have split : outcome = evaluate (effect settings self)
      (phase settings.redis sessionId first (.upsert (collect call).entries) >>= fun _ =>
        phase settings.redis sessionId second (.remove (collect call).deletions)) oracle w := by
    rw [← keysSet_phases]
  have valuesAlone : keysSet settings.redis sessionId first second ⟨(collect call).entries, []⟩ =
      phase settings.redis sessionId first (.upsert (collect call).entries) := by
    rw [keysSet_phases]
    exact bind_done _
  rw [keysSet_phases] at atomic
  obtain ⟨atomicFirst, atomicSecond⟩ := (along_bind _ _ _ _ _ _).mp atomic
  rw [split, valuesAlone, evaluate_bind]
  clear split valuesAlone outcome
  obtain ⟨values, noValues⟩ := phase_atomically first (.upsert (collect call).entries) atomicFirst
  revert values noValues atomicSecond
  generalize evaluate (effect settings self)
    (phase settings.redis sessionId first (.upsert (collect call).entries)) oracle w = firstOutcome
  obtain ⟨firstResult, middle, remaining⟩ := firstOutcome
  rintro atomicSecond (⟨error, rfl, rfl⟩ | ⟨rfl, now, written⟩) noValues
  · exact ⟨nofun, fun _ _ => .inl rfl⟩
  · have stores : Stores call sessionId middle.db := by
      rw [written]
      exact stores_setMany unambiguous
    obtain ⟨nulls, noNulls⟩ := phase_atomically second (.remove (collect call).deletions)
      (atomicSecond () rfl)
    revert nulls noNulls
    dsimp only
    obtain ⟨secondResult, last, _⟩ := evaluate (effect settings self)
      (phase settings.redis sessionId second (.remove (collect call).deletions)) remaining middle
    rintro (⟨error, rfl, rfl⟩ | ⟨rfl, _, deleted⟩) noNulls
    · refine ⟨nofun, fun _ _ => ?_⟩
      have nullsAsked : (collect call).deletions ≠ [] := by
        intro empty
        cases congrArg Outcome.result (noNulls empty)
      by_cases valuesAsked : (collect call).entries = []
      · left
        exact congrArg Outcome.world (noValues (List.map_eq_nil_iff.mpr valuesAsked))
      · refine .inr ⟨valuesAsked, nullsAsked, ⟨rfl, rfl⟩, stores, ?_⟩
        rw [written]
        exact sparesNulls_setMany unambiguous
    · refine ⟨fun _ => ?_, nofun⟩
      dsimp only at deleted ⊢
      rw [deleted]
      exact ⟨stores_deleteMany unambiguous stores, deletes_deleteMany⟩

section Runs

def plainSettings : Settings where
  memory := ⟨none, none, none⟩
  redis := none
  versioning := fun version => version.getD 0 + 1

def mixedCall : KeysSet.Call String where
  data := (InsertionMap.empty.set .session (some (.set .empty "1.0" "record"))).set .preKey
    (some (.set .empty "1" ""))
  truthy := (· != "")
  encode := fun _ _ value => value

theorem mixed_unambiguous : Unambiguous mixedCall := by
  intro first second inFirst inSecond same
  have named : ∀ pair : Category × String, pair.1 = .senderKey →
      (request mixedCall.data pair.1 pair.2).isSome → False := by
    rintro ⟨_, id⟩ rfl present
    cases present
  rcases (cacheKeyName_eq_iff first second).mp same with here | ⟨shadow, -, -⟩ | ⟨shadow, -, -⟩
  · exact here
  · exact False.elim (named first shadow inFirst)
  · exact False.elim (named second shadow inSecond)

theorem clean_atomic {oracle : Oracle Choice} (clean : ∀ index, Clean (oracle index))
    (program : Program Unit) (w : Cluster Unit) :
    Along (effect plainSettings ()) AtomicAdapter program oracle w := by
  refine (Along.of_oracle (effect plainSettings ()) program w clean).mono ?_
  intro _ call choice isClean
  cases call <;> first | exact isClean | trivial

def calm : Oracle Choice := fun _ => ⟨0, none⟩

theorem calm_atomic (program : Program Unit) (w : Cluster Unit) :
    Along (effect plainSettings ()) AtomicAdapter program calm w := by
  apply clean_atomic
  rintro index rejection ⟨⟩

theorem keysSet_outcome_timed_out :
    let outcome := evaluate (effect plainSettings ()) (keysSet none "bot" none
      (some (RedisLock.timeoutMessage "bot" 10000)) (collect mixedCall)) calm
      (Cluster.initial plainSettings .empty)
    (∃ error, outcome.result = .error error) ∧ Stores mixedCall "bot" outcome.world.db := by
  have outcomes := (keysSet_outcome plainSettings () "bot" mixedCall mixed_unambiguous none
    (some (RedisLock.timeoutMessage "bot" 10000)) calm (Cluster.initial plainSettings .empty)
    (calm_atomic _ _)).2
  refine ⟨⟨_, rfl⟩, ?_⟩
  rcases outcomes _ rfl with unchanged | ⟨-, -, -, stores, -⟩
  · have rows := congrArg (fun w : Cluster Unit => w.db.value? "bot" "session-1.0") unchanged
    cases rows
  · exact stores

-- The fourth call is `deleteMany`, which rejects without having done anything.
def deleteRefused : Oracle Choice := fun index =>
  if index = 3 then ⟨0, some ⟨"deadline exceeded", fun _ => false⟩⟩ else ⟨0, none⟩

theorem refused_atomic (program : Program Unit) (w : Cluster Unit) :
    Along (effect plainSettings ()) AtomicAdapter program deleteRefused w := by
  apply clean_atomic
  intro index rejection refused key
  unfold deleteRefused at refused
  split at refused
  · cases refused
    rfl
  · cases refused

theorem values_kept_without_nulls :
    let before : Cluster Unit := Cluster.initial plainSettings
      (Database.empty.setMany plainSettings.versioning 0 "bot" [⟨"pre-key-1", "key"⟩])
    let outcome := evaluate (effect plainSettings ()) (keysSet none "bot" none none
      (collect mixedCall)) deleteRefused before
    Along (effect plainSettings ()) AtomicAdapter (keysSet none "bot" none none
        (collect mixedCall)) deleteRefused before ∧
      outcome.result = .error "deadline exceeded" ∧
      before.db.value? "bot" "session-1.0" = none ∧
      outcome.world.db.value? "bot" "session-1.0" = some "record" ∧
      (outcome.world.l1 ()).peek "bot:session-1.0" = some ⟨"record", 0⟩ ∧
      outcome.world.db.value? "bot" "pre-key-1" = some "key" := by
  refine ⟨refused_atomic _ _, ?_⟩
  decide

end Runs

end BaileysSession.KeysSetFailures
