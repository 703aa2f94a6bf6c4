import BaileysSession.Cache.ClusterRuns

set_option autoImplicit false

namespace BaileysSession.CacheManager

open Async MemoryCache Transition

def pair (sessionId key : String) : Scope := fun other name => other = sessionId ∧ name = key

theorem pair_owns (sessionId key : String) : Owns (pair sessionId key) sessionId key :=
  fun _ _ inScope _ => inScope

theorem startsWith_cacheKey (sessionId key : String) :
    Text.startsWith (cacheKey sessionId key) (sessionId ++ ":") = true :=
  Text.startsWith_append (sessionId ++ ":") key

variable {Instance : Type} [DecidableEq Instance] {settings : Settings} {scope : Scope}
  {self : Instance}

def cleared (w : Cluster Instance) (self : Instance) (sessionId : String) : Cluster Instance :=
  w.withL1 self ((w.l1 self).deleteByPrefix (sessionId ++ ":"))

theorem cleared_absent (w : Cluster Instance) (self : Instance) (sessionId key : String) :
    ((cleared w self sessionId).l1 self).peek (cacheKey sessionId key) = none := by
  rw [cleared, withL1_l1, if_pos rfl, peek_deleteByPrefix, if_pos (startsWith_cacheKey _ _)]

theorem deleteByPrefix_shrinks (cache : MemoryCache) (start : String) :
    Shrinks cache (cache.deleteByPrefix start) := by
  intro key held present
  rw [peek_deleteByPrefix] at present
  split at present
  · cases present
  · exact present

theorem clearSession_spec {ok : Cluster Instance → Call → Choice → Prop} (w : Cluster Instance)
    (sessionId : String) :
    Triple (effect settings self) ok (· = w) (clearSession sessionId)
      (Returns fun _ next => next = cleared w self sessionId) := by
  constructor
  rintro oracle _ rfl -
  rfl

theorem adapterDeleteSession_spec (w : Cluster Instance) (sessionId : String) :
    Triple (effect settings self) (Tolerable False) (· = w) (adapterDeleteSession sessionId)
      (Returns fun _ next => next = { w with db := w.db.deleteSession sessionId }) := by
  constructor
  rintro oracle _ rfl ⟨tolerable, -⟩
  have accepted : (oracle 0).rejection = none := tolerable
  simp only [adapterDeleteSession, evaluate, effect, settle_accepted accepted, accepted]
  rfl

theorem deleteSession_spec (w : Cluster Instance) (sessionId : String) :
    Triple (effect settings self) (Tolerable False) (· = w) (deleteSession sessionId)
      (Returns fun _ next =>
        next = cleared { w with db := w.db.deleteSession sessionId } self sessionId) := by
  apply triple_then (adapterDeleteSession_spec w sessionId)
  exact fun _ => clearSession_spec _ sessionId

def importEntries (data : InsertionMap String String) : List Entry :=
  data.entries.map fun entry => ⟨entry.1, entry.2⟩

theorem importSession_spec (w : Cluster Instance) (sessionId : String)
    (data : InsertionMap String String) :
    Triple (effect settings self) (Tolerable False) (· = w) (importSession sessionId data)
      (Returns fun _ next => ∃ now, next = cleared { w with
        db := w.db.setMany settings.versioning now sessionId (importEntries data) }
          self sessionId) := by
  apply triple_then (adapterSetMany_spec w sessionId (importEntries data))
  intro _
  apply triple_from
  rintro _ ⟨now, rfl⟩
  apply triple_consequence (clearSession_spec _ sessionId) (fun _ same => same)
  exact fun _ _ after => ⟨now, after⟩

theorem clearCache_spec {ok : Cluster Instance → Call → Choice → Prop} (w : Cluster Instance)
    (sessionId : Option String) :
    Triple (effect settings self) ok (· = w) (clearCache sessionId)
      (Returns fun _ next => ∃ cache, next = w.withL1 self cache ∧ Shrinks (w.l1 self) cache) := by
  have all : Triple (effect settings self) ok (· = w) clearAll
      (Returns fun _ next => ∃ cache, next = w.withL1 self cache ∧ Shrinks (w.l1 self) cache) := by
    constructor
    rintro oracle _ rfl -
    exact ⟨_, rfl, nofun⟩
  unfold clearCache
  split
  · split
    · apply triple_consequence (clearSession_spec w _) (fun _ same => same)
      exact fun _ _ after => ⟨_, after, deleteByPrefix_shrinks _ _⟩
    · exact all
  · exact all

theorem written_importEntries (data : InsertionMap String String) (key : String) :
    Database.written (importEntries data) key = data.get? key := by
  obtain ⟨entries, unique⟩ := data
  simp only [importEntries, InsertionMap.get?]
  induction entries with
  | nil => rfl
  | cons entry rest ih =>
    simp only [List.map_cons, List.nodup_cons] at unique
    rw [List.map_cons, Database.written, ih unique.2, InsertionMap.lookup_cons]
    by_cases same : entry.1 = key
    · have fresh : rest.lookup key = none := by
        have missing := (InsertionMap.get?_eq_none_iff ⟨rest, unique.2⟩ key).mpr (same ▸ unique.1)
        exact missing
      simp [same, fresh]
    · have other : ¬ key = entry.1 := fun h => same h.symm
      simp [same, other]

section Afterwards

variable (sessionId key : String)

def Operation.Spares : Operation → Prop
  | .get other name => Owns (pair sessionId key) other name
  | .getMany other names => ∀ name ∈ names, Owns (pair sessionId key) other name
  | .keysSet other changes =>
    (∀ change ∈ changes.sections, ∀ name ∈ change.keys, Owns (pair sessionId key) other name) ∧
      ¬ (other = sessionId ∧ key ∈ changes.entries.map Entry.key)
  | .importSession other data => ¬ (other = sessionId ∧ key ∈ data.keys)
  | .deleteSession _ | .clearCache _ => True

/-- Operations that never fail and leave the pair alone, mixed with all that happens to the
caches in between. -/
def Sparing (settings : Settings) (w : Cluster Unit) : Event Unit → Prop
  | .operate self operation oracle => operation.Spares sessionId key ∧
      Along (effect settings self) Accepted (operation.program settings.redis) oracle w
  | _ => True

structure Absent (settings : Settings) (w : Cluster Unit) : Prop where
  settled : Settled settings (pair sessionId key) False w
  db : w.db.value? sessionId key = none

end Afterwards

variable {sessionId key : String}

theorem single_connected (settings : Settings) : Connected settings False Unit :=
  ⟨False.elim, fun _ => inferInstance⟩

theorem Absent.shrink {w : Cluster Unit} (absent : Absent sessionId key settings w)
    {cache : MemoryCache} (shrinks : Shrinks (w.l1 ()) cache) :
    Absent sessionId key settings (w.withL1 () cache) :=
  ⟨shrink_settled absent.settled () shrinks, absent.db⟩

theorem Absent.changed {w : Cluster Unit} (absent : Absent sessionId key settings w)
    {db : Database} (without : db.value? sessionId key = none) :
    Absent sessionId key settings { w with db } := by
  have kept : ∀ other name, pair sessionId key other name →
      db.value? other name = w.db.value? other name := by
    rintro _ _ ⟨rfl, rfl⟩
    rw [without, absent.db]
  refine ⟨⟨?_, ?_⟩, without⟩
  · intro reader other name held inScope present
    rw [kept other name inScope]
    exact absent.settled.l1 reader other name held inScope present
  · intro redis other name held inScope present
    rw [kept other name inScope]
    exact absent.settled.l2 redis other name held inScope present

theorem upsert_entries {changes : KeysSet.Changes} {entries : List Entry}
    (inside : KeysSet.Section.upsert entries ∈ changes.sections) : entries = changes.entries := by
  unfold KeysSet.Changes.sections at inside
  rcases List.mem_append.mp inside with stored | removed
  · split at stored
    · simpa using stored
    · cases stored
  · split at removed
    · simp at removed
    · cases removed

theorem keysSet_absent {other : String} {changes : KeysSet.Changes}
    (owned : ∀ change ∈ changes.sections, ∀ name ∈ change.keys,
      Owns (pair sessionId key) other name)
    (unwritten : ¬ (other = sessionId ∧ key ∈ changes.entries.map Entry.key)) :
    Triple (effect settings ()) (Tolerable False) (Absent sessionId key settings)
      (keysSet settings.redis other changes)
      (Returns fun _ => Absent sessionId key settings) := by
  apply runSections_spec
  intro change inside
  apply triple_from
  intro w absent
  apply triple_consequence
    (runSection_spec (single_connected settings) w absent.settled other change
      (owned change inside)) (fun _ same => same)
  rintro - next ⟨settled, now, rows⟩
  refine ⟨settled, ?_⟩
  rw [rows, KeysSet.value?_write]
  split
  · rename_i touched
    cases change with
    | upsert entries =>
      rw [upsert_entries inside] at touched
      exact absurd ⟨touched.1.symm, touched.2⟩ unwritten
    | remove deletions => rfl
  · exact absent.db

theorem operation_absent (operation : Operation) (spares : operation.Spares sessionId key) :
    Triple (effect settings ()) (Tolerable False) (Absent sessionId key settings)
      (operation.program settings.redis) (Returns fun _ => Absent sessionId key settings) := by
  cases operation with
  | get other name =>
    apply triple_from
    intro w absent
    apply triple_then (triple_at absent.settled.reading (get_spec spares))
    intro _
    apply triple_done
    rintro next ⟨⟨settled, rows, -⟩, -⟩
    exact ⟨settled, rows ▸ absent.db⟩
  | getMany other names =>
    apply triple_from
    intro w absent
    apply triple_then (triple_at absent.settled.reading (getMany_spec names spares))
    intro _
    apply triple_done
    rintro next ⟨⟨settled, rows, -⟩, -⟩
    exact ⟨settled, rows ▸ absent.db⟩
  | keysSet other changes => exact keysSet_absent spares.1 spares.2
  | deleteSession other =>
    apply triple_from
    intro w absent
    apply triple_consequence (deleteSession_spec w other) (fun _ same => same)
    rintro - _ rfl
    have without : (w.db.deleteSession other).value? sessionId key = none := by
      rw [Database.value?_deleteSession]
      split
      · rfl
      · exact absent.db
    exact (absent.changed without).shrink (deleteByPrefix_shrinks _ _)
  | importSession other data =>
    apply triple_from
    intro w absent
    apply triple_consequence (importSession_spec w other data) (fun _ same => same)
    rintro - _ ⟨now, rfl⟩
    have without : (w.db.setMany settings.versioning now other
        (importEntries data)).value? sessionId key = none := by
      rw [Database.value?_setMany]
      split
      · rename_i same
        have missing : data.get? key = none :=
          (InsertionMap.get?_eq_none_iff data key).mpr fun inside => spares ⟨same.symm, inside⟩
        rw [written_importEntries, missing, absent.db]
        rfl
      · exact absent.db
    exact (absent.changed without).shrink (deleteByPrefix_shrinks _ _)
  | clearCache other =>
    apply triple_from
    intro w absent
    apply triple_consequence (clearCache_spec w other) (fun _ same => same)
    rintro - _ ⟨cache, rfl, shrinks⟩
    exact absent.shrink shrinks

theorem step_absent {w next : Cluster Unit} {event : Event Unit}
    (absent : Absent sessionId key settings w) (sparing : Sparing sessionId key settings w event)
    (taken : step settings w event = some next) : Absent sessionId key settings next := by
  cases event with
  | operate _ operation oracle =>
    cases taken
    obtain ⟨spares, along⟩ := sparing
    obtain ⟨_, -, after⟩ := triple_returns (operation_absent operation spares) absent
      (along.mono accepted_tolerable)
    exact after
  | deliver subscriber name =>
    refine ⟨environment_settled absent.settled (fun _ _ _ same => by cases same) taken, ?_⟩
    obtain ⟨-, rfl⟩ := deliver_taken taken
    exact absent.db
  | sweepExpired | evict | loseL2 | restart =>
    have settled := environment_settled absent.settled (fun _ _ _ same => by cases same) taken
    cases taken
    exact ⟨settled, absent.db⟩

theorem run_absent {w final : Cluster Unit} {events : List (Event Unit)}
    (absent : Absent sessionId key settings w)
    (run : Run (step settings) (Sparing sessionId key settings) w events final) :
    Absent sessionId key settings final :=
  run.invariant _ (fun _ _ _ before sparing taken => step_absent before sparing taken) absent

theorem get_from_l2 {w : Cluster Instance} {held : Versioned} (redis : settings.redis ≠ none)
    (missing : (w.l1 self).peek (cacheKey sessionId key) = none)
    (present : w.l2.get? (cacheKey sessionId key) = some held) {oracle : Oracle Choice}
    (accepted : ∀ index, (oracle index).rejection = none) :
    (evaluate (effect settings self) (get settings.redis sessionId key) oracle w).result =
      .ok (some held.value) := by
  have lookup : Triple (effect settings self) (fun _ _ => (Choice.rejection · = none)) (· = w)
      (l1Get (cacheKey sessionId key)) (Returns fun hit next => hit = none ∧ next.l2 = w.l2) := by
    constructor
    rintro oracle _ rfl -
    simp only [l1Get, perform, evaluate, effect, get_absent missing]
    exact ⟨rfl, rfl⟩
  have found : Triple (effect settings self) (fun _ _ => (Choice.rejection · = none))
      (fun next => next.l2 = w.l2) (safeL2Get settings.redis (cacheKey sessionId key))
      (Returns fun hit _ => hit = some held) := by
    cases mode : settings.redis with
    | none => exact absurd mode redis
    | some mode =>
      constructor
      rintro oracle next same ⟨accepted, -⟩
      simp only [safeL2Get, tryCatch, l2Get, recover, evaluate, effect, same, present,
        settle_accepted accepted]
      rfl
  have answers : Triple (effect settings self) (fun _ _ => (Choice.rejection · = none)) (· = w)
      (get settings.redis sessionId key) (Returns fun result _ => result = some held.value) := by
    unfold get
    apply triple_then lookup
    intro hit
    apply triple_from
    rintro next ⟨rfl, same⟩
    unfold readL2
    apply triple_then (triple_consequence found (by rintro _ rfl; exact same)
      fun _ _ after => after)
    intro l2Hit
    apply triple_from
    rintro after rfl
    dsimp only
    apply triple_then (l1Set_spec after _ held.value held.version)
    intro _
    apply triple_done
    exact fun _ _ => rfl
  obtain ⟨result, returned, rfl⟩ := triple_returns answers rfl
    (Along.of_oracle (effect settings self) _ w accepted)
  exact returned

theorem missed_read_iff {w : Cluster Unit} {value : Option String}
    (missing : (w.l1 ()).peek (cacheKey sessionId key) = none)
    (stored : w.db.value? sessionId key = value) :
    (∀ oracle : Oracle Choice, (∀ index, (oracle index).rejection = none) →
      (evaluate (effect settings ()) (get settings.redis sessionId key) oracle w).result =
        .ok value) ↔
      settings.redis = none ∨
        ∀ held, w.l2.get? (cacheKey sessionId key) = some held → value = some held.value := by
  constructor
  · intro right
    by_cases redis : settings.redis = none
    · exact .inl redis
    · right
      intro held present
      have answer := right (fun _ => ⟨0, none⟩) fun _ => rfl
      rw [get_from_l2 redis missing present fun _ => rfl] at answer
      exact (Except.ok.inj answer).symm
  · intro agrees oracle accepted
    have settled : Settled settings (pair sessionId key) False w := by
      constructor
      · rintro _ _ _ held ⟨rfl, rfl⟩ present
        rw [missing] at present
        cases present
      · rintro redis _ _ held ⟨rfl, rfl⟩ present
        exact .inr (stored.trans (agrees.resolve_left redis held present))
    have undisturbed : Undisturbed (pair sessionId key) False () w.inbox sessionId key :=
      ⟨⟨rfl, rfl⟩, fun message => message.1⟩
    rw [← stored]
    exact get_current settled () (pair_owns sessionId key) undisturbed
      (along_accepted _ w accepted)

/-- Reads of the pair find nothing, whatever has happened to the caches since. -/
def StaysGone (settings : Settings) (sessionId key : String) (w : Cluster Unit) : Prop :=
  ∀ events later, Run (step settings) (Sparing sessionId key settings) w events later →
    ∀ oracle : Oracle Choice, (∀ index, (oracle index).rejection = none) →
      (evaluate (effect settings ()) (get settings.redis sessionId key) oracle later).result =
        .ok none

theorem staysGone_iff {w : Cluster Unit}
    (missing : (w.l1 ()).peek (cacheKey sessionId key) = none)
    (gone : w.db.value? sessionId key = none) :
    StaysGone settings sessionId key w ↔
      settings.redis = none ∨ w.l2.get? (cacheKey sessionId key) = none := by
  constructor
  · intro stays
    rcases (missed_read_iff missing gone).mp (stays [] w (.nil w)) with redis | empty
    · exact .inl redis
    · right
      cases present : w.l2.get? (cacheKey sessionId key) with
      | none => rfl
      | some held => cases empty held present
  · intro empty events later run oracle accepted
    have absent : Absent sessionId key settings w := by
      refine ⟨⟨?_, ?_⟩, gone⟩
      · rintro _ _ _ held ⟨rfl, rfl⟩ present
        rw [missing] at present
        cases present
      · rintro redis _ _ held ⟨rfl, rfl⟩ present
        rw [empty.resolve_left redis] at present
        cases present
    have still := run_absent absent run
    have undisturbed : Undisturbed (pair sessionId key) False () later.inbox sessionId key :=
      ⟨⟨rfl, rfl⟩, fun message => message.1⟩
    rw [← still.db]
    exact get_current still.settled () (pair_owns sessionId key) undisturbed
      (along_accepted _ later accepted)

/-- A read of the key finds what was imported, and what the database holds if it was not. -/
def ReadsImported (settings : Settings) (sessionId : String) (data : InsertionMap String String)
    (key : String) (w : Cluster Unit) : Prop :=
  ∀ oracle : Oracle Choice, (∀ index, (oracle index).rejection = none) →
    (evaluate (effect settings ()) (get settings.redis sessionId key) oracle w).result =
      .ok ((data.get? key).or (w.db.value? sessionId key))

/-- A deleted pair stays gone exactly when L2 does not hold it, and after an import it is read as
imported, or as stored before, exactly when L2 holds nothing else for it. -/
theorem session_operations_visible (settings : Settings) (w : Cluster Unit)
    (sessionId key : String) (oracle : Oracle Choice)
    (accepted : ∀ index, (oracle index).rejection = none) :
    (StaysGone settings sessionId key
        (evaluate (effect settings ()) (deleteSession sessionId) oracle w).world ↔
      settings.redis = none ∨ w.l2.get? (cacheKey sessionId key) = none) ∧
    ∀ data, ReadsImported settings sessionId data key
        (evaluate (effect settings ()) (importSession sessionId data) oracle w).world ↔
      settings.redis = none ∨ ∀ held, w.l2.get? (cacheKey sessionId key) = some held →
        (data.get? key).or (w.db.value? sessionId key) = some held.value := by
  constructor
  · obtain ⟨_, -, deleted⟩ :=
      triple_returns (deleteSession_spec w sessionId) rfl (along_accepted _ w accepted)
    rw [deleted]
    apply staysGone_iff
    · exact cleared_absent _ () sessionId key
    · exact (Database.value?_deleteSession w.db sessionId sessionId key).trans (if_pos rfl)
  · intro data
    obtain ⟨_, -, now, imported⟩ :=
      triple_returns (importSession_spec w sessionId data) rfl (along_accepted _ w accepted)
    generalize (evaluate (effect settings ()) (importSession sessionId data) oracle w).world =
      after at imported
    have stored : after.db.value? sessionId key =
        (data.get? key).or (w.db.value? sessionId key) := by
      rw [imported]
      refine (Database.value?_setMany _ _ _ _ _ _ _).trans ?_
      rw [if_pos rfl, written_importEntries]
    have missing : (after.l1 ()).peek (cacheKey sessionId key) = none := by
      rw [imported]
      exact cleared_absent _ () sessionId key
    have l2 : after.l2 = w.l2 := by
      rw [imported]
      rfl
    have expected : (data.get? key).or (after.db.value? sessionId key) =
        (data.get? key).or (w.db.value? sessionId key) := by
      rw [stored]
      cases data.get? key <;> rfl
    unfold ReadsImported
    rw [expected]
    apply (missed_read_iff missing stored).trans
    rw [l2]

def everything : Scope := fun _ _ => True

theorem owns_everything {sessionId key : String} (plain : Plain sessionId)
    (plainKey : ':' ∉ key.toList) : Owns everything sessionId key := by
  intro other name _ same
  have lists := congrArg String.toList same
  rw [cacheKey_toList, cacheKey_toList] at lists
  have counts := congrArg (List.count ':') lists
  rw [List.count_append, List.count_append, List.count_cons_self, List.count_cons_self,
    List.count_eq_zero.mpr plain, List.count_eq_zero.mpr plainKey] at counts
  have otherPlain : ':' ∉ other.toList := List.count_eq_zero.mp (by omega)
  have parts := Text.split_unique otherPlain plain lists
  exact ⟨String.toList_inj.mp parts.1, String.toList_inj.mp parts.2⟩

def cachedSettings (redis : Option RedisMode) : Settings where
  memory := ⟨none, none, none⟩
  redis := redis
  versioning := fun version => version.getD 0 + 1

def unfailing : Oracle Choice := fun _ => ⟨0, none⟩

def stored (redis : Option RedisMode) : Cluster Unit :=
  (evaluate (effect (cachedSettings redis) ())
    (keysSet redis "bot" ⟨[⟨"session-x", "1"⟩], []⟩) unfailing
    (Cluster.initial (cachedSettings redis) .empty)).world

theorem stored_agrees (redis : Option RedisMode) :
    Settled (cachedSettings redis) everything False (stored redis) := by
  have owned : ∀ change ∈ KeysSet.Changes.sections ⟨[⟨"session-x", "1"⟩], []⟩,
      ∀ key ∈ change.keys, Owns everything "bot" key := by
    intro change inside key present
    obtain rfl : change = .upsert [⟨"session-x", "1"⟩] := List.mem_singleton.mp inside
    obtain rfl := List.mem_singleton.mp present
    exact owns_everything (by decide) (by decide)
  obtain ⟨_, -, settled⟩ := triple_returns
    (keysSet_spec (single_connected (cachedSettings redis)) "bot" _ owned)
    (initial_coherent .empty) (along_accepted _ _ fun index => (rfl : (unfailing index).rejection = _))
  exact settled

theorem session_operations_visible_without_redis :
    StaysGone (cachedSettings none) "bot" "session-x"
      (evaluate (effect (cachedSettings none) ()) (deleteSession "bot") unfailing
        (stored none)).world ∧
    ReadsImported (cachedSettings none) "bot" (InsertionMap.empty.set "session-x" "2") "session-x"
      (evaluate (effect (cachedSettings none) ())
        (importSession "bot" (InsertionMap.empty.set "session-x" "2")) unfailing
        (stored none)).world :=
  have visible := session_operations_visible (cachedSettings none) (stored none) "bot" "session-x"
    unfailing fun _ => rfl
  ⟨visible.1.mpr (.inl rfl), (visible.2 _).mpr (.inl rfl)⟩

def OldValueRead (mode : RedisMode) : Prop :=
  Settled (cachedSettings (some mode)) everything False (stored (some mode)) ∧
    (evaluate (effect (cachedSettings (some mode)) ()) (get (some mode) "bot" "session-x")
      unfailing (evaluate (effect (cachedSettings (some mode)) ()) (deleteSession "bot")
        unfailing (stored (some mode))).world).result = .ok (some "1") ∧
    (evaluate (effect (cachedSettings (some mode)) ()) (get (some mode) "bot" "session-x")
      unfailing (evaluate (effect (cachedSettings (some mode)) ())
        (importSession "bot" (InsertionMap.empty.set "session-x" "2"))
        unfailing (stored (some mode))).world).result = .ok (some "1")

theorem deleted_session_read_from_l2 : OldValueRead .tcp ∧ OldValueRead .http :=
  ⟨⟨stored_agrees _, rfl, rfl⟩, ⟨stored_agrees _, rfl, rfl⟩⟩

end BaileysSession.CacheManager
