import BaileysSession.Cache.Coherence

set_option autoImplicit false

namespace BaileysSession.CacheManager

open Async MemoryCache

variable {Instance : Type} [DecidableEq Instance] {settings : Settings} {scope : Scope}
  {shared : Prop} {self : Instance}

section Calls

variable (w : Cluster Instance) (compositeKey : String)

theorem safeL2Get_spec {ok : Cluster Instance → Call → Choice → Prop} :
    Triple (effect settings self) ok (· = w) (safeL2Get settings.redis compositeKey)
      (Returns fun hit next => next = w ∧ ∀ held, hit = some held →
        settings.redis ≠ none ∧ w.l2.get? compositeKey = some held) := by
  unfold safeL2Get
  split
  · apply triple_done
    rintro _ rfl
    refine ⟨rfl, ?_⟩
    intro held found
    cases found
  · rename_i redis
    constructor
    rintro oracle _ rfl -
    cases refused : (oracle 0).rejection <;>
      simp [tryCatch, l2Get, recover, evaluate, effect, Choice.answer, refused, settle, Returns,
        pure, throw, redis]

theorem safeL2Set_spec (value : String) (version : Int) :
    Triple (effect settings self) (Tolerable shared) (· = w)
      (safeL2Set settings.redis compositeKey value version)
      (Returns fun _ next => ∃ l2, next = { w with l2 } ∧
        (settings.redis ≠ none → Replaces compositeKey (some value) w.l2.get? l2.get?)) := by
  unfold safeL2Set
  split
  · rename_i redis
    apply triple_done
    rintro world rfl
    exact ⟨world.l2, rfl, fun connected => absurd redis connected⟩
  · constructor
    rintro oracle world rfl ⟨tolerable, -⟩
    have replaced : Replaces compositeKey (some value) world.l2.get?
        (if (oracle 0).applies compositeKey then world.l2.set compositeKey ⟨value, version⟩
          else world.l2).get? := by
      split
      · exact replaces_l2Set world.l2 compositeKey value version
      · rename_i failed
        apply replaces_unchanged
        intro held present
        rw [tolerable.resolve_left failed held present]
    cases refused : (oracle 0).rejection <;>
      simp only [tryCatch, l2Set, recover, evaluate, effect, Choice.answer, refused, settle,
        pure, throw, MonadExcept.throw] <;>
      exact ⟨_, rfl, fun _ => replaced⟩

theorem deleteL2_spec :
    Triple (effect settings self) (Tolerable shared) (· = w)
      (deleteL2 settings.redis compositeKey)
      (Returns fun _ next => ∃ l2, next = { w with l2 } ∧
        (settings.redis ≠ none → Replaces compositeKey none w.l2.get? l2.get?)) := by
  unfold deleteL2
  split
  · rename_i redis
    apply triple_done
    rintro world rfl
    exact ⟨world.l2, rfl, fun connected => absurd redis connected⟩
  · constructor
    rintro oracle world rfl ⟨tolerable, -⟩
    have replaced : Replaces compositeKey none world.l2.get?
        (if (oracle 0).applies compositeKey then world.l2.erase compositeKey
          else world.l2).get? := by
      split
      · exact replaces_l2Del world.l2 compositeKey
      · rename_i failed
        apply replaces_unchanged
        intro held present
        rw [tolerable.resolve_left failed] at present
        cases present
    cases refused : (oracle 0).rejection <;>
      simp only [tryCatch, l2Del, recover, evaluate, effect, Choice.answer, refused, settle,
        pure, throw, MonadExcept.throw] <;>
      exact ⟨_, rfl, fun _ => replaced⟩

theorem publish_spec (connected : Connected settings shared Instance) :
    Triple (effect settings self) (Tolerable shared) (· = w) (publish settings.redis compositeKey)
      (Returns fun _ next => ∃ inbox, next = { w with inbox } ∧
        (∀ other key, key ∈ w.inbox other → key ∈ inbox other) ∧
        (shared → ∀ other, compositeKey ∈ inbox other)) := by
  unfold publish
  split
  · constructor
    rintro oracle world rfl ⟨tolerable, -⟩
    have kept : ∀ other key, key ∈ world.inbox other →
        key ∈ (if (oracle 0).applies compositeKey then
          fun other => world.inbox other ++ [compositeKey] else world.inbox) other := by
      intro other key message
      split
      · exact List.mem_append_left _ message
      · exact message
    have told : shared → ∀ other,
        compositeKey ∈ (if (oracle 0).applies compositeKey then
          fun other => world.inbox other ++ [compositeKey] else world.inbox) other := by
      intro isShared other
      rw [if_pos (tolerable isShared)]
      exact List.mem_append_right _ (List.mem_singleton.mpr rfl)
    cases refused : (oracle 0).rejection <;>
      simp only [tryCatch, publishInvalidation, recover, evaluate, effect, Choice.answer, refused,
        settle, pure, throw, MonadExcept.throw] <;>
      exact ⟨_, rfl, kept, told⟩
  · rename_i silent
    apply triple_done
    rintro world rfl
    refine ⟨world.inbox, rfl, fun _ _ message => message, ?_⟩
    intro isShared
    exact absurd (connected.published isShared) silent

theorem l1Set_spec {ok : Cluster Instance → Call → Choice → Prop} (value : String) (version : Int) :
    Triple (effect settings self) ok (· = w) (l1Set compositeKey value version)
      (Returns fun _ next => ∃ cache, next = w.withL1 self cache ∧
        Replaces compositeKey (some value) (w.l1 self).peek cache.peek) := by
  constructor
  rintro oracle _ rfl -
  exact ⟨_, rfl, replaces_l1Set _ _ compositeKey value version⟩

theorem l1Delete_spec {ok : Cluster Instance → Call → Choice → Prop} :
    Triple (effect settings self) ok (· = w) (l1Delete compositeKey)
      (Returns fun _ next => ∃ cache, next = w.withL1 self cache ∧
        Replaces compositeKey none (w.l1 self).peek cache.peek) := by
  constructor
  rintro oracle _ rfl -
  exact ⟨_, rfl, replaces_l1Delete _ compositeKey⟩

theorem dateNow_spec {ok : Cluster Instance → Call → Choice → Prop}
    {before : Cluster Instance → Prop} :
    Triple (effect settings self) ok before dateNow (Returns fun _ => before) :=
  ⟨fun _ _ holds _ => holds⟩

end Calls

section Rows

variable {ok : Cluster Instance → Call → Choice → Prop} {w : Cluster Instance} {sessionId : String}

theorem adapterGet_ends (key : String) :
    Triple (effect settings self) ok (· = w) (adapterGet sessionId key)
      (Ends (· = w) fun record next => next = w ∧ record = w.db.get sessionId key) := by
  constructor
  rintro oracle _ rfl -
  simp only [adapterGet, evaluate, effect, Choice.answer]
  cases (oracle 0).rejection with
  | none => exact ⟨rfl, rfl⟩
  | some rejection => exact rfl

theorem adapterGetMany_ends (keys : List String) :
    Triple (effect settings self) ok (· = w) (adapterGetMany sessionId keys)
      (Ends (· = w) fun records next => next = w ∧ records = w.db.getMany sessionId keys) := by
  constructor
  rintro oracle _ rfl -
  simp only [adapterGetMany, evaluate, effect, Choice.answer]
  cases (oracle 0).rejection with
  | none => exact ⟨rfl, rfl⟩
  | some rejection => exact rfl

theorem adapterGetAllKeys_ends :
    Triple (effect settings self) ok (· = w) (adapterGetAllKeys sessionId)
      (Ends (· = w) fun keys next => next = w ∧ keys = w.db.getAllKeys sessionId) := by
  constructor
  rintro oracle _ rfl -
  simp only [adapterGetAllKeys, evaluate, effect, Choice.answer]
  cases (oracle 0).rejection with
  | none => exact ⟨rfl, rfl⟩
  | some rejection => exact rfl

theorem lookupL1_asked {inv : Cluster Instance → Prop} {redis : Option RedisMode}
    (looks : ∀ key, Triple (effect settings self) ok inv (l1Get (cacheKey sessionId key))
      (Ends inv fun _ => inv))
    (keys : List String) (result : InsertionMap String String) (misses : List String) :
    Triple (effect settings self) ok inv (lookupL1 redis sessionId keys result misses)
      (Ends inv fun found w => inv w ∧ ∀ key ∈ found.2, key ∈ misses ∨ key ∈ keys) := by
  induction keys generalizing result misses with
  | nil =>
    apply triple_done
    exact fun _ holds => ⟨holds, fun _ missed => .inl missed⟩
  | cons key rest ih =>
    have missed : Triple (effect settings self) ok inv
        (lookupL1 redis sessionId rest result (misses ++ [key]))
        (Ends inv fun found w => inv w ∧ ∀ other ∈ found.2, other ∈ misses ∨ other ∈ key :: rest) := by
      apply triple_weaken (ih result (misses ++ [key])) (fun _ same => same) (fun _ left => left)
      rintro found w ⟨holds, asked⟩
      simpa [or_assoc] using And.intro holds asked
    rw [lookupL1]
    apply triple_ends (looks key)
    intro l1Hit
    cases l1Hit with
    | none => exact missed
    | some hit =>
      dsimp only
      split
      · apply triple_weaken (ih (result.set key hit.value) misses) (fun _ same => same)
          (fun _ left => left)
        rintro found w ⟨holds, asked⟩
        exact ⟨holds, fun other inside => (asked other inside).imp id (List.mem_cons_of_mem key)⟩
      · exact missed

end Rows

theorem onWritten_spec (connected : Connected settings shared Instance) (w : Cluster Instance)
    (sessionId key value : String) (version : Int) :
    Triple (effect settings self) (Tolerable shared) (· = w)
      (onWritten settings.redis sessionId key value version)
      (Returns fun _ next =>
        Refreshed settings shared self (cacheKey sessionId key) (some value) w next) := by
  unfold onWritten announceWritten
  apply triple_then (l1Set_spec w _ value version)
  intro _
  apply triple_from
  rintro _ ⟨cache, rfl, l1⟩
  apply triple_then (safeL2Set_spec _ _ value version)
  intro _
  apply triple_from
  rintro _ ⟨l2, rfl, replaced⟩
  apply triple_consequence (publish_spec _ _ connected) (fun _ same => same)
  rintro - _ ⟨inbox, rfl, kept, told⟩
  constructor
  · simpa [Cluster.withL1] using l1
  · intro other different
    simp [Cluster.withL1, different]
  · exact replaced
  · rfl
  · exact kept
  · exact told

theorem onDeleted_spec (connected : Connected settings shared Instance) (w : Cluster Instance)
    (sessionId key : String) :
    Triple (effect settings self) (Tolerable shared) (· = w)
      (onDeleted settings.redis sessionId key)
      (Returns fun _ next =>
        Refreshed settings shared self (cacheKey sessionId key) none w next) := by
  unfold onDeleted announceDeleted
  apply triple_then (l1Delete_spec w _)
  intro _
  apply triple_from
  rintro _ ⟨cache, rfl, l1⟩
  apply triple_then (deleteL2_spec _ _)
  intro _
  apply triple_from
  rintro _ ⟨l2, rfl, replaced⟩
  apply triple_consequence (publish_spec _ _ connected) (fun _ same => same)
  rintro - _ ⟨inbox, rfl, kept, told⟩
  constructor
  · simpa [Cluster.withL1] using l1
  · intro other different
    simp [Cluster.withL1, different]
  · exact replaced
  · rfl
  · exact kept
  · exact told

/-- Coherent but for the keys of a session whose update is still to come, over these rows. -/
def Updating (settings : Settings) (scope : Scope) (shared : Prop) (db : Database)
    (sessionId : String) (keys : List String) (w : Cluster Instance) : Prop :=
  Coherent settings scope shared (pendingKeys sessionId keys) w ∧ w.db = db

theorem onWrittenEach_spec (connected : Connected settings shared Instance) (db : Database)
    (sessionId : String) (entries : List Entry)
    (owns : ∀ key ∈ entries.map Entry.key, Owns scope sessionId key)
    (stored : ∀ key ∈ entries.map Entry.key,
      db.value? sessionId key = Database.written entries key) :
    Triple (effect settings self) (Tolerable shared)
      (Updating settings scope shared db sessionId (entries.map Entry.key))
      (onWrittenEach settings.redis sessionId entries)
      (Returns fun _ => Updating settings scope shared db sessionId []) := by
  induction entries with
  | nil =>
    apply triple_done
    exact fun _ holds => holds
  | cons entry rest ih =>
    have later : ∀ key ∈ rest.map Entry.key,
        db.value? sessionId key = Database.written rest key := by
      intro key inside
      rw [stored key (List.mem_cons_of_mem _ inside), Database.written_later inside]
    have current : entry.key ∉ rest.map Entry.key →
        db.value? sessionId entry.key = some entry.value := by
      intro last
      rw [stored entry.key List.mem_cons_self, Database.written_last last]
    have each : ∀ version, Triple (effect settings self) (Tolerable shared)
        (Updating settings scope shared db sessionId (entry.key :: rest.map Entry.key))
        (onWritten settings.redis sessionId entry.key entry.value version)
        (Returns fun _ => Updating settings scope shared db sessionId (rest.map Entry.key)) := by
      intro version
      apply triple_from
      rintro w ⟨coherent, rfl⟩
      apply triple_consequence (onWritten_spec connected w sessionId entry.key entry.value version)
        (fun _ same => same)
      intro _ next refreshed
      exact ⟨refreshed.coherent (owns entry.key List.mem_cons_self) connected coherent current,
        refreshed.db⟩
    rw [onWrittenEach]
    apply triple_then dateNow_spec
    intro version
    apply triple_then (each version)
    exact fun _ => ih (fun key inside => owns key (List.mem_cons_of_mem _ inside)) later

theorem onDeletedEach_spec (connected : Connected settings shared Instance) (db : Database)
    (sessionId : String) (keys : List String) (owns : ∀ key ∈ keys, Owns scope sessionId key)
    (gone : ∀ key ∈ keys, db.value? sessionId key = none) :
    Triple (effect settings self) (Tolerable shared)
      (Updating settings scope shared db sessionId keys)
      (onDeletedEach settings.redis sessionId keys)
      (Returns fun _ => Updating settings scope shared db sessionId []) := by
  induction keys with
  | nil =>
    apply triple_done
    exact fun _ holds => holds
  | cons key rest ih =>
    have first : Triple (effect settings self) (Tolerable shared)
        (Updating settings scope shared db sessionId (key :: rest))
        (onDeleted settings.redis sessionId key)
        (Returns fun _ => Updating settings scope shared db sessionId rest) := by
      apply triple_from
      rintro w ⟨coherent, rfl⟩
      apply triple_consequence (onDeleted_spec connected w sessionId key) (fun _ same => same)
      intro _ next refreshed
      have current : key ∉ rest → w.db.value? sessionId key = none :=
        fun _ => gone key List.mem_cons_self
      exact ⟨refreshed.coherent (owns key List.mem_cons_self) connected coherent current,
        refreshed.db⟩
    rw [onDeletedEach]
    apply triple_then first
    exact fun _ => ih (fun other inside => owns other (List.mem_cons_of_mem key inside))
      fun other inside => gone other (List.mem_cons_of_mem key inside)

/-- Nothing is pending: all levels agree with the database, up to messages under way. -/
abbrev Settled (settings : Settings) (scope : Scope) (shared : Prop)
    (w : Cluster Instance) : Prop :=
  Coherent settings scope shared nothing w

omit [DecidableEq Instance] in
theorem updating_settled {db : Database} {sessionId : String} {w : Cluster Instance}
    (updating : Updating settings scope shared db sessionId [] w) :
    Settled settings scope shared w ∧ w.db = db := by
  refine ⟨updating.1.mono ?_, updating.2⟩
  rintro other key ⟨-, inside⟩
  cases inside

omit [DecidableEq Instance] in
theorem Coherent.rows_changed {w : Cluster Instance} {sessionId : String} {keys : List String}
    {db : Database} (coherent : Settled settings scope shared w)
    (others : ∀ other key, ¬ pendingKeys sessionId keys other key →
      db.value? other key = w.db.value? other key) :
    Updating settings scope shared db sessionId keys { w with db } := by
  refine ⟨⟨?_, ?_⟩, rfl⟩
  · intro reader other key held inScope present
    by_cases waiting : pendingKeys sessionId keys other key
    · exact .inl waiting
    · rw [others other key waiting]
      exact (coherent.l1 reader other key held inScope present).imp_left False.elim
  · intro redis other key held inScope present
    by_cases waiting : pendingKeys sessionId keys other key
    · exact .inl waiting
    · rw [others other key waiting]
      exact (coherent.l2 redis other key held inScope present).imp_left False.elim

theorem adapterSetMany_spec (w : Cluster Instance) (sessionId : String) (entries : List Entry) :
    Triple (effect settings self) (Tolerable shared) (· = w) (adapterSetMany sessionId entries)
      (Returns fun _ next => ∃ now,
        next = { w with db := w.db.setMany settings.versioning now sessionId entries }) := by
  constructor
  rintro oracle _ rfl ⟨accepted, -⟩
  simp only [adapterSetMany, evaluate, effect, settle_accepted accepted,
    applies_accepted accepted, List.filter_true]
  exact ⟨_, rfl⟩

theorem adapterDeleteMany_spec (w : Cluster Instance) (sessionId : String) (keys : List String) :
    Triple (effect settings self) (Tolerable shared) (· = w) (adapterDeleteMany sessionId keys)
      (Returns fun _ next => next = { w with db := w.db.deleteMany sessionId keys }) := by
  constructor
  rintro oracle _ rfl ⟨accepted, -⟩
  simp only [adapterDeleteMany, evaluate, effect, settle_accepted accepted,
    applies_accepted accepted, List.filter_true]
  rfl

def announceEach (redis : Option RedisMode) (sessionId : String) : KeysSet.Section → Program Unit
  | .upsert entries => onWrittenEach redis sessionId entries
  | .remove deletions => onDeletedEach redis sessionId deletions

theorem announceEach_spec (connected : Connected settings shared Instance) (w : Cluster Instance)
    (settled : Settled settings scope shared w) (sessionId : String) (change : KeysSet.Section)
    (owns : ∀ key ∈ change.keys, Owns scope sessionId key) (now : Int) :
    Triple (effect settings self) (Tolerable shared)
      (· = { w with db := change.write settings.versioning now sessionId w.db })
      (announceEach settings.redis sessionId change)
      (Returns fun _ next => Settled settings scope shared next ∧
        next.db = change.write settings.versioning now sessionId w.db) := by
  have pending : Updating settings scope shared
      (change.write settings.versioning now sessionId w.db) sessionId change.keys
      { w with db := change.write settings.versioning now sessionId w.db } := by
    apply Coherent.rows_changed settled
    intro other key apart
    rw [KeysSet.value?_write]
    exact if_neg apart
  have leaves : ∀ key ∈ change.keys,
      (change.write settings.versioning now sessionId w.db).value? sessionId key =
        change.leaves key := by
    intro key inside
    rw [KeysSet.value?_write, if_pos ⟨rfl, inside⟩]
  cases change with
  | upsert entries =>
    apply triple_consequence (onWrittenEach_spec connected _ sessionId entries owns leaves)
    · rintro _ rfl
      exact pending
    · exact fun _ _ updated => updating_settled updated
  | remove deletions =>
    apply triple_consequence (onDeletedEach_spec connected _ sessionId deletions owns leaves)
    · rintro _ rfl
      exact pending
    · exact fun _ _ updated => updating_settled updated

theorem runSection_spec (connected : Connected settings shared Instance) (w : Cluster Instance)
    (settled : Settled settings scope shared w) (sessionId : String) (change : KeysSet.Section)
    (owns : ∀ key ∈ change.keys, Owns scope sessionId key) :
    Triple (effect settings self) (Tolerable shared) (· = w)
      (runSection settings.redis sessionId change)
      (Returns fun _ next => Settled settings scope shared next ∧
        ∃ now, next.db = change.write settings.versioning now sessionId w.db) := by
  have announced : ∀ now, Triple (effect settings self) (Tolerable shared)
      (· = { w with db := change.write settings.versioning now sessionId w.db })
      (announceEach settings.redis sessionId change)
      (Returns fun _ next => Settled settings scope shared next ∧
        next.db = change.write settings.versioning now sessionId w.db) :=
    announceEach_spec connected w settled sessionId change owns
  cases change with
  | upsert entries =>
    apply triple_then (adapterSetMany_spec w sessionId entries)
    intro _
    apply triple_from
    rintro _ ⟨now, rfl⟩
    exact triple_consequence (announced now) (fun _ same => same)
      fun _ _ after => ⟨after.1, now, after.2⟩
  | remove deletions =>
    apply triple_then (adapterDeleteMany_spec w sessionId deletions)
    intro _
    apply triple_from
    rintro _ rfl
    exact triple_consequence (announced 0) (fun _ same => same)
      fun _ _ after => ⟨after.1, 0, after.2⟩

theorem runSections_spec {ok : Cluster Instance → Call → Choice → Prop}
    {inv : Cluster Instance → Prop} (sessionId : String) (sections : List KeysSet.Section)
    (each : ∀ change ∈ sections, Triple (effect settings self) ok inv
      (runSection settings.redis sessionId change) (Returns fun _ => inv)) :
    Triple (effect settings self) ok inv (runSections settings.redis sessionId sections)
      (Returns fun _ => inv) := by
  induction sections with
  | nil =>
    apply triple_done
    exact fun _ holds => holds
  | cons change rest ih =>
    rw [runSections]
    apply triple_then (each change List.mem_cons_self)
    exact fun _ => ih fun other inside => each other (List.mem_cons_of_mem change inside)

theorem keysSet_spec (connected : Connected settings shared Instance) (sessionId : String)
    (changes : KeysSet.Changes)
    (owns : ∀ change ∈ changes.sections, ∀ key ∈ change.keys, Owns scope sessionId key) :
    Triple (effect settings self) (Tolerable shared) (Settled settings scope shared)
      (keysSet settings.redis sessionId changes)
      (Returns fun _ => Settled settings scope shared) := by
  apply runSections_spec
  intro change inside
  apply triple_from
  intro w settled
  apply triple_consequence
    (runSection_spec connected w settled sessionId change (owns change inside))
    (fun _ same => same)
  exact fun _ _ after => after.1

def Reading (settings : Settings) (scope : Scope) (shared : Prop) (db : Database)
    (inbox : Instance → List String) (w : Cluster Instance) : Prop :=
  Settled settings scope shared w ∧ w.db = db ∧ w.inbox = inbox

omit [DecidableEq Instance] in
theorem Coherent.reading {w : Cluster Instance} (settled : Settled settings scope shared w) :
    Reading settings scope shared w.db w.inbox w :=
  ⟨settled, rfl, rfl⟩

structure Undisturbed (scope : Scope) (shared : Prop) (reader : Instance)
    (inbox : Instance → List String) (sessionId key : String) : Prop where
  inScope : scope sessionId key
  delivered : ¬ (shared ∧ cacheKey sessionId key ∈ inbox reader)

theorem Reading.shrink {db : Database} {inbox : Instance → List String} {w : Cluster Instance}
    (reading : Reading settings scope shared db inbox w) {cache : MemoryCache}
    (shrinks : Shrinks (w.l1 self) cache) :
    Reading settings scope shared db inbox (w.withL1 self cache) := by
  obtain ⟨settled, rfl, rfl⟩ := reading
  refine ⟨?_, rfl, rfl⟩
  apply settled.fewer
  · intro other
    rw [withL1_l1]
    split
    · rename_i same
      rw [same]
      exact shrinks
    · exact .refl _
  · exact fun _ _ held => held
  · rfl
  · exact fun _ _ message => message

theorem l1Get_spec {ok : Cluster Instance → Call → Choice → Prop} {db : Database}
    {inbox : Instance → List String} (sessionId key : String) :
    Triple (effect settings self) ok (Reading settings scope shared db inbox)
      (l1Get (cacheKey sessionId key))
      (Returns fun hit w => Reading settings scope shared db inbox w ∧ ∀ held, hit = some held →
        Undisturbed scope shared self inbox sessionId key →
          db.value? sessionId key = some held.value) := by
  constructor
  rintro oracle w reading -
  have kept := reading.shrink
    (get_shrinks (w.l1 self) (oracle 0).dateNow (cacheKey sessionId key))
  obtain ⟨settled, rfl, rfl⟩ := reading
  refine ⟨kept, ?_⟩
  intro held hit undisturbed
  have current := settled.l1 self sessionId key held undisturbed.inScope (get_hit hit)
  exact (current.resolve_left id).resolve_right undisturbed.delivered

theorem dropL1_spec {ok : Cluster Instance → Call → Choice → Prop} {db : Database}
    {inbox : Instance → List String} (compositeKey : String) :
    Triple (effect settings self) ok (Reading settings scope shared db inbox)
      (l1Delete compositeKey) (Returns fun _ => Reading settings scope shared db inbox) :=
  ⟨fun _ w reading _ => reading.shrink (delete_shrinks (w.l1 self) compositeKey)⟩

theorem fill_spec {db : Database} {inbox : Instance → List String} {compositeKey value : String}
    {version : Int} (fits : Fits scope db compositeKey value) :
    Triple (effect settings self) (Tolerable shared) (Reading settings scope shared db inbox)
      (l1Set compositeKey value version)
      (Returns fun _ => Reading settings scope shared db inbox) := by
  apply triple_from
  rintro w ⟨settled, rfl, rfl⟩
  apply triple_consequence (l1Set_spec w _ value version) (fun _ same => same)
  rintro - _ ⟨cache, rfl, l1⟩
  refine ⟨?_, rfl, rfl⟩
  apply settled.filled self fits
  · simpa [Cluster.withL1] using l1.gains
  · intro other different
    simp [Cluster.withL1, different]
  · exact fun _ => .refl _ _ _
  · rfl
  · rfl

theorem fillL2_spec {db : Database} {inbox : Instance → List String} {compositeKey value : String}
    {version : Int} (fits : Fits scope db compositeKey value) :
    Triple (effect settings self) (Tolerable shared) (Reading settings scope shared db inbox)
      (safeL2Set settings.redis compositeKey value version)
      (Returns fun _ => Reading settings scope shared db inbox) := by
  apply triple_from
  rintro w ⟨settled, rfl, rfl⟩
  apply triple_consequence (safeL2Set_spec w _ value version) (fun _ same => same)
  rintro - _ ⟨l2, rfl, replaced⟩
  refine ⟨?_, rfl, rfl⟩
  apply settled.filled self fits
  · exact .refl _ _ _
  · exact fun _ _ => rfl
  · exact fun redis => (replaced redis).gains
  · rfl
  · rfl

theorem adapterGet_spec {db : Database} {inbox : Instance → List String} (sessionId key : String) :
    Triple (effect settings self) (Tolerable shared) (Reading settings scope shared db inbox)
      (adapterGet sessionId key)
      (Returns fun record w =>
        Reading settings scope shared db inbox w ∧ record = db.get sessionId key) := by
  constructor
  rintro oracle w ⟨settled, rfl, rfl⟩ ⟨accepted, -⟩
  simp only [adapterGet, evaluate, effect, settle_accepted accepted]
  exact ⟨⟨settled, rfl, rfl⟩, rfl⟩

theorem readDatabase_spec {db : Database} {inbox : Instance → List String}
    {sessionId key : String} (owns : Owns scope sessionId key) :
    Triple (effect settings self) (Tolerable shared) (Reading settings scope shared db inbox)
      (readDatabase settings.redis sessionId key)
      (Returns fun result w =>
        Reading settings scope shared db inbox w ∧ result = db.value? sessionId key) := by
  unfold readDatabase
  apply triple_then (adapterGet_spec sessionId key)
  intro record
  apply triple_from
  rintro w ⟨reading, rfl⟩
  cases stored : db.get sessionId key with
  | none =>
    apply triple_done
    rintro _ rfl
    exact ⟨reading, by simp [Database.value?, stored]⟩
  | some record =>
    have current : db.value? sessionId key = some record.value := by simp [Database.value?, stored]
    dsimp only
    apply triple_then (triple_at reading (fill_spec (owns.fits current)))
    intro _
    apply triple_then (fillL2_spec (owns.fits current))
    intro _
    apply triple_done
    exact fun _ after => ⟨after, current.symm⟩

theorem readL2_spec {db : Database} {inbox : Instance → List String} {sessionId key : String}
    (owns : Owns scope sessionId key) :
    Triple (effect settings self) (Tolerable shared) (Reading settings scope shared db inbox)
      (readL2 settings.redis sessionId key)
      (Returns fun result w => Reading settings scope shared db inbox w ∧
        (scope sessionId key → result = db.value? sessionId key)) := by
  unfold readL2
  apply triple_from
  intro w reading
  apply triple_then (safeL2Get_spec w _)
  intro l2Hit
  apply triple_from
  rintro world ⟨rfl, found⟩
  cases l2Hit with
  | none =>
    exact triple_consequence (triple_at reading (readDatabase_spec owns)) (fun _ same => same)
      fun _ _ after => ⟨after.1, fun _ => after.2⟩
  | some hit =>
    obtain ⟨redis, stored⟩ := found hit rfl
    have fits : Fits scope db (cacheKey sessionId key) hit.value := by
      intro other name inScope same
      rw [← reading.2.1]
      exact (reading.1.l2 redis other name hit inScope (same ▸ stored)).resolve_left id
    dsimp only
    apply triple_then (triple_at reading (fill_spec fits))
    intro _
    apply triple_done
    exact fun _ after => ⟨after, fun inScope => (fits sessionId key inScope rfl).symm⟩

theorem get_spec {db : Database} {inbox : Instance → List String} {sessionId key : String}
    (owns : Owns scope sessionId key) :
    Triple (effect settings self) (Tolerable shared) (Reading settings scope shared db inbox)
      (get settings.redis sessionId key)
      (Returns fun result w => Reading settings scope shared db inbox w ∧
        (Undisturbed scope shared self inbox sessionId key → result = db.value? sessionId key)) := by
  have missed : Triple (effect settings self) (Tolerable shared)
      (Reading settings scope shared db inbox) (readL2 settings.redis sessionId key)
      (Returns fun result w => Reading settings scope shared db inbox w ∧
        (Undisturbed scope shared self inbox sessionId key → result = db.value? sessionId key)) :=
    triple_consequence (readL2_spec owns) (fun _ same => same)
      fun _ _ after => ⟨after.1, fun undisturbed => after.2 undisturbed.inScope⟩
  unfold get
  apply triple_then (l1Get_spec sessionId key)
  intro l1Hit
  apply triple_from
  rintro w ⟨reading, held⟩
  cases l1Hit with
  | none => exact triple_at reading missed
  | some hit =>
    have served : Triple (effect settings self) (Tolerable shared) (· = w)
        (pure (some hit.value) : Program (Option String))
        (Returns fun result w => Reading settings scope shared db inbox w ∧
          (Undisturbed scope shared self inbox sessionId key → result = db.value? sessionId key)) := by
      apply triple_done
      rintro _ rfl
      exact ⟨reading, fun undisturbed => (held hit rfl undisturbed).symm⟩
    dsimp only
    split
    · apply triple_then (safeL2Get_spec w _)
      intro l2Check
      apply triple_from
      rintro _ ⟨rfl, -⟩
      cases l2Check with
      | none => exact served
      | some check =>
        dsimp only
        split
        · apply triple_then (triple_at reading (dropL1_spec _))
          exact fun _ => missed
        · exact served
    · exact served

def Served (scope : Scope) (shared : Prop) (self : Instance) (db : Database)
    (inbox : Instance → List String)
    (sessionId : String) (result : InsertionMap String String) : Prop :=
  ∀ key value, result.get? key = some value → Undisturbed scope shared self inbox sessionId key →
    db.value? sessionId key = some value

omit [DecidableEq Instance] in
theorem Served.set {db : Database} {inbox : Instance → List String} {sessionId key value : String}
    {result : InsertionMap String String} (served : Served scope shared self db inbox sessionId result)
    (right : Undisturbed scope shared self inbox sessionId key →
      db.value? sessionId key = some value) :
    Served scope shared self db inbox sessionId (result.set key value) := by
  intro other found present undisturbed
  rw [InsertionMap.get?_set] at present
  split at present
  · rename_i same
    cases present
    exact same ▸ right (same ▸ undisturbed)
  · exact served other found present undisturbed

theorem lookupL1_spec {db : Database} {inbox : Instance → List String} {sessionId : String}
    (keys : List String) (result : InsertionMap String String)
    (misses : List String) (served : Served scope shared self db inbox sessionId result) :
    Triple (effect settings self) (Tolerable shared) (Reading settings scope shared db inbox)
      (lookupL1 settings.redis sessionId keys result misses)
      (Returns fun found w => Reading settings scope shared db inbox w ∧
        Served scope shared self db inbox sessionId found.1 ∧
        (∀ key, (result.get? key).isSome ∨ key ∈ misses ∨ key ∈ keys ↔
          (found.1.get? key).isSome ∨ key ∈ found.2)) := by
  induction keys generalizing result misses with
  | nil =>
    apply triple_done
    intro w reading
    refine ⟨reading, served, ?_⟩
    intro key
    simp
  | cons key rest ih =>
    have missed := ih result (misses ++ [key]) served
    rw [lookupL1]
    apply triple_then (l1Get_spec sessionId key)
    intro l1Hit
    apply triple_from
    rintro w ⟨reading, held⟩
    have missing : Triple (effect settings self) (Tolerable shared) (· = w)
        (lookupL1 settings.redis sessionId rest result (misses ++ [key]))
        (Returns fun found w => Reading settings scope shared db inbox w ∧
          Served scope shared self db inbox sessionId found.1 ∧
          (∀ other, (result.get? other).isSome ∨ other ∈ misses ∨ other ∈ key :: rest ↔
            (found.1.get? other).isSome ∨ other ∈ found.2)) := by
      apply triple_consequence (triple_at reading missed) fun _ same => same
      rintro found after ⟨later, right, covered⟩
      refine ⟨later, right, ?_⟩
      intro other
      rw [← covered other]
      simp only [List.mem_cons, List.mem_append, List.not_mem_nil, or_false, or_assoc]
    cases l1Hit with
    | none => exact missing
    | some hit =>
      dsimp only
      split
      · have right : Undisturbed scope shared self inbox sessionId key →
            db.value? sessionId key = some hit.value :=
          held hit rfl
        apply triple_consequence
          (triple_at reading (ih (result.set key hit.value) misses (served.set right)))
          fun _ same => same
        rintro found after ⟨later, right, covered⟩
        refine ⟨later, right, ?_⟩
        intro other
        rw [← covered other]
        by_cases same : other = key
        · simp [same]
        · simp [same]
      · exact missing

theorem backfill_spec {db : Database} {inbox : Instance → List String} {sessionId : String}
    (records : List (String × SessionRecord))
    (owns : ∀ entry ∈ records, Owns scope sessionId entry.1)
    (stored : ∀ entry ∈ records, db.get sessionId entry.1 = some entry.2)
    (result : InsertionMap String String)
    (served : Served scope shared self db inbox sessionId result) :
    Triple (effect settings self) (Tolerable shared) (Reading settings scope shared db inbox)
      (backfill settings.redis sessionId records result)
      (Returns fun found w => Reading settings scope shared db inbox w ∧
        Served scope shared self db inbox sessionId found ∧
        ∀ key, (result.get? key).isSome ∨ key ∈ records.map Prod.fst ↔
          (found.get? key).isSome) := by
  induction records generalizing result with
  | nil =>
    apply triple_done
    intro w reading
    refine ⟨reading, served, ?_⟩
    intro key
    simp
  | cons entry rest ih =>
    obtain ⟨key, record⟩ := entry
    have current : db.value? sessionId key = some record.value := by
      simp [Database.value?, stored (key, record) List.mem_cons_self]
    have fits : Fits scope db (cacheKey sessionId key) record.value :=
      (owns (key, record) List.mem_cons_self).fits current
    rw [backfill]
    apply triple_then (fill_spec fits)
    intro _
    apply triple_then (fillL2_spec fits)
    intro _
    apply triple_consequence
      (ih (fun other inside => owns other (List.mem_cons_of_mem _ inside))
        (fun other inside => stored other (List.mem_cons_of_mem _ inside))
        (result.set key record.value) (served.set fun _ => current)) (fun _ same => same)
    rintro found w ⟨reading, right, covered⟩
    refine ⟨reading, right, ?_⟩
    intro other
    rw [← covered other]
    by_cases same : other = key
    · simp [same]
    · simp [same]

theorem adapterGetMany_spec {db : Database} {inbox : Instance → List String} (sessionId : String)
    (keys : List String) :
    Triple (effect settings self) (Tolerable shared) (Reading settings scope shared db inbox)
      (adapterGetMany sessionId keys)
      (Returns fun records w =>
        Reading settings scope shared db inbox w ∧ records = db.getMany sessionId keys) := by
  constructor
  rintro oracle w ⟨settled, rfl, rfl⟩ ⟨accepted, -⟩
  simp only [adapterGetMany, evaluate, effect, settle_accepted accepted]
  exact ⟨⟨settled, rfl, rfl⟩, rfl⟩

/-- What a read of several keys gives: for those asked for what the database holds, and nothing
else. -/
structure Answered (scope : Scope) (shared : Prop) (reader : Instance) (db : Database)
    (inbox : Instance → List String) (sessionId : String) (keys : List String)
    (result : InsertionMap String String) : Prop where
  current : ∀ key ∈ keys, Undisturbed scope shared reader inbox sessionId key →
    result.get? key = db.value? sessionId key
  only : ∀ key, key ∉ keys → result.get? key = none

section GetMany

variable {db : Database} {inbox : Instance → List String} {sessionId : String} {keys : List String}
  {result : InsertionMap String String} {misses : List String}
  (served : Served scope shared self db inbox sessionId result)
  (covered : ∀ key, key ∈ keys ↔ (result.get? key).isSome ∨ key ∈ misses)

omit [DecidableEq Instance] in
include served covered in
theorem answered_complete (complete : misses.length = 0) :
    Answered scope shared self db inbox sessionId keys result := by
  have empty : misses = [] := List.length_eq_zero_iff.mp complete
  have present : ∀ key, key ∈ keys ↔ (result.get? key).isSome := by
    intro key
    rw [covered, empty, or_iff_left List.not_mem_nil]
  constructor
  · intro key requested undisturbed
    obtain ⟨value, found⟩ := Option.isSome_iff_exists.mp ((present key).mp requested)
    rw [found, served key value found undisturbed]
  · intro key unrequested
    rw [present, Option.not_isSome_iff_eq_none] at unrequested
    exact unrequested

omit [DecidableEq Instance] in
include covered in
theorem answered_filled {found : InsertionMap String String}
    (right : Served scope shared self db inbox sessionId found)
    (filled : ∀ key, (result.get? key).isSome ∨
      key ∈ (db.getMany sessionId misses).entries.map Prod.fst ↔ (found.get? key).isSome) :
    Answered scope shared self db inbox sessionId keys found := by
  have recorded : ∀ key, key ∈ (db.getMany sessionId misses).entries.map Prod.fst →
      key ∈ misses := by
    intro key present
    by_contra absent
    apply (InsertionMap.get?_eq_none_iff (db.getMany sessionId misses) key).mp _ present
    rw [Database.get?_getMany, if_neg absent]
  constructor
  · intro key requested undisturbed
    cases present : found.get? key with
    | some value => rw [right key value present undisturbed]
    | none =>
      have unfilled : ¬ ((result.get? key).isSome ∨
          key ∈ (db.getMany sessionId misses).entries.map Prod.fst) := by
        rw [filled, present]
        exact Bool.false_ne_true
      rw [not_or] at unfilled
      have missed := ((covered key).mp requested).resolve_left unfilled.1
      have absent := (InsertionMap.get?_eq_none_iff _ key).mpr unfilled.2
      rw [Database.get?_getMany, if_pos missed] at absent
      simp [Database.value?, absent]
  · intro key unrequested
    rw [covered, not_or] at unrequested
    have unfilled := mt (filled key).mpr
      (not_or.mpr ⟨unrequested.1, fun present => unrequested.2 (recorded key present)⟩)
    exact Option.not_isSome_iff_eq_none.mp unfilled

end GetMany

omit [DecidableEq Instance] in
theorem recorded_owned (db : Database) {sessionId : String} {misses : List String}
    (owns : ∀ key ∈ misses, Owns scope sessionId key) :
    ∀ entry ∈ (db.getMany sessionId misses).entries,
      Owns scope sessionId entry.1 ∧ db.get sessionId entry.1 = some entry.2 := by
  intro entry inside
  have found := (InsertionMap.get?_eq_some_iff _ entry.1 entry.2).mpr inside
  rw [Database.get?_getMany] at found
  split at found
  · rename_i missed
    exact ⟨owns entry.1 missed, found⟩
  · cases found

theorem getMany_spec {db : Database} {inbox : Instance → List String} {sessionId : String}
    (keys : List String) (owns : ∀ key ∈ keys, Owns scope sessionId key) :
    Triple (effect settings self) (Tolerable shared) (Reading settings scope shared db inbox)
      (getMany settings.redis sessionId keys)
      (Returns fun result w => Reading settings scope shared db inbox w ∧
        Answered scope shared self db inbox sessionId keys result) := by
  unfold getMany
  have none : Served scope shared self db inbox sessionId .empty := by
    intro key value present
    cases present
  apply triple_then (lookupL1_spec keys .empty [] none)
  rintro ⟨result, misses⟩
  apply triple_from
  rintro w ⟨reading, served, looked⟩
  have covered : ∀ key, key ∈ keys ↔ (result.get? key).isSome ∨ key ∈ misses := by
    intro key
    rw [← looked key]
    simp
  dsimp only
  split
  · rename_i complete
    apply triple_done
    rintro _ rfl
    exact ⟨reading, answered_complete served covered complete⟩
  · apply triple_then (triple_at reading (adapterGetMany_spec sessionId misses))
    intro records
    apply triple_from
    rintro next ⟨later, rfl⟩
    have recorded := recorded_owned db
      fun key missed => owns key ((covered key).mpr (.inr missed))
    apply triple_consequence (triple_at later
      (backfill_spec _ (fun entry inside => (recorded entry inside).1)
        (fun entry inside => (recorded entry inside).2) result served)) (fun _ same => same)
    rintro found _ ⟨after, right, filled⟩
    exact ⟨after, answered_filled covered right filled⟩

end BaileysSession.CacheManager
