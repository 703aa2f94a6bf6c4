import BaileysSession.Factory.KeysCollect
import BaileysSession.Factory.SaveCreds
import BaileysSession.Retention.Categories
import BaileysSession.Retention.PruneEffects

set_option autoImplicit false

namespace BaileysSession.RetentionScope

open Async CacheManager KeysSet Retention Transition

variable {Instance : Type} [DecidableEq Instance] {Value : Type}

section Tracking

abbrev Source := Category × String

def stored (call : KeysSet.Call Value) : List Source :=
  call.data.entries.flatMap fun bucket =>
    ((items bucket).filter fun item => call.truthy item.2).map fun item => (bucket.1, item.1)

def writer (call : KeysSet.Call Value) (key : String) : Option Source :=
  (stored call).reverse.find? fun source => decide (cacheKeyName source.1 source.2 = key)

/-- A cluster, and what each row was written under last; the creds have no such thing. -/
structure State (Instance : Type) where
  w : Cluster Instance
  origin : String → String → Option Source

def State.initial (settings : Settings) : State Instance := ⟨.initial settings .empty, fun _ _ => none⟩

/-- The origins after a call of a program whose rows are written under these. -/
def track (source : String → Option Source) (choice : Choice)
    (origin : String → String → Option Source) : CacheManager.Call → String → String → Option Source
  | .dbSetMany sessionId entries => fun other key =>
    if other = sessionId ∧ key ∈ (entries.filter fun entry => choice.applies entry.key).map Entry.key
    then source key else origin other key
  | _ => origin

def tracked (settings : Settings) (self : Instance) (source : String → Option Source) :
    Effect Reply Choice (State Instance) := fun call choice s =>
  let (reply, w) := effect settings self call choice s.w
  (reply, ⟨w, track source choice s.origin call⟩)

theorem evaluate_tracked {Result : Type} (settings : Settings) (self : Instance)
    (source : String → Option Source) (program : Program Result) (oracle : Oracle Choice)
    (s : State Instance) :
    (evaluate (tracked settings self source) program oracle s).world.w =
      (evaluate (effect settings self) program oracle s.w).world := by
  induction program generalizing oracle s with
  | done => rfl
  | failed => rfl
  | await call next ih => exact ih _ _ _

inductive Event (Instance Value : Type) where
  -- The two critical sections of a `keys.set` call; other sections may come between them.
  | upsert (self : Instance) (sessionId : String) (call : KeysSet.Call Value)
      (oracle : Oracle Choice)
  | remove (self : Instance) (sessionId : String) (call : KeysSet.Call Value)
      (oracle : Oracle Choice)
  | saveCreds (self : Instance) (sessionId creds : String) (oracle : Oracle Choice)

def step (settings : Settings) : Step (State Instance) (Event Instance Value) := fun s event =>
  match event with
  | .upsert self sessionId call oracle =>
    if (collect call).entries.length > 0 then
      some (evaluate (tracked settings self (writer call))
        (runSection settings.redis sessionId (.upsert (collect call).entries)) oracle s).world
    else none
  | .remove self sessionId call oracle =>
    if (collect call).deletions.length > 0 then
      some (evaluate (tracked settings self (writer call))
        (runSection settings.redis sessionId (.remove (collect call).deletions)) oracle s).world
    else none
  | .saveCreds self sessionId creds oracle =>
    some (evaluate (tracked settings self fun _ => none)
      (CacheManager.saveCreds settings.redis sessionId creds) oracle s).world

end Tracking

section Names

def Fits : Option Source → String → Prop
  | none, key => key = credsKey
  | some source, key => key = cacheKeyName source.1 source.2

def Named (s : State Instance) : Prop :=
  ∀ sessionId key record, s.w.db.get sessionId key = some record → Fits (s.origin sessionId key) key

def Fitting (source : String → Option Source) : CacheManager.Call → Prop
  | .dbSetMany _ entries => ∀ entry ∈ entries, Fits (source entry.key) entry.key
  | _ => True

variable {settings : Settings} {self : Instance} {source : String → Option Source}

theorem tracked_named (call : CacheManager.Call) (choice : Choice) (s : State Instance)
    (fitting : Fitting source call) (named : Named s) :
    Named (tracked settings self source call choice s).2 := by
  cases call with
  | dbSetMany session entries =>
    intro sessionId key record found
    simp only [tracked, effect] at found
    simp only [tracked, track]
    by_cases written : sessionId = session ∧
        key ∈ (entries.filter fun entry => choice.applies entry.key).map Entry.key
    · rw [if_pos written]
      obtain ⟨entry, inside, rfl⟩ := List.mem_map.mp written.2
      exact fitting entry (List.mem_filter.mp inside).1
    · rw [if_neg written]
      apply named sessionId key record
      by_cases session : sessionId = session
      · subst session
        rw [Database.get_setMany_of_not_mem] at found
        · exact found
        · exact fun inside => written ⟨rfl, inside⟩
      · rw [Database.get_setMany_other _ _ _ session] at found
        exact found
  | dbDeleteMany session keys =>
    intro sessionId key record found
    simp only [tracked, effect, Database.get_deleteMany] at found
    split at found
    · cases found
    · exact named sessionId key record found
  | dbDeleteSession session =>
    intro sessionId key record found
    simp only [tracked, effect] at found
    split at found
    · rw [Database.get_deleteSession] at found
      split at found
      · cases found
      · exact named sessionId key record found
    · rw [Database.get_deleteMany] at found
      split at found
      · cases found
      · exact named sessionId key record found
  | _ => exact named

theorem writer_fits (call : KeysSet.Call Value) (entry : Entry)
    (inside : entry ∈ (collect call).entries) : Fits (writer call entry.key) entry.key := by
  have present : ∃ source ∈ stored call, cacheKeyName source.1 source.2 = entry.key := by
    rw [collect_eq] at inside
    obtain ⟨bucket, there, mapped⟩ := List.mem_flatMap.mp inside
    obtain ⟨item, kept, rfl⟩ := List.mem_map.mp mapped
    exact ⟨(bucket.1, item.1), List.mem_flatMap.mpr ⟨bucket, there, List.mem_map_of_mem kept⟩, rfl⟩
  cases found : writer call entry.key with
  | none =>
    obtain ⟨source, listed, name⟩ := present
    have other := List.find?_eq_none.mp found source (List.mem_reverse.mpr listed)
    exact absurd (decide_eq_true name) other
  | some source =>
    unfold writer at found
    have chosen := List.find?_some found
    exact (of_decide_eq_true chosen).symm

theorem section_named {change : Section} {sessionId : String}
    (fitting : ∀ entries, change = .upsert entries → ∀ entry ∈ entries,
      Fits (source entry.key) entry.key) (oracle : Oracle Choice) {s : State Instance}
    (named : Named s) :
    Named (evaluate (tracked settings self source) (runSection settings.redis sessionId change)
      oracle s).world := by
  refine evaluate_invariant (@tracked_named _ _ settings self _) ?_ oracle named
  cases change with
  | upsert entries =>
    exact upsert_only (fitting entries rfl) trivial fun _ _ _ => onWritten_only trivial trivial trivial
  | remove deletions => exact remove_only trivial fun _ _ => onDeleted_only trivial trivial trivial

theorem step_named {s next : State Instance} {event : Event Instance Value} (named : Named s)
    (taken : step settings s event = some next) : Named next := by
  cases event with
  | upsert self sessionId call oracle =>
    simp only [step] at taken
    split at taken
    · cases taken
      refine section_named ?_ oracle named
      rintro _ ⟨⟩
      exact writer_fits call
    · cases taken
  | remove self sessionId call oracle =>
    simp only [step] at taken
    split at taken
    · cases taken
      exact section_named (fun _ same => by cases same) oracle named
    · cases taken
  | saveCreds self sessionId creds oracle =>
    cases taken
    refine section_named ?_ oracle named
    rintro _ ⟨⟩ entry inside
    exact congrArg Entry.key (List.mem_singleton.mp inside)

theorem run_named {s : State Instance} {events : List (Event Instance Value)}
    (run : Run (step settings) anything (State.initial settings) events s) : Named s :=
  run.invariant Named (fun _ _ _ named _ taken => step_named named taken) fun _ _ _ found => by
    cases found

end Names

section Scope

variable (settings : Settings) (options : KeyRetentionOptions) (sessionId : String) (now : Int)

def Expired (category : Category) (record : SessionRecord) : Prop :=
  ∃ maxAge, options.maxAgeMsByCategory category = some maxAge ∧ now - record.updatedAt ≥ maxAge

/-- A pass at this time leaves every row as it is, unless `keys.set` wrote it under a configured
category and it has the age for it. -/
def Scoped (self : Instance) (s : State Instance) : Prop :=
  ∀ oracle : Oracle Choice, (∀ index, (oracle index).dateNow = now) →
    ∀ other key record, s.w.db.get other key = some record →
      let after := (evaluate (effect settings self)
        (pruneExpiredKeys settings.redis sessionId options) oracle s.w).world.db
      after.get other key = some record ∨
        (after.get other key = none ∧ other = sessionId ∧ ∃ category id,
          s.origin other key = some (category, id) ∧ Expired options now category record)

/-- A sender key that has the name of a sender key memory is old enough as a sender key whenever
it is as the other. -/
def SenderKeysOld (s : State Instance) : Prop :=
  ∀ id record, Remembered id → s.w.db.get sessionId (cacheKeyName .senderKey id) = some record →
    s.origin sessionId (cacheKeyName .senderKey id) = some (.senderKey, id) →
      Expired options now .senderKeyMemory record → Expired options now .senderKey record

variable {settings options sessionId now} {self : Instance} {s : State Instance}

theorem old_iff (category : Category) (id : String) (record : SessionRecord) :
    Old options (cacheKeyName category id) now record ↔
      Expired options now
        (if category = .senderKey ∧ Remembered id then .senderKeyMemory else category) record := by
  rw [Old, maxAgeMs, resolveCategory_cacheKeyName, Option.bind_some, Expired]
  refine exists_congr fun maxAge => and_congr_right fun _ => ?_
  omega

omit [DecidableEq Instance] in
theorem old_expired (named : Named s) (spared : SenderKeysOld options sessionId now s) {key : String}
    {record : SessionRecord} (found : s.w.db.get sessionId key = some record)
    (old : Old options key now record) :
    ∃ category id, s.origin sessionId key = some (category, id) ∧
      Expired options now category record := by
  have name := named sessionId key record found
  cases origin : s.origin sessionId key with
  | none =>
    rw [origin] at name
    obtain ⟨maxAge, configured, -⟩ := old
    rw [show key = credsKey from name] at configured
    cases configured
  | some source =>
    obtain ⟨category, id⟩ := source
    rw [origin] at name
    obtain rfl : key = cacheKeyName category id := name
    refine ⟨category, id, rfl, ?_⟩
    rw [old_iff] at old
    split at old
    · rename_i shadowing
      obtain ⟨rfl, remembered⟩ := shadowing
      exact spared id record remembered found origin old
    · exact old

end Scope

/-- After every run of `keys.set` and `saveCreds` calls, a pass keeps to its categories exactly when
no sender key that looks like a sender key memory is too young for its own category. -/
theorem only_configured_rows_pruned (settings : Settings) (events : List (Event Instance Value))
    (s : State Instance) (run : Run (step settings) anything (State.initial settings) events s)
    (self : Instance) (sessionId : String) (options : KeyRetentionOptions) (now : Int) :
    Scoped settings options sessionId now self s ↔
      (options.enabled = true → SenderKeysOld options sessionId now s) := by
  constructor
  · intro right enabled id record remembered found origin expired
    obtain ⟨removed, prunes⟩ := @pruneExpiredKeys_removes _ _ settings self options sessionId
      (fun _ => ⟨now, none⟩) s.w enabled now fun _ => rfl
    have old : Old options (cacheKeyName .senderKey id) now record := by
      rw [old_iff, if_pos ⟨rfl, remembered⟩]
      exact expired
    have gone := prunes.removes sessionId (cacheKeyName .senderKey id)
    rw [if_pos ⟨rfl, prunes.all (fun _ => rfl) _ _ found old⟩] at gone
    rcases right (fun _ => ⟨now, none⟩) (fun _ => rfl) _ _ record found with
      kept | ⟨-, -, category, other, written, due⟩
    · rw [gone] at kept
      cases kept
    · rw [origin] at written
      cases written
      exact due
  · intro spared oracle clock other key record found
    by_cases enabled : options.enabled = true
    · obtain ⟨removed, prunes⟩ := @pruneExpiredKeys_removes _ _ settings self options sessionId
        oracle s.w enabled now clock
      have row := prunes.removes other key
      split at row
      · rename_i deleted
        obtain ⟨rfl, inside⟩ := deleted
        obtain ⟨held, present, old⟩ := prunes.old key inside
        rw [found] at present
        cases present
        exact .inr ⟨row, rfl, old_expired (run_named run) (spared enabled) found old⟩
      · exact .inl (row.trans found)
    · dsimp only
      rw [pruneExpiredKeys_disabled enabled]
      exact .inl found

section Runs

def plainSettings : Settings where
  memory := ⟨none, none, none⟩
  redis := none
  versioning := fun version => version.getD 0 + 1

def calm : Oracle Choice := fun _ => ⟨0, none⟩

def storing (id : String) : Event Unit String :=
  .upsert () "bot" ⟨InsertionMap.empty.set .senderKey (some (.set .empty id "record")),
    (· != ""), fun _ _ value => "\"" ++ value ++ "\""⟩ calm

def afterStoring (id : String) : State Unit :=
  ((step plainSettings (State.initial plainSettings) (storing id))).getD (State.initial plainSettings)

theorem storing_run (id : String) :
    Run (step plainSettings) anything (State.initial plainSettings) [storing id]
      (afterStoring id) :=
  .cons trivial rfl (.nil _)

def memoriesOnly : KeyRetentionOptions where
  enabled := true
  maxAgeMsByCategory := fun category => if category = .senderKeyMemory then some 1000 else none

def senderKeysToo : KeyRetentionOptions where
  enabled := true
  maxAgeMsByCategory := fun category =>
    if category = .senderKeyMemory ∨ category = .senderKey then some 1000 else none

theorem only_configured_rows_pruned_both :
    Scoped plainSettings senderKeysToo "bot" 1000 () (afterStoring "memory-x") :=
  (only_configured_rows_pruned plainSettings _ _ (storing_run _) () "bot" senderKeysToo 1000).mpr
    fun _ _ _ _ _ _ expired => expired

theorem sender_key_pruned_as_memory :
    Run (step plainSettings) anything (State.initial plainSettings) [storing "memory-x"]
        (afterStoring "memory-x") ∧
      (afterStoring "memory-x").w.db.get "bot" "sender-key-memory-x" =
        some ⟨"\"record\"", 0, 1⟩ ∧
      (afterStoring "memory-x").origin "bot" "sender-key-memory-x" =
        some (.senderKey, "memory-x") ∧
      memoriesOnly.maxAgeMsByCategory .senderKey = none ∧
      (evaluate (effect plainSettings ()) (pruneExpiredKeys none "bot" memoriesOnly)
        (fun _ => ⟨1000, none⟩) (afterStoring "memory-x").w).world.db.get "bot"
          "sender-key-memory-x" = none :=
  ⟨storing_run _, by decide, by decide, rfl, by decide⟩

end Runs

end BaileysSession.RetentionScope
