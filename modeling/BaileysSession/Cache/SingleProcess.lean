import BaileysSession.Cache.Footprints
import BaileysSession.Cache.SessionOperations
import BaileysSession.Factory.SaveCreds
import BaileysSession.Retention.PruneExpiredKeys

set_option autoImplicit false

namespace BaileysSession.SingleProcess

open Async CacheManager MemoryCache Transition

inductive Action where
  | operate (operation : Operation)
  | saveCreds (sessionId creds : String)
  | pruneExpiredKeys (sessionId : String) (options : Retention.KeyRetentionOptions)

def Action.program (redis : Option RedisMode) : Action → Program Unit
  | .operate operation => operation.program redis
  | .saveCreds sessionId creds => CacheManager.saveCreds redis sessionId creds
  | .pruneExpiredKeys sessionId options => do
    let _ ← Retention.pruneExpiredKeys redis sessionId options
    pure ()

def Names (ids : String → Prop) : Action → Prop
  | .operate (.get sessionId _) | .operate (.getMany sessionId _) | .operate (.keysSet sessionId _)
  | .operate (.deleteSession sessionId) | .operate (.importSession sessionId _)
  | .saveCreds sessionId _ | .pruneExpiredKeys sessionId _ => ids sessionId
  | .operate (.clearCache sessionId) => ∀ named ∈ sessionId, ids named

inductive Event where
  | act (action : Action) (oracle : Oracle Choice)
  | sweepExpired (now : Int)
  | evict (key : String)

def step (settings : Settings) : Step (Cluster Unit) Event := fun w event =>
  match event with
  | .act action oracle =>
    some (evaluate (effect settings ()) (action.program settings.redis) oracle w).world
  | .sweepExpired now => some (w.withL1 () ((w.l1 ()).sweepExpired now))
  | .evict key => some (w.withL1 () ((w.l1 ()).delete key))

/-- A call that rejects has had no effect. -/
def Clean (choice : Choice) : Prop :=
  ∀ rejection, choice.rejection = some rejection → ∀ key, rejection.applied key = false

def Permitted (_ : Cluster Unit) : Event → Prop
  | .act action oracle => Names Plain action ∧ ∀ index, Clean (oracle index)
  | _ => True

variable {settings : Settings} {scope : Scope}

abbrev CleanCall (_ : Cluster Unit) (_ : Call) (choice : Choice) : Prop := Clean choice

section Adapter

variable {w : Cluster Unit} {sessionId : String}

theorem clean_applies {choice : Choice} (clean : Clean choice) :
    choice.rejection = none ∨ choice.rejection ≠ none ∧ choice.applies = fun _ => false := by
  cases refused : choice.rejection with
  | none => exact .inl rfl
  | some rejection =>
    right
    refine ⟨nofun, ?_⟩
    funext key
    simp only [Choice.applies, refused]
    exact clean rejection refused key

theorem adapterSetMany_ends (entries : List Entry) :
    Triple (effect settings ()) CleanCall (· = w) (adapterSetMany sessionId entries)
      (Ends (· = w) fun _ next => ∃ now,
        next = { w with db := w.db.setMany settings.versioning now sessionId entries }) := by
  constructor
  rintro oracle _ rfl ⟨clean, -⟩
  simp only [adapterSetMany, evaluate, effect]
  rcases clean_applies clean with accepted | ⟨refused, unapplied⟩
  · rw [settle_accepted accepted, applies_accepted accepted, List.filter_true]
    exact ⟨_, rfl⟩
  · cases rejected : (oracle 0).rejection with
    | none => exact absurd rejected refused
    | some rejection =>
      simp only [Choice.answer, rejected, unapplied, List.filter_false]
      exact rfl

theorem deleteMany_nil (db : Database) (sessionId : String) : db.deleteMany sessionId [] = db := by
  obtain ⟨⟨entries, unique⟩⟩ := db
  simp [Database.deleteMany, InsertionMap.filter]

theorem adapterDeleteMany_ends (keys : List String) :
    Triple (effect settings ()) CleanCall (· = w) (adapterDeleteMany sessionId keys)
      (Ends (· = w) fun _ next => next = { w with db := w.db.deleteMany sessionId keys }) := by
  constructor
  rintro oracle _ rfl ⟨clean, -⟩
  simp only [adapterDeleteMany, evaluate, effect]
  rcases clean_applies clean with accepted | ⟨refused, unapplied⟩
  · rw [settle_accepted accepted, applies_accepted accepted, List.filter_true]
    exact rfl
  · cases rejected : (oracle 0).rejection with
    | none => exact absurd rejected refused
    | some rejection =>
      simp only [Choice.answer, rejected, unapplied, List.filter_false, deleteMany_nil]
      exact rfl

theorem adapterDeleteSession_ends :
    Triple (effect settings ()) CleanCall (· = w) (adapterDeleteSession sessionId)
      (Ends (· = w) fun _ next => next = { w with db := w.db.deleteSession sessionId }) := by
  constructor
  rintro oracle _ rfl ⟨clean, -⟩
  simp only [adapterDeleteSession, evaluate, effect]
  cases rejected : (oracle 0).rejection with
  | none =>
    rw [settle_accepted rejected]
    exact rfl
  | some rejection =>
    have unapplied : rejection.applied = fun _ => false := funext (clean rejection rejected)
    simp only [Choice.answer, rejected, unapplied, List.filter_false, deleteMany_nil]
    exact rfl

end Adapter

section Local

-- Without Redis all of these only touch L1.
abbrev Local {Result : Type} (program : Program Result) : Prop :=
  program.Only fun call => call.synchronous = true

theorem triple_local {ok : Cluster Unit → Call → Choice → Prop} {Result : Type}
    {before failed : Cluster Unit → Prop} {after : Result → Cluster Unit → Prop}
    {program : Program Result} (inProcess : Local program)
    (triple : Triple (effect settings ()) (Tolerable False) before program (Returns after)) :
    Triple (effect settings ()) ok before program (Ends failed after) := by
  apply triple_anyhow
  apply triple.of_only inProcess
  intro w call choice immediate
  cases call with
  | dateNow | l1Get | l1Set | l1Delete | l1DeleteByPrefix | l1Clear => trivial
  | _ => cases immediate

theorem backfill_local (sessionId : String) (records : List (String × SessionRecord))
    (result : InsertionMap String String) : Local (backfill none sessionId records result) := by
  induction records generalizing result with
  | nil => trivial
  | cons entry rest ih => exact ⟨rfl, fun _ => ih _⟩

theorem announceEach_local (sessionId : String) (change : KeysSet.Section) :
    Local (announceEach none sessionId change) := by
  cases change with
  | upsert entries =>
    induction entries with
    | nil => trivial
    | cons entry rest ih => exact ⟨rfl, fun _ => ⟨rfl, fun _ => ih⟩⟩
  | remove deletions =>
    induction deletions with
    | nil => trivial
    | cons key rest ih => exact ⟨rfl, fun _ => ih⟩

end Local

abbrev Intact (settings : Settings) (w : Cluster Unit) : Prop :=
  Settled settings (sessions Plain) False w

variable {w : Cluster Unit} {sessionId : String} (alone : settings.redis = none)

section Writes

include alone

theorem announceEach_ends (intact : Intact settings w) (plain : Plain sessionId)
    (change : KeysSet.Section) (now : Int) :
    Triple (effect settings ()) CleanCall
      (· = { w with db := change.write settings.versioning now sessionId w.db })
      (announceEach settings.redis sessionId change)
      (Ends (Intact settings) fun _ => Intact settings) := by
  have inProcess : Local (announceEach settings.redis sessionId change) := by
    rw [alone]
    exact announceEach_local sessionId change
  apply triple_local inProcess
  exact triple_consequence
    (announceEach_spec (single_connected settings) w intact sessionId change
      (fun key _ => plain_owns plain key) now) (fun _ same => same) fun _ _ after => after.1

theorem runSection_ends (plain : Plain sessionId) (change : KeysSet.Section) :
    Triple (effect settings ()) CleanCall (Intact settings)
      (runSection settings.redis sessionId change)
      (Ends (Intact settings) fun _ => Intact settings) := by
  apply triple_from
  intro w intact
  have announced := announceEach_ends alone intact plain change
  cases change with
  | upsert entries =>
    apply triple_attempt intact (adapterSetMany_ends entries)
    intro _
    apply triple_from
    rintro _ ⟨now, rfl⟩
    exact announced now
  | remove deletions =>
    apply triple_attempt intact (adapterDeleteMany_ends deletions)
    intro _
    apply triple_from
    rintro _ rfl
    exact announced 0

theorem keysSet_ends (plain : Plain sessionId) (changes : KeysSet.Changes) :
    Triple (effect settings ()) CleanCall (Intact settings)
      (keysSet settings.redis sessionId changes)
      (Ends (Intact settings) fun _ => Intact settings) := by
  unfold keysSet
  induction changes.sections with
  | nil =>
    apply triple_done
    exact fun _ intact => intact
  | cons change rest ih => exact triple_ends (runSection_ends alone plain change) fun _ => ih

theorem cleared_intact (intact : Intact settings w) {db : Database}
    (others : ∀ other key, other ≠ sessionId → db.value? other key = w.db.value? other key) :
    Intact settings (cleared { w with db } () sessionId) := by
  constructor
  · intro self other key held plain present
    by_cases same : other = sessionId
    · subst same
      rw [cleared_absent] at present
      cases present
    · have before := deleteByPrefix_shrinks (w.l1 self) (sessionId ++ ":") _ held
        (by simpa [cleared, withL1_l1] using present)
      have current := intact.l1 self other key held plain before
      rw [← others other key same] at current
      exact current
  · intro redis
    exact absurd alone redis

theorem deleteSession_ends :
    Triple (effect settings ()) CleanCall (Intact settings) (deleteSession sessionId)
      (Ends (Intact settings) fun _ => Intact settings) := by
  apply triple_from
  intro w intact
  apply triple_attempt intact adapterDeleteSession_ends
  intro _
  apply triple_from
  rintro _ rfl
  apply triple_anyhow
  apply triple_consequence (clearSession_spec _ sessionId) (fun _ same => same)
  rintro - _ rfl
  apply cleared_intact alone intact
  intro other key different
  rw [Database.value?_deleteSession, if_neg different]

theorem importSession_ends (data : InsertionMap String String) :
    Triple (effect settings ()) CleanCall (Intact settings) (importSession sessionId data)
      (Ends (Intact settings) fun _ => Intact settings) := by
  apply triple_from
  intro w intact
  apply triple_attempt intact (adapterSetMany_ends (importEntries data))
  intro _
  apply triple_from
  rintro _ ⟨now, rfl⟩
  apply triple_anyhow
  apply triple_consequence (clearSession_spec _ sessionId) (fun _ same => same)
  rintro - _ rfl
  apply cleared_intact alone intact
  intro other key different
  rw [Database.value?_setMany, if_neg different]

omit alone in
theorem clearCache_ends (named : Option String) :
    Triple (effect settings ()) CleanCall (Intact settings) (clearCache named)
      (Ends (Intact settings) fun _ => Intact settings) := by
  apply triple_from
  intro w intact
  apply triple_anyhow
  apply triple_consequence (clearCache_spec w named) (fun _ same => same)
  rintro - _ ⟨cache, rfl, shrinks⟩
  exact shrink_settled intact () shrinks

theorem deleteStale_ends (plain : Plain sessionId) (staleKeys : List String) :
    Triple (effect settings ()) CleanCall (Intact settings)
      (Retention.deleteStale settings.redis sessionId staleKeys)
      (Ends (Intact settings) fun _ => Intact settings) := by
  unfold Retention.deleteStale
  split
  · apply triple_done
    exact fun _ intact => intact
  · apply triple_from
    intro w intact
    apply triple_attempt intact (adapterDeleteMany_ends staleKeys)
    intro _
    apply triple_from
    rintro _ rfl
    apply triple_ends (announceEach_ends alone intact plain (.remove staleKeys) 0)
    intro _
    apply triple_done
    exact fun _ intact => intact

theorem pruneExpiredKeys_ends (plain : Plain sessionId) (options : Retention.KeyRetentionOptions) :
    Triple (effect settings ()) CleanCall (Intact settings)
      (Retention.pruneExpiredKeys settings.redis sessionId options)
      (Ends (Intact settings) fun _ => Intact settings) := by
  have nothing : Triple (effect settings ()) CleanCall (Intact settings)
      (pure [] : Program (List String)) (Ends (Intact settings) fun _ => Intact settings) := by
    apply triple_done
    exact fun _ intact => intact
  unfold Retention.pruneExpiredKeys Retention.pruneCandidates
  split
  · apply triple_from
    intro w intact
    apply triple_attempt intact adapterGetAllKeys_ends
    intro allKeys
    apply triple_from
    rintro w ⟨rfl, -⟩
    split
    · exact triple_at intact nothing
    · apply triple_attempt intact (adapterGetMany_ends _)
      intro records
      apply triple_from
      rintro w ⟨rfl, -⟩
      apply triple_ends (triple_anyhow (triple_at intact dateNow_spec))
      intro now
      exact deleteStale_ends alone plain _
  · exact nothing

end Writes

section Reads

theorem undisturbed (plain : Plain sessionId) (inbox : Unit → List String) (key : String) :
    Undisturbed (sessions Plain) False () inbox sessionId key :=
  ⟨plain, fun message => message.1⟩

include alone

theorem readDatabase_ends (db : Database) (inbox : Unit → List String) (plain : Plain sessionId)
    (key : String) :
    Triple (effect settings ()) CleanCall (Reading settings (sessions Plain) False db inbox)
      (readDatabase settings.redis sessionId key)
      (Ends (Reading settings (sessions Plain) False db inbox) fun result w =>
        Reading settings (sessions Plain) False db inbox w ∧ result = db.value? sessionId key) := by
  unfold readDatabase
  apply triple_from
  intro w reading
  apply triple_attempt reading (adapterGet_ends key)
  intro record
  apply triple_from
  rintro w ⟨rfl, rfl⟩
  rw [reading.2.1]
  cases stored : db.get sessionId key with
  | none =>
    apply triple_done
    rintro _ rfl
    exact ⟨reading, by simp [Database.value?, stored]⟩
  | some record =>
    have current : db.value? sessionId key = some record.value := by
      simp [Database.value?, stored]
    have filling : Local (l1Set (cacheKey sessionId key) record.value record.version) :=
      ⟨rfl, fun _ => trivial⟩
    rw [alone]
    dsimp only
    apply triple_ends (triple_local filling
      (triple_at reading (fill_spec ((plain_owns plain key).fits current))))
    intro _
    apply triple_done
    exact fun _ after => ⟨after, current.symm⟩

theorem get_ends {db : Database} {inbox : Unit → List String} (plain : Plain sessionId)
    (key : String) :
    Triple (effect settings ()) CleanCall (Reading settings (sessions Plain) False db inbox)
      (CacheManager.get settings.redis sessionId key)
      (Ends (Reading settings (sessions Plain) False db inbox) fun result w =>
        Reading settings (sessions Plain) False db inbox w ∧ result = db.value? sessionId key) := by
  have missed := readDatabase_ends alone db inbox plain key
  unfold CacheManager.get
  apply triple_ends (triple_anyhow (l1Get_spec sessionId key))
  intro l1Hit
  apply triple_from
  rintro w ⟨reading, held⟩
  cases l1Hit with
  | none =>
    rw [alone] at missed ⊢
    exact triple_at reading missed
  | some hit =>
    dsimp only
    rw [if_neg (by rw [alone]; nofun)]
    apply triple_done
    rintro _ rfl
    exact ⟨reading, (held hit rfl (undisturbed plain inbox key)).symm⟩

theorem getMany_ends {db : Database} {inbox : Unit → List String} (plain : Plain sessionId)
    (keys : List String) :
    Triple (effect settings ()) CleanCall (Reading settings (sessions Plain) False db inbox)
      (getMany settings.redis sessionId keys)
      (Ends (Reading settings (sessions Plain) False db inbox) fun result w =>
        Reading settings (sessions Plain) False db inbox w ∧
          Answered (sessions Plain) False () db inbox sessionId keys result) := by
  have none : Served (sessions Plain) False () db inbox sessionId .empty := by
    intro key value present
    cases present
  have looking : Local (lookupL1 settings.redis sessionId keys .empty []) :=
    lookupL1_only (fun _ => rfl) keys .empty []
  have filling : ∀ records result, Local (backfill settings.redis sessionId records result) := by
    rw [alone]
    exact backfill_local sessionId
  unfold getMany
  apply triple_ends (triple_local looking (lookupL1_spec keys .empty [] none))
  rintro ⟨result, misses⟩
  apply triple_from
  rintro w ⟨reading, served, looked⟩
  have covered : ∀ key, key ∈ keys ↔ (result.get? key).isSome ∨ key ∈ misses := by
    intro key
    rw [← looked key]
    simp
  dsimp only
  split
  · rename_i complete
    apply triple_done
    rintro _ rfl
    exact ⟨reading, answered_complete served covered complete⟩
  · apply triple_attempt reading (adapterGetMany_ends misses)
    intro records
    apply triple_from
    rintro _ ⟨rfl, rfl⟩
    rw [reading.2.1]
    have owned : ∀ key ∈ misses, Owns (sessions Plain) sessionId key :=
      fun key _ => plain_owns plain key
    have recorded := recorded_owned db owned
    apply triple_weaken (triple_local (filling _ _) (triple_at reading
      (backfill_spec _ (fun entry inside => (recorded entry inside).1)
        (fun entry inside => (recorded entry inside).2) result served))) (fun _ same => same)
      (fun _ left => left)
    rintro found _ ⟨after, right, filled⟩
    exact ⟨after, answered_filled covered right filled⟩

end Reads

section Runs

include alone

theorem operation_ends (operation : Operation) (named : Names Plain (.operate operation)) :
    Triple (effect settings ()) CleanCall (Intact settings) (operation.program settings.redis)
      (Ends (Intact settings) fun _ => Intact settings) := by
  cases operation with
  | get sessionId key =>
    apply triple_from
    intro w intact
    apply triple_ends (triple_weaken (triple_at intact.reading (get_ends alone named key))
      (fun _ same => same) (fun _ left => left.1) fun _ _ after => after.1.1)
    intro _
    apply triple_done
    exact fun _ after => after
  | getMany sessionId keys =>
    apply triple_from
    intro w intact
    apply triple_ends (triple_weaken (triple_at intact.reading (getMany_ends alone named keys))
      (fun _ same => same) (fun _ left => left.1) fun _ _ after => after.1.1)
    intro _
    apply triple_done
    exact fun _ after => after
  | keysSet sessionId changes => exact keysSet_ends alone named changes
  | deleteSession sessionId => exact deleteSession_ends alone
  | importSession sessionId data => exact importSession_ends alone data
  | clearCache sessionId => exact clearCache_ends sessionId

theorem action_ends (action : Action) (named : Names Plain action) :
    Triple (effect settings ()) CleanCall (Intact settings) (action.program settings.redis)
      (Ends (Intact settings) fun _ => Intact settings) := by
  cases action with
  | operate operation => exact operation_ends alone operation named
  | saveCreds sessionId creds => exact runSection_ends alone named (.upsert [⟨credsKey, creds⟩])
  | pruneExpiredKeys sessionId options =>
    apply triple_ends (pruneExpiredKeys_ends alone named options)
    intro _
    apply triple_done
    exact fun _ intact => intact

theorem step_intact {w next : Cluster Unit} {event : Event} (intact : Intact settings w)
    (permitted : Permitted w event) (taken : step settings w event = some next) :
    Intact settings next := by
  cases event with
  | act action oracle =>
    cases taken
    obtain ⟨named, clean⟩ := permitted
    exact triple_keeps (action_ends alone action named) intact
      (.of_oracle (effect settings ()) _ w clean)
  | sweepExpired now =>
    cases taken
    exact shrink_settled intact () (sweepExpired_shrinks _ now)
  | evict key =>
    cases taken
    exact shrink_settled intact () (delete_shrinks _ key)

theorem run_intact {w final : Cluster Unit} {events : List Event} (intact : Intact settings w)
    (run : Run (step settings) Permitted w events final) : Intact settings final :=
  run.invariant _ (fun _ _ _ before permitted taken => step_intact alone before permitted taken)
    intact

end Runs

structure Gives {Result : Type} (oracle : Oracle Choice) (result : Except String Result)
    (right : Result → Prop) : Prop where
  found : ∀ found, result = .ok found → right found
  answers : (∀ index, (oracle index).rejection = none) → ∃ found, result = .ok found

/-- Without Redis a cached read gives what the adapter would give, whatever one process did
before. -/
theorem memory_cache_transparent (settings : Settings) (alone : settings.redis = none)
    (db : Database) (events : List Event) (w : Cluster Unit)
    (run : Run (step settings) Permitted (Cluster.initial settings db) events w)
    (sessionId : String) (plain : Plain sessionId) (oracle : Oracle Choice)
    (clean : ∀ index, Clean (oracle index)) :
    (∀ key, Gives oracle
      (evaluate (effect settings ()) (CacheManager.get settings.redis sessionId key) oracle w).result
      fun found => found = (w.db.get sessionId key).map SessionRecord.value) ∧
    ∀ keys, Gives oracle
      (evaluate (effect settings ()) (getMany settings.redis sessionId keys) oracle w).result
      fun found => ∀ key,
        found.get? key = ((w.db.getMany sessionId keys).get? key).map SessionRecord.value := by
  have intact : Intact settings w := run_intact alone (initial_coherent db) run
  have along : ∀ {Result : Type} (program : Program Result),
      Along (effect settings ()) CleanCall program oracle w :=
    fun program => .of_oracle (effect settings ()) program w clean
  constructor
  · intro key
    constructor
    · intro found returned
      exact ((triple_ending (get_ends alone plain key) intact.reading (along _)).1 found returned).2
    · intro accepted
      have current := get_current intact () (plain_owns plain key) (undisturbed plain _ key)
        (along_accepted _ w accepted)
      exact ⟨_, current⟩
  · intro keys
    constructor
    · intro found returned key
      have answered :=
        ((triple_ending (getMany_ends alone plain keys) intact.reading (along _)).1 found returned).2
      rw [Database.get?_getMany]
      by_cases asked : key ∈ keys
      · rw [if_pos asked]
        exact answered.current key asked (undisturbed plain _ key)
      · rw [if_neg asked]
        exact answered.only key asked
    · intro accepted
      obtain ⟨found, returned, -⟩ := triple_returns
        (getMany_spec keys fun key _ => plain_owns plain key) intact.reading
        (along_accepted _ w accepted)
      exact ⟨found, returned⟩

def smallSettings : Settings where
  memory := ⟨some 1000, some 1, none⟩
  redis := none
  versioning := fun version => version.getD 0 + 1

def calmly (now : Int) : Oracle Choice := fun _ => ⟨now, none⟩

def refusing (now : Int) : Oracle Choice := fun _ => ⟨now, some ⟨"timeout", fun _ => false⟩⟩

def oldSessions : Retention.KeyRetentionOptions where
  enabled := true
  maxAgeMsByCategory := fun category => if category = .session then some 50 else none

def prunedRun : List Event :=
  [.act (.operate (.keysSet "bot" ⟨[⟨"session-x", "1"⟩, ⟨"pre-key-1", "2"⟩], []⟩)) (calmly 0),
    .act (.saveCreds "bot" "creds") (refusing 10), .act (.operate (.get "bot" "session-x")) (calmly 20),
    .act (.pruneExpiredKeys "bot" oldSessions) (calmly 100), .sweepExpired 100]

theorem memory_cache_transparent_pruned :
    ∃ w, Run (step smallSettings) Permitted (Cluster.initial smallSettings .empty) prunedRun w ∧
      Gives (calmly 110) (evaluate (effect smallSettings ()) (CacheManager.get none "bot" "session-x")
        (calmly 110) w).result fun found => found = none := by
  have plain : Plain "bot" := by decide
  have calm : ∀ now index, Clean (calmly now index) := by
    intro now index rejection refused
    cases refused
  have refuses : ∀ now index, Clean (refusing now index) := by
    rintro now index rejection ⟨⟩ key
    rfl
  have run : Run (step smallSettings) Permitted (Cluster.initial smallSettings .empty) prunedRun _ :=
    .cons ⟨plain, calm 0⟩ rfl (.cons ⟨plain, refuses 10⟩ rfl (.cons ⟨plain, calm 20⟩ rfl
      (.cons ⟨plain, calm 100⟩ rfl (.cons trivial rfl (.nil _)))))
  exact ⟨_, run, (memory_cache_transparent smallSettings rfl .empty prunedRun _ run "bot" plain
    (calmly 110) (calm 110)).1 "session-x"⟩

end BaileysSession.SingleProcess
