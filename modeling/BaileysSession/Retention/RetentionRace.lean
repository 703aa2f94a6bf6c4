import BaileysSession.Retention.Retention
import Mathlib.Data.Fintype.Basic

set_option autoImplicit false

namespace BaileysSession.Retention

open KeysSet Transition Database

variable {Pass : Type} [DecidableEq Pass]

def Old (options : KeyRetentionOptions) (key : String) (now : Int) (record : SessionRecord) : Prop :=
  ∃ maxAge, maxAgeMs options key = some maxAge ∧ record.updatedAt ≤ now - maxAge

theorem isStale_iff (options : KeyRetentionOptions) (now : Int)
    (records : InsertionMap String SessionRecord) (key : String) :
    isStale options now records key = true ↔
      ∃ record, records.get? key = some record ∧ Old options key now record := by
  cases found : records.get? key with
  | none => simp [isStale, found]
  | some record =>
    cases resolved : resolveCategory key with
    | none => simp [isStale, found, resolved, Old, maxAgeMs]
    | some category =>
      cases configured : options.maxAgeMsByCategory category with
      | none => simp [isStale, found, resolved, configured, Old, maxAgeMs]
      | some maxAge =>
        have swapped : maxAge ≤ now - record.updatedAt ↔ record.updatedAt ≤ now - maxAge := by omega
        simp [isStale, found, resolved, configured, Old, maxAgeMs, swapped]

omit [DecidableEq Pass] in
theorem mem_removals (s : State Pass) (sessionId : String) (staleKeys : List String) (now : Int)
    (readAt : Nat) (removal : Removal) :
    removal ∈ removals s sessionId staleKeys now readAt ↔
      removal.key ∈ staleKeys ∧ s.db.get sessionId removal.key = some removal.record ∧
        removal.now = now ∧
        removal.writtenSinceRead = decide (removal.key ∈ s.stored.drop readAt) := by
  rw [removals, List.mem_filterMap]
  constructor
  · rintro ⟨key, stale, built⟩
    obtain ⟨record, found, rfl⟩ := Option.map_eq_some_iff.mp built
    exact ⟨stale, found, rfl, rfl⟩
  · rintro ⟨stale, found, rfl, written⟩
    refine ⟨removal.key, stale, ?_⟩
    rw [found, Option.map_some, ← written]

omit [DecidableEq Pass] in
theorem removals_complete (s : State Pass) (sessionId : String) (staleKeys : List String)
    (now : Int) (readAt : Nat) (key : String) (record : SessionRecord)
    (before : s.db.get sessionId key = some record)
    (after : (s.db.deleteMany sessionId staleKeys).get sessionId key = none) :
    ⟨key, record, now, decide (key ∈ s.stored.drop readAt)⟩ ∈
      removals s sessionId staleKeys now readAt := by
  rw [mem_removals]
  refine ⟨?_, before, rfl, rfl⟩
  rw [get_deleteMany, before] at after
  by_contra kept
  simp [kept] at after

theorem write_get {versioning : Versioning} {now : Int} {sessionId key : String} {db : Database}
    {change : Section} {record : SessionRecord} (apart : key ∉ Section.stores change)
    (found : (change.write versioning now sessionId db).get sessionId key = some record) :
    db.get sessionId key = some record := by
  cases change with
  | upsert entries =>
    rw [Section.write, get_setMany_of_not_mem db versioning now sessionId key entries apart] at found
    exact found
  | remove deletions =>
    rw [Section.write, get_deleteMany] at found
    split at found
    · cases found
    · exact found

def Phase.judged : Phase → List String
  | .deleting staleKeys _ _ => staleKeys
  | _ => []

/-- What a pass would judge stale although it was stored again after the pass read it. -/
def Phase.replaced (options : KeyRetentionOptions) (dateNow : Int) (stored : List String) :
    Phase → List String
  | .fetched candidates records readAt =>
    (staleKeys options dateNow candidates records).filter (· ∈ stored.drop readAt)
  | _ => []

/-- No value that a pass judged stale is replaced between the `getMany` and the `deleteMany`
of that pass. -/
def Unreplaced (options : KeyRetentionOptions) (s : State Pass) : Event Pass → Prop
  | .write change _ => ∀ pass, ∀ key ∈ Section.stores change, key ∉ (s.phase pass).judged
  | .decide pass dateNow => (s.phase pass).replaced options dateNow s.stored = []
  | _ => True

instance [Fintype Pass] (options : KeyRetentionOptions) (s : State Pass) (event : Event Pass) :
    Decidable (Unreplaced options s event) :=
  match event with
  | .write change _ => inferInstanceAs (Decidable (∀ pass, ∀ key ∈ Section.stores change,
      key ∉ (s.phase pass).judged))
  | .decide pass dateNow =>
    inferInstanceAs (Decidable ((s.phase pass).replaced options dateNow s.stored = []))
  | .pruneExpiredKeys _ | .getAllKeys _ | .getMany _ | .deleteMany _ | .onDeleted _ =>
    isTrue trivial

/-- Every row a pass removed was old enough by its age at that moment, and no value stored since
the pass read the rows went with it. -/
def FreshKept (options : KeyRetentionOptions) (s : State Pass) : Prop :=
  ∀ removal ∈ s.removed, removal.writtenSinceRead = false ∧
    Old options removal.key removal.now removal.record

structure Sound (options : KeyRetentionOptions) (sessionId : String) (s : State Pass) : Prop where
  read : ∀ pass candidates records readAt, s.phase pass = .fetched candidates records readAt →
    readAt ≤ s.stored.length ∧ ∀ key ∈ candidates, ∀ record,
      s.db.get sessionId key = some record → key ∉ s.stored.drop readAt →
        records.get? key = some record
  judged : ∀ pass staleKeys now readAt, s.phase pass = .deleting staleKeys now readAt →
    readAt ≤ s.stored.length ∧ ∀ key ∈ staleKeys, key ∉ s.stored.drop readAt ∧
      ∀ record, s.db.get sessionId key = some record → Old options key now record
  kept : FreshKept options s

omit [DecidableEq Pass] in
theorem initial_sound (options : KeyRetentionOptions) (sessionId : String) (db : Database) :
    Sound options sessionId (initial Pass db) :=
  ⟨nofun, nofun, nofun⟩

theorem enter_sound {options : KeyRetentionOptions} {sessionId : String} {s : State Pass}
    (sound : Sound options sessionId s) (pass : Pass) (phase : Phase) (db : Database)
    (removed : List Removal)
    (fewer : ∀ key record, db.get sessionId key = some record →
      s.db.get sessionId key = some record)
    (read : ∀ candidates records readAt, phase = .fetched candidates records readAt →
      readAt ≤ s.stored.length ∧ ∀ key ∈ candidates, ∀ record,
        db.get sessionId key = some record → key ∉ s.stored.drop readAt →
          records.get? key = some record)
    (judged : ∀ staleKeys now readAt, phase = .deleting staleKeys now readAt →
      readAt ≤ s.stored.length ∧ ∀ key ∈ staleKeys, key ∉ s.stored.drop readAt ∧
        ∀ record, db.get sessionId key = some record → Old options key now record)
    (kept : ∀ removal ∈ removed, removal.writtenSinceRead = false ∧
      Old options removal.key removal.now removal.record) :
    Sound options sessionId ({ s with db, removed }.enter pass phase) := by
  constructor
  · intro other candidates records readAt entered
    by_cases same : other = pass
    · subst same
      rw [enter_self] at entered
      exact read candidates records readAt entered
    · rw [enter_other _ _ same] at entered
      obtain ⟨bound, rows⟩ := sound.read other candidates records readAt entered
      exact ⟨bound, fun key candidate record found =>
        rows key candidate record (fewer key record found)⟩
  · intro other staleKeys now readAt entered
    by_cases same : other = pass
    · subst same
      rw [enter_self] at entered
      exact judged staleKeys now readAt entered
    · rw [enter_other _ _ same] at entered
      obtain ⟨bound, rows⟩ := sound.judged other staleKeys now readAt entered
      exact ⟨bound, fun key stale => ⟨(rows key stale).1, fun record found =>
        (rows key stale).2 record (fewer key record found)⟩⟩
  · exact kept

theorem move_sound {options : KeyRetentionOptions} {sessionId : String} {s : State Pass}
    (sound : Sound options sessionId s) (pass : Pass) (phase : Phase)
    (read : ∀ candidates records readAt, phase ≠ .fetched candidates records readAt)
    (judged : ∀ staleKeys now readAt, phase ≠ .deleting staleKeys now readAt) :
    Sound options sessionId (s.enter pass phase) :=
  enter_sound sound pass phase s.db s.removed (fun _ _ found => found)
    (fun _ _ _ same => absurd same (read _ _ _)) (fun _ _ _ same => absurd same (judged _ _ _))
    sound.kept

omit [DecidableEq Pass] in
theorem write_sound {options : KeyRetentionOptions} {sessionId : String} {s : State Pass}
    (sound : Sound options sessionId s) (versioning : Versioning) (change : Section) (now : Int)
    (apart : ∀ pass, ∀ key ∈ Section.stores change, key ∉ (s.phase pass).judged) :
    Sound options sessionId { s with
      db := change.write versioning now sessionId s.db
      stored := s.stored ++ Section.stores change } := by
  have unstored : ∀ readAt key, readAt ≤ s.stored.length →
      (key ∉ (s.stored ++ Section.stores change).drop readAt ↔
        key ∉ s.stored.drop readAt ∧ key ∉ Section.stores change) := by
    intro readAt key bound
    rw [List.drop_append_of_le_length bound, List.mem_append, not_or]
  constructor
  · intro pass candidates records readAt fetched
    obtain ⟨bound, rows⟩ := sound.read pass candidates records readAt fetched
    refine ⟨by simp only [List.length_append]; omega, ?_⟩
    intro key candidate record found fresh
    obtain ⟨before, untouched⟩ := (unstored readAt key bound).mp fresh
    exact rows key candidate record (write_get untouched found) before
  · intro pass staleKeys nowJudged readAt deleting
    obtain ⟨bound, rows⟩ := sound.judged pass staleKeys nowJudged readAt deleting
    refine ⟨by simp only [List.length_append]; omega, ?_⟩
    intro key stale
    have untouched : key ∉ Section.stores change := by
      intro stored
      apply apart pass key stored
      rw [deleting]
      exact stale
    obtain ⟨fresh, old⟩ := rows key stale
    exact ⟨(unstored readAt key bound).mpr ⟨fresh, untouched⟩, fun record found =>
      old record (write_get untouched found)⟩
  · exact sound.kept

theorem deleteMany_sound {options : KeyRetentionOptions} {sessionId : String} {s : State Pass}
    (sound : Sound options sessionId s) (pass : Pass) (staleKeys : List String) (now : Int)
    (readAt : Nat) (deleting : s.phase pass = .deleting staleKeys now readAt) :
    Sound options sessionId ({ s with
      db := s.db.deleteMany sessionId staleKeys
      removed := s.removed ++ removals s sessionId staleKeys now readAt }.enter pass
        (.invalidating staleKeys)) := by
  apply enter_sound sound
  · intro key record found
    rw [get_deleteMany] at found
    split at found
    · cases found
    · exact found
  · nofun
  · nofun
  · intro removal logged
    rcases List.mem_append.mp logged with before | here
    · exact sound.kept removal before
    · obtain ⟨stale, found, same, written⟩ := (mem_removals ..).mp here
      obtain ⟨fresh, old⟩ := (sound.judged pass staleKeys now readAt deleting).2 removal.key stale
      rw [written, same]
      exact ⟨decide_eq_false fresh, old removal.record found⟩

theorem step_sound {options : KeyRetentionOptions} {versioning : Versioning} {sessionId : String}
    {s next : State Pass} {event : Event Pass} (sound : Sound options sessionId s)
    (unreplaced : Unreplaced options s event)
    (taken : step options versioning sessionId s event = some next) :
    Sound options sessionId next := by
  cases event with
  | pruneExpiredKeys pass =>
    simp only [step] at taken
    split at taken
    · cases taken
      apply move_sound sound <;> split <;> nofun
    · cases taken
  | getAllKeys pass =>
    simp only [step] at taken
    split at taken
    · cases taken
      apply move_sound sound <;> split <;> nofun
    · cases taken
  | getMany pass =>
    simp only [step] at taken
    split at taken
    · rename_i candidates _
      cases taken
      apply enter_sound sound pass _ s.db s.removed (fun _ _ found => found)
      · rintro _ _ _ ⟨⟩
        refine ⟨le_rfl, ?_⟩
        intro key candidate record found _
        rw [get?_getMany, if_pos candidate, found]
      · nofun
      · exact sound.kept
    · cases taken
  | decide pass dateNow =>
    simp only [step] at taken
    split at taken
    · rename_i candidates records readAt fetched
      cases taken
      have fresh : ∀ key ∈ staleKeys options dateNow candidates records,
          key ∉ s.stored.drop readAt := by
        simpa [Unreplaced, fetched, Phase.replaced, List.filter_eq_nil_iff] using unreplaced
      obtain ⟨bound, rows⟩ := sound.read pass candidates records readAt fetched
      apply enter_sound sound pass _ s.db s.removed (fun _ _ found => found)
      · split <;> nofun
      · intro staleKeys now later entered
        split at entered
        · cases entered
        · cases entered
          refine ⟨bound, fun key stale => ⟨fresh key stale, ?_⟩⟩
          intro record found
          obtain ⟨candidate, judged⟩ := List.mem_filter.mp stale
          obtain ⟨seen, read, old⟩ := (isStale_iff ..).mp judged
          rw [rows key candidate record found (fresh key stale)] at read
          exact Option.some.inj read ▸ old
      · exact sound.kept
    · cases taken
  | deleteMany pass =>
    simp only [step] at taken
    split at taken
    · rename_i staleKeys now readAt deleting
      cases taken
      exact deleteMany_sound sound pass staleKeys now readAt deleting
    · cases taken
  | onDeleted pass =>
    simp only [step] at taken
    split at taken
    · cases taken
      apply move_sound sound <;> nofun
    · cases taken
  | write change dateNow =>
    cases taken
    exact write_sound sound versioning change dateNow unreplaced

theorem fresh_kept_run (options : KeyRetentionOptions) (versioning : Versioning)
    (sessionId : String) (db : Database) (events : List (Event Pass)) (s : State Pass)
    (run : Run (step options versioning sessionId) (Unreplaced options) (initial Pass db) events s) :
    FreshKept options s :=
  (run.invariant (Sound options sessionId)
    (fun _ _ _ sound unreplaced taken => step_sound sound unreplaced taken)
    (initial_sound options sessionId db)).kept

def sessionsOnly : KeyRetentionOptions where
  enabled := true
  maxAgeMsByCategory := fun category => if category = .session then some 50 else none

def store (key value : String) (dateNow : Int) : Event Unit := .write (.upsert [⟨key, value⟩]) dateNow

def prunedRun : List (Event Unit) :=
  [store "session-x" "1" 0, store "pre-key-1" "2" 0, .pruneExpiredKeys (), .getAllKeys (),
    .getMany (), store "session-y" "3" 90, .decide () 100, store "pre-key-1" "4" 100,
    .deleteMany (), .onDeleted ()]

theorem fresh_kept_run_pruned :
    ∃ s, replay (step sessionsOnly (fun _ => 1) "bot") (Unreplaced sessionsOnly)
        (initial Unit .empty) prunedRun = some s ∧
      s.removed = [⟨"session-x", ⟨"1", 0, 1⟩, 100, false⟩] ∧ FreshKept sessionsOnly s :=
  ⟨_, rfl, rfl, fresh_kept_run sessionsOnly (fun _ => 1) "bot" .empty prunedRun _
    (replay_run _ _ _ _ _ rfl)⟩

-- The contact writes again after the pass judged the old session record stale.
def rewrittenRun : List (Event Unit) :=
  [store "session-x" "1" 0, .pruneExpiredKeys (), .getAllKeys (), .getMany (), .decide () 100,
    store "session-x" "2" 100, .deleteMany (), .onDeleted ()]

theorem fresh_row_pruned :
    ∃ s, replay (step sessionsOnly (fun _ => 1) "bot") anything (initial Unit .empty)
        rewrittenRun = some s ∧ s.db.get "bot" "session-x" = none ∧
      s.removed = [⟨"session-x", ⟨"2", 100, 1⟩, 100, true⟩] ∧ ¬ FreshKept sessionsOnly s := by
  refine ⟨_, rfl, rfl, rfl, ?_⟩
  intro kept
  obtain ⟨lost, -⟩ := kept ⟨"session-x", ⟨"2", 100, 1⟩, 100, true⟩ (List.mem_singleton.mpr rfl)
  cases lost

end BaileysSession.Retention
