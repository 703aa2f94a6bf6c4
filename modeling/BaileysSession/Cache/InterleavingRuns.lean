import BaileysSession.Cache.InterleavingAnnouncing
import BaileysSession.Cache.InterleavingReads

set_option autoImplicit false

namespace BaileysSession.Interleaving

open Async CacheManager KeysSet Transition

variable {Instance : Type} [DecidableEq Instance] {settings : Settings} {p : Pool Instance}

theorem step_sound (linked : Linked settings Instance) {next : Pool Instance}
    {event : Event Instance} (sound : Sound settings p) (timely : Timely settings p event)
    (taken : step settings p event = some next) : Sound settings next := by
  cases event with
  | call thread self sessionId key clock =>
    have versionless : settings.redis ≠ some .http := by
      rcases linked with tcp | ⟨silent, -⟩ <;> simp [*]
    exact call_sound versionless sound timely taken
  | performRead thread time => exact performRead_sound sound timely taken
  | resumeRead thread clock => exact resumeRead_sound sound timely taken
  | grant self sessionId change => exact grant_sound sound timely taken
  | store sessionId time => exact store_sound sound taken
  | announce sessionId clock => exact announce_sound linked sound taken
  | performBranch sessionId index time => exact performBranch_sound sound timely taken
  | release sessionId => exact release_sound sound taken
  | deliver subscriber key =>
    simp only [step] at taken
    split at taken
    · cases taken
      exact deliver_sound sound subscriber key
    · cases taken
  | sweepExpired self time =>
    cases taken
    exact sweepExpired_sound sound self time

theorem run_sound (linked : Linked settings Instance) {final : Pool Instance}
    {events : List (Event Instance)} (sound : Sound settings p)
    (run : Run (step settings) (Timely settings) p events final) : Sound settings final :=
  run.invariant _ (fun _ _ _ before timely taken => step_sound linked before timely taken) sound

omit [DecidableEq Instance] in
theorem quiescent_owes (quiescent : p.Quiescent) (due : CacheManager.Call → Bool)
    (sessionId key : String) : ¬ p.Owes due sessionId key := by
  rintro ⟨held, found, -⟩
  rw [quiescent.sections sessionId] at found
  cases found

/-- When all is quiet again, whatever the caches hold is what the database holds. -/
theorem no_lasting_staleness (settings : Settings) (linked : Linked settings Instance)
    (db : Database) (events : List (Event Instance)) (p : Pool Instance)
    (run : Run (step settings) (Timely settings) (Pool.initial settings db) events p)
    (quiescent : p.Quiescent) (sessionId key : String) (plain : Plain sessionId) :
    (∀ self held, (p.cluster.l1 self).peek (cacheKey sessionId key) = some held →
        p.cluster.db.value? sessionId key = some held.value) ∧
      (settings.redis ≠ none → ∀ held,
        p.cluster.l2.get? (cacheKey sessionId key) = some held →
          p.cluster.db.value? sessionId key = some held.value) := by
  have sound : Sound settings p := run_sound linked (initial_sound db) run
  constructor
  · intro self held present
    rcases sound.l1 self sessionId key held plain present with same | message | owed
    · exact same
    · rw [quiescent.delivered self] at message
      cases message
    · exact absurd owed (quiescent_owes quiescent publishes sessionId key)
  · intro redis held present
    exact (sound.l2 redis sessionId key held plain present).resolve_right
      (quiescent_owes quiescent updatesL2 sessionId key)

def Event.granted : Event Instance → Option String
  | .grant _ sessionId _ => some sessionId
  | _ => none

omit [DecidableEq Instance] in
theorem moved_free {cluster : Cluster Instance} {sessionId other : String}
    {current : Held Instance} {held : Option (Held Instance)} (free : p.sections other = none)
    (found : p.sections sessionId = some current) :
    (p.moved cluster sessionId held).sections other = none := by
  have apart : other ≠ sessionId := by
    rintro rfl
    rw [free] at found
    cases found
  simp only [Pool.moved, Function.update_of_ne apart, free]

theorem step_free {next : Pool Instance} {event : Event Instance} {other : String}
    (ungranted : event.granted ≠ some other) (free : p.sections other = none)
    (taken : step settings p event = some next) : next.sections other = none := by
  cases event with
  | call | resumeRead | performRead =>
    simp only [step, call, resumeRead, performRead] at taken
    repeat' split at taken
    all_goals cases taken
    all_goals exact free
  | grant self sessionId change =>
    have apart : other ≠ sessionId := by
      rintro rfl
      exact ungranted rfl
    simp only [step, grant] at taken
    split at taken
    · cases taken
    · cases taken
      simp only [Pool.moved, Function.update_of_ne apart, free]
  | store sessionId time =>
    simp only [step, store] at taken
    split at taken
    · rename_i found
      cases taken
      exact moved_free free found
    · cases taken
  | announce sessionId clock =>
    simp only [step, announce] at taken
    split at taken
    · rename_i found
      cases taken
      exact moved_free free found
    · cases taken
  | performBranch sessionId index time =>
    simp only [step, performBranch] at taken
    split at taken
    · rename_i found
      split at taken
      · cases taken
        exact moved_free free found
      · cases taken
    · cases taken
  | release sessionId =>
    simp only [step, release] at taken
    split at taken
    · rename_i found
      split at taken
      · cases taken
        exact moved_free free found
      · cases taken
    · cases taken
  | deliver subscriber key =>
    simp only [step] at taken
    split at taken
    · cases taken
      exact free
    · cases taken
  | sweepExpired self time =>
    cases taken
    exact free

theorem run_free {allowed : Pool Instance → Event Instance → Prop} {final : Pool Instance}
    {events : List (Event Instance)} {other : String}
    (run : Run (step settings) allowed p events final)
    (ungranted : ∀ event ∈ events, event.granted ≠ some other)
    (free : p.sections other = none) : final.sections other = none := by
  induction run with
  | nil => exact free
  | cons _ taken _ ih =>
    rw [List.forall_mem_cons] at ungranted
    exact ih ungranted.2 (step_free ungranted.1 free taken)

theorem run_sections {allowed : Pool Instance → Event Instance → Prop} {final : Pool Instance}
    {events : List (Event Instance)} {sessionId : String}
    (run : Run (step settings) allowed p events final)
    (granted : ∀ event ∈ events, ∀ other ∈ event.granted, other = sessionId)
    (free : ∀ other, p.sections other = none) (released : final.sections sessionId = none)
    (other : String) : final.sections other = none := by
  by_cases same : other = sessionId
  · rw [same, released]
  · exact run_free run (fun event inside taken => same (granted event inside other taken))
      (free other)

def sharedSettings (redis : Option RedisMode) : Settings where
  memory := ⟨none, none, none⟩
  redis := redis
  versioning := fun version => version.getD 0 + 1

def firstRows : Database :=
  Database.empty.set (fun version => version.getD 0 + 1) 0 "bot" ⟨"session-x", "1"⟩

def stopped (_ : Nat) : Int := 0

def rewrite (value : String) : Section := .upsert [⟨"session-x", value⟩]

-- The read stores "1" while the write of "2" has still to update L2 and to publish.
def timelyRun : List (Event Bool) :=
  [.call 0 true "bot" "session-x" stopped, .performRead 0 0, .performRead 0 0,
    .grant false "bot" (rewrite "2"), .store "bot" 0, .resumeRead 0 stopped, .performRead 0 0,
    .resumeRead 0 stopped, .announce "bot" stopped, .performBranch "bot" 0 0,
    .performBranch "bot" 0 0, .release "bot", .deliver true "bot:session-x",
    .deliver false "bot:session-x"]

theorem no_lasting_staleness_timely :
    ∃ p, replay (step (sharedSettings (some .tcp))) (Timely (sharedSettings (some .tcp)))
        (Pool.initial (sharedSettings (some .tcp)) firstRows) timelyRun = some p ∧
      ∀ held, p.cluster.l2.get? "bot:session-x" = some held →
        p.cluster.db.value? "bot" "session-x" = some held.value := by
  refine ⟨_, rfl, ?_⟩
  have run := replay_run (step (sharedSettings (some .tcp))) (Timely (sharedSettings (some .tcp)))
    (Pool.initial (sharedSettings (some .tcp)) firstRows) _ timelyRun rfl
  refine (no_lasting_staleness (sharedSettings (some .tcp)) (.inl rfl) firstRows timelyRun _ run
    ?_ "bot" "session-x" (by decide)).2 nofun
  constructor
  · intro thread
    cases thread with
    | zero => rfl
    | succ thread => rfl
  · have granted : ∀ event ∈ timelyRun, ∀ other ∈ event.granted, other = "bot" := by decide
    exact run_sections run granted (fun _ => rfl) rfl
  · intro self
    cases self <;> rfl

def PlainSessions (_ : Pool Instance) : Event Instance → Prop
  | .call _ _ sessionId _ _ | .grant _ sessionId _ => Plain sessionId
  | _ => True

instance (p : Pool Instance) : (event : Event Instance) → Decidable (PlainSessions p event)
  | .call _ _ sessionId _ _ | .grant _ sessionId _ => inferInstanceAs (Decidable (Plain sessionId))
  | .performRead _ _ | .resumeRead _ _ | .store _ _ | .announce _ _ | .performBranch _ _ _
  | .release _ | .deliver _ _ | .sweepExpired _ _ => .isTrue trivial

-- The read has its row before the write, and stores it after the write has completed.
def lateRun : List (Event Unit) :=
  [.call 0 () "bot" "session-x" stopped, .performRead 0 0, .grant () "bot" (rewrite "2"),
    .store "bot" 0, .announce "bot" stopped, .release "bot", .resumeRead 0 stopped]

def lateSharedRun : List (Event Unit) :=
  [.call 0 () "bot" "session-x" stopped, .performRead 0 0, .performRead 0 0,
    .grant () "bot" (rewrite "2"), .store "bot" 0, .announce "bot" stopped,
    .performBranch "bot" 0 0, .performBranch "bot" 0 0, .release "bot",
    .deliver () "bot:session-x", .resumeRead 0 stopped, .performRead 0 0, .resumeRead 0 stopped]

/-- The run ends quiescent, with the old value in L1 and, if there is one, in L2. -/
def EndsStale (redis : Option RedisMode) (events : List (Event Unit)) : Prop :=
  ∃ p, replay (step (sharedSettings redis)) PlainSessions
      (Pool.initial (sharedSettings redis) firstRows) events = some p ∧ p.Quiescent ∧
    p.cluster.db.value? "bot" "session-x" = some "2" ∧
    ((p.cluster.l1 ()).peek "bot:session-x").map Versioned.value = some "1" ∧
    (redis ≠ none → (p.cluster.l2.get? "bot:session-x").map Versioned.value = some "1")

theorem stale_after_late_read : EndsStale none lateRun ∧ EndsStale (some .tcp) lateSharedRun := by
  constructor
  · refine ⟨_, rfl, ?_, rfl, rfl, fun redis => absurd rfl redis⟩
    have run := replay_run (step (sharedSettings none)) PlainSessions
      (Pool.initial (sharedSettings none) firstRows) _ lateRun rfl
    constructor
    · intro thread
      cases thread with
      | zero => rfl
      | succ thread => rfl
    · have granted : ∀ event ∈ lateRun, ∀ other ∈ event.granted, other = "bot" := by decide
      exact run_sections run granted (fun _ => rfl) rfl
    · exact fun _ => rfl
  · refine ⟨_, rfl, ?_, rfl, rfl, fun _ => rfl⟩
    have run := replay_run (step (sharedSettings (some .tcp))) PlainSessions
      (Pool.initial (sharedSettings (some .tcp)) firstRows) _ lateSharedRun rfl
    constructor
    · intro thread
      cases thread with
      | zero => rfl
      | succ thread => rfl
    · have granted : ∀ event ∈ lateSharedRun, ∀ other ∈ event.granted, other = "bot" := by decide
      exact run_sections run granted (fun _ => rfl) rfl
    · exact fun _ => rfl

end BaileysSession.Interleaving
