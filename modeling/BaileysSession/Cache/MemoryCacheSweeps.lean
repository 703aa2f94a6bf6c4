import BaileysSession.Cache.MemoryCacheRuns
import BaileysSession.Shared.Transition

set_option autoImplicit false

namespace BaileysSession.MemoryCache

open Transition

-- A timer takes whole milliseconds.
def sweepIntervalMs (ttlMs : Int) : Int := min (max (ttlMs / 2) 50) 5000

structure Timed where
  cache : MemoryCache
  now : Int
  -- When the timer was set, or fired last; `none` after `destroy`.
  sweepTimer : Option Int

namespace Timed

inductive Event where
  | elapse (ms : Nat)
  | access (operation : Access)
  | sweep
  | destroy
  deriving DecidableEq, Repr

def new (options : MemoryCacheOptions) (now : Int) : Timed :=
  ⟨.new options, now, some now⟩

def destroy (timed : Timed) : Timed :=
  { timed with cache := timed.cache.clear, sweepTimer := none }

def step : Step Timed Event := fun timed event =>
  match event with
  | .elapse ms => some { timed with now := timed.now + ms }
  | .access operation => some { timed with cache := (operation.apply timed.cache).2 }
  | .sweep =>
    match timed.sweepTimer with
    | some _ => some { timed with
        cache := timed.cache.sweepExpired timed.now
        sweepTimer := some timed.now }
    | none => none
  | .destroy => some timed.destroy

def Reads (now : Int) : Access → Prop
  | .get read _ | .set read _ _ _ => read = now
  | .delete _ | .deleteByPrefix _ | .clear => True
  | .sweepExpired _ => False

/-- The event loop gets to the timer at most so late, and the clock goes on as time does. -/
def Punctual (late : Nat) (timed : Timed) : Event → Prop
  | .elapse ms => ∀ since ∈ timed.sweepTimer,
      timed.now + ms ≤ since + sweepIntervalMs timed.cache.ttlMs + late
  | .access operation => Reads timed.now operation
  | .sweep | .destroy => True

instance (now : Int) (operation : Access) : Decidable (Reads now operation) := by
  unfold Reads
  cases operation <;> infer_instance

instance (late : Nat) (timed : Timed) (event : Event) : Decidable (Punctual late timed event) := by
  unfold Punctual
  cases event <;> infer_instance

/-- An entry that is held was set in the run, and the last sweep came before or found it alive. -/
structure Swept (late : Nat) (ttlMs : Int) (history : List Event) (timed : Timed) : Prop where
  ttl : timed.cache.ttlMs = ttlMs
  punctual : ∀ since ∈ timed.sweepTimer, since ≤ timed.now ∧
    timed.now ≤ since + sweepIntervalMs ttlMs + late
  held : ∀ key entry, timed.cache.store.get? key = some entry → ∃ setAt,
    .access (.set setAt key entry.value entry.version) ∈ history ∧
      entry.expiresAt = setAt + ttlMs ∧ ∀ since ∈ timed.sweepTimer,
        since ≤ setAt ∨ since < entry.expiresAt

theorem interval_positive (ttlMs : Int) : 50 ≤ sweepIntervalMs ttlMs := by
  unfold sweepIntervalMs
  omega

theorem new_swept (late : Nat) (options : MemoryCacheOptions) (now : Int) :
    Swept late (options.ttlMs.getD DEFAULT_TTL_MS) [] (new options now) := by
  refine ⟨rfl, ?_, fun key entry held => by cases held⟩
  rintro since ⟨⟩
  have positive := interval_positive (options.ttlMs.getD DEFAULT_TTL_MS)
  dsimp only [new]
  omega

theorem deletions_spared {items : List (String × CacheEntry)} {now : Int} {cache : MemoryCache}
    {key : String} {entry : CacheEntry}
    (held : (items.foldl (fun cache item =>
      if item.2.expiresAt ≤ now then cache.delete item.1 else cache) cache).store.get? key =
        some entry) :
    ∀ item ∈ items, item.1 = key → now < item.2.expiresAt := by
  induction items generalizing cache with
  | nil => exact fun _ inside => absurd inside List.not_mem_nil
  | cons first rest ih =>
    rw [List.foldl_cons] at held
    intro item inside same
    rcases List.mem_cons.mp inside with rfl | later
    · by_contra expired
      rw [if_pos (Int.not_lt.mp expired)] at held
      have before := deletions_from rest (fun item => item.2.expiresAt ≤ now) Prod.fst _ key entry held
      rw [same, store_delete_self] at before
      cases before
    · exact ih held item later same

theorem sweepExpired_alive {cache : MemoryCache} {now : Int} {key : String} {entry : CacheEntry}
    (held : (cache.sweepExpired now).store.get? key = some entry) : now < entry.expiresAt := by
  have before := sweepExpired_from cache now key entry held
  exact deletions_spared held (key, entry) ((InsertionMap.get?_eq_some_iff _ _ _).mp before) rfl

variable {late : Nat} {ttlMs : Int} {history : List Event} {timed next : Timed} {event : Event}

theorem step_swept (swept : Swept late ttlMs history timed) (punctual : Punctual late timed event)
    (taken : step timed event = some next) : Swept late ttlMs (history ++ [event]) next := by
  have earlier : ∀ {before : Event}, before ∈ history → before ∈ history ++ [event] :=
    fun inside => List.mem_append_left _ inside
  cases event with
  | elapse ms =>
    cases taken
    refine ⟨swept.ttl, fun since timer => ?_, fun key entry held => ?_⟩
    · have started := swept.punctual since timer
      have bound := punctual since timer
      rw [swept.ttl] at bound
      refine ⟨?_, bound⟩
      dsimp only
      omega
    · obtain ⟨setAt, inside, expiry, alive⟩ := swept.held key entry held
      exact ⟨setAt, earlier inside, expiry, alive⟩
  | access operation =>
    cases taken
    refine ⟨(ttlMs_apply _ operation).trans swept.ttl, swept.punctual, fun key entry held => ?_⟩
    rcases apply_held held with ⟨read, rfl, expiry⟩ | ⟨before, -⟩
    · have here : read = timed.now := punctual
      subst here
      refine ⟨timed.now, List.mem_append_right _ (List.mem_singleton_self _), swept.ttl ▸ expiry,
        fun since timer => .inl (swept.punctual since timer).1⟩
    · obtain ⟨setAt, inside, own, alive⟩ := swept.held key entry before
      exact ⟨setAt, earlier inside, own, alive⟩
  | sweep =>
    simp only [step] at taken
    split at taken
    · cases taken
      refine ⟨(ttlMs_apply timed.cache (.sweepExpired timed.now)).trans swept.ttl, ?_,
        fun key entry held => ?_⟩
      · rintro since ⟨⟩
        have positive := interval_positive ttlMs
        dsimp only
        omega
      · obtain ⟨setAt, inside, own, -⟩ :=
          swept.held key entry (sweepExpired_from timed.cache timed.now key entry held)
        refine ⟨setAt, earlier inside, own, ?_⟩
        rintro since ⟨⟩
        exact .inr (sweepExpired_alive held)
    · cases taken
  | destroy =>
    cases taken
    refine ⟨swept.ttl, ?_, fun key entry held => by cases held⟩
    rintro since ⟨⟩

theorem run_swept {events : List Event} (swept : Swept late ttlMs history timed)
    (run : Run step (Punctual late) timed events next) :
    Swept late ttlMs (history ++ events) next := by
  induction run generalizing history with
  | nil => simpa using swept
  | cons permitted taken _ ih =>
    have later := ih (step_swept swept permitted taken)
    rwa [List.append_assoc, List.singleton_append] at later

/-- As long as the timer runs, nothing stays in the cache longer than its time to live, one sweep
interval and what the event loop is late: each entry was set that recently. -/
theorem entries_swept_in_time (options : MemoryCacheOptions) (start : Int) (late : Nat)
    (events : List Event) (timed : Timed) (run : Run step (Punctual late) (new options start) events
      timed) (running : timed.sweepTimer.isSome) (key : String) (entry : CacheEntry)
    (held : timed.cache.store.get? key = some entry) :
    ∃ setAt, .access (.set setAt key entry.value entry.version) ∈ events ∧
      timed.now ≤ setAt + max (options.ttlMs.getD DEFAULT_TTL_MS) 0 +
        sweepIntervalMs (options.ttlMs.getD DEFAULT_TTL_MS) + late := by
  have swept := run_swept (new_swept late options start) run
  obtain ⟨since, timer⟩ := Option.isSome_iff_exists.mp running
  obtain ⟨setAt, inside, expiry, alive⟩ := swept.held key entry held
  refine ⟨setAt, inside, ?_⟩
  have bound := (swept.punctual since timer).2
  rcases alive since timer with before | later
  · omega
  · omega

def credsRun : List Event :=
  [.access (.set 0 "bot:creds" "one" 1), .elapse 50, .sweep, .elapse 50]

theorem creds_swept_in_time :
    ∃ timed, replay step (Punctual 0) (new ⟨some 100, none, none⟩ 0) credsRun = some timed ∧
      ∃ setAt, .access (.set setAt "bot:creds" "one" 1) ∈ credsRun ∧
        timed.now ≤ setAt + max 100 0 + sweepIntervalMs 100 + 0 := by
  refine ⟨_, rfl, ?_⟩
  exact entries_swept_in_time ⟨some 100, none, none⟩ 0 0 credsRun _ (replay_run _ _ _ _ _ rfl) rfl
    "bot:creds" ⟨"one", 1, 100, 3⟩ (by decide +kernel)

end Timed

end BaileysSession.MemoryCache
