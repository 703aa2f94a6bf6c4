import BaileysSession.Factory.ProcessWrites

set_option autoImplicit false

namespace BaileysSession.ProcessWrites

open KeysSet Transition WriteBatcher

def Writer.owes (writer : Writer) : Bool :=
  match writer.stage with
  | .waiting | .calling => true
  | .updating => !writer.sections.tail.isEmpty
  | .settled _ => false

/-- The batcher has handed out a batch whose flush callback has not begun. -/
def FlushDue (p : Process) (authState : Nat) : Prop :=
  ∃ task ∈ (p.batcher authState).running,
    task.entries ≠ [] ∧ p.writers.get? ⟨authState, .flush⟩ = none

def Coming (p : Process) (authState : Nat) : Prop :=
  (∃ entry ∈ p.writers.entries, entry.1.authState = authState ∧ entry.2.owes = true) ∨
    (p.batcher authState).pending.entries ≠ [] ∨ FlushDue p authState

instance (p : Process) (authState : Nat) : Decidable (Coming p authState) :=
  inferInstanceAs (Decidable (_ ∨ _ ∨ ∃ task ∈ (p.batcher authState).running,
    task.entries ≠ [] ∧ p.writers.get? ⟨authState, .flush⟩ = none))

/-- The auth state that a call is made on which comes to an adapter call. -/
def Event.issuer : Event → Option Nat
  | .keysSet authState _ changes => if changes.sections = [] then none else some authState
  | .saveCreds authState _ => some authState
  | .useHybridAuthState | .batcher _ _ | .flush _ | .flushSettles _ | .enter _ | .settle _ _
  | .release _ => none

/-- A call is made while no other auth state has an adapter call in flight or still to make. -/
def Alone (p : Process) (event : Event) : Prop :=
  ∀ authState ∈ event.issuer, ∀ other < p.created, other ≠ authState → ¬ Coming p other

instance (p : Process) (event : Event) : Decidable (Alone p event) :=
  inferInstanceAs (Decidable (∀ authState ∈ event.issuer, ∀ other < p.created,
    other ≠ authState → ¬ Coming p other))

theorem coming_writer {p : Process} {id : WriterId} {writer : Writer}
    (present : p.writers.get? id = some writer) (owes : writer.owes = true) :
    Coming p id.authState :=
  .inl ⟨(id, writer), (InsertionMap.get?_eq_some_iff _ _ _).mp present, rfl, owes⟩

theorem InFlight.coming {p : Process} {id : WriterId} (inFlight : InFlight p id) :
    Coming p id.authState := by
  obtain ⟨writer, present, calls⟩ := inFlight
  apply coming_writer present
  rw [Writer.owes, calls]

theorem coming_withWriter {p : Process} {id : WriterId} {writer : Writer} {authState : Nat}
    (coming : Coming (p.withWriter id writer) authState)
    (owed : writer.owes = true → authState = id.authState → Coming p authState) :
    Coming p authState := by
  rcases coming with ⟨⟨other, body⟩, inside, rfl, owes⟩ | pending | ⟨task, running, some, idle⟩
  · have found := (InsertionMap.get?_eq_some_iff _ _ _).mpr inside
    simp only [Process.withWriter, InsertionMap.get?_set] at found
    split at found
    · rename_i here
      cases found
      exact owed owes (congrArg WriterId.authState here)
    · exact coming_writer found owes
  · exact .inr (.inl pending)
  · simp only [Process.withWriter, InsertionMap.get?_set] at idle
    split at idle
    · cases idle
    · exact .inr (.inr ⟨task, running, some, idle⟩)

theorem coming_withLock {p : Process} {sessionId : String} {id : WriterId}
    {sections : List Section} {authState : Nat}
    (coming : Coming (withLock sessionId id sections p) authState)
    (owed : authState = id.authState → Coming p authState) : Coming p authState :=
  @coming_withWriter p id _ _ coming fun _ => owed

structure Draining (s next : State) : Prop where
  pending : next.pending.entries ≠ [] → s.pending.entries ≠ []
  running : ∀ task ∈ next.running, task.entries ≠ [] →
    task ∈ s.running ∨ s.pending.entries ≠ []

theorem settleTask_running (task : Task) (outcome : Outcome) (s : State) :
    ∀ later ∈ (settleTask task outcome s).running, later.entries ≠ [] →
      s.pending.entries ≠ [] := by
  rcases settleTask_cases task outcome s with ⟨-, shape⟩ | ⟨call, rest, -, shape⟩
  · rw [shape]
    nofun
  · rw [shape]
    rintro _ ⟨⟩ some
    exact some

theorem settleTask_pending (task : Task) (outcome : Outcome) (s : State)
    (pending : (settleTask task outcome s).pending.entries ≠ []) : s.pending.entries ≠ [] := by
  rcases settleTask_cases task outcome s with ⟨-, shape⟩ | ⟨call, rest, -, shape⟩
  · rw [shape] at pending
    exact pending
  · rw [shape] at pending
    exact absurd rfl pending

theorem settleTask_drains (task : Task) (outcome : Outcome) (s : State) :
    Draining s (settleTask task outcome s) :=
  ⟨settleTask_pending task outcome s,
    fun later handed some => .inr (settleTask_running task outcome s later handed some)⟩

theorem flushNow_draining (caller : Caller) (s : State) : Draining s (flushNow caller s) := by
  cases running : s.running with
  | none =>
    rw [flushNow_idle caller s running]
    refine ⟨fun pending => absurd rfl pending, ?_⟩
    rintro _ ⟨⟩ some
    exact .inr some
  | some task =>
    rw [flushNow_busy caller s task running]
    exact ⟨id, fun other handed _ => .inl (running ▸ handed)⟩

theorem step_draining {debounceMs : Int} {s next : State} {event : WriteBatcher.Event}
    (unwritten : ∀ key value, event ≠ .write key value)
    (taken : WriteBatcher.step debounceMs s event = some next) : Draining s next := by
  rcases WriteBatcher.step_cases taken with ⟨key, value, rfl, -⟩ | ⟨caller, -, rfl, -⟩ |
    ⟨task, outcome, -, -, -, rfl⟩ | ⟨call, outcome, rest, -, -, rfl⟩ | ⟨issued, rest, -, -, rfl⟩
  · exact absurd rfl (unwritten key value)
  · exact flushNow_draining caller s
  · exact settleTask_drains task outcome s
  · rw [resume_eq]
    exact ⟨id, fun _ handed _ => .inl handed⟩
  · exact ⟨id, fun _ handed _ => .inl handed⟩

theorem coming_batcher {p : Process} {authState other : Nat} {batcher : State}
    (draining : Draining (p.batcher authState) batcher)
    (coming : Coming (p.withBatcher authState batcher) other) : Coming p other := by
  rcases coming with ⟨entry, inside, rfl, owes⟩ | pending | ⟨task, running, some, idle⟩
  · exact .inl ⟨entry, inside, rfl, owes⟩
  · simp only [Process.withBatcher, Function.update_apply] at pending
    split at pending
    · rename_i here
      exact .inr (.inl (here ▸ draining.pending pending))
    · exact .inr (.inl pending)
  · simp only [Process.withBatcher, Function.update_apply] at running idle
    split at running
    · rename_i here
      rcases draining.running task running some with before | pending
      · exact .inr (.inr ⟨task, here ▸ before, some, idle⟩)
      · exact .inr (.inl (here ▸ pending))
    · exact .inr (.inr ⟨task, running, some, idle⟩)

theorem coming_elsewhere {p : Process} {authState other : Nat} {batcher : State}
    (different : other ≠ authState) (coming : Coming (p.withBatcher authState batcher) other) :
    Coming p other := by
  rcases coming with ⟨entry, inside, rfl, owes⟩ | pending | ⟨task, running, some, idle⟩
  · exact .inl ⟨entry, inside, rfl, owes⟩
  · simp only [Process.withBatcher, Function.update_of_ne different] at pending
    exact .inr (.inl pending)
  · simp only [Process.withBatcher, Function.update_of_ne different] at running idle
    exact .inr (.inr ⟨task, running, some, idle⟩)

theorem coming_flushed {p : Process} {authState other : Nat} {task : Task} {outcome : Outcome}
    (coming : Coming { p.withBatcher authState (settleTask task outcome (p.batcher authState)) with
      writers := p.writers.erase ⟨authState, .flush⟩ } other) : Coming p other := by
  have drains := settleTask_drains task outcome (p.batcher authState)
  rcases coming with ⟨entry, inside, rfl, owes⟩ | pending | ⟨later, handed, some, idle⟩
  · exact .inl ⟨entry, List.mem_of_mem_filter inside, rfl, owes⟩
  · exact coming_batcher drains (.inr (.inl pending))
  · by_cases here : other = authState
    · subst here
      simp only [Process.withBatcher, Function.update_self] at handed
      exact .inr (.inl (settleTask_running task outcome _ later handed some))
    · simp only [InsertionMap.get?_erase, WriterId.mk.injEq, here, false_and, if_false] at idle
      exact coming_batcher drains (.inr (.inr ⟨later, handed, some, idle⟩))

theorem step_coming {sessionId : String} {debounceMs : Nat → Int} {p next : Process}
    {event : Event} {authState : Nat}
    (taken : step sessionId debounceMs p event = some next) (coming : Coming next authState) :
    Coming p authState ∨ authState ∈ event.issuer := by
  cases step_moves taken with
  | useHybridAuthState | nothingSet => exact .inl coming
  | @keysSet issuer thread changes known some =>
    by_cases same : authState = issuer
    · right
      rw [Event.issuer, if_neg some, same]
      rfl
    · exact .inl (coming_withLock coming fun here => absurd here same)
  | @saveCreds issuer creds known =>
    by_cases same : authState = issuer
    · exact .inr (same ▸ rfl)
    · exact .inl (coming_elsewhere same coming)
  | batcher unwritten stepped => exact .inl (coming_batcher (step_draining unwritten stepped) coming)
  | @flush other task running idle some =>
    left
    apply coming_withLock coming
    rintro rfl
    exact .inr (.inr ⟨task, running, some, idle⟩)
  | nothingFlushed => exact .inl (coming_batcher (settleTask_drains _ _ _) coming)
  | flushSettles => exact .inl (coming_flushed coming)
  | enter present | resolves present | rejects present =>
    exact .inl (coming_withWriter coming fun _ here => here ▸ coming_writer present rfl)
  | returns => exact .inl (coming_withWriter coming fun owes => by cases owes)
  | continues present more =>
    left
    apply coming_withLock coming
    rintro rfl
    apply coming_writer present
    simp [Writer.owes, more]

theorem step_created {sessionId : String} {debounceMs : Nat → Int} {p next : Process}
    {event : Event} (taken : step sessionId debounceMs p event = some next) :
    p.created ≤ next.created ∧ ∀ authState ∈ event.issuer, authState < p.created := by
  cases step_moves taken with
  | useHybridAuthState =>
    refine ⟨Nat.le_succ _, ?_⟩
    rintro _ ⟨⟩
  | nothingSet known empty =>
    refine ⟨Nat.le_refl _, ?_⟩
    rw [Event.issuer, if_pos empty]
    rintro _ ⟨⟩
  | keysSet known some =>
    refine ⟨Nat.le_refl _, ?_⟩
    rw [Event.issuer, if_neg some]
    rintro _ ⟨⟩
    exact known
  | saveCreds known =>
    refine ⟨Nat.le_refl _, ?_⟩
    rintro _ ⟨⟩
    exact known
  | batcher | flush | nothingFlushed | flushSettles | enter | resolves | rejects | returns |
    continues =>
    refine ⟨Nat.le_refl _, ?_⟩
    rintro _ ⟨⟩

/-- At most one auth state has an adapter call in flight or still to make. -/
structure Serial (p : Process) : Prop where
  known : ∀ authState, Coming p authState → authState < p.created
  one : ∀ first second, Coming p first → Coming p second → first = second

theorem initial_serial : Serial initial := by
  have nothing : ∀ authState, ¬ Coming initial authState := by
    rintro authState (⟨_, inside, -⟩ | pending | ⟨_, running, -⟩)
    · cases inside
    · exact pending rfl
    · cases running
  exact ⟨fun first coming => absurd coming (nothing first),
    fun first _ coming => absurd coming (nothing first)⟩

theorem step_serial {sessionId : String} {debounceMs : Nat → Int} {p next : Process}
    {event : Event} (serial : Serial p) (alone : Alone p event)
    (taken : step sessionId debounceMs p event = some next) : Serial next := by
  obtain ⟨grown, within⟩ := step_created taken
  have others : ∀ issuer ∈ event.issuer, ∀ authState, Coming p authState → authState = issuer := by
    intro issuer issued authState coming
    by_contra different
    exact alone issuer issued authState (serial.known authState coming) different coming
  constructor
  · intro authState coming
    rcases step_coming taken coming with before | issued
    · exact Nat.lt_of_lt_of_le (serial.known authState before) grown
    · exact Nat.lt_of_lt_of_le (within authState issued) grown
  · intro first second comingFirst comingSecond
    rcases step_coming taken comingFirst with before | issued <;>
      rcases step_coming taken comingSecond with also | too
    · exact serial.one first second before also
    · exact others second too first before
    · exact (others first issued second also).symm
    · exact Option.some.inj (issued.symm.trans too)

/-- While a call is only ever made on an auth state when no other has an adapter call in flight
or still to make, no two adapter calls of the process are in flight at once. -/
theorem one_adapter_call_in_flight (sessionId : String) (debounceMs : Nat → Int)
    (events : List Event) (p : Process)
    (run : Run (step sessionId debounceMs) (fun p event => Exclusive p event ∧ Alone p event)
      initial events p)
    (first second : WriterId) (inFirst : InFlight p first) (inSecond : InFlight p second) :
    first = second := by
  have locked := run_locked (fun _ _ permitted => permitted.1) run
  have serial : Serial p := run.invariant _ (fun _ _ _ before permitted taken =>
    step_serial before permitted.2 taken) initial_serial
  exact locked.alone inFirst inSecond (serial.one _ _ inFirst.coming inSecond.coming)

def preKeys : Changes := ⟨[⟨"pre-key-1", "1"⟩], []⟩

def thread (authState number : Nat) : WriterId := ⟨authState, .keysSet number⟩

def reconnectRun : List Event :=
  [.useHybridAuthState, .keysSet 0 0 preKeys, .enter (thread 0 0), .useHybridAuthState,
    .settle (thread 0 0) .resolved, .keysSet 1 0 preKeys, .enter (thread 1 0)]

theorem one_adapter_call_in_flight_reconnected :
    ∃ p, InFlight p (thread 1 0) ∧ ∀ id, InFlight p id → id = thread 1 0 := by
  have replayed : ∃ p, replay (step "bot" fun _ => 50)
      (fun p event => Exclusive p event ∧ Alone p event) initial reconnectRun = some p ∧
        InFlight p (thread 1 0) := ⟨_, rfl, _, rfl, rfl⟩
  obtain ⟨p, run, calling⟩ := replayed
  exact ⟨p, calling, fun id inFlight => one_adapter_call_in_flight "bot" (fun _ => 50) reconnectRun
    p (replay_run _ _ _ _ _ run) id (thread 1 0) inFlight calling⟩

def overlapRun : List Event :=
  [.useHybridAuthState, .useHybridAuthState, .keysSet 0 0 preKeys, .enter (thread 0 0),
    .saveCreds 1 "creds", .batcher 1 .timerFires, .flush 1, .enter ⟨1, .flush⟩]

theorem two_adapter_calls_in_flight :
    ∃ p, replay (step "bot" fun _ => 50) Exclusive initial overlapRun = some p ∧
      InFlight p (thread 0 0) ∧ InFlight p ⟨1, .flush⟩ :=
  ⟨_, rfl, ⟨_, rfl, rfl⟩, ⟨_, rfl, rfl⟩⟩

end BaileysSession.ProcessWrites
