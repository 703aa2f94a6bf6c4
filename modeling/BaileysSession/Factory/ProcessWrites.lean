import BaileysSession.Factory.KeysSet
import BaileysSession.Lock.LocalMutexLock
import BaileysSession.Utils.WriteBatcherInvariant
import Mathlib.Logic.Function.Basic

set_option autoImplicit false

namespace BaileysSession.ProcessWrites

open KeysSet Transition WriteBatcher

inductive Origin where
  | keysSet (thread : Nat)
  | flush
  deriving DecidableEq, Repr

-- The auth states of a process are numbered in the order in which they were made.
structure WriterId where
  authState : Nat
  origin : Origin
  deriving DecidableEq, Repr

inductive Stage where
  -- `runExclusive` waits for the mutex.
  | waiting
  -- The body runs and its adapter call is in flight.
  | calling
  -- The adapter call has resolved, and the caches are brought up to date.
  | updating
  | settled (outcome : Outcome)
  deriving DecidableEq, Repr

/-- A `keys.set` call or a flush, and the sections it has not finished. -/
structure Writer where
  mutex : Mutex
  stage : Stage
  sections : List Section
  deriving DecidableEq, Repr

/-- The auth states that one process has made for one session. -/
structure Process where
  created : Nat
  lock : Nat → LocalMutexLock
  batcher : Nat → State
  writers : InsertionMap WriterId Writer
  mutexes : Nat

def initial : Process where
  created := 0
  lock := fun _ => .new
  batcher := fun _ => WriteBatcher.initial
  writers := .empty
  mutexes := 0

inductive Event where
  | useHybridAuthState
  | keysSet (authState thread : Nat) (changes : Changes)
  | saveCreds (authState : Nat) (creds : String)
  -- What the batcher does next on its own, or on `flushNow` and `destroy`.
  | batcher (authState : Nat) (event : WriteBatcher.Event)
  | flush (authState : Nat)
  | flushSettles (authState : Nat)
  | enter (id : WriterId)
  | settle (id : WriterId) (outcome : Outcome)
  | release (id : WriterId)
  deriving DecidableEq, Repr

def Process.withWriter (p : Process) (id : WriterId) (writer : Writer) : Process :=
  { p with writers := p.writers.set id writer }

def Process.withBatcher (p : Process) (authState : Nat) (batcher : State) : Process :=
  { p with batcher := Function.update p.batcher authState batcher }

/-- `lock.withLock(sessionId, ..)` for the first of these sections, up to its wait. -/
def withLock (sessionId : String) (id : WriterId) (sections : List Section) (p : Process) :
    Process :=
  let acquiring := (p.lock id.authState).getMutex sessionId p.mutexes
  { p with
    lock := Function.update p.lock id.authState acquiring.lock
    mutexes := acquiring.made
    writers := p.writers.set id ⟨acquiring.mutex, .waiting, sections⟩ }

section Step

variable (sessionId : String) (debounceMs : Nat → Int) (p : Process)

def keysSet (authState thread : Nat) (changes : Changes) : Option Process :=
  match p.writers.get? ⟨authState, .keysSet thread⟩ with
  | some _ => none
  | none =>
    if authState < p.created then
      if changes.sections = [] then some p
      else some (withLock sessionId ⟨authState, .keysSet thread⟩ changes.sections p)
    else none

-- The flush callback of the batch that the batcher has taken out.
def flush (authState : Nat) : Option Process :=
  match (p.batcher authState).running, p.writers.get? ⟨authState, .flush⟩ with
  | some task, none =>
    if task.entries = [] then none
    else some (withLock sessionId ⟨authState, .flush⟩
      [.upsert (task.entries.map fun entry => ⟨entry.1, entry.2.value⟩)] p)
  | _, _ => none

def flushSettles (authState : Nat) : Option Process :=
  match (p.batcher authState).running with
  | none => none
  | some task =>
    if task.entries = [] then
      some (p.withBatcher authState (settleTask task .resolved (p.batcher authState)))
    else
      match p.writers.get? ⟨authState, .flush⟩ with
      | some ⟨_, .settled outcome, _⟩ =>
        some { p.withBatcher authState (settleTask task outcome (p.batcher authState)) with
          writers := p.writers.erase ⟨authState, .flush⟩ }
      | _ => none

def enter (id : WriterId) : Option Process :=
  match p.writers.get? id with
  | some ⟨mutex, .waiting, sections⟩ => some (p.withWriter id ⟨mutex, .calling, sections⟩)
  | _ => none

-- A rejection ends the body, and with it the call.
def settle (id : WriterId) (outcome : Outcome) : Option Process :=
  match p.writers.get? id with
  | some ⟨mutex, .calling, sections⟩ =>
    match outcome with
    | .resolved => some (p.withWriter id ⟨mutex, .updating, sections⟩)
    | .rejected => some (p.withWriter id ⟨mutex, .settled .rejected, []⟩)
  | _ => none

def release (id : WriterId) : Option Process :=
  match p.writers.get? id with
  | some ⟨mutex, .updating, sections⟩ =>
    match sections.tail with
    | [] => some (p.withWriter id ⟨mutex, .settled .resolved, []⟩)
    | change :: rest => some (withLock sessionId id (change :: rest) p)
  | _ => none

def step : Step Process Event := fun p event =>
  match event with
  | .useHybridAuthState => some { p with created := p.created + 1 }
  | .keysSet authState thread changes => keysSet sessionId p authState thread changes
  | .saveCreds authState creds =>
    if authState < p.created then
      some (p.withBatcher authState
        (write (debounceMs authState) CREDS_KEY creds (p.batcher authState)))
    else none
  | .batcher authState event =>
    match event with
    | .write _ _ | .flushSettles _ => none
    | .timerFires | .flushNow | .destroy | .resume | .clear =>
      if authState < p.created then
        (WriteBatcher.step (debounceMs authState) (p.batcher authState) event).map
          (p.withBatcher authState)
      else none
  | .flush authState => flush sessionId p authState
  | .flushSettles authState => flushSettles p authState
  | .enter id => enter p id
  | .settle id outcome => settle p id outcome
  | .release id => release sessionId p id

inductive Moves : Event → Process → Prop where
  | useHybridAuthState : Moves .useHybridAuthState { p with created := p.created + 1 }
  | nothingSet {authState thread : Nat} {changes : Changes} (known : authState < p.created)
      (empty : changes.sections = []) : Moves (.keysSet authState thread changes) p
  | keysSet {authState thread : Nat} {changes : Changes} (known : authState < p.created)
      (some : changes.sections ≠ []) : Moves (.keysSet authState thread changes)
        (withLock sessionId ⟨authState, .keysSet thread⟩ changes.sections p)
  | saveCreds {authState : Nat} {creds : String} (known : authState < p.created) :
      Moves (.saveCreds authState creds) (p.withBatcher authState
        (write (debounceMs authState) CREDS_KEY creds (p.batcher authState)))
  | batcher {authState : Nat} {event : WriteBatcher.Event} {batcher : State}
      (unwritten : ∀ key value, event ≠ .write key value)
      (stepped : WriteBatcher.step (debounceMs authState) (p.batcher authState) event =
        some batcher) : Moves (.batcher authState event) (p.withBatcher authState batcher)
  | flush {authState : Nat} {task : Task} (running : (p.batcher authState).running = some task)
      (idle : p.writers.get? ⟨authState, .flush⟩ = none) (some : task.entries ≠ []) :
      Moves (.flush authState) (withLock sessionId ⟨authState, .flush⟩
        [.upsert (task.entries.map fun entry => ⟨entry.1, entry.2.value⟩)] p)
  | nothingFlushed {authState : Nat} {task : Task}
      (running : (p.batcher authState).running = some task) (empty : task.entries = []) :
      Moves (.flushSettles authState)
        (p.withBatcher authState (settleTask task .resolved (p.batcher authState)))
  | flushSettles {authState : Nat} {task : Task} {mutex : Mutex} {outcome : Outcome}
      {sections : List Section} (running : (p.batcher authState).running = some task)
      (present : p.writers.get? ⟨authState, .flush⟩ = some ⟨mutex, .settled outcome, sections⟩) :
      Moves (.flushSettles authState)
        { p.withBatcher authState (settleTask task outcome (p.batcher authState)) with
          writers := p.writers.erase ⟨authState, .flush⟩ }
  | enter {id : WriterId} {mutex : Mutex} {sections : List Section}
      (present : p.writers.get? id = some ⟨mutex, .waiting, sections⟩) :
      Moves (.enter id) (p.withWriter id ⟨mutex, .calling, sections⟩)
  | resolves {id : WriterId} {mutex : Mutex} {sections : List Section}
      (present : p.writers.get? id = some ⟨mutex, .calling, sections⟩) :
      Moves (.settle id .resolved) (p.withWriter id ⟨mutex, .updating, sections⟩)
  | rejects {id : WriterId} {mutex : Mutex} {sections : List Section}
      (present : p.writers.get? id = some ⟨mutex, .calling, sections⟩) :
      Moves (.settle id .rejected) (p.withWriter id ⟨mutex, .settled .rejected, []⟩)
  | returns {id : WriterId} {mutex : Mutex} {sections : List Section}
      (present : p.writers.get? id = some ⟨mutex, .updating, sections⟩) :
      Moves (.release id) (p.withWriter id ⟨mutex, .settled .resolved, []⟩)
  | continues {id : WriterId} {mutex : Mutex} {sections rest : List Section} {change : Section}
      (present : p.writers.get? id = some ⟨mutex, .updating, sections⟩)
      (more : sections.tail = change :: rest) :
      Moves (.release id) (withLock sessionId id (change :: rest) p)

variable {sessionId debounceMs p}

theorem step_moves {next : Process} {event : Event}
    (taken : step sessionId debounceMs p event = some next) :
    Moves sessionId debounceMs p event next := by
  cases event with
  | useHybridAuthState =>
    cases taken
    exact .useHybridAuthState
  | keysSet authState thread changes =>
    simp only [step, ProcessWrites.keysSet] at taken
    split at taken
    · cases taken
    · split at taken
      · rename_i known
        split at taken <;> cases taken
        · rename_i empty
          exact .nothingSet known empty
        · rename_i some
          exact .keysSet known some
      · cases taken
  | saveCreds authState creds =>
    simp only [step] at taken
    split at taken
    · rename_i known
      cases taken
      exact .saveCreds known
    · cases taken
  | batcher authState event =>
    simp only [step] at taken
    split at taken
    · cases taken
    · cases taken
    all_goals
      split at taken
      · obtain ⟨batcher, stepped, rfl⟩ := Option.map_eq_some_iff.mp taken
        exact .batcher (fun _ _ => by simp) stepped
      · cases taken
  | flush authState =>
    simp only [step, ProcessWrites.flush] at taken
    split at taken
    · rename_i task running idle
      split at taken
      · cases taken
      · rename_i some
        cases taken
        exact .flush running idle some
    · cases taken
  | flushSettles authState =>
    simp only [step, ProcessWrites.flushSettles] at taken
    split at taken
    · cases taken
    · rename_i task running
      split at taken
      · rename_i empty
        cases taken
        exact .nothingFlushed running empty
      · split at taken
        · rename_i present
          cases taken
          exact .flushSettles running present
        · cases taken
  | enter id =>
    simp only [step, ProcessWrites.enter] at taken
    split at taken
    · rename_i present
      cases taken
      exact .enter present
    · cases taken
  | settle id outcome =>
    simp only [step, ProcessWrites.settle] at taken
    split at taken
    · rename_i present
      split at taken <;> cases taken
      · exact .resolves present
      · exact .rejects present
    · cases taken
  | release id =>
    simp only [step, ProcessWrites.release] at taken
    split at taken
    · rename_i present
      split at taken <;> cases taken
      · exact .returns present
      · rename_i more
        exact .continues present more
    · cases taken

end Step

def Writer.runs (writer : Writer) : Bool :=
  match writer.stage with
  | .calling | .updating => true
  | .waiting | .settled _ => false

/-- `runExclusive` starts a body only while no other body runs under its mutex. -/
def Exclusive (p : Process) : Event → Prop
  | .enter id => ∀ writer ∈ p.writers.get? id, ∀ entry ∈ p.writers.entries,
      entry.2.mutex = writer.mutex → entry.2.runs = false
  | _ => True

instance (p : Process) (event : Event) : Decidable (Exclusive p event) :=
  match event with
  | .enter id => inferInstanceAs (Decidable (∀ writer ∈ p.writers.get? id,
      ∀ entry ∈ p.writers.entries, entry.2.mutex = writer.mutex → entry.2.runs = false))
  | .useHybridAuthState | .keysSet _ _ _ | .saveCreds _ _ | .batcher _ _ | .flush _
  | .flushSettles _ | .settle _ _ | .release _ => isTrue trivial

def InFlight (p : Process) (id : WriterId) : Prop :=
  ∃ writer, p.writers.get? id = some writer ∧ writer.stage = .calling

section Exclusion

variable {sessionId : String}

/-- Every writer of an auth state goes by its one mutex, and no two bodies run under one mutex. -/
structure Locked (sessionId : String) (p : Process) : Prop where
  mutexed : ∀ id writer, p.writers.get? id = some writer →
    (p.lock id.authState).locks.get? sessionId = some writer.mutex
  exclusive : ∀ id other writer body, p.writers.get? id = some writer →
    p.writers.get? other = some body → writer.runs = true → body.runs = true →
      writer.mutex = body.mutex → id = other

theorem initial_locked : Locked sessionId initial := by
  constructor
  · intro _ _ present
    cases present
  · intro _ _ _ _ present
    cases present

theorem Locked.withWriter {p : Process} (locked : Locked sessionId p) {id : WriterId}
    {old writer : Writer} (present : p.writers.get? id = some old)
    (same : writer.mutex = old.mutex)
    (enters : writer.runs = true → old.runs = true ∨ ∀ other body,
      p.writers.get? other = some body → body.mutex = old.mutex → body.runs = false) :
    Locked sessionId (p.withWriter id writer) := by
  have apart : ∀ other body, other ≠ id → p.writers.get? other = some body →
      writer.runs = true → body.runs = true → writer.mutex ≠ body.mutex := by
    intro other body different found runs others mutex
    rcases enters runs with before | free
    · exact different (locked.exclusive other id body old found present others before
        (same ▸ mutex).symm)
    · rw [free other body found (same ▸ mutex).symm] at others
      cases others
  constructor
  · intro other body found
    simp only [Process.withWriter, InsertionMap.get?_set] at found
    split at found
    · rename_i here
      cases found
      rw [here, same]
      exact locked.mutexed id old present
    · exact locked.mutexed other body found
  · intro first second body next inFirst inSecond firstRuns secondRuns mutex
    simp only [Process.withWriter, InsertionMap.get?_set] at inFirst inSecond
    split at inFirst <;> split at inSecond
    · rename_i here there
      rw [here, there]
    · rename_i here there
      cases inFirst
      exact absurd mutex (apart second next there inSecond firstRuns secondRuns)
    · rename_i here there
      cases inSecond
      exact absurd mutex.symm (apart first body here inFirst secondRuns firstRuns)
    · exact locked.exclusive first second body next inFirst inSecond firstRuns secondRuns mutex

theorem Locked.withLock {p : Process} (locked : Locked sessionId p) (id : WriterId)
    (sections : List Section) : Locked sessionId (withLock sessionId id sections p) := by
  constructor
  · intro other body found
    simp only [ProcessWrites.withLock, InsertionMap.get?_set] at found
    split at found
    · rename_i here
      cases found
      simp only [ProcessWrites.withLock, here, Function.update_self]
      exact LocalMutexLock.getMutex_kept _ _ _
    · have kept := locked.mutexed other body found
      simp only [ProcessWrites.withLock, Function.update_apply]
      split
      · rename_i here
        rw [here] at kept
        exact LocalMutexLock.getMutex_extends _ _ _ kept
      · exact kept
  · intro first second body next inFirst inSecond firstRuns secondRuns mutex
    simp only [ProcessWrites.withLock, InsertionMap.get?_set] at inFirst inSecond
    split at inFirst
    · cases inFirst
      cases firstRuns
    · split at inSecond
      · cases inSecond
        cases secondRuns
      · exact locked.exclusive first second body next inFirst inSecond firstRuns secondRuns mutex

theorem Locked.erased {p : Process} (locked : Locked sessionId p) (id : WriterId) :
    Locked sessionId { p with writers := p.writers.erase id } := by
  have kept : ∀ other body, (p.writers.erase id).get? other = some body →
      p.writers.get? other = some body := by
    intro other body found
    rw [InsertionMap.get?_erase] at found
    split at found
    · cases found
    · exact found
  exact ⟨fun other body found => locked.mutexed other body (kept other body found),
    fun first second body next inFirst inSecond => locked.exclusive first second body next
      (kept first body inFirst) (kept second next inSecond)⟩

theorem Locked.withBatcher {p : Process} (locked : Locked sessionId p) (authState : Nat)
    (batcher : State) : Locked sessionId (p.withBatcher authState batcher) :=
  ⟨locked.mutexed, locked.exclusive⟩

theorem step_locked {debounceMs : Nat → Int} {p next : Process} {event : Event}
    (locked : Locked sessionId p) (exclusive : Exclusive p event)
    (taken : step sessionId debounceMs p event = some next) : Locked sessionId next := by
  cases step_moves taken with
  | useHybridAuthState => exact ⟨locked.mutexed, locked.exclusive⟩
  | nothingSet => exact locked
  | keysSet | flush | continues => exact locked.withLock _ _
  | saveCreds | batcher | nothingFlushed => exact locked.withBatcher _ _
  | flushSettles => exact (locked.withBatcher _ _).erased _
  | @enter id mutex sections present =>
    have free : ∀ other body, p.writers.get? other = some body → body.mutex = mutex →
        body.runs = false := fun other body found =>
      exclusive _ present (other, body) ((InsertionMap.get?_eq_some_iff _ _ _).mp found)
    exact locked.withWriter present rfl fun _ => .inr free
  | resolves present => exact locked.withWriter present rfl fun _ => .inl rfl
  | rejects present => exact locked.withWriter present rfl fun runs => by cases runs
  | returns present => exact locked.withWriter present rfl fun runs => by cases runs

theorem run_locked {debounceMs : Nat → Int} {allowed : Process → Event → Prop}
    (exclusive : ∀ p event, allowed p event → Exclusive p event) {p : Process}
    {events : List Event} (run : Run (step sessionId debounceMs) allowed initial events p) :
    Locked sessionId p :=
  run.invariant _ (fun _ _ _ before permitted taken =>
    step_locked before (exclusive _ _ permitted) taken) initial_locked

theorem Locked.alone {p : Process} (locked : Locked sessionId p) {first second : WriterId}
    (inFirst : InFlight p first) (inSecond : InFlight p second)
    (same : first.authState = second.authState) : first = second := by
  obtain ⟨writer, found, calls⟩ := inFirst
  obtain ⟨body, present, also⟩ := inSecond
  have mutex := locked.mutexed first writer found
  rw [same, locked.mutexed second body present] at mutex
  apply locked.exclusive first second writer body found present
  · rw [Writer.runs, calls]
  · rw [Writer.runs, also]
  · exact (Option.some.inj mutex).symm

end Exclusion

end BaileysSession.ProcessWrites
