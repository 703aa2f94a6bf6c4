import BaileysSession.Utils.WriteBatcherQueue

set_option autoImplicit false

namespace BaileysSession.WriteBatcher.Queued

open Transition Overlay

def runningEntries (s : State) : Batch := s.running.elim [] Task.entries

section Callbacks

structure Serial (o : Observed) : Prop where
  callbacks : o.callbacks =
    (o.s.flushed.flatMap fun item => [Callback.begins item.1, .ends item.1]) ++
      began (runningEntries o.s)
  flushed : ∀ item ∈ o.s.flushed, item.1 ≠ [] ∧ (item.1.map Prod.fst).Nodup
  running : ((runningEntries o.s).map Prod.fst).Nodup

theorem Serial.same {o next : Observed} (serial : Serial o)
    (callbacks : next.callbacks = o.callbacks) (flushed : next.s.flushed = o.s.flushed)
    (running : next.s.running = o.s.running) : Serial next := by
  have entries : runningEntries next.s = runningEntries o.s := by rw [runningEntries, running]; rfl
  exact ⟨by rw [callbacks, flushed, entries, serial.callbacks], flushed ▸ serial.flushed,
    entries ▸ serial.running⟩

theorem write_frame (debounceMs : Int) (key value : String) (s : State) :
    (write debounceMs key value s).running = s.running ∧
      (write debounceMs key value s).flushed = s.flushed ∧
      (write debounceMs key value s).settled = s.settled ∧
      (write debounceMs key value s).promises = s.promises ∧
      (write debounceMs key value s).clears = s.clears ∧
      (write debounceMs key value s).destroyed = s.destroyed ∧
      (write debounceMs key value s).writes = s.writes ++ [⟨key, value⟩] ∧
      (write debounceMs key value s).pending = s.pending.set key ⟨value, s.writes.length⟩ := by
  unfold write requestFlush
  split <;> exact ⟨rfl, rfl, rfl, rfl, rfl, rfl, rfl, rfl⟩

theorem step_serial {debounceMs : Int} {o next : Observed} {event : Event} (serial : Serial o)
    (taken : step debounceMs o event = some next) : Serial next := by
  rcases step_cases taken with ⟨key, value, rfl⟩ | ⟨caller, -, -, rfl⟩ |
    ⟨call, rest, idle, queue, rfl⟩ | ⟨task, running, rfl⟩ | ⟨call, outcome, rest, head, rfl⟩ |
    ⟨issued, rest, head, rfl⟩
  · obtain ⟨running, flushed, -⟩ := write_frame debounceMs key value o.s
    exact serial.same rfl flushed running
  · exact serial.same rfl rfl rfl
  · have before := serial.callbacks
    simp only [runningEntries, idle, Option.elim_none, began, if_true, List.append_nil] at before
    refine ⟨?_, serial.flushed, o.s.pending.unique⟩
    rw [before]
    rfl
  · have before := serial.callbacks
    have keyed := serial.running
    simp only [runningEntries, running, Option.elim_some] at before keyed
    by_cases empty : task.entries = []
    · refine ⟨?_, ?_, List.nodup_nil⟩
      · simp [before, empty, finish, runningEntries, began, ended]
      · simpa [finish, empty] using serial.flushed
    · refine ⟨?_, ?_, List.nodup_nil⟩
      · simp [before, empty, finish, runningEntries, began, ended]
      · intro item inside
        simp only [finish, if_neg empty] at inside
        rcases List.mem_append.mp inside with old | new
        · exact serial.flushed item old
        · rw [List.mem_singleton.mp new]
          exact ⟨empty, keyed⟩
  · dsimp only
    rw [resume_eq]
    exact serial.same rfl rfl rfl
  · exact serial.same rfl rfl rfl

/-- Batches do not overlap: the callback has ended for one before it begins for the next. -/
inductive InTurn : List Callback → Prop
  | nil : InTurn []
  | one (batch : Batch) : InTurn [.begins batch]
  | more (batch : Batch) {later : List Callback} (rest : InTurn later) :
      InTurn (.begins batch :: .ends batch :: later)

theorem Serial.inTurn {o : Observed} (serial : Serial o) : InTurn o.callbacks := by
  rw [serial.callbacks]
  induction o.s.flushed with
  | nil =>
    rw [List.flatMap_nil, List.nil_append, began]
    split
    · exact .nil
    · exact .one _
  | cons item rest ih => exact .more item.1 ih

theorem Serial.began_batch {o : Observed} (serial : Serial o) {batch : Batch}
    (inside : .begins batch ∈ o.callbacks) : batch ≠ [] ∧ (batch.map Prod.fst).Nodup := by
  rw [serial.callbacks] at inside
  rcases List.mem_append.mp inside with finished | running
  · obtain ⟨item, present, which⟩ := List.mem_flatMap.mp finished
    simp only [List.mem_cons, Callback.begins.injEq, reduceCtorEq, List.not_mem_nil, or_false]
      at which
    exact which ▸ serial.flushed item present
  · rw [began] at running
    split at running
    · cases running
    · rename_i some
      rw [List.mem_singleton, Callback.begins.injEq] at running
      exact running ▸ ⟨some, serial.running⟩

theorem Serial.ended_batch {o : Observed} (serial : Serial o) {batch : Batch} {outcome : Outcome}
    (inside : (batch, outcome) ∈ o.s.flushed) : .ends batch ∈ o.callbacks := by
  rw [serial.callbacks]
  refine List.mem_append_left _ (List.mem_flatMap.mpr ⟨_, inside, ?_⟩)
  simp

end Callbacks

section Stores

def texts (batch : Batch) : List (String × String) :=
  batch.map fun entry => (entry.1, entry.2.value)

-- The store after the flush callback did its work for every batch it was handed.
def applyBatches (store : Store String String) (callbacks : List Callback) : Store String String :=
  (callbacks.filterMap Callback.begun?).foldl (fun store batch => putAll store (texts batch)) store

def applyWrites (store : Store String String) (writes : List Write) : Store String String :=
  putAll store (writes.map fun write => (write.key, write.value))

/-- The batches and what is still pending amount to all writes one by one. -/
def WriteThrough (o : Observed) : Prop :=
  ∀ store, putAll (applyBatches store o.callbacks) (texts o.s.pending.entries) =
    applyWrites store o.s.writes

theorem applyBatches_began (store : Store String String) (callbacks : List Callback)
    (entries : Batch) :
    applyBatches store (callbacks ++ began entries) =
      putAll (applyBatches store callbacks) (texts entries) := by
  unfold began
  split
  · rename_i empty
    rw [List.append_nil, empty]
    rfl
  · simp [applyBatches, Callback.begun?]

theorem applyBatches_ended (store : Store String String) (callbacks : List Callback)
    (entries : Batch) :
    applyBatches store (callbacks ++ ended entries) = applyBatches store callbacks := by
  unfold ended
  split <;> simp [applyBatches, List.filterMap_cons, Callback.begun?]

theorem step_writeThrough {debounceMs : Int} {o next : Observed} {event : Event}
    (through : WriteThrough o) (taken : step debounceMs o event = some next) :
    WriteThrough next := by
  intro store
  have before := through store
  rcases step_cases taken with ⟨key, value, rfl⟩ | ⟨caller, -, -, rfl⟩ |
    ⟨call, rest, idle, queue, rfl⟩ | ⟨task, running, rfl⟩ | ⟨call, outcome, rest, head, rfl⟩ |
    ⟨issued, rest, head, rfl⟩
  · obtain ⟨-, -, -, -, -, -, writes, pending⟩ := write_frame debounceMs key value o.s
    dsimp only
    rw [writes, pending, texts, putAll_set Stored.value, applyWrites, List.map_append, putAll_append]
    rw [texts] at before
    rw [before]
    rfl
  · exact before
  · dsimp only
    rw [applyBatches_began, before]
    rfl
  · dsimp only
    rw [applyBatches_ended]
    exact before
  · dsimp only
    rw [resume_eq]
    exact before
  · exact before

end Stores

section Safety

def Covers (call : FlushCall) (writer : Nat) : Prop :=
  writer ∈ call.awaits ∨ ∃ issued, call.caller = .destroy issued ∧ writer < issued

def Landed (s : State) (batch : Batch) (writer : Nat) : Prop :=
  ∃ asked, s.writes[writer]? = some asked ∧
    (Carries batch asked.key writer ∨ Flushed s asked.key writer)

structure Sound (s : State) : Prop where
  pendingGenuine : Genuine s.writes s.pending.entries
  runningGenuine : Genuine s.writes (runningEntries s)
  flushedGenuine : ∀ item ∈ s.flushed, item.2 = .resolved ∧ Genuine s.writes item.1
  covered : ∀ writer < s.writes.length, Landed s (s.pending.entries ++ runningEntries s) writer
  waiters : ∀ writer ∈ s.flushWaiters, writer < s.writes.length
  queued : ∀ call ∈ s.queue, ∀ writer, Covers call writer → writer < s.writes.length
  running : ∀ task, s.running = some task → ∀ writer, Covers task.call writer →
    Landed s task.entries writer
  settled : ∀ item ∈ s.settled, item.2 = .resolved ∧
    ∀ writer, Covers item.1 writer → Landed s [] writer
  promises : ∀ writer, s.promises writer = some .resolved → Landed s [] writer
  clears : ∀ issued ∈ s.clears, ∀ writer < issued, Landed s [] writer
  destroyed : ∀ issued ∈ s.destroyed, ∀ writer < issued, Landed s [] writer

theorem initial_sound : Sound WriteBatcher.initial where
  pendingGenuine := fun _ inside => by cases inside
  runningGenuine := fun _ inside => by cases inside
  flushedGenuine := fun _ inside => by cases inside
  covered := fun _ bound => by cases bound
  waiters := fun _ inside => by cases inside
  queued := fun _ inside => by cases inside
  running := fun _ running => by cases running
  settled := fun _ inside => by cases inside
  promises := fun _ done => by cases done
  clears := fun _ inside => by cases inside
  destroyed := fun _ inside => by cases inside

theorem Landed.mono {s next : State} {batch later : Batch} {writer : Nat}
    (landed : Landed s batch writer) (added : List Write) (writes : next.writes = s.writes ++ added)
    (flushed : ∀ item ∈ s.flushed, item ∈ next.flushed)
    (carried : ∀ key, Carries batch key writer → Carries later key writer ∨ Flushed next key writer) :
    Landed next later writer := by
  obtain ⟨asked, known, found⟩ := landed
  have bound := (List.getElem?_eq_some_iff.mp known).1
  refine ⟨asked, by rw [writes, List.getElem?_append_left bound, known], ?_⟩
  rcases found with carries | ⟨done, inside, carries⟩
  · exact carried asked.key carries
  · exact .inr ⟨done, flushed _ inside, carries⟩

theorem Landed.extend {s next : State} {batch : Batch} {writer : Nat}
    (landed : Landed s batch writer) (added : List Write) (writes : next.writes = s.writes ++ added)
    (flushed : next.flushed = s.flushed) : Landed next batch writer :=
  landed.mono added writes (fun _ inside => flushed ▸ inside) fun _ carries => .inl carries

theorem write_sound {s : State} (sound : Sound s) (debounceMs : Int) (key value : String) :
    Sound (write debounceMs key value s) := by
  obtain ⟨running, flushed, settled, promises, clears, destroyed, writes, pending⟩ :=
    write_frame debounceMs key value s
  have entries : runningEntries (write debounceMs key value s) = runningEntries s := by
    rw [runningEntries, running, runningEntries]
  have longer : (write debounceMs key value s).writes.length = s.writes.length + 1 := by
    rw [writes, List.length_append, List.length_singleton]
  have asked : ∀ writer, writer ∈ s.flushWaiters ∨ writer = s.writes.length →
      writer < (write debounceMs key value s).writes.length := by
    rintro writer (old | rfl)
    · have := sound.waiters writer old
      omega
    · omega
  constructor
  · rw [writes, pending]
    exact genuine_set sound.pendingGenuine key value
  · rw [writes, entries]
    exact sound.runningGenuine.extend _
  · rw [writes, flushed]
    exact fun item inside => ⟨(sound.flushedGenuine item inside).1,
      (sound.flushedGenuine item inside).2.extend _⟩
  · intro writer bound
    rw [longer] at bound
    rw [entries, pending]
    by_cases new : writer = s.writes.length
    · refine ⟨⟨key, value⟩, by rw [writes, new, List.getElem?_concat_length], .inl ?_⟩
      refine ⟨⟨value, s.writes.length⟩, List.mem_append_left _ ?_, by rw [new]⟩
      apply (InsertionMap.get?_eq_some_iff _ _ _).mp
      simp
    · refine (sound.covered writer (by omega)).mono _ writes (fun _ inside => flushed ▸ inside) ?_
      rintro name ⟨stored, inside, later⟩
      left
      rcases List.mem_append.mp inside with waiting | started
      · obtain ⟨kept, present, fresh⟩ := carries_set ⟨stored, waiting, later⟩ key value
          s.writes.length (by omega)
        exact ⟨kept, List.mem_append_left _ present, fresh⟩
      · exact ⟨stored, List.mem_append_right _ started, later⟩
  · intro writer inside
    unfold write at inside
    split at inside
    · cases inside
    · rcases List.mem_append.mp inside with old | new
      · exact asked writer (.inl old)
      · exact asked writer (.inr (List.mem_singleton.mp new))
  · intro call inside writer covers
    have old : ∀ call ∈ s.queue, Covers call writer →
        writer < (write debounceMs key value s).writes.length := by
      intro call inside covers
      have := sound.queued call inside writer covers
      omega
    unfold write at inside
    split at inside
    · rcases List.mem_append.mp inside with before | new
      · exact old call before covers
      · rw [List.mem_singleton.mp new] at covers
        rcases covers with awaited | ⟨_, caller, -⟩
        · rcases List.mem_append.mp awaited with waiter | self
          · exact asked writer (.inl waiter)
          · exact asked writer (.inr (List.mem_singleton.mp self))
        · cases caller
    · exact old call inside covers
  · intro task busy writer covers
    exact (sound.running task (running ▸ busy) writer covers).extend _ writes flushed
  · rw [settled]
    exact fun item inside => ⟨(sound.settled item inside).1,
      fun writer covers => ((sound.settled item inside).2 writer covers).extend _ writes flushed⟩
  · rw [promises]
    exact fun writer done => (sound.promises writer done).extend _ writes flushed
  · rw [clears]
    exact fun issued inside writer bound =>
      (sound.clears issued inside writer bound).extend _ writes flushed
  · rw [destroyed]
    exact fun issued inside writer bound =>
      (sound.destroyed issued inside writer bound).extend _ writes flushed

theorem requestFlush_sound {s : State} (sound : Sound s) {caller : Caller}
    (silent : caller.awaits = [])
    (issues : ∀ issued, caller = .destroy issued → issued = s.writes.length) :
    Sound (requestFlush caller s) := by
  refine { sound with waiters := nofun, queued := ?_ }
  intro call inside writer covers
  rcases List.mem_append.mp inside with before | new
  · exact sound.queued call before writer covers
  · rw [List.mem_singleton.mp new] at covers
    rcases covers with awaited | ⟨issued, called, bound⟩
    · rw [FlushCall.awaits, silent, List.append_nil] at awaited
      exact sound.waiters writer awaited
    · rw [issues issued called] at bound
      exact bound

theorem start_sound {s : State} (sound : Sound s) (idle : s.running = none) {call : FlushCall}
    {rest : List FlushCall} (queue : s.queue = call :: rest) :
    Sound (start call { s with queue := rest }) := by
  have nothing : runningEntries s = [] := by rw [runningEntries, idle]; rfl
  have covered := sound.covered
  rw [nothing] at covered
  simp only [List.append_nil] at covered
  refine { sound with
    pendingGenuine := nofun
    runningGenuine := sound.pendingGenuine
    covered := covered
    queued := fun other inside => sound.queued other (queue ▸ List.mem_cons_of_mem _ inside)
    running := ?_ }
  rintro task ⟨⟩ writer covers
  exact covered writer (sound.queued call (queue ▸ List.mem_cons_self) writer covers)

theorem finish_sound {s : State} (sound : Sound s) {task : Task} (running : s.running = some task) :
    Sound (finish task s) := by
  have entries : runningEntries s = task.entries := by rw [runningEntries, running]; rfl
  have logged : ∀ item ∈ s.flushed, item ∈ (finish task s).flushed := by
    intro item inside
    simp only [finish]
    split
    · exact inside
    · exact List.mem_append_left _ inside
  have landed : ∀ {key : String} {writer : Nat}, Carries task.entries key writer →
      Flushed (finish task s) key writer := by
    rintro key writer ⟨stored, inside, later⟩
    have some : task.entries ≠ [] := List.ne_nil_of_mem inside
    refine ⟨task.entries, ?_, stored, inside, later⟩
    simp [finish, some]
  have kept : ∀ {writer : Nat}, Landed s [] writer → Landed (finish task s) [] writer :=
    fun before => before.mono [] (List.append_nil _).symm logged fun _ carries => .inl carries
  refine { sound with
    runningGenuine := by rintro _ ⟨⟩
    flushedGenuine := ?_
    covered := ?_
    running := by rintro _ ⟨⟩
    settled := ?_
    promises := fun writer done => kept (sound.promises writer done)
    clears := fun issued inside writer bound => kept (sound.clears issued inside writer bound)
    destroyed := fun issued inside writer bound => kept (sound.destroyed issued inside writer bound) }
  · intro item inside
    simp only [finish] at inside
    split at inside
    · exact sound.flushedGenuine item inside
    · rcases List.mem_append.mp inside with old | new
      · exact sound.flushedGenuine item old
      · rw [List.mem_singleton.mp new]
        exact ⟨rfl, entries ▸ sound.runningGenuine⟩
  · intro writer bound
    refine (sound.covered writer bound).mono [] (List.append_nil _).symm logged ?_
    rintro key ⟨stored, inside, later⟩
    rw [entries] at inside
    rcases List.mem_append.mp inside with waiting | started
    · exact .inl ⟨stored, List.mem_append_left _ waiting, later⟩
    · exact .inr (landed ⟨stored, started, later⟩)
  · intro item inside
    rcases List.mem_append.mp inside with old | new
    · exact ⟨(sound.settled item old).1, fun writer covers =>
        kept ((sound.settled item old).2 writer covers)⟩
    · rw [List.mem_singleton.mp new]
      refine ⟨rfl, fun writer covers => ?_⟩
      exact (sound.running task running writer covers).mono [] (List.append_nil _).symm logged
        fun _ carries => .inr (landed carries)

theorem resume_sound {s : State} (sound : Sound s) {call : FlushCall} {outcome : Outcome}
    {rest : List (FlushCall × Outcome)} (head : s.settled = (call, outcome) :: rest) :
    Sound (WriteBatcher.resume call outcome { s with settled := rest }) := by
  have here : (call, outcome) ∈ s.settled := head ▸ List.mem_cons_self
  obtain ⟨resolved, done⟩ := sound.settled _ here
  cases resolved
  rw [resume_eq]
  refine { sound with
    settled := fun item inside => sound.settled item (head ▸ List.mem_cons_of_mem _ inside)
    promises := ?_
    clears := ?_ }
  · intro writer settled
    dsimp only at settled
    split at settled
    · rename_i released
      exact done writer (.inl released)
    · exact sound.promises writer settled
  · intro issued inside writer bound
    cases caller : call.caller with
    | destroy count =>
      rw [caller] at inside
      rcases List.mem_append.mp inside with before | new
      · exact sound.clears issued before writer bound
      · rw [List.mem_singleton.mp new] at bound
        exact done writer (.inr ⟨count, caller, bound⟩)
    | timer | user | write other =>
      rw [caller] at inside
      exact sound.clears issued inside writer bound

theorem clear_sound {s : State} (sound : Sound s) {issued : Nat} {rest : List Nat}
    (head : s.clears = issued :: rest) :
    Sound { s with queue := [], clears := rest, destroyed := s.destroyed ++ [issued] } := by
  refine { sound with
    queued := nofun
    clears := fun count inside => sound.clears count (head ▸ List.mem_cons_of_mem _ inside)
    destroyed := ?_ }
  intro count inside
  rcases List.mem_append.mp inside with before | new
  · exact sound.destroyed count before
  · rw [List.mem_singleton.mp new]
    exact sound.clears issued (head ▸ List.mem_cons_self)

theorem step_sound {debounceMs : Int} {o next : Observed} {event : Event} (sound : Sound o.s)
    (taken : step debounceMs o event = some next) : Sound next.s := by
  rcases step_cases taken with ⟨key, value, rfl⟩ | ⟨caller, silent, issues, rfl⟩ |
    ⟨call, rest, idle, queue, rfl⟩ | ⟨task, running, rfl⟩ | ⟨call, outcome, rest, head, rfl⟩ |
    ⟨issued, rest, head, rfl⟩
  · exact write_sound sound debounceMs key value
  · exact requestFlush_sound sound silent issues
  · exact start_sound sound idle queue
  · exact finish_sound sound running
  · exact resume_sound sound head
  · exact clear_sound sound head

end Safety

def Completed (o : Observed) (writer : Nat) : Prop :=
  ∃ asked later newer batch, o.s.writes[writer]? = some asked ∧ .ends batch ∈ o.callbacks ∧
    writer ≤ later ∧ o.s.writes[later]? = some newer ∧ newer.key = asked.key ∧
    (asked.key, ⟨newer.value, later⟩) ∈ batch

theorem Landed.completed {o : Observed} (serial : Serial o) (sound : Sound o.s) {writer : Nat}
    (landed : Landed o.s [] writer) : Completed o writer := by
  obtain ⟨asked, known, ⟨_, inside, -⟩ | ⟨batch, flushed, stored, inside, later⟩⟩ := landed
  · cases inside
  · exact ⟨asked, stored.writer, ⟨asked.key, stored.value⟩, batch, known, serial.ended_batch flushed,
      later, (sound.flushedGenuine _ flushed).2 _ inside, rfl, inside⟩

/-- Batching is writing through, as far as the store and those who wait can tell. -/
structure LastWriteWins (o : Observed) : Prop where
  inTurn : InTurn o.callbacks
  batches : ∀ batch, .begins batch ∈ o.callbacks → batch ≠ [] ∧ (batch.map Prod.fst).Nodup
  store : WriteThrough o
  promises : ∀ writer, o.s.promises writer = some .resolved → Completed o writer
  destroyed : ∀ issued ∈ o.s.destroyed, ∀ writer < issued, Completed o writer

theorem last_write_wins (debounceMs : Int) (events : List Event) (o : Observed)
    (run : Run (step debounceMs) anything initial events o) : LastWriteWins o := by
  have serial : Serial o := run.invariant Serial (fun _ _ _ held _ taken => step_serial held taken)
    ⟨rfl, nofun, List.nodup_nil⟩
  have through : WriteThrough o := run.invariant WriteThrough
    (fun _ _ _ held _ taken => step_writeThrough held taken) fun _ => rfl
  have sound : Sound o.s := run.invariant (fun o => Sound o.s)
    (fun _ _ _ held _ taken => step_sound held taken) initial_sound
  exact ⟨serial.inTurn, fun _ => serial.began_batch, through,
    fun writer done => (sound.promises writer done).completed serial sound,
    fun issued inside writer bound => (sound.destroyed issued inside writer bound).completed serial
      sound⟩

-- A write joins the batch of a flush that was requested before it, and the flush for it finds
-- nothing to do.
def coalescedRun : List Event :=
  [.write "creds" "1", .flushNow, .write "creds" "2", .queueStarts, .destroy, .flushResolves,
    .queueStarts, .flushResolves, .resume, .resume, .clear]

theorem last_write_wins_coalesced :
    ∃ o, replay (step 50) anything initial coalescedRun = some o ∧
      o.callbacks = [.begins [("creds", ⟨"2", 1⟩)], .ends [("creds", ⟨"2", 1⟩)]] ∧
      o.s.destroyed = [2] ∧ LastWriteWins o :=
  ⟨_, rfl, rfl, rfl, last_write_wins 50 coalescedRun _ (replay_run _ _ _ _ _ rfl)⟩

end BaileysSession.WriteBatcher.Queued
