import Mathlib.Data.List.Infix
import Mathlib.Data.List.Range
import BaileysSession.Utils.WriteBatcher

set_option autoImplicit false

namespace BaileysSession.WriteBatcher

def Caller.awaits : Caller → List Nat
  | .write writer => [writer]
  | .timer | .user | .destroy _ => []

def FlushCall.awaits (call : FlushCall) : List Nat := call.waiters ++ call.caller.awaits

def taskAwaits (running : Option Task) : List Nat :=
  running.elim [] fun task => task.call.awaits

def waiting (s : State) : List Nat := s.queue.flatMap FlushCall.awaits ++ s.flushWaiters

def outstanding (s : State) : List Nat :=
  s.settled.flatMap (fun item => item.1.awaits) ++ taskAwaits s.running ++ waiting s

def Genuine (writes : List Write) (batch : Batch) : Prop :=
  ∀ entry ∈ batch, writes[entry.2.writer]? = some ⟨entry.1, entry.2.value⟩

structure WellFormed (s : State) : Prop where
  idle : s.running = none → s.queue = []
  pendingGenuine : Genuine s.writes s.pending.entries
  runningGenuine : ∀ task, s.running = some task → Genuine s.writes task.entries
  flushedGenuine : ∀ item ∈ s.flushed, Genuine s.writes item.1
  ordered : (outstanding s).Sublist (List.range s.writes.length)
  latest : waiting s <:+ List.range s.writes.length
  known : ∀ writer, s.promises writer ≠ none → writer < s.writes.length

theorem initial_wellFormed : WellFormed initial where
  idle := fun _ => rfl
  pendingGenuine := fun _ inside => by cases inside
  runningGenuine := fun _ running => by cases running
  flushedGenuine := fun _ inside => by cases inside
  ordered := List.nil_sublist _
  latest := List.nil_suffix
  known := fun _ settled => absurd rfl settled

theorem Genuine.extend {writes : List Write} {batch : Batch} (genuine : Genuine writes batch)
    (added : List Write) : Genuine (writes ++ added) batch := by
  intro entry inside
  have known := genuine entry inside
  have bound := (List.getElem?_eq_some_iff.mp known).1
  rw [List.getElem?_append_left bound, known]

theorem genuine_set {writes : List Write} {pending : InsertionMap String Stored}
    (genuine : Genuine writes pending.entries) (key value : String) :
    Genuine (writes ++ [⟨key, value⟩]) (pending.set key ⟨value, writes.length⟩).entries := by
  rintro ⟨name, stored⟩ inside
  have found := (InsertionMap.get?_eq_some_iff _ _ _).mpr inside
  rw [InsertionMap.get?_set] at found
  split at found
  · rename_i same
    cases found
    simp [same]
  · exact genuine.extend _ _ ((InsertionMap.get?_eq_some_iff _ _ _).mp found)

theorem suffix_closed {n i j : Nat} {numbers : List Nat} (latest : numbers <:+ List.range n)
    (member : i ∈ numbers) (later : i ≤ j) (bound : j < n) : j ∈ numbers := by
  obtain ⟨earlier, split⟩ := latest
  have strict : (earlier ++ numbers).Pairwise (· < ·) := split ▸ List.pairwise_lt_range
  have present : j ∈ earlier ++ numbers := split ▸ List.mem_range.mpr bound
  rcases List.mem_append.mp present with before | after
  · have := (List.pairwise_append.mp strict).2.2 j before i member
    omega
  · exact after

theorem outstanding_known {s : State} (valid : WellFormed s) {writer : Nat}
    (member : writer ∈ outstanding s) : writer < s.writes.length :=
  List.mem_range.mp (valid.ordered.subset member)

theorem waiting_outstanding {s : State} {writer : Nat} (member : writer ∈ waiting s) :
    writer ∈ outstanding s :=
  List.mem_append_right _ member

section FlushNow

variable (caller : Caller) (s : State)

theorem flushNow_frame :
    (flushNow caller s).writes = s.writes ∧ (flushNow caller s).promises = s.promises ∧
      (flushNow caller s).flushed = s.flushed ∧ (flushNow caller s).settled = s.settled ∧
      (flushNow caller s).clears = s.clears ∧ (flushNow caller s).destroyed = s.destroyed ∧
      (flushNow caller s).flushWaiters = [] ∧ (flushNow caller s).timer = false := by
  unfold flushNow start
  cases s.running <;> exact ⟨rfl, rfl, rfl, rfl, rfl, rfl, rfl, rfl⟩

theorem flushNow_idle (idle : s.running = none) :
    flushNow caller s = start ⟨s.flushWaiters, caller⟩
      { s with timer := false, flushWaiters := [] } := by
  simp only [flushNow, idle]

theorem flushNow_busy (task : Task) (busy : s.running = some task) :
    flushNow caller s = { s with
      timer := false
      flushWaiters := []
      queue := s.queue ++ [⟨s.flushWaiters, caller⟩] } := by
  simp only [flushNow, busy]

theorem flushNow_waiting (task : Task) (busy : s.running = some task) :
    waiting (flushNow caller s) = waiting s ++ caller.awaits := by
  simp [flushNow_busy caller s task busy, waiting, FlushCall.awaits]

theorem flushNow_outstanding (idle : s.running = none → s.queue = []) :
    outstanding (flushNow caller s) = outstanding s ++ caller.awaits := by
  cases running : s.running with
  | none =>
    simp [flushNow_idle caller s running, start, outstanding, waiting, taskAwaits,
      FlushCall.awaits, running, idle running]
  | some task =>
    simp [flushNow_busy caller s task running, outstanding, waiting, taskAwaits,
      FlushCall.awaits, running]

theorem flushNow_wellFormed (idle : s.running = none → s.queue = [])
    (pendingGenuine : Genuine s.writes s.pending.entries)
    (runningGenuine : ∀ task, s.running = some task → Genuine s.writes task.entries)
    (flushedGenuine : ∀ item ∈ s.flushed, Genuine s.writes item.1)
    (ordered : (outstanding s ++ caller.awaits).Sublist (List.range s.writes.length))
    (latest : waiting s ++ caller.awaits <:+ List.range s.writes.length)
    (known : ∀ writer, s.promises writer ≠ none → writer < s.writes.length) :
    WellFormed (flushNow caller s) := by
  obtain ⟨writes, promises, flushed, -⟩ := flushNow_frame caller s
  have order := flushNow_outstanding caller s idle
  cases running : s.running with
  | none =>
    have shape := flushNow_idle caller s running
    constructor
    · simp [shape, start]
    · simp [shape, start, Genuine, InsertionMap.empty]
    · intro task started
      rw [shape] at started
      cases started
      rwa [writes]
    · rwa [flushed, writes]
    · rwa [order, writes]
    · simp [shape, start, waiting, idle running]
    · rwa [promises, writes]
  | some task =>
    have shape := flushNow_busy caller s task running
    constructor
    · simp [shape, running]
    · simpa [shape] using pendingGenuine
    · simpa [shape] using runningGenuine
    · rwa [flushed, writes]
    · rwa [order, writes]
    · rwa [flushNow_waiting caller s task running, writes]
    · rwa [promises, writes]

end FlushNow

theorem flushNow_keeps {s : State} (valid : WellFormed s) (caller : Caller)
    (silent : caller.awaits = []) : WellFormed (flushNow caller s) :=
  flushNow_wellFormed caller s valid.idle valid.pendingGenuine valid.runningGenuine
    valid.flushedGenuine (by simpa [silent] using valid.ordered)
    (by simpa [silent] using valid.latest) valid.known

theorem write_keeps {s : State} (valid : WellFormed s) (debounceMs : Int) (key value : String) :
    WellFormed (write debounceMs key value s) := by
  have pendingGenuine := genuine_set valid.pendingGenuine key value
  have runningGenuine : ∀ task, s.running = some task →
      Genuine (s.writes ++ [⟨key, value⟩]) task.entries :=
    fun task running => (valid.runningGenuine task running).extend _
  have flushedGenuine : ∀ item ∈ s.flushed, Genuine (s.writes ++ [⟨key, value⟩]) item.1 :=
    fun item inside => (valid.flushedGenuine item inside).extend _
  have ordered : (outstanding s ++ [s.writes.length]).Sublist
      (List.range (s.writes ++ [(⟨key, value⟩ : Write)]).length) := by
    rw [List.length_append, List.length_singleton, List.range_succ]
    exact valid.ordered.append_right _
  have latest : waiting s ++ [s.writes.length] <:+
      List.range (s.writes ++ [(⟨key, value⟩ : Write)]).length := by
    rw [List.length_append, List.length_singleton, List.range_succ]
    obtain ⟨earlier, split⟩ := valid.latest
    exact ⟨earlier, by rw [← List.append_assoc, split]⟩
  have known : ∀ writer, s.promises writer ≠ none →
      writer < (s.writes ++ [(⟨key, value⟩ : Write)]).length := by
    intro writer done
    have := valid.known writer done
    simp only [List.length_append, List.length_singleton]
    omega
  unfold write
  split
  · exact flushNow_wellFormed _ _ valid.idle pendingGenuine runningGenuine flushedGenuine
      ordered latest known
  · refine ⟨valid.idle, pendingGenuine, runningGenuine, flushedGenuine, ?_, ?_, known⟩
    · simpa [outstanding, waiting] using ordered
    · simpa [waiting] using latest

theorem write_outstanding {s : State} (idle : s.running = none → s.queue = [])
    (debounceMs : Int) (key value : String) :
    outstanding (write debounceMs key value s) = outstanding s ++ [s.writes.length] := by
  unfold write
  split
  · exact flushNow_outstanding (.write s.writes.length) _ idle
  · simp [outstanding, waiting]

theorem settleTask_cases (task : Task) (outcome : Outcome) (s : State) :
    (s.queue = [] ∧ settleTask task outcome s = { s with
      running := none
      settled := s.settled ++ [(task.call, outcome)]
      flushed := if task.entries = [] then s.flushed
        else s.flushed ++ [(task.entries, outcome)] }) ∨
    (∃ call rest, s.queue = call :: rest ∧ settleTask task outcome s = { s with
      running := some ⟨call, s.pending.entries⟩
      pending := .empty
      queue := rest
      settled := s.settled ++ [(task.call, outcome)]
      flushed := if task.entries = [] then s.flushed
        else s.flushed ++ [(task.entries, outcome)] }) := by
  cases queue : s.queue with
  | nil => exact .inl ⟨rfl, by simp only [settleTask, queue]⟩
  | cons call rest => exact .inr ⟨call, rest, rfl, by simp only [settleTask, queue, start]⟩

theorem settleTask_outstanding {s : State} {task : Task} (running : s.running = some task)
    (outcome : Outcome) : outstanding (settleTask task outcome s) = outstanding s := by
  rcases settleTask_cases task outcome s with ⟨queue, shape⟩ | ⟨call, rest, queue, shape⟩ <;>
    simp [shape, outstanding, waiting, taskAwaits, running, queue]

theorem settleTask_keeps {s : State} (valid : WellFormed s) (task : Task)
    (running : s.running = some task) (outcome : Outcome) :
    WellFormed (settleTask task outcome s) := by
  have order := valid.ordered
  rw [← settleTask_outstanding running outcome] at order
  have latest := valid.latest
  have logged : ∀ item ∈ (if task.entries = [] then s.flushed
      else s.flushed ++ [(task.entries, outcome)]), Genuine s.writes item.1 := by
    split
    · exact valid.flushedGenuine
    · intro item inside
      rcases List.mem_append.mp inside with old | new
      · exact valid.flushedGenuine item old
      · rw [List.mem_singleton.mp new]
        exact valid.runningGenuine task running
  rcases settleTask_cases task outcome s with ⟨queue, shape⟩ | ⟨call, rest, queue, shape⟩
  · rw [shape] at order ⊢
    exact ⟨fun _ => queue, valid.pendingGenuine, fun _ started => (by cases started), logged, order,
      latest, valid.known⟩
  · rw [shape] at order ⊢
    refine ⟨fun stopped => (by cases stopped), fun _ inside => (by cases inside), ?_, logged, order,
      ?_, valid.known⟩
    · rintro started ⟨⟩
      exact valid.pendingGenuine
    · refine List.IsSuffix.trans ⟨call.awaits, ?_⟩ latest
      simp [waiting, queue]

theorem settlePromise_fold (outcome : Outcome) (writers : List Nat) (s : State) :
    writers.foldl (settlePromise outcome) s = { s with
      promises := fun writer => if writer ∈ writers then
        (s.promises writer).or (some outcome) else s.promises writer } := by
  induction writers generalizing s with
  | nil => simp
  | cons first rest ih =>
    rw [List.foldl_cons, ih]
    simp only [settlePromise, List.mem_cons, State.mk.injEq, true_and, and_true]
    funext writer
    by_cases here : writer = first <;> by_cases there : writer ∈ rest <;> simp [here, there]

def settles (call : FlushCall) : Outcome → List Nat
  | .resolved => call.awaits
  | .rejected => call.caller.awaits

theorem resume_eq (call : FlushCall) (outcome : Outcome) (s : State) :
    resume call outcome s = { s with
      promises := fun writer => if writer ∈ settles call outcome then
        (s.promises writer).or (some outcome) else s.promises writer
      clears := match outcome, call.caller with
        | .resolved, .destroy issued => s.clears ++ [issued]
        | _, _ => s.clears } := by
  obtain ⟨waiters, caller⟩ := call
  have last (released : List Nat) (writer : Nat) (t : State) :
      settlePromise outcome (released.foldl (settlePromise outcome) t) writer =
        (released ++ [writer]).foldl (settlePromise outcome) t := by
    rw [List.foldl_append]
    rfl
  cases outcome with
  | resolved =>
    cases caller with
    | write writer =>
      simp only [resume, settles, FlushCall.awaits, Caller.awaits]
      rw [last, settlePromise_fold]
      rfl
    | timer | user | destroy issued =>
      simp only [resume, settles, FlushCall.awaits, Caller.awaits, settlePromise_fold,
        List.append_nil]
  | rejected =>
    cases caller with
    | write writer =>
      simp only [resume, settles, Caller.awaits]
      exact (last [] writer s).trans (settlePromise_fold .rejected [writer] s)
    | timer | user | destroy issued => simp [resume, settles, Caller.awaits]

theorem settles_subset (call : FlushCall) (outcome : Outcome) :
    settles call outcome ⊆ call.awaits := by
  cases outcome with
  | resolved => exact fun _ inside => inside
  | rejected => exact fun _ inside => List.mem_append_right _ inside

theorem resume_outstanding {s : State} {call : FlushCall} {outcome : Outcome}
    {rest : List (FlushCall × Outcome)} (head : s.settled = (call, outcome) :: rest) :
    outstanding s = call.awaits ++ outstanding (resume call outcome { s with settled := rest }) := by
  rw [resume_eq]
  simp [outstanding, waiting, head]

theorem resume_keeps {s : State} (valid : WellFormed s) (call : FlushCall) (outcome : Outcome)
    (rest : List (FlushCall × Outcome)) (head : s.settled = (call, outcome) :: rest) :
    WellFormed (resume call outcome { s with settled := rest }) := by
  have order := resume_outstanding head
  have later := (List.sublist_append_right _ _).trans (order ▸ valid.ordered)
  rw [resume_eq] at later ⊢
  refine ⟨valid.idle, valid.pendingGenuine, valid.runningGenuine, valid.flushedGenuine, later,
    valid.latest, ?_⟩
  intro writer done
  by_cases released : writer ∈ settles call outcome
  · refine outstanding_known valid ?_
    rw [order]
    exact List.mem_append_left _ (settles_subset call outcome released)
  · exact valid.known writer (by simpa [released] using done)

theorem clear_keeps {s : State} (valid : WellFormed s) (issued : Nat) (rest : List Nat) :
    WellFormed { s with
      queue := [], clears := rest, destroyed := s.destroyed ++ [issued] } := by
  refine ⟨fun _ => rfl, valid.pendingGenuine, valid.runningGenuine, valid.flushedGenuine, ?_, ?_,
    valid.known⟩
  · refine List.Sublist.trans ?_ valid.ordered
    simp only [outstanding, waiting, List.flatMap_nil, List.nil_append]
    exact (List.Sublist.refl _).append (List.sublist_append_right _ _)
  · refine List.IsSuffix.trans ?_ valid.latest
    exact ⟨s.queue.flatMap FlushCall.awaits, rfl⟩

theorem step_cases {debounceMs : Int} {s next : State} {event : Event}
    (taken : step debounceMs s event = some next) :
    (∃ key value, event = .write key value ∧ next = write debounceMs key value s) ∨
    (∃ caller, caller.awaits = [] ∧ next = flushNow caller s ∧
      (event = .timerFires ∨ event = .flushNow ∨ event = .destroy)) ∨
    (∃ task outcome, event = .flushSettles outcome ∧ s.running = some task ∧
      (task.entries = [] → outcome = .resolved) ∧ next = settleTask task outcome s) ∨
    (∃ call outcome rest, event = .resume ∧ s.settled = (call, outcome) :: rest ∧
      next = resume call outcome { s with settled := rest }) ∨
    (∃ issued rest, event = .clear ∧ s.clears = issued :: rest ∧ next = { s with
      queue := [], clears := rest, destroyed := s.destroyed ++ [issued] }) := by
  cases event with
  | write key value => exact .inl ⟨key, value, rfl, by simpa [step] using taken.symm⟩
  | timerFires =>
    simp only [step] at taken
    split at taken
    · exact .inr (.inl ⟨.timer, rfl, by simpa using taken.symm, .inl rfl⟩)
    · cases taken
  | flushNow => exact .inr (.inl ⟨.user, rfl, by simpa [step] using taken.symm, .inr (.inl rfl)⟩)
  | destroy =>
    exact .inr (.inl ⟨.destroy s.writes.length, rfl, by simpa [step] using taken.symm,
      .inr (.inr rfl)⟩)
  | flushSettles outcome =>
    simp only [step] at taken
    split at taken
    · cases taken
    · rename_i task running
      split at taken
      · cases taken
      · rename_i possible
        refine .inr (.inr (.inl ⟨task, outcome, rfl, running, ?_, by simpa using taken.symm⟩))
        intro empty
        cases outcome with
        | resolved => rfl
        | rejected => exact absurd ⟨empty, rfl⟩ possible
  | resume =>
    simp only [step] at taken
    split at taken
    · cases taken
    · rename_i call outcome rest head
      exact .inr (.inr (.inr (.inl ⟨call, outcome, rest, rfl, head, by simpa using taken.symm⟩)))
  | clear =>
    simp only [step] at taken
    split at taken
    · cases taken
    · rename_i issued rest head
      exact .inr (.inr (.inr (.inr ⟨issued, rest, rfl, head, by simpa using taken.symm⟩)))

theorem step_wellFormed {debounceMs : Int} {s next : State} {event : Event}
    (valid : WellFormed s) (taken : step debounceMs s event = some next) : WellFormed next := by
  rcases step_cases taken with ⟨key, value, -, rfl⟩ | ⟨caller, silent, rfl, -⟩ |
    ⟨task, outcome, -, running, -, rfl⟩ | ⟨call, outcome, rest, -, head, rfl⟩ |
    ⟨issued, rest, -, -, rfl⟩
  · exact write_keeps valid debounceMs key value
  · exact flushNow_keeps valid caller silent
  · exact settleTask_keeps valid task running outcome
  · exact resume_keeps valid call outcome rest head
  · exact clear_keeps valid issued rest

end BaileysSession.WriteBatcher
