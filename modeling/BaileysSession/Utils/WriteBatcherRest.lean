import BaileysSession.Utils.WriteBatcherInvariant

set_option autoImplicit false

-- A batcher that nobody calls any more.
namespace BaileysSession.WriteBatcher

open Transition

section Termination

-- What happens without a call of `write`, `flushNow` or `destroy`.
def Own (_ : State) : Event → Prop
  | .timerFires | .flushSettles _ | .resume | .clear => True
  | .write _ _ | .flushNow | .destroy => False

-- A timer becomes a flush call, this a settled one, and this a `queue.clear()` at most.
def work (s : State) : Nat :=
  4 * s.timer.toNat + 3 * (s.queue.length + s.running.toList.length) + 2 * s.settled.length +
    s.clears.length

def AtRest (debounceMs : Int) (s : State) : Prop :=
  ∀ event, Own s event → step debounceMs s event = none

theorem flushNow_work (caller : Caller) (s : State) (armed : s.timer = true) :
    work (flushNow caller s) < work s := by
  cases running : s.running with
  | none =>
    rw [flushNow_idle caller s running]
    simp only [work, start, running, armed, Option.toList_none, Option.toList_some,
      List.length_nil, List.length_singleton, Bool.toNat_true, Bool.toNat_false]
    omega
  | some task =>
    rw [flushNow_busy caller s task running]
    simp only [work, running, armed, Option.toList_some, List.length_singleton,
      List.length_append, Bool.toNat_true, Bool.toNat_false]
    omega

theorem settleTask_work {s : State} {task : Task} (running : s.running = some task)
    (outcome : Outcome) : work (settleTask task outcome s) < work s := by
  rcases settleTask_cases task outcome s with ⟨queue, shape⟩ | ⟨call, rest, queue, shape⟩ <;>
    simp only [shape, work, running, queue, Option.toList_none, Option.toList_some,
      List.length_nil, List.length_cons, List.length_append] <;>
    omega

theorem resume_work {s : State} {call : FlushCall} {outcome : Outcome}
    {rest : List (FlushCall × Outcome)} (head : s.settled = (call, outcome) :: rest) :
    work (resume call outcome { s with settled := rest }) < work s := by
  have clears : (resume call outcome { s with settled := rest }).clears.length ≤
      s.clears.length + 1 := by
    rw [resume_eq]
    dsimp only
    split <;> simp
  rw [resume_eq] at clears ⊢
  simp only [work, head, List.length_cons] at clears ⊢
  omega

theorem step_work {debounceMs : Int} {s next : State} {event : Event} (own : Own s event)
    (taken : step debounceMs s event = some next) : work next < work s := by
  cases event with
  | write | flushNow | destroy => exact False.elim own
  | timerFires =>
    simp only [step] at taken
    split at taken
    · rename_i armed
      cases taken
      exact flushNow_work .timer s armed
    · cases taken
  | flushSettles outcome =>
    simp only [step] at taken
    split at taken
    · cases taken
    · rename_i task running
      split at taken
      · cases taken
      · cases taken
        exact settleTask_work running outcome
  | resume =>
    simp only [step] at taken
    split at taken
    · cases taken
    · rename_i call outcome rest head
      cases taken
      exact resume_work head
  | clear =>
    simp only [step] at taken
    split at taken
    · cases taken
    · rename_i issued rest head
      cases taken
      simp only [work, head, List.length_cons, List.length_nil]
      omega

theorem own_run_bounded {debounceMs : Int} {s final : State} {events : List Event}
    (run : Run (step debounceMs) Own s events final) : events.length ≤ work s := by
  induction run with
  | nil => exact Nat.zero_le _
  | cons own taken _ ih =>
    have less := step_work own taken
    rw [List.length_cons]
    omega

theorem atRest_quiescent {debounceMs : Int} {s : State} (valid : WellFormed s)
    (rest : AtRest debounceMs s) : Quiescent s ∧ s.clears = [] := by
  have timer := rest .timerFires trivial
  have settles := rest (.flushSettles .resolved) trivial
  have resumes := rest .resume trivial
  have clears := rest .clear trivial
  simp only [step] at timer settles resumes clears
  have running : s.running = none := by
    cases running : s.running with
    | none => rfl
    | some task => simp [running] at settles
  refine ⟨⟨?_, valid.idle running, running, ?_⟩, ?_⟩
  · simpa using timer
  · cases settled : s.settled with
    | nil => rfl
    | cons head rest => simp [settled] at resumes
  · cases left : s.clears with
    | nil => rfl
    | cons head rest => simp [left] at clears

end Termination

section Answers

def skipped (call : FlushCall) : Outcome → List Nat
  | .resolved => []
  | .rejected => call.waiters

/-- The writes that an event leaves without an answer: those that waited for a flush that rejected,
and those whose flush never starts. -/
def drops (s : State) : Event → List Nat
  | .resume =>
    match s.settled with
    | (call, outcome) :: _ => skipped call outcome
    | [] => []
  | .clear => s.queue.flatMap FlushCall.awaits
  | _ => []

def dropped (debounceMs : Int) : State → List Event → List Nat
  | _, [] => []
  | s, event :: rest =>
    drops s event ++ (step debounceMs s event).elim [] fun next => dropped debounceMs next rest

-- A write has no answer as long as it waits for one, and for ever once it was dropped.
structure Waits (lost : List Nat) (s : State) : Prop where
  armed : s.flushWaiters ≠ [] → s.timer = true
  known : ∀ writer ∈ lost, writer < s.writes.length
  apart : ∀ writer ∈ lost, writer ∉ outstanding s
  unanswered : ∀ writer < s.writes.length,
    s.promises writer = none ↔ writer ∈ outstanding s ∨ writer ∈ lost

theorem initial_waits : Waits [] initial where
  armed := fun waiters => absurd rfl waiters
  known := fun _ inside => absurd inside List.not_mem_nil
  apart := fun _ inside => absurd inside List.not_mem_nil
  unanswered := fun _ bound => absurd bound (Nat.not_lt_zero _)

variable {debounceMs : Int} {lost : List Nat} {s next : State}

theorem Waits.same (waits : Waits lost s) (armed : next.flushWaiters ≠ [] → next.timer = true)
    (writes : next.writes = s.writes) (promises : next.promises = s.promises)
    (order : outstanding next = outstanding s) : Waits lost next := by
  refine ⟨armed, ?_, ?_, ?_⟩
  · rw [writes]
    exact waits.known
  · rw [order]
    exact waits.apart
  · rw [writes, promises, order]
    exact waits.unanswered

theorem flushNow_waits (valid : WellFormed s) (waits : Waits lost s) (caller : Caller)
    (silent : caller.awaits = []) : Waits lost (flushNow caller s) := by
  obtain ⟨writes, promises, -, -, -, -, waiters, -⟩ := flushNow_frame caller s
  refine waits.same (fun some => absurd waiters some) writes promises ?_
  rw [flushNow_outstanding caller s valid.idle, silent, List.append_nil]

theorem write_waits (valid : WellFormed s) (waits : Waits lost s) (key value : String) :
    Waits lost (write debounceMs key value s) := by
  have order := write_outstanding valid.idle debounceMs key value
  have frame : (write debounceMs key value s).writes = s.writes ++ [⟨key, value⟩] ∧
      (write debounceMs key value s).promises = s.promises := by
    unfold write
    split
    · obtain ⟨writes, promises, -⟩ := flushNow_frame (.write s.writes.length) { s with
        pending := s.pending.set key ⟨value, s.writes.length⟩
        writes := s.writes ++ [⟨key, value⟩] }
      exact ⟨writes, promises⟩
    · exact ⟨rfl, rfl⟩
  obtain ⟨writes, promises⟩ := frame
  refine ⟨?_, ?_, ?_, ?_⟩
  · unfold write
    split
    · obtain ⟨-, -, -, -, -, -, waiters, -⟩ := flushNow_frame (.write s.writes.length) { s with
        pending := s.pending.set key ⟨value, s.writes.length⟩
        writes := s.writes ++ [⟨key, value⟩] }
      exact fun some => absurd waiters some
    · exact fun _ => rfl
  · intro writer inside
    have before := waits.known writer inside
    rw [writes, List.length_append]
    omega
  · intro writer inside
    have before := waits.known writer inside
    rw [order, List.mem_append, not_or, List.mem_singleton]
    exact ⟨waits.apart writer inside, by omega⟩
  · intro writer bound
    rw [writes, List.length_append, List.length_singleton] at bound
    rw [promises, order, List.mem_append, List.mem_singleton]
    rcases Nat.lt_succ_iff_lt_or_eq.mp bound with before | rfl
    · have other : writer ≠ s.writes.length := by omega
      rw [or_iff_left other]
      exact waits.unanswered writer before
    · have fresh : s.promises s.writes.length = none := by
        by_contra settled
        exact absurd (valid.known _ settled) (Nat.lt_irrefl _)
      exact iff_of_true fresh (.inl (.inr rfl))

theorem settleTask_waits (waits : Waits lost s) {task : Task} (running : s.running = some task)
    (outcome : Outcome) : Waits lost (settleTask task outcome s) := by
  have order := settleTask_outstanding running outcome
  rcases settleTask_cases task outcome s with ⟨-, shape⟩ | ⟨_, _, -, shape⟩ <;>
    · rw [shape] at order ⊢
      exact waits.same waits.armed rfl rfl order

theorem mem_awaits (call : FlushCall) (outcome : Outcome) (writer : Nat) :
    writer ∈ call.awaits ↔ writer ∈ skipped call outcome ∨ writer ∈ settles call outcome := by
  cases outcome with
  | resolved => simp [skipped, settles]
  | rejected => simp [skipped, settles, FlushCall.awaits]

theorem skipped_unsettled {call : FlushCall} (distinct : call.awaits.Nodup) (outcome : Outcome)
    {writer : Nat} (inside : writer ∈ skipped call outcome) : writer ∉ settles call outcome := by
  cases outcome with
  | resolved => cases inside
  | rejected => exact fun also => (List.nodup_append.mp distinct).2.2 writer inside writer also rfl

theorem resume_waits (valid : WellFormed s) (waits : Waits lost s) {call : FlushCall}
    {outcome : Outcome} {rest : List (FlushCall × Outcome)}
    (head : s.settled = (call, outcome) :: rest) :
    Waits (lost ++ skipped call outcome) (resume call outcome { s with settled := rest }) := by
  have order := resume_outstanding head
  have distinct : (outstanding s).Nodup := List.nodup_range.sublist valid.ordered
  rw [order] at distinct
  obtain ⟨own, -, apart⟩ := List.nodup_append.mp distinct
  have here : ∀ writer ∈ call.awaits, writer ∈ outstanding s := fun writer inside =>
    order ▸ List.mem_append_left _ inside
  have left : ∀ writer, writer ∈ outstanding s ↔ writer ∈ call.awaits ∨
      writer ∈ outstanding (resume call outcome { s with settled := rest }) := fun writer => by
    rw [order, List.mem_append]
  rw [resume_eq] at apart left ⊢
  refine ⟨waits.armed, ?_, ?_, ?_⟩
  · intro writer inside
    rcases List.mem_append.mp inside with before | new
    · exact waits.known writer before
    · exact outstanding_known valid (here writer ((mem_awaits call outcome writer).mpr (.inl new)))
  · intro writer inside also
    rcases List.mem_append.mp inside with before | new
    · exact waits.apart writer before ((left writer).mpr (.inr also))
    · exact apart writer ((mem_awaits call outcome writer).mpr (.inl new)) writer also rfl
  · intro writer bound
    dsimp only
    by_cases answered : writer ∈ settles call outcome
    · have waited := (mem_awaits call outcome writer).mpr (.inr answered)
      rw [if_pos answered]
      refine iff_of_false (by cases s.promises writer <;> simp) ?_
      rintro (still | inside)
      · exact apart writer waited writer still rfl
      · rcases List.mem_append.mp inside with before | new
        · exact waits.apart writer before (here writer waited)
        · exact skipped_unsettled own outcome new answered
    · rw [if_neg answered, waits.unanswered writer bound, left, mem_awaits call outcome,
        or_iff_left answered, List.mem_append]
      tauto

theorem clear_waits (valid : WellFormed s) (waits : Waits lost s) (issued : Nat) (rest : List Nat) :
    Waits (lost ++ s.queue.flatMap FlushCall.awaits) { s with
      queue := [], clears := rest, destroyed := s.destroyed ++ [issued] } := by
  have distinct : (outstanding s).Nodup := List.nodup_range.sublist valid.ordered
  have left : ∀ writer, writer ∈ outstanding s ↔ writer ∈ s.queue.flatMap FlushCall.awaits ∨
      writer ∈ outstanding { s with
        queue := [], clears := rest, destroyed := s.destroyed ++ [issued] } := by
    intro writer
    simp only [outstanding, waiting, List.mem_append, List.flatMap_nil, List.nil_append]
    tauto
  have apart : ∀ writer ∈ s.queue.flatMap FlushCall.awaits, writer ∉ outstanding { s with
      queue := [], clears := rest, destroyed := s.destroyed ++ [issued] } := by
    obtain ⟨-, queued, before⟩ := List.nodup_append.mp distinct
    obtain ⟨-, -, later⟩ := List.nodup_append.mp queued
    intro writer inside also
    rcases List.mem_append.mp also with started | waiter
    · exact before writer started writer (List.mem_append_left _ inside) rfl
    · exact later writer inside writer waiter rfl
  refine ⟨waits.armed, ?_, ?_, ?_⟩
  · intro writer inside
    rcases List.mem_append.mp inside with before | new
    · exact waits.known writer before
    · exact outstanding_known valid ((left writer).mpr (.inl new))
  · intro writer inside also
    rcases List.mem_append.mp inside with before | new
    · exact waits.apart writer before ((left writer).mpr (.inr also))
    · exact apart writer new also
  · intro writer bound
    rw [waits.unanswered writer bound, left, List.mem_append]
    tauto

theorem step_waits {event : Event} (valid : WellFormed s) (waits : Waits lost s)
    (taken : step debounceMs s event = some next) : Waits (lost ++ drops s event) next := by
  rcases step_cases taken with ⟨key, value, rfl, rfl⟩ | ⟨caller, silent, rfl, kind⟩ |
    ⟨task, outcome, rfl, running, -, rfl⟩ | ⟨call, outcome, rest, rfl, head, rfl⟩ |
    ⟨issued, rest, rfl, -, rfl⟩
  · have none : drops s (.write key value) = [] := rfl
    rw [none, List.append_nil]
    exact write_waits valid waits key value
  · have none : drops s event = [] := by
      rcases kind with rfl | rfl | rfl <;> rfl
    rw [none, List.append_nil]
    exact flushNow_waits valid waits caller silent
  · have none : drops s (.flushSettles outcome) = [] := rfl
    rw [none, List.append_nil]
    exact settleTask_waits waits running outcome
  · rw [drops, head]
    exact resume_waits valid waits head
  · exact clear_waits valid waits issued rest

theorem run_waits {final : State} {events : List Event}
    (run : Run (step debounceMs) anything s events final) (valid : WellFormed s)
    (waits : Waits lost s) :
    WellFormed final ∧ Waits (lost ++ dropped debounceMs s events) final := by
  induction run generalizing lost with
  | nil =>
    rw [dropped, List.append_nil]
    exact ⟨valid, waits⟩
  | cons _ taken _ ih =>
    have later := ih (step_wellFormed valid taken) (step_waits valid waits taken)
    rw [dropped, taken]
    rwa [List.append_assoc] at later

end Answers

section Results

theorem waits_atRest {lost : List Nat} {s : State} (waits : Waits lost s)
    (quiet : Quiescent s) {writer : Nat} (bound : writer < s.writes.length) :
    s.promises writer = none ↔ writer ∈ lost := by
  obtain ⟨timer, queue, running, settled⟩ := quiet
  have waiters : s.flushWaiters = [] := by
    by_contra some
    have armed := waits.armed some
    rw [timer] at armed
    cases armed
  have none : outstanding s = [] := by
    simp [outstanding, waiting, taskAwaits, queue, running, settled, waiters]
  rw [waits.unanswered writer bound, none]
  exact or_iff_right List.not_mem_nil

/-- A batcher that nobody calls any more comes to rest, whatever its flushes do, and then exactly
the writes have no answer that an event has left without one. -/
theorem comes_to_rest (debounceMs : Int) (events : List Event) (s : State)
    (run : Run (step debounceMs) anything initial events s) :
    (∀ more final, Run (step debounceMs) Own s more final → more.length ≤ work s) ∧
      (AtRest debounceMs s → ∀ writer < s.writes.length,
        s.promises writer = none ↔ writer ∈ dropped debounceMs initial events) := by
  obtain ⟨valid, waits⟩ := run_waits run initial_wellFormed initial_waits
  refine ⟨fun more final own => own_run_bounded own, fun rest writer bound => ?_⟩
  exact waits_atRest waits (atRest_quiescent valid rest).1 bound

-- The first flush is that of `destroy`, which drops the one of the third write from the queue.
def droppingRun : List Event :=
  [.write "creds" "1", .destroy, .write "creds" "2", .timerFires, .write "creds" "3", .timerFires,
    .flushSettles .resolved, .resume, .clear, .flushSettles .resolved, .resume]

theorem comes_to_rest_dropping :
    ∃ s, replay (step 50) anything initial droppingRun = some s ∧
      dropped 50 initial droppingRun = [2] ∧ AtRest 50 s ∧
      ∀ writer < 3, s.promises writer = none ↔ writer ∈ [2] := by
  have rest : ∀ s, replay (step 50) anything initial droppingRun = some s → AtRest 50 s := by
    rintro _ ⟨⟩ event own
    cases event with
    | write | flushNow | destroy => exact False.elim own
    | timerFires | flushSettles | resume | clear => rfl
  refine ⟨_, rfl, rfl, rest _ rfl, ?_⟩
  exact (comes_to_rest 50 droppingRun _ (replay_run _ _ _ _ _ rfl)).2 (rest _ rfl)

end Results

end BaileysSession.WriteBatcher
