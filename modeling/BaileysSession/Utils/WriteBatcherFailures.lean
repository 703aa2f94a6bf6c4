import BaileysSession.Utils.WriteBatcherInvariant

set_option autoImplicit false

namespace BaileysSession.WriteBatcher

open Transition

def calls (s : State) : List FlushCall :=
  s.settled.map Prod.fst ++ (s.running.map Task.call).toList ++ s.queue

structure Answered (debounceMs : Int) (s : State) : Prop where
  armed : s.flushWaiters ≠ [] → s.timer = true
  immediate : debounceMs ≤ 0 → s.flushWaiters = []
  -- Detached waiters and an awaiting `write` never come together.
  separate : ∀ call ∈ calls s, call.waiters = [] ∨ call.caller.awaits = []
  unsettled : ∀ writer, writer < s.writes.length → s.promises writer = none →
    writer ∈ outstanding s
  pending : ∀ writer ∈ outstanding s, s.promises writer = none
  failing : ∀ call, (call, .rejected) ∈ s.settled → call.waiters = []
  failed : ∀ batch, (batch, .rejected) ∈ s.flushed → ∀ entry ∈ batch,
    s.promises entry.2.writer = some .rejected ∨
      ∃ call, (call, .rejected) ∈ s.settled ∧ call.caller = .write entry.2.writer

/-- A flush only rejects when all its values come from the immediate-mode write that awaits it,
and `queue.clear()` drops no flush that a write waits for. -/
def FailureAwaited (s : State) : Event → Prop
  | .flushSettles .rejected => ∀ task ∈ s.running, ∀ entry ∈ task.entries,
      task.call.caller = .write entry.2.writer
  | .clear => ∀ call ∈ s.queue, call.awaits = []
  | _ => True

instance (s : State) : (event : Event) → Decidable (FailureAwaited s event)
  | .flushSettles .rejected => inferInstanceAs (Decidable (∀ task ∈ s.running,
      ∀ entry ∈ task.entries, task.call.caller = .write entry.2.writer))
  | .clear => inferInstanceAs (Decidable (∀ call ∈ s.queue, call.awaits = []))
  | .flushSettles .resolved | .write _ _ | .timerFires | .flushNow | .destroy | .resume =>
    isTrue trivial

theorem initial_answered (debounceMs : Int) : Answered debounceMs initial where
  armed := fun waiters => absurd rfl waiters
  immediate := fun _ => rfl
  separate := fun _ inside => by cases inside
  unsettled := fun _ bound => absurd bound (Nat.not_lt_zero _)
  pending := fun _ inside => by cases inside
  failing := fun _ inside => by cases inside
  failed := fun _ inside => by cases inside

theorem flushNow_calls (caller : Caller) (s : State) (idle : s.running = none → s.queue = []) :
    calls (flushNow caller s) = calls s ++ [⟨s.flushWaiters, caller⟩] := by
  cases running : s.running with
  | none => simp [flushNow_idle caller s running, start, calls, running, idle running]
  | some task => simp [flushNow_busy caller s task running, calls, running]

theorem settleTask_calls {s : State} {task : Task} (running : s.running = some task)
    (outcome : Outcome) : calls (settleTask task outcome s) = calls s := by
  rcases settleTask_cases task outcome s with ⟨queue, shape⟩ | ⟨call, rest, queue, shape⟩ <;>
    simp [shape, calls, running, queue]

theorem flushNow_answered {debounceMs : Int} (caller : Caller) (s : State)
    (idle : s.running = none → s.queue = [])
    (separate : ∀ call ∈ calls s, call.waiters = [] ∨ call.caller.awaits = [])
    (apart : s.flushWaiters = [] ∨ caller.awaits = [])
    (unsettled : ∀ writer, writer < s.writes.length → s.promises writer = none →
      writer ∈ outstanding s ++ caller.awaits)
    (pending : ∀ writer ∈ outstanding s ++ caller.awaits, s.promises writer = none)
    (failing : ∀ call, (call, .rejected) ∈ s.settled → call.waiters = [])
    (failed : ∀ batch, (batch, .rejected) ∈ s.flushed → ∀ entry ∈ batch,
      s.promises entry.2.writer = some .rejected ∨
        ∃ call, (call, .rejected) ∈ s.settled ∧ call.caller = .write entry.2.writer) :
    Answered debounceMs (flushNow caller s) := by
  have all := flushNow_calls caller s idle
  have order := flushNow_outstanding caller s idle
  obtain ⟨writes, promises, flushed, settled, -, -, waiters, -⟩ := flushNow_frame caller s
  refine ⟨fun some => absurd waiters some, fun _ => waiters, ?_, ?_, ?_, ?_, ?_⟩
  · intro call member
    rw [all] at member
    rcases List.mem_append.mp member with old | new
    · exact separate call old
    · rw [List.mem_singleton.mp new]
      exact apart
  · rwa [writes, promises, order]
  · rwa [promises, order]
  · rwa [settled]
  · rwa [promises, flushed, settled]

theorem write_answered {debounceMs : Int} {s : State} (valid : WellFormed s)
    (answered : Answered debounceMs s) (key value : String) :
    Answered debounceMs (write debounceMs key value s) := by
  have order := write_outstanding valid.idle debounceMs key value
  have unsettled : ∀ writer, writer < (s.writes ++ [(⟨key, value⟩ : Write)]).length →
      s.promises writer = none → writer ∈ outstanding s ++ [s.writes.length] := by
    intro writer bound none
    rw [List.length_append, List.length_singleton] at bound
    rcases Nat.lt_succ_iff_lt_or_eq.mp bound with before | rfl
    · exact List.mem_append_left _ (answered.unsettled writer before none)
    · exact List.mem_append_right _ (List.mem_singleton_self _)
  have pending : ∀ writer ∈ outstanding s ++ [s.writes.length], s.promises writer = none := by
    intro writer member
    rcases List.mem_append.mp member with old | new
    · exact answered.pending writer old
    · rw [List.mem_singleton.mp new]
      by_contra settled
      exact absurd (valid.known _ settled) (Nat.lt_irrefl _)
  unfold write at order ⊢
  split
  · rename_i immediate
    exact flushNow_answered _ _ valid.idle answered.separate
      (.inl (answered.immediate immediate)) unsettled pending answered.failing answered.failed
  · rename_i debounced
    simp only [debounced, if_false] at order
    refine ⟨fun _ => rfl, fun immediate => absurd immediate debounced, answered.separate, ?_, ?_,
      answered.failing, answered.failed⟩
    · rwa [order]
    · rwa [order]

theorem flushNow_keeps_answered {debounceMs : Int} {s : State} (valid : WellFormed s)
    (answered : Answered debounceMs s) (caller : Caller) (silent : caller.awaits = []) :
    Answered debounceMs (flushNow caller s) :=
  flushNow_answered caller s valid.idle answered.separate (.inr silent)
    (by simpa [silent] using answered.unsettled) (by simpa [silent] using answered.pending)
    answered.failing answered.failed

theorem settleTask_answered {debounceMs : Int} {s : State} (answered : Answered debounceMs s)
    (task : Task) (running : s.running = some task) (outcome : Outcome)
    (real : task.entries = [] → outcome = .resolved)
    (awaited : outcome = .rejected → ∀ entry ∈ task.entries,
      task.call.caller = .write entry.2.writer) :
    Answered debounceMs (settleTask task outcome s) := by
  have order := settleTask_outstanding running outcome
  have all := settleTask_calls running outcome
  -- The batch of a rejected flush is not empty, so an immediate-mode write awaits the flush.
  have detached : outcome = .rejected → task.call.waiters = [] := by
    intro failed
    have inside : task.call ∈ calls s := by simp [calls, running]
    rcases answered.separate _ inside with waiters | silent
    · exact waiters
    · exfalso
      cases entries : task.entries with
      | nil => simp [real entries] at failed
      | cons entry rest =>
        have caller := awaited failed entry (by simp [entries])
        simp [caller, Caller.awaits] at silent
  have failing : ∀ call, (call, .rejected) ∈ s.settled ++ [(task.call, outcome)] →
      call.waiters = [] := by
    intro call inside
    rcases List.mem_append.mp inside with old | new
    · exact answered.failing call old
    · cases List.mem_singleton.mp new
      exact detached rfl
  have failed : ∀ batch, (batch, .rejected) ∈ (if task.entries = [] then s.flushed
      else s.flushed ++ [(task.entries, outcome)]) → ∀ entry ∈ batch,
      s.promises entry.2.writer = some .rejected ∨ ∃ call,
        (call, .rejected) ∈ s.settled ++ [(task.call, outcome)] ∧
          call.caller = .write entry.2.writer := by
    intro batch inside entry member
    have cases : (batch, Outcome.rejected) ∈ s.flushed ∨
        (batch, Outcome.rejected) = (task.entries, outcome) := by
      split at inside
      · exact .inl inside
      · simpa using inside
    rcases cases with old | new
    · rcases answered.failed batch old entry member with done | ⟨call, settled, caller⟩
      · exact .inl done
      · exact .inr ⟨call, List.mem_append_left _ settled, caller⟩
    · obtain ⟨rfl, rfl⟩ := Prod.mk.inj new
      exact .inr ⟨task.call, by simp, awaited rfl entry member⟩
  rcases settleTask_cases task outcome s with ⟨-, shape⟩ | ⟨_, _, -, shape⟩ <;>
    · rw [shape] at order all ⊢
      refine ⟨answered.armed, answered.immediate, ?_, ?_, ?_, failing, failed⟩
      · rw [all]
        exact answered.separate
      · rw [order]
        exact answered.unsettled
      · rw [order]
        exact answered.pending

theorem resume_answered {debounceMs : Int} {s : State} (valid : WellFormed s)
    (answered : Answered debounceMs s) (call : FlushCall) (outcome : Outcome)
    (rest : List (FlushCall × Outcome)) (head : s.settled = (call, outcome) :: rest) :
    Answered debounceMs (resume call outcome { s with settled := rest }) := by
  have order := resume_outstanding head
  -- Every promise that waits for this call is settled here, also when the flush rejected.
  have complete : settles call outcome = call.awaits := by
    cases outcome with
    | resolved => rfl
    | rejected => simp [settles, FlushCall.awaits, answered.failing call (by simp [head])]
  have distinct : (outstanding s).Nodup := List.nodup_range.sublist valid.ordered
  rw [order] at distinct
  have unsettled := answered.unsettled
  have pending := answered.pending
  rw [order] at unsettled pending
  rw [resume_eq] at order distinct unsettled pending ⊢
  refine ⟨answered.armed, answered.immediate, ?_, ?_, ?_, ?_, ?_⟩
  · intro other inside
    refine answered.separate other ?_
    simp only [calls, head, List.map_cons, List.cons_append]
    exact List.mem_cons_of_mem _ inside
  · intro writer bound none
    dsimp only at none
    split at none
    · cases before : s.promises writer <;> simp [before] at none
    · rename_i kept
      rw [complete] at kept
      exact (List.mem_append.mp (unsettled writer bound none)).resolve_left kept
  · intro writer inside
    have other : writer ∉ settles call outcome := by
      rw [complete]
      exact fun released => (List.nodup_append.mp distinct).2.2 writer released writer inside rfl
    dsimp only
    rw [if_neg other]
    exact pending writer (List.mem_append_right _ inside)
  · intro other inside
    exact answered.failing other (by rw [head]; exact List.mem_cons_of_mem _ inside)
  · intro batch inside entry member
    dsimp only
    rcases answered.failed batch inside entry member with done | ⟨other, settled, caller⟩
    · left
      simp [done]
    · rw [head] at settled
      rcases List.mem_cons.mp settled with here | later
      · cases here
        left
        have released : entry.2.writer ∈ settles call .rejected := by
          simp [settles, caller, Caller.awaits]
        have waited := pending entry.2.writer (List.mem_append_left _ (complete ▸ released))
        simp [released, waited]
      · exact .inr ⟨other, later, caller⟩

theorem clear_answered {debounceMs : Int} {s : State} (answered : Answered debounceMs s)
    (dropped : ∀ call ∈ s.queue, call.awaits = []) (issued : Nat) (rest : List Nat) :
    Answered debounceMs { s with
      queue := [], clears := rest, destroyed := s.destroyed ++ [issued] } := by
  have none : s.queue.flatMap FlushCall.awaits = [] := List.flatMap_eq_nil_iff.mpr dropped
  have order : outstanding { s with
      queue := [], clears := rest, destroyed := s.destroyed ++ [issued] } = outstanding s := by
    simp [outstanding, waiting, none]
  refine ⟨answered.armed, answered.immediate, ?_, ?_, ?_, answered.failing, answered.failed⟩
  · intro call inside
    refine answered.separate call ?_
    simp only [calls, List.append_nil] at inside
    exact List.mem_append_left _ inside
  · rw [order]
    exact answered.unsettled
  · rw [order]
    exact answered.pending

theorem step_answered {debounceMs : Int} {s next : State} {event : Event} (valid : WellFormed s)
    (answered : Answered debounceMs s) (awaited : FailureAwaited s event)
    (taken : step debounceMs s event = some next) : Answered debounceMs next := by
  rcases step_cases taken with ⟨key, value, -, rfl⟩ | ⟨caller, silent, rfl, -⟩ |
    ⟨task, outcome, rfl, running, real, rfl⟩ | ⟨call, outcome, rest, -, head, rfl⟩ |
    ⟨issued, rest, rfl, -, rfl⟩
  · exact write_answered valid answered key value
  · exact flushNow_keeps_answered valid answered caller silent
  · refine settleTask_answered answered task running outcome real ?_
    rintro rfl
    exact awaited task running
  · exact resume_answered valid answered call outcome rest head
  · exact clear_answered answered awaited issued rest

/-- The write is in a batch whose flush rejected and its value in no later flush that resolved. -/
def Lost (s : State) (writer : Nat) (asked : Write) : Prop :=
  ∃ earlier batch later, s.flushed = earlier ++ (batch, .rejected) :: later ∧
    (asked.key, ⟨asked.value, writer⟩) ∈ batch ∧
    ∀ other stored, (other, .resolved) ∈ later → (asked.key, stored) ∈ other →
      stored.value ≠ asked.value

def FailuresReachWriters (s : State) : Prop :=
  Quiescent s →
    (∀ writer, writer < s.writes.length → s.promises writer ≠ none) ∧
    ∀ writer asked, s.writes[writer]? = some asked → Lost s writer asked →
      s.promises writer = some .rejected ∧
        (asked.key = CREDS_KEY → ∀ flushed,
          saveCreds (s.promises writer) flushed = some .rejected)

theorem quiescent_outstanding {debounceMs : Int} {s : State} (answered : Answered debounceMs s)
    (quiet : Quiescent s) : outstanding s = [] := by
  obtain ⟨timer, queue, running, settled⟩ := quiet
  have waiters : s.flushWaiters = [] := by
    by_contra some
    have armed := answered.armed some
    rw [timer] at armed
    cases armed
  simp [outstanding, waiting, taskAwaits, queue, running, settled, waiters]

theorem failures_reach_writers_run (debounceMs : Int) (events : List Event) (s : State)
    (run : Run (step debounceMs) FailureAwaited initial events s) : FailuresReachWriters s := by
  have both := run.invariant (fun s => WellFormed s ∧ Answered debounceMs s)
    (fun _ _ _ held awaited taken =>
      ⟨step_wellFormed held.1 taken, step_answered held.1 held.2 awaited taken⟩)
    ⟨initial_wellFormed, initial_answered debounceMs⟩
  obtain ⟨valid, answered⟩ := both
  intro quiet
  refine ⟨?_, ?_⟩
  · intro writer bound none
    have inside := answered.unsettled writer bound none
    rw [quiescent_outstanding answered quiet] at inside
    cases inside
  · rintro writer asked known ⟨earlier, batch, later, flushed, carried, -⟩
    have inside : (batch, Outcome.rejected) ∈ s.flushed := by simp [flushed]
    have rejected : s.promises writer = some .rejected := by
      rcases answered.failed batch inside _ carried with done | ⟨call, settled, -⟩
      · exact done
      · rw [quiet.2.2.2] at settled
        cases settled
    exact ⟨rejected, fun _ _ => by rw [rejected]; rfl⟩

def awaitedRun : List Event :=
  [.write "creds" "1", .flushSettles .rejected, .resume, .write "pre-key-1" "2",
    .flushSettles .resolved, .resume]

theorem failures_reach_writers_awaited :
    ∃ s, replay (step 0) FailureAwaited initial awaitedRun = some s ∧
      s.promises 0 = some .rejected ∧ FailuresReachWriters s :=
  ⟨_, rfl, rfl, failures_reach_writers_run 0 awaitedRun _ (replay_run _ _ _ _ _ rfl)⟩

-- The flush of the debounced write rejects and leaves its detached waiter unsettled.
theorem failure_strands_writer :
    ∃ s, replay (step 50) anything initial
        [.write CREDS_KEY "1", .timerFires, .flushSettles .rejected, .resume] = some s ∧
      Quiescent s ∧ s.promises 0 = none ∧ ¬ FailuresReachWriters s := by
  refine ⟨_, rfl, ⟨rfl, rfl, rfl, rfl⟩, rfl, ?_⟩
  intro reached
  exact (reached ⟨rfl, rfl, rfl, rfl⟩).1 0 (by decide) rfl

end BaileysSession.WriteBatcher
