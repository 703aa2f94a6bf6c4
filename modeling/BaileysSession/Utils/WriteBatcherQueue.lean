import BaileysSession.Shared.Overlay
import BaileysSession.Utils.WriteBatcherDurability

set_option autoImplicit false

-- The batcher over a queue whose tasks start in steps of their own, when every flush resolves.
namespace BaileysSession.WriteBatcher.Queued

open Transition Overlay

inductive Callback where
  | begins (batch : Batch)
  | ends (batch : Batch)
  deriving DecidableEq, Repr

def Callback.begun? : Callback → Option Batch
  | .begins batch => some batch
  | .ends _ => none

structure Observed where
  s : State
  callbacks : List Callback

def initial : Observed := ⟨WriteBatcher.initial, []⟩

def requestFlush (caller : Caller) (s : State) : State :=
  { s with timer := false, flushWaiters := [], queue := s.queue ++ [⟨s.flushWaiters, caller⟩] }

def write (debounceMs : Int) (key value : String) (s : State) : State :=
  let writer := s.writes.length
  let stored := { s with
    pending := s.pending.set key ⟨value, writer⟩
    writes := s.writes ++ [⟨key, value⟩] }
  if debounceMs ≤ 0 then requestFlush (.write writer) stored
  else { stored with flushWaiters := s.flushWaiters ++ [writer], timer := true }

-- The task returns early when nothing is pending.
def began (entries : Batch) : List Callback := if entries = [] then [] else [.begins entries]

def ended (entries : Batch) : List Callback := if entries = [] then [] else [.ends entries]

def finish (task : Task) (s : State) : State :=
  { s with
    running := none
    settled := s.settled ++ [(task.call, .resolved)]
    flushed := if task.entries = [] then s.flushed else s.flushed ++ [(task.entries, .resolved)] }

inductive Event where
  | write (key value : String)
  | timerFires
  | flushNow
  | destroy
  | queueStarts
  | flushResolves
  | resume
  | clear
  deriving DecidableEq, Repr

def step (debounceMs : Int) : Step Observed Event := fun o event =>
  match event with
  | .write key value => some { o with s := write debounceMs key value o.s }
  | .timerFires => if o.s.timer then some { o with s := requestFlush .timer o.s } else none
  | .flushNow => some { o with s := requestFlush .user o.s }
  | .destroy => some { o with s := requestFlush (.destroy o.s.writes.length) o.s }
  | .queueStarts =>
    match o.s.running, o.s.queue with
    | none, call :: rest => some ⟨start call { o.s with queue := rest },
        o.callbacks ++ began o.s.pending.entries⟩
    | _, _ => none
  | .flushResolves =>
    match o.s.running with
    | none => none
    | some task => some ⟨finish task o.s, o.callbacks ++ ended task.entries⟩
  | .resume =>
    match o.s.settled with
    | [] => none
    | (call, outcome) :: rest =>
      some { o with s := WriteBatcher.resume call outcome { o.s with settled := rest } }
  | .clear =>
    match o.s.clears with
    | [] => none
    | issued :: rest => some { o with s :=
        { o.s with queue := [], clears := rest, destroyed := o.s.destroyed ++ [issued] } }

theorem step_cases {debounceMs : Int} {o next : Observed} {event : Event}
    (taken : step debounceMs o event = some next) :
    (∃ key value, next = { o with s := write debounceMs key value o.s }) ∨
    (∃ caller, caller.awaits = [] ∧ (∀ issued, caller = .destroy issued → issued = o.s.writes.length) ∧
      next = { o with s := requestFlush caller o.s }) ∨
    (∃ call rest, o.s.running = none ∧ o.s.queue = call :: rest ∧
      next = ⟨start call { o.s with queue := rest }, o.callbacks ++ began o.s.pending.entries⟩) ∨
    (∃ task, o.s.running = some task ∧
      next = ⟨finish task o.s, o.callbacks ++ ended task.entries⟩) ∨
    (∃ call outcome rest, o.s.settled = (call, outcome) :: rest ∧
      next = { o with s := WriteBatcher.resume call outcome { o.s with settled := rest } }) ∨
    (∃ issued rest, o.s.clears = issued :: rest ∧ next = { o with s :=
      { o.s with queue := [], clears := rest, destroyed := o.s.destroyed ++ [issued] } }) := by
  cases event with
  | write key value => exact .inl ⟨key, value, by simpa [step] using taken.symm⟩
  | timerFires =>
    simp only [step] at taken
    split at taken
    · exact .inr (.inl ⟨.timer, rfl, by simp, by simpa using taken.symm⟩)
    · cases taken
  | flushNow => exact .inr (.inl ⟨.user, rfl, by simp, by simpa [step] using taken.symm⟩)
  | destroy =>
    exact .inr (.inl ⟨.destroy o.s.writes.length, rfl, by simp, by simpa [step] using taken.symm⟩)
  | queueStarts =>
    simp only [step] at taken
    split at taken
    · rename_i call rest idle queue
      exact .inr (.inr (.inl ⟨call, rest, idle, queue, by simpa using taken.symm⟩))
    · cases taken
  | flushResolves =>
    simp only [step] at taken
    split at taken
    · cases taken
    · rename_i task running
      exact .inr (.inr (.inr (.inl ⟨task, running, by simpa using taken.symm⟩)))
  | resume =>
    simp only [step] at taken
    split at taken
    · cases taken
    · rename_i call outcome rest head
      exact .inr (.inr (.inr (.inr (.inl ⟨call, outcome, rest, head, by simpa using taken.symm⟩))))
  | clear =>
    simp only [step] at taken
    split at taken
    · cases taken
    · rename_i issued rest head
      exact .inr (.inr (.inr (.inr (.inr ⟨issued, rest, head, by simpa using taken.symm⟩))))

section Eager

def Resolving (_ : State) : WriteBatcher.Event → Prop
  | .flushSettles .rejected => False
  | _ => True

variable {debounceMs : Int}

theorem flushNow_queued (caller : Caller) {s : State} (idle : s.running = none → s.queue = [])
    (callbacks : List Callback) :
    ∃ events later, Run (step debounceMs) anything ⟨requestFlush caller s, callbacks⟩ events
      ⟨flushNow caller s, later⟩ := by
  cases running : s.running with
  | none =>
    refine ⟨[.queueStarts], callbacks ++ began s.pending.entries, .cons trivial ?_ (.nil _)⟩
    simp [step, requestFlush, running, idle running, flushNow_idle caller s running, start]
  | some task =>
    rw [flushNow_busy caller s task running]
    exact ⟨[], callbacks, .nil _⟩

theorem step_queued {s next : State} {event : WriteBatcher.Event}
    (idle : s.running = none → s.queue = []) (resolving : Resolving s event)
    (taken : WriteBatcher.step debounceMs s event = some next) (callbacks : List Callback) :
    ∃ events later, Run (step debounceMs) anything ⟨s, callbacks⟩ events ⟨next, later⟩ := by
  -- One step that requests the flush, then the start if there is one.
  have requested : ∀ (first : Event) {t : State} {caller : Caller},
      (t.running = none → t.queue = []) →
        step debounceMs ⟨s, callbacks⟩ first = some ⟨requestFlush caller t, callbacks⟩ →
          ∃ events later, Run (step debounceMs) anything ⟨s, callbacks⟩ events
            ⟨flushNow caller t, later⟩ := by
    intro first t caller still asked
    obtain ⟨events, later, run⟩ := flushNow_queued caller still callbacks
    exact ⟨first :: events, later, .cons trivial asked run⟩
  cases event with
  | write key value =>
    cases taken
    unfold WriteBatcher.write
    split
    · rename_i immediate
      apply requested (.write key value)
      · exact idle
      · simp [step, write, if_pos immediate]
    · rename_i delayed
      refine ⟨[.write key value], callbacks, .cons trivial ?_ (.nil _)⟩
      simp [step, write, if_neg delayed]
  | timerFires =>
    simp only [WriteBatcher.step] at taken
    split at taken
    · rename_i armed
      cases taken
      exact requested .timerFires idle (if_pos armed)
    · cases taken
  | flushNow =>
    cases taken
    exact requested .flushNow idle rfl
  | destroy =>
    cases taken
    exact requested .destroy idle rfl
  | flushSettles outcome =>
    cases outcome with
    | rejected => exact False.elim resolving
    | resolved =>
      simp only [WriteBatcher.step] at taken
      split at taken
      · cases taken
      · rename_i task running
        rw [if_neg (by simp)] at taken
        cases taken
        have finishes : step debounceMs ⟨s, callbacks⟩ .flushResolves =
            some ⟨finish task s, callbacks ++ ended task.entries⟩ := by
          simp only [step, running]
        rcases settleTask_cases task .resolved s with ⟨-, shape⟩ | ⟨call, rest, queue, shape⟩
        · rw [shape]
          exact ⟨_, _, .cons trivial finishes (.nil _)⟩
        · refine ⟨[.flushResolves, .queueStarts],
            callbacks ++ ended task.entries ++ began s.pending.entries,
            .cons trivial finishes (.cons trivial ?_ (.nil _))⟩
          simp [step, finish, queue, shape, start]
  | resume =>
    simp only [WriteBatcher.step] at taken
    split at taken
    · cases taken
    · rename_i call outcome rest head
      cases taken
      refine ⟨[.resume], callbacks, .cons trivial ?_ (.nil _)⟩
      simp [step, head]
  | clear =>
    simp only [WriteBatcher.step] at taken
    split at taken
    · cases taken
    · rename_i issued rest head
      cases taken
      refine ⟨[.clear], callbacks, .cons trivial ?_ (.nil _)⟩
      simp [step, head]

/-- Every run in which tasks start at once and every flush resolves is one of this batcher. -/
theorem eager_run {events : List WriteBatcher.Event} {s : State}
    (run : Run (WriteBatcher.step debounceMs) Resolving WriteBatcher.initial events s) :
    ∃ queued callbacks, Run (step debounceMs) anything initial queued ⟨s, callbacks⟩ := by
  have reached : WellFormed s ∧
      ∃ queued callbacks, Run (step debounceMs) anything initial queued ⟨s, callbacks⟩ := by
    refine run.invariant (fun s => WellFormed s ∧
      ∃ queued callbacks, Run (step debounceMs) anything initial queued ⟨s, callbacks⟩) ?_
      ⟨initial_wellFormed, [], [], .nil _⟩
    rintro t event next ⟨valid, queued, callbacks, before⟩ resolving taken
    obtain ⟨more, later, after⟩ := step_queued valid.idle resolving taken callbacks
    exact ⟨step_wellFormed valid taken, queued ++ more, later, before.append after⟩
  exact reached.2

end Eager

end BaileysSession.WriteBatcher.Queued
