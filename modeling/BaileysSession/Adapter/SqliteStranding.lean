import BaileysSession.Adapter.SqliteHistory
import Mathlib.Algebra.Order.BigOperators.Group.Finset

set_option autoImplicit false

namespace BaileysSession.SqliteAdapter

open SqliteWorker Transition

-- What happens by itself when nothing fails any more and nobody calls.
def Advances (_ : State) : Event → Prop
  | .resume _ | .started _ (.ok _) | .handle _ _ | .deliver _ => True
  | .call _ _ | .started _ (.error _) | .error _ _ | .exit _ | .close | .terminate _ | .closed _ =>
    False

def Quiescent (s : State) : Prop := ∀ event, Advances s event → step s event = none

theorem Advances.safe {s : State} {event : Event} (advances : Advances s event) : Safe s event := by
  cases event with
  | started worker outcome =>
    cases outcome with
    | ok => trivial
    | error => exact advances.elim
  | resume | handle | deliver => trivial
  | call | error | exit | close | terminate | closed => exact advances.elim

section Measure

-- A waiting call posts a request, a request becomes a message, and each message is delivered.
def Call.remaining (call : Call) : Nat :=
  match call.phase, call.settled with
  | .waiting _, [] => 3
  | _, _ => 0

def Worker.remaining (worker : Worker) : Nat :=
  (if worker.life = .starting then 2 else 0) + 2 * worker.inbox.length + worker.outbox.length

def State.remaining (s : State) : Nat :=
  ∑ number ∈ Finset.range s.issued, (s.calls number).remaining +
    ∑ worker ∈ Finset.range s.spawned, (s.workers worker).remaining

theorem sum_change {count index : Nat} (inside : index < count) {before after : Nat → Nat}
    (same : ∀ other, other ≠ index → after other = before other) :
    ∑ other ∈ Finset.range count, after other + before index =
      ∑ other ∈ Finset.range count, before other + after index := by
  have member := Finset.mem_range.mpr inside
  have rest : ∑ other ∈ (Finset.range count).erase index, after other =
      ∑ other ∈ (Finset.range count).erase index, before other :=
    Finset.sum_congr rfl fun other outside => same other (Finset.ne_of_mem_erase outside)
  rw [← Finset.add_sum_erase _ after member, ← Finset.add_sum_erase _ before member, rest]
  omega

variable {s : State}

theorem remaining_call (s : State) {number : Nat} (issued : number < s.issued) (call : Call) :
    State.remaining { s with calls := Function.update s.calls number call } +
      (s.calls number).remaining = s.remaining + call.remaining := by
  have changed := @sum_change s.issued number issued (fun other => (s.calls other).remaining)
    (fun other => (Function.update s.calls number call other).remaining)
    (fun other apart => by rw [Function.update_of_ne apart])
  simp only [Function.update_self] at changed
  simp only [State.remaining]
  omega

theorem remaining_worker (s : State) {worker : Nat} (known : worker < s.spawned)
    (change : Worker → Worker) : (s.updateWorker worker change).remaining +
      (s.workers worker).remaining = s.remaining + (change (s.workers worker)).remaining := by
  have changed := @sum_change s.spawned worker known (fun other => (s.workers other).remaining)
    (fun other => ((s.updateWorker worker change).workers other).remaining)
    (fun other apart => by rw [updateWorker_other s change apart])
  simp only [updateWorker_self] at changed
  simp only [State.remaining]
  simp only [State.updateWorker] at changed ⊢
  omega

theorem worker_less {worker : Nat} (known : worker < s.spawned) {change : Worker → Worker}
    (less : (change (s.workers worker)).remaining < (s.workers worker).remaining) :
    (s.updateWorker worker change).remaining < s.remaining := by
  have changed := remaining_worker s known change
  omega

theorem settled_remaining (s : State) (number : Nat) (outcome : Except String Result) :
    ((s.settle number outcome).calls number).remaining = 0 := by
  rw [settle_self]
  unfold Call.remaining
  split
  · rename_i settled
    exact absurd settled (List.append_ne_nil_of_right_ne_nil _ (List.cons_ne_nil _ _))
  · rfl

theorem settle_remaining (s : State) (number : Nat) (outcome : Except String Result) :
    (s.settle number outcome).remaining ≤ s.remaining := by
  have settled := settled_remaining s number outcome
  apply Nat.add_le_add_right
  apply Finset.sum_le_sum
  intro other _
  by_cases same : other = number
  · rw [same, settled]
    exact Nat.zero_le _
  · rw [settle_other s outcome same]

theorem resume_remaining (sound : Sound s) {number worker : Nat} (issued : number < s.issued)
    (waits : (s.calls number).phase = .waiting worker) (open_ : (s.calls number).settled = [])
    (outcome : Except String Unit) : (resume number outcome s).remaining < s.remaining := by
  have three : (s.calls number).remaining = 3 := by
    simp only [Call.remaining, waits, open_]
  cases outcome with
  | error error =>
    have settled := settled_remaining s number (.error error)
    rw [settle_self] at settled
    have changed := remaining_call s issued
      { s.calls number with settled := (s.calls number).settled ++ [.error error] }
    rw [settled, three] at changed
    change State.remaining _ + 3 = _ at changed
    show State.remaining { s with calls := _ } < _
    omega
  | ok =>
    have registered : (registering number s).remaining + 3 = s.remaining := by
      have changed := remaining_call s issued
        { s.calls number with phase := .posted s.worker s.nextRequestId }
      rw [three] at changed
      exact changed
    cases target : s.worker with
    | none =>
      have settled := settle_remaining (registering number s) number
        (.error "Cannot read properties of null (reading 'postMessage')")
      rw [resume_unposted target]
      omega
    | some current =>
      have changed := remaining_worker (registering number s) (sound.current current target)
        (Worker.post ⟨s.nextRequestId, (s.calls number).op⟩)
      have posted : ∀ (request : Request) (worker : Worker),
          (Worker.post request worker).remaining ≤ worker.remaining + 2 := by
        intro request worker
        by_cases stopped : worker.life = .stopped
        · simp [Worker.post, stopped]
        · rw [post_running stopped]
          simp only [Worker.remaining, List.length_append, List.length_singleton]
          omega
      have grown := posted ⟨s.nextRequestId, (s.calls number).op⟩
        ((registering number s).workers current)
      rw [resume_posted target]
      omega

theorem started_remaining {worker : Nat} (known : worker < s.spawned)
    (starting : (s.workers worker).life = .starting) :
    (s.updateWorker worker (Worker.start (.ok ()))).remaining < s.remaining := by
  apply worker_less known
  simp only [Worker.start, Worker.remaining, starting, if_true, List.length_append,
    List.length_singleton, reduceCtorEq, if_false]
  omega

theorem handle_remaining {worker : Nat} (known : worker < s.spawned) {request : Request}
    {rest : List Request} (inbox : (s.workers worker).inbox = request :: rest) (attempt : Attempt) :
    (handle worker request rest attempt s).remaining < s.remaining := by
  have less : ∀ answer : Except String Result, (s.updateWorker worker fun current =>
      { current with
        connected := current.connected && decide (request.op ≠ .close)
        inbox := rest
        outbox := current.outbox ++ [⟨request.id, answer⟩]
        handled := current.handled ++ [⟨request, attempt, answer⟩] }).remaining < s.remaining := by
    intro answer
    apply worker_less known
    simp only [Worker.remaining, inbox, List.length_append, List.length_cons, List.length_nil]
    omega
  exact less (execute (s.workers worker).connected attempt request.op s.file).1

theorem answer_remaining (s : State) (response : WorkerResponse) :
    (answer response s).remaining ≤ s.remaining := by
  unfold answer
  split
  · exact Nat.le_refl _
  · split
    · exact Nat.le_refl _
    · exact settle_remaining { s with pending := s.pending.erase response.id } _ _

theorem deliver_remaining {worker : Nat} (known : worker < s.spawned) {response : WorkerResponse}
    {rest : List WorkerResponse} (outbox : (s.workers worker).outbox = response :: rest) :
    (deliver worker response rest s).remaining < s.remaining := by
  apply Nat.lt_of_le_of_lt (answer_remaining _ response)
  apply worker_less known
  simp only [Worker.remaining, greet_life, greet_inbox, outbox, List.length_cons]
  omega

theorem advance_remaining (sound : Sound s) {event : Event} {next : State}
    (advances : Advances s event) (taken : step s event = some next) :
    next.remaining < s.remaining := by
  cases step_taken taken with
  | resume issued waits unsettled => exact resume_remaining sound issued waits unsettled _
  | started outcome known starting =>
    cases outcome with
    | ok => exact started_remaining known starting
    | error => exact advances.elim
  | handle attempt _ inbox => exact handle_remaining (inbox_known sound.unborn inbox) inbox attempt
  | deliver outbox => exact deliver_remaining (outbox_known sound.unborn outbox) outbox
  | call | error | exit | closeIdle | close | terminateNone | terminate | closed =>
    exact advances.elim

theorem advancing_bounded {later : State} {more : List Event} (sound : Sound s)
    (after : Run step Advances s more later) : more.length + later.remaining ≤ s.remaining := by
  induction after with
  | nil state => simp
  | cons advances taken _ ih =>
    have less := advance_remaining sound advances taken
    have rest := ih (step_sound sound advances.safe taken)
    rw [List.length_cons]
    omega

end Measure

section Stuck

variable {s : State}

theorem quiescent_settled (sound : Sound s) (quiescent : Quiescent s) {number : Nat}
    (issued : number < s.issued) : (s.calls number).settled ≠ [] := by
  intro open_
  have empty : ∀ worker, (s.workers worker).outbox = [] := by
    intro worker
    cases outbox : (s.workers worker).outbox with
    | nil => rfl
    | cons response rest =>
      have stuck := quiescent (.deliver worker) trivial
      simp only [step, outbox, reduceCtorEq] at stuck
  have begun : ∀ worker, worker < s.spawned → (s.workers worker).life ≠ .starting := by
    intro worker known starting
    have stuck := quiescent (.started worker (.ok ())) trivial
    simp only [step, known, starting, and_self, if_true, reduceCtorEq] at stuck
  have served := sound.served number issued open_
  unfold Served at served
  split at served
  · rename_i worker waits
    have known := sound.waiting number issued worker waits
    have greeted : (s.workers worker).greeted ≠ none := by
      rcases served with ⟨error, rejecting⟩ | ⟨greets, -⟩
      · rw [rejecting]
        exact Option.some_ne_none _
      · exact greets.resolve_right (begun worker known)
    cases ready : (s.workers worker).ready with
    | none =>
      unfold Worker.greeted at greeted
      simp only [ready, empty, ne_eq, not_true_eq_false] at greeted
    | some outcome =>
      have stuck := quiescent (.resume number) trivial
      simp only [step, issued, waits, open_, ready, if_true, Option.map_some, reduceCtorEq] at stuck
  · obtain ⟨-, worker, -, ⟨alive, queued⟩ | sent⟩ := served
    · cases inbox : (s.workers worker).inbox with
      | nil => simp [inbox] at queued
      | cons request rest =>
        have known := inbox_known sound.unborn inbox
        have listening : (s.workers worker).life = .listening := by
          cases life : (s.workers worker).life with
          | starting => exact absurd life (begun worker known)
          | listening => rfl
          | stopped => exact absurd life alive
        have stuck := quiescent (.handle worker ⟨0, none, .stored _⟩) trivial
        simp only [step, listening, inbox, reduceCtorEq] at stuck
    · simp [empty] at sent

end Stuck

/-- Nobody waits in vain: when the worker goes on and nothing fails any more, all calls settle; and
no worker that has stopped answers a call that is made later. -/
structure Unstranded (s : State) : Prop where
  settles : ∃ bound, ∀ more later, Run step Advances s more later → more.length ≤ bound ∧
    (Quiescent later → ∀ number, number < later.issued → (later.calls number).settled ≠ [])
  successor : ∀ more later, Run step Safe s more later → ∀ number, s.issued ≤ number →
    ∀ outcome ∈ (later.calls number).settled, (∃ error, outcome = .error error) ∨
      ∃ worker id, (later.calls number).phase = .posted (some worker) id ∧
        (s.workers worker).life ≠ .stopped ∧ ∃ operation ∈ (later.workers worker).handled,
          operation.request.id = id ∧ operation.answer = outcome

/-- In every run in which a worker only stops when nobody depends on it, and in which no call joins
a worker that has stopped, no call is stranded. -/
theorem none_stranded (file : File) (events : List Event) (s : State)
    (run : Run step Safe (initial file) events s) : Unstranded s := by
  have sound := run_sound run
  refine ⟨⟨s.remaining, ?_⟩, ?_⟩
  · intro more later after
    have bounded := advancing_bounded sound after
    have still : Sound later := after.invariant _
      (fun _ _ _ sound advances taken => step_sound sound advances.safe taken) sound
    exact ⟨by omega, fun quiescent number issued => quiescent_settled still quiescent issued⟩
  · intro more later after number recent outcome settled
    cases outcome with
    | error error => exact .inl ⟨error, rfl⟩
    | ok result => exact .inr (answered_by_running run after recent settled)

section Examples

instance (worker : Worker) : Decidable worker.Rejecting :=
  match greeted : worker.greeted with
  | some (.error error) => isTrue ⟨error, greeted⟩
  | some (.ok _) => isFalse fun ⟨_, rejecting⟩ => by cases greeted.symm.trans rejecting
  | none => isFalse fun ⟨_, rejecting⟩ => by cases greeted.symm.trans rejecting

instance (worker : Worker) : Decidable worker.Greets :=
  inferInstanceAs (Decidable (worker.greeted ≠ none ∨ worker.life = .starting))

instance (s : State) : Decidable (CanPost s) :=
  inferInstanceAs (Decidable (∀ worker ∈ s.worker, (s.workers worker).life ≠ .stopped))

instance (s : State) (worker : Nat) : Decidable (Joinable s worker) :=
  inferInstanceAs (Decidable ((s.workers worker).Rejecting ∨ (s.workers worker).Greets ∧ CanPost s))

instance (s : State) (id : Nat) : Decidable (Awaited s id) :=
  inferInstanceAs (Decidable (∃ number ∈ s.pending.get? id, (s.calls number).settled = []))

instance (phase : Phase) (property : Nat → Prop) [∀ worker, Decidable (property worker)] :
    Decidable (∀ worker, phase = .waiting worker → property worker) :=
  match phase with
  | .waiting worker =>
    decidable_of_iff (property worker)
      ⟨fun holds _ same => Phase.waiting.inj same ▸ holds, fun all => all worker rfl⟩
  | .posted _ _ => isTrue fun _ same => by cases same

instance (s : State) (worker other : Nat) : Decidable (Spares s worker other) :=
  inferInstanceAs (Decidable ((s.workers other).Rejecting ∨
    s.worker ≠ some worker ∧ (other = worker → (s.workers worker).life ≠ .starting)))

instance (s : State) (worker : Nat) : Decidable (Dispensable s worker) :=
  inferInstanceAs (Decidable (∀ number, number < s.issued → (s.calls number).settled = [] →
    ∀ other, (s.calls number).phase = .waiting other → Spares s worker other))

instance (s : State) (worker : Nat) : Decidable (Unasked s worker) :=
  inferInstanceAs (Decidable (∀ request ∈ (s.workers worker).inbox, ¬ Awaited s request.id))

instance (s : State) (event : Event) : Decidable (Safe s event) :=
  match event with
  | .error worker _ => inferInstanceAs (Decidable (Dispensable s worker))
  | .exit worker => inferInstanceAs (Decidable (Dispensable s worker ∧ Unasked s worker))
  | .terminate _ => inferInstanceAs (Decidable (∀ worker ∈ s.worker,
      Dispensable s worker ∧ Unasked s worker))
  | .started worker (.error _) => inferInstanceAs (Decidable (Unasked s worker ∧
      ∀ number, number < s.issued → (s.calls number).settled = [] → ∀ other,
        (s.calls number).phase = .waiting other →
          other = worker ∨ (s.workers other).Rejecting ∨ s.worker ≠ some worker))
  | .call _ _ => inferInstanceAs (Decidable (∀ worker ∈ s.ready, Joinable s worker))
  | .close => inferInstanceAs (Decidable (s.worker ≠ none → ∀ worker ∈ s.ready, Joinable s worker))
  | .started _ (.ok _) | .resume _ | .handle _ _ | .deliver _ | .closed _ => isTrue trivial

def respawned : List Event :=
  [.call .init (.ok ()), .started 0 (.ok ()), .deliver 0, .resume 0, .handle 0 ⟨0, none, .stored _⟩,
    .deliver 0, .close, .resume 1, .handle 0 ⟨0, none, .stored _⟩, .deliver 0, .terminate 1, .closed 1,
    .call .listSessions (.ok ()), .started 1 (.ok ()), .deliver 1, .resume 2,
    .error 1 "out of memory"]

theorem none_stranded_respawned :
    ∃ s, replay step Safe (initial ⟨none⟩) respawned = some s ∧ Unstranded s ∧
      (s.workers 0).life = .stopped ∧ (s.calls 0).settled = [.ok .null] ∧
      (s.calls 1).settled = [.ok .null] ∧ (s.calls 2).settled = [.error "out of memory"] :=
  ⟨_, rfl, none_stranded ⟨none⟩ respawned _ (replay_run _ _ _ _ _ rfl), rfl, rfl, rfl, rfl⟩

end Examples

section Stranded

variable {start s next : State} {number worker : Nat}

/-- The call waits for a worker that has stopped and left no message. -/
structure Lost (s : State) (number worker : Nat) : Prop where
  issued : number < s.issued
  waits : (s.calls number).phase = .waiting worker
  unsettled : (s.calls number).settled = []
  stopped : (s.workers worker).life = .stopped
  unready : (s.workers worker).ready = none
  silent : (s.workers worker).outbox = []

theorem Lost.same (lost : Lost s number worker) (issued : s.issued ≤ next.issued)
    (call : next.calls number = s.calls number) (kept : next.workers worker = s.workers worker) :
    Lost next number worker where
  issued := Nat.lt_of_lt_of_le lost.issued issued
  waits := by rw [call, lost.waits]
  unsettled := by rw [call, lost.unsettled]
  stopped := by rw [kept, lost.stopped]
  unready := by rw [kept, lost.unready]
  silent := by rw [kept, lost.silent]

theorem Lost.known (lost : Lost s number worker) (traced : Traced start s) : worker < s.spawned := by
  by_contra outside
  have stopped := lost.stopped
  rw [traced.unborn worker (Nat.le_of_not_lt outside)] at stopped
  cases stopped

theorem Lost.unregistered (lost : Lost s number worker) (traced : Traced start s) {id other : Nat}
    (found : s.pending.get? id = some other) : number ≠ other := by
  rintro rfl
  obtain ⟨target, phase⟩ := traced.pending id number found
  cases lost.waits.symm.trans phase

theorem stop_stopped {worker : Worker} (stopped : worker.life = .stopped) : worker.stop = worker := by
  cases worker
  cases stopped
  rfl

theorem call_lost (traced : Traced start s) (lost : Lost s number worker) (op : Op)
    (constructed : Except String Unit) : Lost (call op constructed s) number worker := by
  have apart := Nat.ne_of_lt (lost.known traced)
  have issue : (call op constructed s).calls number =
      (ensureWorker constructed s).1.calls number :=
    Function.update_of_ne (Nat.ne_of_lt lost.issued) _ _
  refine lost.same (Nat.le_succ _) (issue.trans ?_) ?_
  · cases cached : s.ready with
    | some current => simp only [ensureWorker, cached]
    | none => cases constructed <;> simp only [ensureWorker, cached, State.updateWorker]
  · show (ensureWorker constructed s).1.workers worker = _
    cases cached : s.ready with
    | some current => simp only [ensureWorker, cached]
    | none =>
      cases constructed <;>
        simp only [ensureWorker, cached, State.updateWorker, Function.update_of_ne apart]

theorem rejectAll_other (error : String) (waiters : List (Nat × Nat)) (s : State)
    (absent : number ∉ waiters.map Prod.snd) :
    (rejectAll error waiters s).calls number = s.calls number := by
  induction waiters generalizing s with
  | nil => rfl
  | cons waiter rest ih =>
    rw [List.map_cons, List.mem_cons, not_or] at absent
    exact (ih (s.settle waiter.2 (.error error)) absent.2).trans (settle_other s _ absent.1)

theorem resume_lost (lost : Lost s number worker) {other : Nat} (apart : number ≠ other)
    (outcome : Except String Unit) : Lost (resume other outcome s) number worker := by
  cases outcome with
  | error error => exact lost.same (Nat.le_refl _) (settle_other s _ apart) rfl
  | ok =>
    have registered : Lost (registering other s) number worker :=
      lost.same (Nat.le_refl _) (registering_other s apart) rfl
    cases target : s.worker with
    | none =>
      rw [resume_unposted target]
      exact registered.same (Nat.le_refl _) (settle_other _ _ apart) rfl
    | some current =>
      rw [resume_posted target]
      refine registered.same (Nat.le_refl _) rfl ?_
      by_cases same : worker = current
      · subst same
        rw [updateWorker_self]
        simp only [Worker.post, registered.stopped]
      · exact updateWorker_other _ _ same

theorem deliver_lost (traced : Traced start s) (lost : Lost s number worker) {other : Nat}
    (apart : worker ≠ other) (response : WorkerResponse) (rest : List WorkerResponse) :
    Lost (deliver other response rest s) number worker := by
  have delivered : Lost (s.updateWorker other fun current => { current.greet response with
      outbox := rest, answered := current.answered ++ [response] }) number worker :=
    lost.same (Nat.le_refl _) rfl (updateWorker_other s _ apart)
  unfold deliver answer
  split
  · exact delivered
  · split
    · exact delivered
    · rename_i waiter found
      exact delivered.same (Nat.le_refl _)
        (settle_other _ _ (lost.unregistered traced found)) rfl

theorem error_lost (traced : Traced start s) (lost : Lost s number worker) {other : Nat}
    (apart : worker ≠ other) (error : String) :
    Lost (rejectPending error (s.updateWorker other Worker.stop)) number worker := by
  have absent : number ∉ s.pending.entries.map Prod.snd := by
    intro inside
    obtain ⟨⟨id, waiter⟩, entry, rfl⟩ := List.mem_map.mp inside
    exact lost.unregistered traced ((InsertionMap.get?_eq_some_iff _ _ _).mpr entry) rfl
  rw [rejectPending_eq]
  refine lost.same (Nat.le_refl _) ?_ (updateWorker_other s _ apart)
  exact rejectAll_other error s.pending.entries _ absent

theorem step_lost (traced : Traced start s) (lost : Lost s number worker) {event : Event}
    (taken : step s event = some next) : Lost next number worker := by
  have running : ∀ other, (s.workers other).life ≠ .stopped → worker ≠ other := by
    rintro other alive rfl
    exact alive lost.stopped
  cases step_taken taken with
  | call constructed => exact call_lost traced lost _ constructed
  | resume _ waits _ ready =>
    -- The call itself has nothing to resume with.
    apply resume_lost lost
    rintro rfl
    cases lost.waits.symm.trans waits
    cases lost.unready.symm.trans ready
  | started outcome _ starting =>
    have apart := running _ (by rw [starting]; exact Life.noConfusion)
    exact lost.same (Nat.le_refl _) rfl (updateWorker_other s _ apart)
  | handle attempt listening =>
    have apart := running _ (by rw [listening]; exact Life.noConfusion)
    exact lost.same (Nat.le_refl _) rfl (Function.update_of_ne apart _ _)
  | deliver outbox =>
    apply deliver_lost traced lost
    rintro rfl
    cases lost.silent.symm.trans outbox
  | error error _ alive => exact error_lost traced lost (running _ alive) error
  | exit _ alive => exact lost.same (Nat.le_refl _) rfl (updateWorker_other s _ (running _ alive))
  | closeIdle => exact lost
  | close => exact call_lost traced lost .close (.ok ())
  | terminateNone => exact lost.same (Nat.le_refl _) rfl rfl
  | @terminate _ current =>
    refine lost.same (Nat.le_refl _) rfl ?_
    by_cases same : worker = current
    · subst same
      exact (updateWorker_self s worker _).trans (stop_stopped lost.stopped)
    · exact updateWorker_other s _ same
  | closed => exact lost.same (Nat.le_refl _) rfl rfl

theorem run_lost {later : State} {events : List Event} {allowed : State → Event → Prop}
    (traced : Traced start s) (lost : Lost s number worker)
    (run : Run step allowed s events later) : Lost later number worker := by
  have both := run.invariant (fun reached => Traced start reached ∧ Lost reached number worker)
    (fun _ _ _ kept _ taken => ⟨step_traced kept.1 taken, step_lost kept.1 kept.2 taken⟩)
    ⟨traced, lost⟩
  exact both.2

end Stranded

/-- The worker fails before it is ready: neither `init()` nor any later call ever settles. -/
theorem stranded_by_early_error :
    ∃ s, replay step anything (initial ⟨none⟩) [.call .init (.ok ()),
        .error 0 "Cannot find module 'better-sqlite3'", .call .listSessions (.ok ())] = some s ∧
      (s.workers 0).life = .stopped ∧ ∀ more later, Run step anything s more later →
        (later.calls 0).settled = [] ∧ (later.calls 1).settled = [] := by
  refine ⟨_, rfl, rfl, fun more later after => ?_⟩
  have traced := run_traced (replay_run step anything (initial ⟨none⟩) _ [.call .init (.ok ()),
    .error 0 "Cannot find module 'better-sqlite3'", .call .listSessions (.ok ())] rfl)
  have first : Lost later 0 0 := run_lost traced ⟨by decide, rfl, rfl, rfl, rfl, rfl⟩ after
  have second : Lost later 1 0 := run_lost traced ⟨by decide, rfl, rfl, rfl, rfl, rfl⟩ after
  exact ⟨first.unsettled, second.unsettled⟩

end BaileysSession.SqliteAdapter
