import BaileysSession.Adapter.SqliteAdapter

set_option autoImplicit false

namespace BaileysSession.SqliteAdapter

open SqliteWorker Transition

/-- The worker neither crashes nor is terminated; it may fail to start. -/
def Healthy (_ : State) : Event → Prop
  | .error _ _ | .exit _ | .terminate _ | .closed _ => False
  | .call _ _ | .resume _ | .started _ _ | .handle _ _ | .deliver _ | .close => True

def after (handled : List Handled) (start : Bool × File) : Bool × File :=
  handled.foldl (fun current operation =>
    (current.1 && decide (operation.request.op ≠ .close),
      (execute current.1 operation.attempt operation.request.op current.2).2)) start

structure Executed (file : File) (worker : Worker) (now : File) : Prop where
  queue : worker.posted = worker.handled.map Handled.request ++ worker.inbox
  effects : after worker.handled (true, file) = (worker.connected, now)
  outcomes : ∀ before operation rest, worker.handled = before ++ operation :: rest →
    operation.answer = (execute (after before (true, file)).1 operation.attempt
      operation.request.op (after before (true, file)).2).1

structure Unopened (worker : Worker) : Prop where
  posted : worker.posted = []
  handled : worker.handled = []
  inbox : worker.inbox = []
  answered : worker.answered = []
  greeting : match worker.life with
    | .starting => worker.outbox = []
    | .listening => worker.outbox = [⟨0, .ok .ready⟩]
    | .stopped => ∃ error, worker.outbox = [⟨0, .error error⟩]

structure Opened (worker : Worker) : Prop where
  life : worker.life = .listening
  sent : ∃ greeting rest, greeting.id = 0 ∧ worker.answered = greeting :: rest ∧
    rest ++ worker.outbox = worker.handled.map Handled.response

structure Failed (worker : Worker) : Prop where
  posted : worker.posted = []
  handled : worker.handled = []
  inbox : worker.inbox = []
  answered : ∀ response ∈ worker.answered, response.id = 0
  life : worker.life = .stopped
  outbox : worker.outbox = []

structure Alone (s : State) : Prop where
  known : ∀ worker, s.ready = some worker → worker = 0
  unborn : s.ready = none → s.spawned = 0 ∧ s.issued = 0 ∧ s.workers 0 = .new
  others : ∀ worker, worker ≠ 0 → s.workers worker = .new
  current : s.ready ≠ none → (∀ error, (s.workers 0).ready ≠ some (.error error)) →
    s.worker = some 0
  unopened : (s.workers 0).ready = none → Unopened (s.workers 0)
  opened : (s.workers 0).ready = some (.ok ()) → Opened (s.workers 0)
  failed : ∀ error, (s.workers 0).ready = some (.error error) → Failed (s.workers 0)
  spawned : s.ready ≠ none → s.spawned = 1

/-- Requests, pending entries, responses and calls belong together. -/
structure Matched (s : State) : Prop where
  ids : (s.workers 0).posted.map Request.id = List.range' 1 (s.workers 0).posted.length
  next : s.nextRequestId = (s.workers 0).posted.length + 1
  awaited : ∀ id, s.pending.get? id ≠ none ↔
    id ∈ (s.workers 0).posted.map Request.id ∧
      id ∉ (s.workers 0).answered.map WorkerResponse.id
  waiters : ∀ id number, s.pending.get? id = some number → number < s.issued ∧
    (s.calls number).phase = .posted (some 0) id ∧ (s.calls number).settled = []
  asked : ∀ number, number < s.issued → ∀ target id,
    (s.calls number).phase = .posted target id →
      (⟨id, (s.calls number).op⟩ : Request) ∈ (s.workers 0).posted ∧
        ((s.calls number).settled = [] ∧ s.pending.get? id = some number ∨
          ∃ response ∈ (s.workers 0).answered, response.id = id ∧
            (s.calls number).settled = [response.answer])
  waiting : ∀ number, number < s.issued → ∀ worker,
    (s.calls number).phase = .waiting worker → worker = 0 ∧
      ((s.calls number).settled = [] ∨ ∃ error, (s.workers 0).ready = some (.error error) ∧
        (s.calls number).settled = [.error error])

structure Valid (file : File) (s : State) : Prop where
  alone : Alone s
  matched : Matched s
  executed : Executed file (s.workers 0) s.file

theorem updateWorker_self (s : State) (worker : Nat) (change : Worker → Worker) :
    (s.updateWorker worker change).workers worker = change (s.workers worker) := by
  simp only [State.updateWorker, Function.update_self]

theorem updateWorker_other (s : State) {worker other : Nat} (change : Worker → Worker)
    (apart : other ≠ worker) : (s.updateWorker worker change).workers other = s.workers other := by
  simp only [State.updateWorker, Function.update_of_ne apart]

theorem settle_other (s : State) {number other : Nat} (outcome : Except String Result)
    (apart : other ≠ number) : (s.settle number outcome).calls other = s.calls other := by
  simp only [State.settle, Function.update_of_ne apart]

theorem settle_self (s : State) (number : Nat) (outcome : Except String Result) :
    (s.settle number outcome).calls number =
      { s.calls number with settled := (s.calls number).settled ++ [outcome] } := by
  simp only [State.settle, Function.update_self]

theorem initial_valid (file : File) : Valid file (initial file) := by
  refine ⟨⟨?_, ?_, ?_, ?_, ?_, ?_, ?_, fun cached => absurd rfl cached⟩,
    ⟨rfl, rfl, ?_, ?_, ?_, ?_⟩, ⟨rfl, rfl, ?_⟩⟩
  · intro _ cached
    cases cached
  · exact fun _ => ⟨rfl, rfl, rfl⟩
  · exact fun _ _ => rfl
  · exact fun cached => absurd rfl cached
  · exact fun _ => ⟨rfl, rfl, rfl, rfl, rfl⟩
  · intro opened
    cases opened
  · intro _ failed
    cases failed
  · intro id
    simp [initial, Worker.new]
  · intro _ _ found
    cases found
  · exact fun number bound => absurd bound (Nat.not_lt_zero number)
  · exact fun number bound => absurd bound (Nat.not_lt_zero number)
  · intro before operation rest split
    cases before <;> cases split

section Calling

variable {file : File} {s : State}

theorem Matched.unissued {next : State} (matched : Matched s) (none : next.issued = 0)
    (posted : (next.workers 0).posted = (s.workers 0).posted)
    (answered : (next.workers 0).answered = (s.workers 0).answered)
    (pending : next.pending = s.pending) (ids : next.nextRequestId = s.nextRequestId)
    (issued : s.issued = 0) : Matched next := by
  have nobody : ∀ number, ¬ number < next.issued := by
    intro number
    rw [none]
    exact Nat.not_lt_zero number
  refine ⟨?_, ?_, ?_, ?_, fun number bound => absurd bound (nobody number),
    fun number bound => absurd bound (nobody number)⟩
  · rw [posted]
    exact matched.ids
  · rw [ids, posted]
    exact matched.next
  · rw [pending, posted, answered]
    exact matched.awaited
  · intro id number found
    rw [pending] at found
    have bound := (matched.waiters id number found).1
    rw [issued] at bound
    exact absurd bound (Nat.not_lt_zero number)

theorem ensureWorker_issued (constructed : Except String Unit) (s : State) :
    (ensureWorker constructed s).1.issued = s.issued := by
  unfold ensureWorker
  cases s.ready with
  | some => rfl
  | none => cases constructed <;> rfl

theorem ensureWorker_valid (valid : Valid file s) (constructed : Except String Unit) :
    Valid file (ensureWorker constructed s).1 ∧ (ensureWorker constructed s).1.ready = some 0 ∧
      (ensureWorker constructed s).2 = 0 := by
  unfold ensureWorker
  cases cached : s.ready with
  | some worker =>
    have same := valid.alone.known worker cached
    subst same
    exact ⟨valid, cached, rfl⟩
  | none =>
    obtain ⟨none, issued, new⟩ := valid.alone.unborn cached
    have executed : Executed file .new s.file := new ▸ valid.executed
    simp only [none]
    cases constructed with
    | ok =>
      refine ⟨⟨⟨?_, ?_, ?_, ?_, ?_, ?_, ?_, fun _ => rfl⟩, ?_, ?_⟩, rfl, rfl⟩
      · rintro _ ⟨⟩
        rfl
      · intro uncached
        cases uncached
      · intro worker apart
        exact (Function.update_of_ne apart _ _).trans (valid.alone.others worker apart)
      · exact fun _ _ => rfl
      · exact fun _ => ⟨rfl, rfl, rfl, rfl, rfl⟩
      · intro opened
        cases opened
      · intro _ failed
        cases failed
      · exact valid.matched.unissued issued (by rw [new]; rfl) (by rw [new]; rfl) rfl rfl issued
      · exact executed
    | error error =>
      refine ⟨⟨⟨?_, ?_, ?_, ?_, ?_, ?_, ?_, fun _ => rfl⟩, ?_, ?_⟩, rfl, rfl⟩
      · rintro _ ⟨⟩
        rfl
      · intro uncached
        cases uncached
      · intro worker apart
        exact (Function.update_of_ne apart _ _).trans (valid.alone.others worker apart)
      · exact fun _ unfailed => absurd rfl (unfailed error)
      · intro opened
        cases opened
      · intro opened
        cases opened
      · exact fun _ _ => ⟨rfl, rfl, rfl, fun _ inside => absurd inside List.not_mem_nil, rfl, rfl⟩
      · exact valid.matched.unissued issued (by rw [new]; rfl) (by rw [new]; rfl) rfl rfl issued
      · exact ⟨executed.queue, executed.effects, executed.outcomes⟩

theorem issue_valid (valid : Valid file s) (cached : s.ready = some 0) (op : Op) :
    Valid file { s with
      issued := s.issued + 1
      calls := Function.update s.calls s.issued ⟨op, .waiting 0, []⟩ } := by
  obtain ⟨alone, matched, executed⟩ := valid
  have old : ∀ {number}, number < s.issued →
      Function.update s.calls s.issued ⟨op, .waiting 0, []⟩ number = s.calls number :=
    fun bound => Function.update_of_ne (Nat.ne_of_lt bound) _ _
  refine ⟨⟨alone.known, ?_, alone.others, alone.current, alone.unopened, alone.opened,
    alone.failed, alone.spawned⟩, ⟨matched.ids, matched.next, matched.awaited, ?_, ?_, ?_⟩, executed⟩
  · intro uncached
    rw [cached] at uncached
    cases uncached
  · intro id number found
    obtain ⟨bound, phase, open_⟩ := matched.waiters id number found
    simp only [old bound]
    exact ⟨Nat.lt_succ_of_lt bound, phase, open_⟩
  · intro number bound target id phase
    rcases Nat.lt_succ_iff_lt_or_eq.mp bound with before | rfl
    · simp only [old before] at phase ⊢
      exact matched.asked number before target id phase
    · simp at phase
  · intro number bound worker phase
    rcases Nat.lt_succ_iff_lt_or_eq.mp bound with before | rfl
    · simp only [old before] at phase ⊢
      exact matched.waiting number before worker phase
    · simp only [Function.update_self, Phase.waiting.injEq] at phase ⊢
      exact ⟨phase.symm, .inl trivial⟩

theorem call_valid (valid : Valid file s) (op : Op) (constructed : Except String Unit) :
    Valid file (call op constructed s) := by
  obtain ⟨ensured, cached, zero⟩ := ensureWorker_valid valid constructed
  have issues := issue_valid ensured cached op
  rw [ensureWorker_issued, ← zero] at issues
  exact issues

end Calling

section Working

variable {file : File} {s : State}

theorem Matched.same {next : State} (matched : Matched s)
    (ready : (next.workers 0).ready = (s.workers 0).ready)
    (posted : (next.workers 0).posted = (s.workers 0).posted)
    (answered : (next.workers 0).answered = (s.workers 0).answered)
    (pending : next.pending = s.pending) (ids : next.nextRequestId = s.nextRequestId)
    (issued : next.issued = s.issued) (calls : next.calls = s.calls) : Matched next := by
  refine ⟨?_, ?_, ?_, ?_, ?_, ?_⟩
  · rw [posted]
    exact matched.ids
  · rw [ids, posted]
    exact matched.next
  · rw [pending, posted, answered]
    exact matched.awaited
  · rw [pending, issued, calls]
    exact matched.waiters
  · rw [issued, calls, posted, pending, answered]
    exact matched.asked
  · rw [issued, calls, ready]
    exact matched.waiting

theorem Alone.states (alone : Alone s) : ((s.workers 0).ready = none ∧ Unopened (s.workers 0)) ∨
    ((s.workers 0).ready = some (.ok ()) ∧ Opened (s.workers 0)) ∨
    ∃ error, (s.workers 0).ready = some (.error error) ∧ Failed (s.workers 0) := by
  cases ready : (s.workers 0).ready with
  | none => exact .inl ⟨rfl, alone.unopened ready⟩
  | some outcome =>
    cases outcome with
    | ok => exact .inr (.inl ⟨rfl, alone.opened ready⟩)
    | error error => exact .inr (.inr ⟨error, rfl, alone.failed error ready⟩)

theorem start_valid (valid : Valid file s) (cached : s.ready ≠ none)
    (starting : (s.workers 0).life = .starting) (outcome : Except String Unit) :
    Valid file (s.updateWorker 0 (Worker.start outcome)) := by
  obtain ⟨alone, matched, executed⟩ := valid
  obtain ⟨open_, unopened⟩ : (s.workers 0).ready = none ∧ Unopened (s.workers 0) := by
    rcases alone.states with first | ⟨-, opened⟩ | ⟨_, -, failed⟩
    · exact first
    · cases starting.symm.trans opened.life
    · cases starting.symm.trans failed.life
  have empty : (s.workers 0).outbox = [] := by
    have greeting := unopened.greeting
    rwa [starting] at greeting
  have worker := updateWorker_self s 0 (Worker.start outcome)
  have ready : ((s.workers 0).start outcome).ready = none := by
    cases outcome <;> exact open_
  refine ⟨⟨alone.known, fun uncached => absurd uncached cached, ?_, ?_, ?_, ?_, ?_,
    alone.spawned⟩, ?_, ?_⟩
  · intro other apart
    exact (updateWorker_other s _ apart).trans (alone.others other apart)
  · intro _ _
    exact alone.current cached fun error failed => by simp [open_] at failed
  · rw [worker]
    intro _
    cases outcome with
    | ok => exact ⟨unopened.posted, unopened.handled, unopened.inbox, unopened.answered,
        by simp [Worker.start, empty]⟩
    | error error => exact ⟨unopened.posted, unopened.handled, unopened.inbox, unopened.answered,
        ⟨error, by simp [Worker.start, empty]⟩⟩
  · rw [worker, ready]
    intro opened
    cases opened
  · rw [worker, ready]
    intro _ failed
    cases failed
  · apply matched.same
    all_goals first | rfl | (rw [worker]; cases outcome <;> rfl)
  · rw [worker]
    cases outcome <;> exact ⟨executed.queue, executed.effects, executed.outcomes⟩

theorem after_append (handled : List Handled) (operation : Handled) (start : Bool × File) :
    after (handled ++ [operation]) start =
      ((after handled start).1 && decide (operation.request.op ≠ .close),
        (execute (after handled start).1 operation.attempt operation.request.op
          (after handled start).2).2) := by
  simp only [after, List.foldl_append, List.foldl_cons, List.foldl_nil]

theorem handle_executed {worker : Worker} {now : File} (executed : Executed file worker now)
    {request : Request} {rest : List Request} (inbox : worker.inbox = request :: rest)
    (attempt : Attempt) (outbox : List WorkerResponse) :
    Executed file { worker with
      connected := worker.connected && decide (request.op ≠ .close)
      inbox := rest
      outbox := outbox
      handled := worker.handled ++
        [⟨request, attempt, (execute worker.connected attempt request.op now).1⟩] }
      (execute worker.connected attempt request.op now).2 := by
  obtain ⟨queue, effects, outcomes⟩ := executed
  refine ⟨?_, ?_, ?_⟩
  · simp [queue, inbox]
  · rw [after_append, effects]
  · intro before operation later split
    rcases List.eq_nil_or_concat later with rfl | ⟨between, last, rfl⟩
    · obtain ⟨rfl, added⟩ := List.append_inj' split rfl
      cases added
      rw [effects]
    · rw [List.concat_eq_append, ← List.cons_append, ← List.append_assoc] at split
      exact outcomes before operation between (List.append_inj' split rfl).1

theorem Alone.cached (alone : Alone s) (changed : s.workers 0 ≠ .new) : s.ready ≠ none :=
  fun uncached => changed (alone.unborn uncached).2.2

theorem Alone.still {next : State} (alone : Alone s) (cached : s.ready ≠ none)
    (same : next.ready = s.ready) (current : next.worker = s.worker)
    (spawned : next.spawned = s.spawned)
    (others : ∀ worker, worker ≠ 0 → next.workers worker = s.workers worker)
    (before : (s.workers 0).ready = some (.ok ())) (ready : (next.workers 0).ready = some (.ok ()))
    (opened : Opened (next.workers 0)) : Alone next := by
  refine ⟨?_, ?_, ?_, ?_, ?_, fun _ => opened, ?_, fun _ => spawned.trans (alone.spawned cached)⟩
  · rw [same]
    exact alone.known
  · rw [same]
    exact fun uncached => absurd uncached cached
  · intro worker apart
    rw [others worker apart, alone.others worker apart]
  · intro _ _
    rw [current]
    exact alone.current cached fun error failed => by simp [before] at failed
  · intro unopened
    rw [ready] at unopened
    cases unopened
  · intro error failed
    rw [ready] at failed
    cases failed

theorem handle_valid (valid : Valid file s) {request : Request} {rest : List Request}
    (inbox : (s.workers 0).inbox = request :: rest) (attempt : Attempt) :
    Valid file (handle 0 request rest attempt s) := by
  obtain ⟨alone, matched, executed⟩ := valid
  obtain ⟨ready, opened⟩ : (s.workers 0).ready = some (.ok ()) ∧ Opened (s.workers 0) := by
    rcases alone.states with ⟨-, unopened⟩ | second | ⟨_, -, failed⟩
    · cases inbox.symm.trans unopened.inbox
    · exact second
    · cases inbox.symm.trans failed.inbox
  have changed : s.workers 0 ≠ .new := by
    intro new
    rw [new] at inbox
    cases inbox
  have worker : (handle 0 request rest attempt s).workers 0 = { s.workers 0 with
      connected := (s.workers 0).connected && decide (request.op ≠ .close)
      inbox := rest
      outbox := (s.workers 0).outbox ++
        [⟨request.id, (execute (s.workers 0).connected attempt request.op s.file).1⟩]
      handled := (s.workers 0).handled ++ [⟨request, attempt,
        (execute (s.workers 0).connected attempt request.op s.file).1⟩] } := by
    simp only [handle, State.updateWorker, Function.update_self]
  refine ⟨?_, ?_, ?_⟩
  · refine alone.still (alone.cached changed) ?_ ?_ ?_ ?_ ready ?_ ?_
    · rfl
    · rfl
    · rfl
    · intro other apart
      simp only [handle, State.updateWorker, Function.update_of_ne apart]
    · rw [worker]
      exact ready
    · obtain ⟨life, greeting, answers, zero, answered, sent⟩ := opened
      rw [worker]
      refine ⟨life, greeting, answers, zero, answered, ?_⟩
      simp only [List.map_append, List.map_cons, List.map_nil, ← List.append_assoc, sent]
      rfl
  · apply matched.same <;> rfl
  · rw [worker]
    exact handle_executed executed inbox attempt _

end Working

section Answering

variable {file : File} {s : State}

theorem Matched.positive (matched : Matched s) {id : Nat}
    (posted : id ∈ (s.workers 0).posted.map Request.id) :
    0 < id ∧ id < s.nextRequestId := by
  rw [matched.ids, List.mem_range'_1] at posted
  rw [matched.next]
  omega

theorem Matched.unique (matched : Matched s) : ((s.workers 0).posted.map Request.id).Nodup := by
  rw [matched.ids]
  exact List.nodup_range' 1

theorem handled_ids (executed : Executed file (s.workers 0) s.file) :
    ((s.workers 0).handled.map Handled.response).map WorkerResponse.id <+:
      (s.workers 0).posted.map Request.id := by
  refine ⟨(s.workers 0).inbox.map Request.id, ?_⟩
  rw [executed.queue, List.map_append, List.map_map, List.map_map]
  rfl

theorem reject_valid (valid : Valid file s) {number worker : Nat} (bound : number < s.issued)
    (phase : (s.calls number).phase = .waiting worker) (open_ : (s.calls number).settled = [])
    {error : String} (failed : (s.workers 0).ready = some (.error error)) :
    Valid file (s.settle number (.error error)) := by
  obtain ⟨alone, matched, executed⟩ := valid
  have waiting : ∀ {other target id}, (s.calls other).phase = .posted target id →
      other ≠ number := by
    rintro other target id posted rfl
    rw [phase] at posted
    cases posted
  refine ⟨⟨alone.known, alone.unborn, alone.others, alone.current, alone.unopened, alone.opened,
    alone.failed, alone.spawned⟩, ⟨matched.ids, matched.next, matched.awaited, ?_, ?_, ?_⟩, executed⟩
  · intro id other found
    obtain ⟨known, posted, unsettled⟩ := matched.waiters id other found
    rw [settle_other s _ (waiting posted)]
    exact ⟨known, posted, unsettled⟩
  · intro other known target id posted
    by_cases same : other = number
    · subst same
      rw [settle_self] at posted
      exact absurd rfl (waiting posted)
    · rw [settle_other s _ same] at posted ⊢
      exact matched.asked other known target id posted
  · intro other known target waits
    by_cases same : other = number
    · subst same
      rw [settle_self] at waits ⊢
      exact ⟨(matched.waiting other known target waits).1, .inr ⟨error, failed, by simp [open_]⟩⟩
    · rw [settle_other s _ same] at waits ⊢
      exact matched.waiting other known target waits

def posting (number : Nat) (s : State) : State :=
  let request : Request := ⟨s.nextRequestId, (s.calls number).op⟩
  { s with
    nextRequestId := s.nextRequestId + 1
    pending := s.pending.set s.nextRequestId number
    calls := Function.update s.calls number
      { s.calls number with phase := .posted (some 0) s.nextRequestId }
    workers := Function.update s.workers 0 { s.workers 0 with
      inbox := (s.workers 0).inbox ++ [request]
      posted := (s.workers 0).posted ++ [request] } }

theorem resume_posting (number : Nat) (current : s.worker = some 0)
    (life : (s.workers 0).life = .listening) : resume number (.ok ()) s = posting number s := by
  simp only [resume, current, State.updateWorker, Worker.post, life, posting]

theorem posting_worker (number : Nat) (s : State) : (posting number s).workers 0 =
    { s.workers 0 with
      inbox := (s.workers 0).inbox ++ [⟨s.nextRequestId, (s.calls number).op⟩]
      posted := (s.workers 0).posted ++ [⟨s.nextRequestId, (s.calls number).op⟩] } := by
  simp only [posting, Function.update_self]

theorem posting_self (number : Nat) (s : State) : (posting number s).calls number =
    { s.calls number with phase := .posted (some 0) s.nextRequestId } :=
  Function.update_self _ _ _

theorem posting_other {number other : Nat} (s : State) (apart : other ≠ number) :
    (posting number s).calls other = s.calls other :=
  Function.update_of_ne apart _ _

theorem next_unanswered (matched : Matched s) (executed : Executed file (s.workers 0) s.file)
    (opened : Opened (s.workers 0)) :
    s.nextRequestId ∉ (s.workers 0).answered.map WorkerResponse.id := by
  obtain ⟨greeting, rest, zero, answered, all⟩ := opened.sent
  rw [answered, List.map_cons, List.mem_cons, zero]
  have positive := matched.next
  rintro (impossible | inside)
  · omega
  · have handled : s.nextRequestId ∈
        ((s.workers 0).handled.map Handled.response).map WorkerResponse.id := by
      rw [← all, List.map_append]
      exact List.mem_append_left _ inside
    have old := matched.positive ((handled_ids executed).subset handled)
    omega

theorem posting_matched (matched : Matched s) {number worker : Nat} (bound : number < s.issued)
    (phase : (s.calls number).phase = .waiting worker) (open_ : (s.calls number).settled = [])
    (unsent : s.nextRequestId ∉ (s.workers 0).answered.map WorkerResponse.id) :
    Matched (posting number s) := by
  have here := posting_worker number s
  have waiting : ∀ {other target id}, (s.calls other).phase = .posted target id →
      other ≠ number := by
    rintro other target id posted rfl
    rw [phase] at posted
    cases posted
  refine ⟨?_, ?_, ?_, ?_, ?_, ?_⟩
  · rw [here, List.map_append, matched.ids, List.length_append, List.length_singleton,
      List.range'_1_concat, Nat.add_comm 1, ← matched.next]
    rfl
  · rw [here, List.length_append, List.length_singleton, ← matched.next]
    rfl
  · intro id
    rw [here]
    simp only [posting, InsertionMap.get?_set, List.map_append, List.map_cons, List.map_nil,
      List.mem_append, List.mem_singleton]
    by_cases new : id = s.nextRequestId
    · subst new
      simp [unsent]
    · simp only [new, if_false, or_false]
      exact matched.awaited id
  · intro id other found
    simp only [posting, InsertionMap.get?_set] at found
    split at found
    · rename_i new
      cases found
      rw [posting_self, new]
      exact ⟨bound, rfl, open_⟩
    · obtain ⟨known, posted, unsettled⟩ := matched.waiters id other found
      rw [posting_other s (waiting posted)]
      exact ⟨known, posted, unsettled⟩
  · intro other known target id posted
    rw [here]
    by_cases same : other = number
    · subst same
      rw [posting_self] at posted ⊢
      cases posted
      refine ⟨List.mem_append_right _ (List.mem_singleton_self _), .inl ⟨open_, ?_⟩⟩
      simp [posting]
    · rw [posting_other s same] at posted ⊢
      obtain ⟨inside, progress⟩ := matched.asked other known target id posted
      refine ⟨List.mem_append_left _ inside, progress.imp_left ?_⟩
      rintro ⟨unsettled, found⟩
      have old := matched.positive (List.mem_map_of_mem inside)
      have apart : id ≠ s.nextRequestId := Nat.ne_of_lt old.2
      simp only [posting, InsertionMap.get?_set, if_neg apart]
      exact ⟨unsettled, found⟩
  · intro other known target waits
    by_cases same : other = number
    · subst same
      rw [posting_self] at waits
      cases waits
    · rw [posting_other s same] at waits ⊢
      rw [here]
      exact matched.waiting other known target waits

theorem posting_valid (valid : Valid file s) {number worker : Nat} (bound : number < s.issued)
    (phase : (s.calls number).phase = .waiting worker) (open_ : (s.calls number).settled = [])
    (ready : (s.workers 0).ready = some (.ok ())) (cached : s.ready ≠ none) :
    Valid file (posting number s) := by
  obtain ⟨alone, matched, executed⟩ := valid
  obtain ⟨life, sent⟩ := alone.opened ready
  have here := posting_worker number s
  refine ⟨?_, posting_matched matched bound phase open_
    (next_unanswered matched executed ⟨life, sent⟩), ?_⟩
  · refine alone.still cached ?_ ?_ ?_ ?_ ready ?_ ?_
    · rfl
    · rfl
    · rfl
    · intro other apart
      simp only [posting, Function.update_of_ne apart]
    · rw [here]
      exact ready
    · rw [here]
      exact ⟨life, sent⟩
  · rw [here]
    refine ⟨?_, executed.effects, executed.outcomes⟩
    simp only [executed.queue, List.append_assoc]

theorem resume_valid (valid : Valid file s) {number worker : Nat} (bound : number < s.issued)
    (phase : (s.calls number).phase = .waiting worker) (open_ : (s.calls number).settled = [])
    {outcome : Except String Unit} (ready : (s.workers 0).ready = some outcome) :
    Valid file (resume number outcome s) := by
  cases outcome with
  | error error => exact reject_valid valid bound phase open_ ready
  | ok =>
    have cached : s.ready ≠ none := by
      apply valid.alone.cached
      intro new
      rw [new] at ready
      cases ready
    have current : s.worker = some 0 :=
      valid.alone.current cached fun error failed => by simp [ready] at failed
    rw [resume_posting number current (valid.alone.opened ready).life]
    exact posting_valid valid bound phase open_ ready cached

theorem Unopened.first {worker : Worker} (unopened : Unopened worker) {response : WorkerResponse}
    {rest : List WorkerResponse} (outbox : worker.outbox = response :: rest) :
    response.id = 0 ∧ rest = [] ∧ ((worker.life = .listening ∧ response.answer = .ok .ready) ∨
      ∃ error, worker.life = .stopped ∧ response.answer = .error error) := by
  have greeting := unopened.greeting
  cases life : worker.life with
  | starting =>
    rw [life] at greeting
    cases outbox.symm.trans greeting
  | listening =>
    rw [life] at greeting
    cases outbox.symm.trans greeting
    exact ⟨rfl, rfl, .inl ⟨rfl, rfl⟩⟩
  | stopped =>
    rw [life] at greeting
    obtain ⟨error, greeting⟩ := greeting
    cases outbox.symm.trans greeting
    exact ⟨rfl, rfl, .inr ⟨error, rfl, rfl⟩⟩

theorem greeting_matched (matched : Matched s) (open_ : (s.workers 0).ready = none)
    (posted : (s.workers 0).posted = []) (response : WorkerResponse) :
    Matched (s.updateWorker 0 fun current => { current.greet response with
      outbox := [], answered := current.answered ++ [response] }) := by
  have nobody : ∀ {number target id}, number < s.issued →
      (s.calls number).phase ≠ .posted target id := by
    intro number target id known asked
    have inside := (matched.asked number known target id asked).1
    rw [posted] at inside
    cases inside
  have unasked : ∀ id number, s.pending.get? id ≠ some number := by
    intro id number found
    obtain ⟨known, asked, -⟩ := matched.waiters id number found
    exact nobody known asked
  refine ⟨?_, ?_, ?_, ?_, ?_, ?_⟩
  · rw [updateWorker_self]
    simp only [Worker.greet, open_, posted]
    rfl
  · rw [updateWorker_self]
    simp only [Worker.greet, open_]
    exact matched.next
  · intro id
    rw [updateWorker_self]
    simp only [Worker.greet, open_, posted, List.map_nil, List.not_mem_nil, false_and, iff_false,
      not_not]
    cases found : s.pending.get? id with
    | none => exact found
    | some number => exact absurd found (unasked id number)
  · exact fun id number found => absurd found (unasked id number)
  · exact fun number known target id asked => absurd asked (nobody known)
  · intro number known target waits
    obtain ⟨zero, settled | ⟨error, failed, -⟩⟩ := matched.waiting number known target waits
    · exact ⟨zero, .inl settled⟩
    · rw [open_] at failed
      cases failed

theorem greeting_valid (valid : Valid file s) (cached : s.ready ≠ none)
    (open_ : (s.workers 0).ready = none) (unopened : Unopened (s.workers 0))
    {response : WorkerResponse} {rest : List WorkerResponse}
    (outbox : (s.workers 0).outbox = response :: rest) :
    Valid file (deliver 0 response rest s) := by
  obtain ⟨alone, matched, executed⟩ := valid
  obtain ⟨id, rfl, how⟩ := unopened.first outbox
  obtain ⟨posted, handled, inbox, answered, -⟩ := unopened
  have unchanged : deliver 0 response [] s = s.updateWorker 0 fun current =>
      { current.greet response with outbox := [], answered := current.answered ++ [response] } := by
    simp only [deliver, answer, if_pos id]
  rw [unchanged]
  have others : ∀ other, other ≠ 0 → (s.updateWorker 0 fun current =>
      { current.greet response with
        outbox := [], answered := current.answered ++ [response] }).workers other = .new :=
    fun other apart => (updateWorker_other s _ apart).trans (alone.others other apart)
  have executes : Executed file ((s.updateWorker 0 fun current =>
      { current.greet response with
        outbox := [], answered := current.answered ++ [response] }).workers 0) s.file := by
    rw [updateWorker_self]
    simp only [Worker.greet, open_]
    exact ⟨executed.queue, executed.effects, executed.outcomes⟩
  refine ⟨⟨alone.known, fun uncached => absurd uncached cached, others, ?_, ?_, ?_, ?_,
    alone.spawned⟩, greeting_matched matched open_ posted response, executes⟩
  · exact fun _ _ => alone.current cached fun error failed => by simp [open_] at failed
  all_goals
    rw [updateWorker_self]
    simp only [Worker.greet, open_, WorkerResponse.greeting, id, if_true]
  · intro unsettled
    cases unsettled
  · rcases how with ⟨life, accepted⟩ | ⟨error, life, refused⟩
    · intro _
      refine ⟨life, response, [], id, ?_, ?_⟩
      · simp only [answered, List.nil_append]
      · simp only [handled, List.map_nil, List.append_nil]
    · rw [refused]
      intro impossible
      cases impossible
  · rcases how with ⟨life, accepted⟩ | ⟨error, life, refused⟩
    · rw [accepted]
      intro _ impossible
      cases impossible
    · intro _ _
      refine ⟨posted, handled, inbox, ?_, life, rfl⟩
      intro delivered inside
      simp only [answered, List.nil_append, List.mem_singleton] at inside
      rw [inside, id]

def settling (number : Nat) (response : WorkerResponse) (rest : List WorkerResponse) (s : State) :
    State :=
  { s with
    pending := s.pending.erase response.id
    calls := Function.update s.calls number
      { s.calls number with settled := (s.calls number).settled ++ [response.answer] }
    workers := Function.update s.workers 0 { s.workers 0 with
      outbox := rest
      answered := (s.workers 0).answered ++ [response] } }

theorem deliver_settling {number : Nat} {response : WorkerResponse} (rest : List WorkerResponse)
    (ready : (s.workers 0).ready = some (.ok ())) (positive : response.id ≠ 0)
    (found : s.pending.get? response.id = some number) :
    deliver 0 response rest s = settling number response rest s := by
  have pending : (s.updateWorker 0 fun current => { current.greet response with
      outbox := rest, answered := current.answered ++ [response] }).pending.get? response.id =
        some number := found
  simp only [deliver, answer, if_neg positive, pending]
  simp only [State.settle, State.updateWorker, Worker.greet, ready, settling]

theorem settling_worker (number : Nat) (response : WorkerResponse) (rest : List WorkerResponse)
    (s : State) : (settling number response rest s).workers 0 = { s.workers 0 with
      outbox := rest
      answered := (s.workers 0).answered ++ [response] } := by
  simp only [settling, Function.update_self]

theorem settling_other {number other : Nat} (response : WorkerResponse)
    (rest : List WorkerResponse) (s : State) (apart : other ≠ number) :
    (settling number response rest s).calls other = s.calls other :=
  Function.update_of_ne apart _ _

theorem next_answers (matched : Matched s) (executed : Executed file (s.workers 0) s.file)
    (opened : Opened (s.workers 0)) {response : WorkerResponse} {rest : List WorkerResponse}
    (outbox : (s.workers 0).outbox = response :: rest) :
    response.id ∈ (s.workers 0).posted.map Request.id ∧
      response.id ∉ (s.workers 0).answered.map WorkerResponse.id := by
  obtain ⟨greeting, before, zero, answered, sent⟩ := opened.sent
  rw [outbox] at sent
  have sentIds : (before.map WorkerResponse.id ++ response.id :: rest.map WorkerResponse.id) <+:
      (s.workers 0).posted.map Request.id := by
    have ids := handled_ids executed
    rw [← sent] at ids
    simpa using ids
  have posted : response.id ∈ (s.workers 0).posted.map Request.id :=
    sentIds.subset (List.mem_append_right _ List.mem_cons_self)
  have positive := (matched.positive posted).1
  refine ⟨posted, ?_⟩
  rw [answered, List.map_cons, List.mem_cons, zero, not_or]
  refine ⟨by omega, ?_⟩
  have unique := sentIds.sublist.nodup matched.unique
  intro earlier
  exact (List.nodup_append.mp unique).2.2 _ earlier _ List.mem_cons_self rfl

theorem settling_matched (matched : Matched s) {number : Nat} {response : WorkerResponse}
    (rest : List WorkerResponse) (found : s.pending.get? response.id = some number) :
    Matched (settling number response rest s) := by
  obtain ⟨known, phase, open_⟩ := matched.waiters response.id number found
  have here := settling_worker number response rest s
  have there : ∀ {other}, other ≠ number →
      (settling number response rest s).calls other = s.calls other :=
    settling_other response rest s
  have self : (settling number response rest s).calls number =
      { s.calls number with settled := [response.answer] } := by
    simp only [settling, Function.update_self, open_, List.nil_append]
  have elsewhere : ∀ {id other}, s.pending.get? id = some other → other ≠ number →
      id ≠ response.id := by
    rintro id other waits apart rfl
    rw [found] at waits
    exact apart (Option.some.inj waits).symm
  refine ⟨?_, ?_, ?_, ?_, ?_, ?_⟩
  · rw [here]
    exact matched.ids
  · rw [here]
    exact matched.next
  · intro id
    rw [here]
    simp only [settling, InsertionMap.get?_erase, List.map_append, List.map_cons, List.map_nil,
      List.mem_append, List.mem_singleton]
    by_cases same : id = response.id
    · simp [same]
    · simp only [same, if_false, or_false]
      exact matched.awaited id
  · intro id other waits
    simp only [settling, InsertionMap.get?_erase] at waits
    split at waits
    · cases waits
    · rename_i apart
      obtain ⟨bound, asked, unsettled⟩ := matched.waiters id other waits
      have different : other ≠ number := by
        rintro rfl
        rw [phase] at asked
        cases asked
        exact apart rfl
      rw [there different]
      exact ⟨bound, asked, unsettled⟩
  · intro other bound target id asked
    rw [here]
    by_cases same : other = number
    · subst same
      rw [self] at asked ⊢
      obtain ⟨inside, -⟩ := matched.asked other bound target id asked
      cases phase.symm.trans asked
      exact ⟨inside, .inr ⟨response, List.mem_append_right _ (List.mem_singleton_self _), rfl, rfl⟩⟩
    · rw [there same] at asked ⊢
      obtain ⟨inside, progress⟩ := matched.asked other bound target id asked
      refine ⟨inside, ?_⟩
      rcases progress with ⟨unsettled, waits⟩ | ⟨delivered, earlier, own, settled⟩
      · refine .inl ⟨unsettled, ?_⟩
        simp only [settling, InsertionMap.get?_erase, if_neg (elsewhere waits same)]
        exact waits
      · exact .inr ⟨delivered, List.mem_append_left _ earlier, own, settled⟩
  · intro other bound target waits
    by_cases same : other = number
    · subst same
      rw [self] at waits
      cases phase.symm.trans waits
    · rw [there same] at waits ⊢
      rw [here]
      exact matched.waiting other bound target waits

theorem response_valid (valid : Valid file s) (cached : s.ready ≠ none)
    (ready : (s.workers 0).ready = some (.ok ()))
    {response : WorkerResponse} {rest : List WorkerResponse}
    (outbox : (s.workers 0).outbox = response :: rest) :
    Valid file (deliver 0 response rest s) := by
  obtain ⟨alone, matched, executed⟩ := valid
  have opened := alone.opened ready
  have answers := next_answers matched executed opened outbox
  have positive := (matched.positive answers.1).1
  obtain ⟨number, found⟩ := Option.ne_none_iff_exists'.mp ((matched.awaited response.id).mpr answers)
  obtain ⟨life, greeting, before, zero, answered, sent⟩ := opened
  rw [outbox] at sent
  rw [deliver_settling rest ready (by omega) found]
  have here := settling_worker number response rest s
  refine ⟨?_, settling_matched matched rest found, ?_⟩
  · refine alone.still cached ?_ ?_ ?_ ?_ ready ?_ ?_
    · rfl
    · rfl
    · rfl
    · intro other apart
      simp only [settling, Function.update_of_ne apart]
    · rw [here]
      exact ready
    · rw [here]
      refine ⟨life, greeting, before ++ [response], zero, ?_, ?_⟩
      · rw [answered, List.cons_append]
      · rw [List.append_assoc, List.singleton_append, sent]
  · rw [here]
    exact ⟨executed.queue, executed.effects, executed.outcomes⟩

theorem deliver_valid (valid : Valid file s) (cached : s.ready ≠ none)
    {response : WorkerResponse} {rest : List WorkerResponse}
    (outbox : (s.workers 0).outbox = response :: rest) :
    Valid file (deliver 0 response rest s) := by
  rcases valid.alone.states with ⟨open_, unopened⟩ | ⟨ready, -⟩ | ⟨_, -, failed⟩
  · exact greeting_valid valid cached open_ unopened outbox
  · exact response_valid valid cached ready outbox
  · cases outbox.symm.trans failed.outbox

end Answering

section Runs

variable {file : File} {s next : State}

theorem Alone.zero (alone : Alone s) {worker : Nat} (active : s.workers worker ≠ .new) :
    worker = 0 := by
  by_contra apart
  exact active (alone.others worker apart)

theorem step_valid (valid : Valid file s) {event : Event} (healthy : Healthy s event)
    (taken : step s event = some next) : Valid file next := by
  cases step_taken taken with
  | call constructed => exact call_valid valid _ constructed
  | resume issued waits unsettled ready =>
    have zero := (valid.matched.waiting _ issued _ waits).1
    exact resume_valid valid issued waits unsettled (zero ▸ ready)
  | @started worker outcome known starting =>
    have cached : s.ready ≠ none := by
      intro uncached
      have none := (valid.alone.unborn uncached).1
      omega
    obtain rfl : worker = 0 := by
      have one := valid.alone.spawned cached
      omega
    exact start_valid valid cached starting outcome
  | @handle worker _ _ attempt _ inbox =>
    obtain rfl : worker = 0 := by
      apply valid.alone.zero
      intro new
      rw [new] at inbox
      cases inbox
    exact handle_valid valid inbox attempt
  | @deliver worker _ _ outbox =>
    have active : s.workers worker ≠ .new := by
      intro new
      rw [new] at outbox
      cases outbox
    obtain rfl := valid.alone.zero active
    exact deliver_valid valid (valid.alone.cached active) outbox
  | closeIdle => exact valid
  | close => exact call_valid valid .close (.ok ())
  | error | exit | terminateNone | terminate | closed => exact False.elim healthy

theorem run_valid {events : List Event} (run : Run step Healthy (initial file) events s) :
    Valid file s :=
  run.invariant _ (fun _ _ _ valid healthy taken => step_valid valid healthy taken)
    (initial_valid file)

end Runs

/-- What calls, requests and responses have to do with each other; `worker` is the only one. -/
structure Corresponding (file : File) (s : State) (worker : Worker) : Prop where
  once : ∀ number, number < s.issued → (s.calls number).settled.length ≤ 1
  unanswered : ∀ number, number < s.issued → ∀ target id,
    (s.calls number).phase = .posted target id →
      ((s.calls number).settled = [] ↔ id ∉ worker.answered.map WorkerResponse.id)
  own : ∀ number, number < s.issued → ∀ target id,
    (s.calls number).phase = .posted target id → id ∈ worker.answered.map WorkerResponse.id →
      ∃ operation ∈ worker.handled, operation.request = ⟨id, (s.calls number).op⟩ ∧
        (s.calls number).settled = [operation.answer]
  unique : (worker.posted.map Request.id).Nodup ∧ s.pending.keys.Nodup
  nonzero : 0 ∉ s.pending.keys
  complete : ∀ id, id ∈ s.pending.keys ↔
    id ∈ worker.posted.map Request.id ∧ id ∉ worker.answered.map WorkerResponse.id
  ordered : worker.posted = worker.handled.map Handled.request ++ worker.inbox
  effects : after worker.handled (true, file) = (worker.connected, s.file)
  outcomes : ∀ before operation rest, worker.handled = before ++ operation :: rest →
    operation.answer = (execute (after before (true, file)).1 operation.attempt
      operation.request.op (after before (true, file)).2).1
  harmless : ∀ before operation rest error, worker.handled = before ++ operation :: rest →
    operation.answer = .error error →
      (after (before ++ [operation]) (true, file)).2 = (after before (true, file)).2

section Correspondence

variable {file : File} {s : State}

theorem pending_keys (matched : Matched s) (id : Nat) : id ∈ s.pending.keys ↔
    id ∈ (s.workers 0).posted.map Request.id ∧
      id ∉ (s.workers 0).answered.map WorkerResponse.id := by
  rw [← matched.awaited id, Ne, InsertionMap.get?_eq_none_iff, not_not]

theorem answered_handled (valid : Valid file s) {request : Request}
    (posted : request ∈ (s.workers 0).posted) {response : WorkerResponse}
    (delivered : response ∈ (s.workers 0).answered) (same : response.id = request.id) :
    ∃ operation ∈ (s.workers 0).handled, operation.request = request ∧
      operation.answer = response.answer := by
  obtain ⟨alone, matched, executed⟩ := valid
  rcases alone.states with ⟨-, unopened⟩ | ⟨-, opened⟩ | ⟨_, -, failed⟩
  · rw [unopened.posted] at posted
    cases posted
  · obtain ⟨-, greeting, before, zero, answered, sent⟩ := opened
    have positive := (matched.positive (List.mem_map_of_mem posted)).1
    rw [answered] at delivered
    rcases List.mem_cons.mp delivered with rfl | later
    · omega
    · have handled : response ∈ (s.workers 0).handled.map Handled.response := by
        rw [← sent]
        exact List.mem_append_left _ later
      obtain ⟨operation, inside, rfl⟩ := List.mem_map.mp handled
      have queued : operation.request ∈ (s.workers 0).posted := by
        rw [executed.queue]
        exact List.mem_append_left _ (List.mem_map_of_mem inside)
      exact ⟨operation, inside, List.inj_on_of_nodup_map matched.unique queued posted same, rfl⟩
  · rw [failed.posted] at posted
    cases posted

theorem settled_cases (matched : Matched s) {number : Nat} (bound : number < s.issued) :
    (s.calls number).settled = [] ∨ ∃ outcome, (s.calls number).settled = [outcome] := by
  cases phase : (s.calls number).phase with
  | waiting worker =>
    rcases (matched.waiting number bound worker phase).2 with open_ | ⟨error, -, settled⟩
    · exact .inl open_
    · exact .inr ⟨_, settled⟩
  | posted target id =>
    rcases (matched.asked number bound target id phase).2 with ⟨open_, -⟩ | ⟨_, -, -, settled⟩
    · exact .inl open_
    · exact .inr ⟨_, settled⟩

theorem posted_answered (matched : Matched s) {number : Nat} (bound : number < s.issued)
    {target : Option Nat} {id : Nat} (phase : (s.calls number).phase = .posted target id) :
    ((s.calls number).settled = [] ∧ id ∉ (s.workers 0).answered.map WorkerResponse.id) ∨
      ∃ response ∈ (s.workers 0).answered, response.id = id ∧
        (s.calls number).settled = [response.answer] := by
  refine (matched.asked number bound target id phase).2.imp_left ?_
  rintro ⟨open_, found⟩
  refine ⟨open_, ((matched.awaited id).mp ?_).2⟩
  rw [found]
  exact Option.some_ne_none number

end Correspondence

/-- In every run without a crash each request gets the response to its own operation, and the
operations take effect in the order they were posted in. -/
theorem responses_correspond (file : File) (events : List Event) (s : State)
    (run : Run step Healthy (initial file) events s) : Corresponding file s (s.workers 0) := by
  have valid := run_valid run
  have matched := valid.matched
  have executed := valid.executed
  refine ⟨?_, ?_, ?_, ⟨matched.unique, s.pending.unique⟩, ?_, pending_keys matched,
    executed.queue, executed.effects, executed.outcomes, ?_⟩
  · intro number bound
    rcases settled_cases matched bound with open_ | ⟨outcome, settled⟩
    · simp [open_]
    · simp [settled]
  · intro number bound target id phase
    rcases posted_answered matched bound phase with ⟨open_, waiting⟩ | ⟨response, inside, own, settled⟩
    · exact iff_of_true open_ waiting
    · apply iff_of_false
      · simp [settled]
      · exact not_not.mpr (own ▸ List.mem_map_of_mem inside)
  · intro number bound target id phase delivered
    rcases posted_answered matched bound phase with ⟨-, waiting⟩ | ⟨response, inside, own, settled⟩
    · exact absurd delivered waiting
    · obtain ⟨operation, handled, request, answer⟩ :=
        answered_handled valid (matched.asked number bound target id phase).1 inside own
      exact ⟨operation, handled, request, by rw [answer, settled]⟩
  · intro inside
    exact absurd (matched.positive ((pending_keys matched 0).mp inside).1).1 (Nat.lt_irrefl 0)
  · intro before operation rest error split failed
    have thrown := executed.outcomes before operation rest split
    rw [failed] at thrown
    rw [after_append]
    exact execute_throws thrown.symm

section Examples

instance (s : State) (event : Event) : Decidable (Healthy s event) :=
  match event with
  | .error _ _ | .exit _ | .terminate _ | .closed _ => isFalse id
  | .call _ _ | .resume _ | .started _ _ | .handle _ _ | .deliver _ | .close => isTrue trivial

-- The first operation comes before the table is there; its response is delivered last.
def overlapping : List Event :=
  [.call (.get "bot" "creds") (.ok ()), .call .init (.ok ()), .started 0 (.ok ()), .deliver 0,
    .resume 0, .resume 1, .handle 0 ⟨0, none, .stored _⟩,
    .call (.setMany "bot" [⟨"creds", "1"⟩]) (.ok ()), .resume 2, .handle 0 ⟨1, none, .stored _⟩,
    .deliver 0, .handle 0 ⟨2, some (1, "disk is full"), .stored _⟩, .deliver 0]

theorem responses_correspond_overlapping :
    ∃ s, replay step Healthy (initial ⟨none⟩) overlapping = some s ∧
      Corresponding ⟨none⟩ s (s.workers 0) ∧
      (s.calls 0).settled = [.error "no such table: baileys_sessions"] ∧
      (s.calls 1).settled = [.ok .null] ∧ (s.calls 2).settled = [] :=
  ⟨_, rfl, responses_correspond ⟨none⟩ overlapping _ (replay_run _ _ _ _ _ rfl), rfl, rfl, rfl⟩

end Examples

end BaileysSession.SqliteAdapter
