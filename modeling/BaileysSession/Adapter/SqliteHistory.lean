import BaileysSession.Adapter.SqliteFailures

set_option autoImplicit false

namespace BaileysSession.SqliteAdapter

open SqliteWorker Transition

def Answered (s : State) (number : Nat) (result : Result) : Prop :=
  ∃ worker id, (s.calls number).phase = .posted (some worker) id ∧
    ∃ operation ∈ (s.workers worker).handled,
      operation.request.id = id ∧ operation.answer = .ok result

/-- Where requests and responses come from, and what has happened since `start`. -/
structure Traced (start s : State) : Prop where
  current : ∀ worker, s.worker = some worker → worker < s.spawned
  unborn : ∀ worker, s.spawned ≤ worker → s.workers worker = .new
  unissued : ∀ number, s.issued ≤ number → ∃ worker, (s.calls number).phase = .waiting worker
  used : ∀ number target id, (s.calls number).phase = .posted target id → id < s.nextRequestId
  pending : ∀ id number, s.pending.get? id = some number →
    ∃ target, (s.calls number).phase = .posted target id
  posted : ∀ worker, ∀ request ∈ (s.workers worker).posted, request.id < s.nextRequestId ∧
    ∀ number target, (s.calls number).phase = .posted target request.id → target = some worker
  queued : ∀ worker, ∀ request ∈ (s.workers worker).inbox, request ∈ (s.workers worker).posted
  handled : ∀ worker, ∀ operation ∈ (s.workers worker).handled,
    operation.request ∈ (s.workers worker).posted
  sent : ∀ worker, ∀ response ∈ (s.workers worker).outbox, response.id = 0 ∨
    ∃ operation ∈ (s.workers worker).handled, operation.response = response
  answered : ∀ number result, .ok result ∈ (s.calls number).settled → Answered s number result
  issued : start.issued ≤ s.issued
  ids : start.nextRequestId ≤ s.nextRequestId
  stopped : ∀ worker, (start.workers worker).life = .stopped →
    (s.workers worker).life = .stopped ∧ (s.workers worker).posted = (start.workers worker).posted
  recent : ∀ number, start.issued ≤ number → ∀ target id,
    (s.calls number).phase = .posted target id → start.nextRequestId ≤ id

theorem initial_traced (file : File) : Traced (initial file) (initial file) := by
  refine ⟨?_, fun _ _ => rfl, fun _ _ => ⟨0, rfl⟩, ?_, ?_, ?_, ?_, ?_, ?_, ?_, Nat.le_refl _,
    Nat.le_refl _, fun _ stopped => ⟨stopped, rfl⟩, ?_⟩
  · intro _ current
    cases current
  · intro _ _ _ phase
    cases phase
  · intro _ _ found
    cases found
  · intro _ _ inside
    cases inside
  · intro _ _ inside
    cases inside
  · intro _ _ inside
    cases inside
  · intro _ _ inside
    cases inside
  · intro _ _ inside
    cases inside
  · intro _ _ _ _ phase
    cases phase

theorem Traced.restart {start s : State} (traced : Traced start s) : Traced s s where
  current := traced.current
  unborn := traced.unborn
  unissued := traced.unissued
  used := traced.used
  pending := traced.pending
  posted := traced.posted
  queued := traced.queued
  handled := traced.handled
  sent := traced.sent
  answered := traced.answered
  issued := Nat.le_refl _
  ids := Nat.le_refl _
  stopped := fun _ stopped => ⟨stopped, rfl⟩
  recent := by
    intro number later target id phase
    obtain ⟨worker, waits⟩ := traced.unissued number later
    cases waits.symm.trans phase

section Changes

variable {start s next : State}

theorem settle_traced (traced : Traced start s) (number : Nat) (outcome : Except String Result)
    (answered : ∀ result, outcome = .ok result → Answered s number result) :
    Traced start (s.settle number outcome) := by
  have phases : ∀ other, ((s.settle number outcome).calls other).phase = (s.calls other).phase :=
    fun other => settle_phase s number other outcome
  refine { traced with
    unissued := ?_, used := ?_, pending := ?_, posted := ?_, answered := ?_, recent := ?_ }
  · intro other
    rw [phases]
    exact traced.unissued other
  · intro other
    rw [phases]
    exact traced.used other
  · intro id other
    rw [phases]
    exact traced.pending id other
  · intro worker request inside
    refine ⟨(traced.posted worker request inside).1, fun other => ?_⟩
    rw [phases]
    exact (traced.posted worker request inside).2 other
  · intro other result inside
    unfold Answered
    rw [phases]
    by_cases same : other = number
    · subst same
      rw [settle_self, List.mem_append, List.mem_singleton] at inside
      rcases inside with before | now
      · exact traced.answered other result before
      · exact answered result now.symm
    · rw [settle_other s outcome same] at inside
      exact traced.answered other result inside
  · intro other later
    rw [phases]
    exact traced.recent other later

theorem rejectAll_traced (traced : Traced start s) (error : String) (waiters : List (Nat × Nat)) :
    Traced start (rejectAll error waiters s) := by
  induction waiters generalizing s with
  | nil => exact traced
  | cons waiter rest ih =>
    apply ih
    apply settle_traced traced
    intro _ rejected
    cases rejected

theorem pending_traced (traced : Traced start s) {pending : InsertionMap Nat Nat}
    (fewer : ∀ id number, pending.get? id = some number → s.pending.get? id = some number) :
    Traced start { s with pending := pending } :=
  { traced with pending := fun id number found => traced.pending id number (fewer id number found) }

structure Grown (before after : Worker) : Prop where
  posted : after.posted = before.posted
  inbox : ∀ request ∈ after.inbox, request ∈ before.inbox
  stopped : before.life = .stopped → after.life = .stopped
  handled : ∀ operation ∈ before.handled, operation ∈ after.handled
  requests : ∀ operation ∈ after.handled,
    operation ∈ before.handled ∨ operation.request ∈ before.inbox
  sent : ∀ response ∈ after.outbox, response ∈ before.outbox ∨ response.id = 0 ∨
    ∃ operation ∈ after.handled, operation.response = response

theorem Grown.refl (worker : Worker) : Grown worker worker :=
  ⟨rfl, fun _ => id, id, fun _ => id, fun _ => .inl, fun _ => .inl⟩

theorem grown_traced (traced : Traced start s) (calls : next.calls = s.calls)
    (pending : next.pending = s.pending) (ids : next.nextRequestId = s.nextRequestId)
    (issued : next.issued = s.issued)
    (current : ∀ worker, next.worker = some worker → worker < next.spawned)
    (unborn : ∀ worker, next.spawned ≤ worker → next.workers worker = .new)
    (grown : ∀ worker, Grown (s.workers worker) (next.workers worker)) : Traced start next := by
  refine ⟨current, unborn, ?_, ?_, ?_, ?_, ?_, ?_, ?_, ?_, ?_, ?_, ?_, ?_⟩
  · rw [calls, issued]
    exact traced.unissued
  · rw [calls, ids]
    exact traced.used
  · rw [calls, pending]
    exact traced.pending
  · intro worker request inside
    rw [(grown worker).posted] at inside
    rw [calls, ids]
    exact traced.posted worker request inside
  · intro worker request inside
    rw [(grown worker).posted]
    exact traced.queued worker request ((grown worker).inbox request inside)
  · intro worker operation inside
    rw [(grown worker).posted]
    rcases (grown worker).requests operation inside with before | queued
    · exact traced.handled worker operation before
    · exact traced.queued worker operation.request queued
  · intro worker response inside
    rcases (grown worker).sent response inside with before | now
    · refine (traced.sent worker response before).imp_right ?_
      rintro ⟨operation, handled, same⟩
      exact ⟨operation, (grown worker).handled operation handled, same⟩
    · exact now
  · intro number result inside
    rw [calls] at inside
    obtain ⟨worker, id, phase, operation, handled, answer⟩ := traced.answered number result inside
    rw [← calls] at phase
    exact ⟨worker, id, phase, operation, (grown worker).handled operation handled, answer⟩
  · rw [issued]
    exact traced.issued
  · rw [ids]
    exact traced.ids
  · intro worker stopped
    obtain ⟨still, posted⟩ := traced.stopped worker stopped
    exact ⟨(grown worker).stopped still, (grown worker).posted.trans posted⟩
  · rw [calls]
    exact traced.recent

theorem updateWorker_traced (traced : Traced start s) {worker : Nat} (known : worker < s.spawned)
    {change : Worker → Worker} (grown : Grown (s.workers worker) (change (s.workers worker))) :
    Traced start (s.updateWorker worker change) := by
  refine @grown_traced start s (s.updateWorker worker change) traced rfl rfl rfl rfl
    traced.current ?_ ?_
  · intro other unborn
    have apart : other ≠ worker := Nat.ne_of_gt (Nat.lt_of_lt_of_le known unborn)
    rw [updateWorker_other s change apart]
    exact traced.unborn other unborn
  · intro other
    by_cases same : other = worker
    · rw [same, updateWorker_self]
      exact grown
    · rw [updateWorker_other s change same]
      exact .refl _

theorem spawn_traced (traced : Traced start s) {fresh : Worker} {current : Option Nat}
    (known : ∀ worker, current = some worker → worker < s.spawned + 1)
    (posted : fresh.posted = []) (inbox : fresh.inbox = []) (handled : fresh.handled = [])
    (outbox : fresh.outbox = []) : Traced start (spawn fresh current s) := by
  refine @grown_traced start s (spawn fresh current s) traced rfl rfl rfl rfl known ?_ ?_
  · intro worker unborn
    have later : s.spawned < worker := unborn
    rw [spawn_other fresh current (Nat.ne_of_gt later)]
    exact traced.unborn worker (Nat.le_of_lt later)
  · intro worker
    by_cases same : worker = s.spawned
    · rw [same, spawn_self, traced.unborn _ (Nat.le_refl _)]
      refine ⟨posted, ?_, ?_, ?_, ?_, ?_⟩
      · simp [inbox]
      · intro stopped
        cases stopped
      · intro _ inside
        cases inside
      · simp [handled]
      · simp [outbox]
    · rw [spawn_other fresh current same]
      exact .refl _

theorem ensureWorker_traced (traced : Traced start s) (constructed : Except String Unit) :
    Traced start (ensureWorker constructed s).1 := by
  cases cached : s.ready with
  | some worker =>
    simp only [ensureWorker, cached]
    exact traced
  | none =>
    cases constructed with
    | ok =>
      simp only [ensureWorker, cached]
      refine @spawn_traced start s traced .new (some s.spawned) ?_ rfl rfl rfl rfl
      rintro _ ⟨⟩
      exact Nat.lt_succ_self _
    | error error =>
      simp only [ensureWorker, cached]
      exact spawn_traced traced
        (fun worker current => Nat.lt_succ_of_lt (traced.current worker current)) rfl rfl rfl rfl

theorem issue_traced (traced : Traced start s) (op : Op) (worker : Nat) : Traced start { s with
    issued := s.issued + 1
    calls := Function.update s.calls s.issued ⟨op, .waiting worker, []⟩ } := by
  obtain ⟨origin, before⟩ := traced.unissued s.issued (Nat.le_refl _)
  have phases : ∀ {number target id},
      (Function.update s.calls s.issued ⟨op, .waiting worker, []⟩ number).phase =
        .posted target id → (s.calls number).phase = .posted target id := by
    intro number target id phase
    by_cases same : number = s.issued
    · subst same
      rw [Function.update_self] at phase
      cases phase
    · rwa [Function.update_of_ne same] at phase
  have kept : ∀ {number target id}, (s.calls number).phase = .posted target id →
      Function.update s.calls s.issued ⟨op, .waiting worker, []⟩ number = s.calls number := by
    intro number target id phase
    apply Function.update_of_ne
    rintro rfl
    cases before.symm.trans phase
  refine { traced with
    unissued := ?_, used := ?_, pending := ?_, posted := ?_, answered := ?_, issued := ?_, recent := ?_ }
  · intro number later
    have later : s.issued < number := later
    simp only [Function.update_of_ne (Nat.ne_of_gt later)]
    exact traced.unissued number (Nat.le_of_lt later)
  · exact fun number target id phase => traced.used number target id (phases phase)
  · intro id number found
    obtain ⟨target, phase⟩ := traced.pending id number found
    refine ⟨target, ?_⟩
    simp only [kept phase, phase]
  · intro other request inside
    obtain ⟨used, only⟩ := traced.posted other request inside
    exact ⟨used, fun number target phase => only number target (phases phase)⟩
  · intro number result inside
    by_cases same : number = s.issued
    · subst same
      simp only [Function.update_self, List.not_mem_nil] at inside
    · simp only [Function.update_of_ne same] at inside
      obtain ⟨other, id, phase, answer⟩ := traced.answered number result inside
      refine ⟨other, id, ?_, answer⟩
      simp only [kept phase, phase]
  · exact Nat.le_succ_of_le traced.issued
  · exact fun number later target id phase => traced.recent number later target id (phases phase)

theorem call_traced (traced : Traced start s) (op : Op) (constructed : Except String Unit) :
    Traced start (call op constructed s) := by
  have issuing := issue_traced (ensureWorker_traced traced constructed) op
    (ensureWorker constructed s).2
  rw [ensureWorker_issued] at issuing
  exact issuing

theorem registering_traced (traced : Traced start s) {number : Nat} {origin : Nat}
    (issued : number < s.issued) (waits : (s.calls number).phase = .waiting origin) :
    Traced start (registering number s) := by
  have kept : ∀ {other target id}, (s.calls other).phase = .posted target id →
      (registering number s).calls other = s.calls other := by
    intro other target id phase
    apply registering_other
    rintro rfl
    cases waits.symm.trans phase
  -- Only the call itself has a new phase, and its number is the new one.
  have phases : ∀ {other target id}, ((registering number s).calls other).phase =
      .posted target id → other = number ∧ id = s.nextRequestId ∨
        (s.calls other).phase = .posted target id := by
    intro other target id phase
    by_cases same : other = number
    · subst same
      rw [registering_self] at phase
      cases phase
      exact .inl ⟨rfl, rfl⟩
    · rw [registering_other s same] at phase
      exact .inr phase
  refine { traced with
    unissued := ?_, used := ?_, pending := ?_, posted := ?_, answered := ?_, ids := ?_, recent := ?_ }
  · intro other later
    rw [registering_other s (Nat.ne_of_gt (Nat.lt_of_lt_of_le issued later))]
    exact traced.unissued other later
  · intro other target id phase
    rcases phases phase with ⟨-, rfl⟩ | before
    · exact Nat.lt_succ_self _
    · exact Nat.lt_succ_of_lt (traced.used other target id before)
  · intro id other found
    have entry : (s.pending.set s.nextRequestId number).get? id = some other := found
    rw [InsertionMap.get?_set] at entry
    split at entry
    · rename_i same
      obtain rfl := Option.some.inj entry
      refine ⟨s.worker, ?_⟩
      rw [registering_self, same]
    · obtain ⟨target, phase⟩ := traced.pending id other entry
      exact ⟨target, (congrArg Call.phase (kept phase)).trans phase⟩
  · intro worker request inside
    obtain ⟨used, only⟩ := traced.posted worker request inside
    refine ⟨Nat.lt_succ_of_lt used, fun other target phase => ?_⟩
    rcases phases phase with ⟨-, same⟩ | before
    · exact absurd same (Nat.ne_of_lt used)
    · exact only other target before
  · intro other result inside
    have before : .ok result ∈ (s.calls other).settled := by
      by_cases same : other = number
      · subst same
        rwa [registering_self] at inside
      · rwa [registering_other s same] at inside
    obtain ⟨worker, id, phase, answer⟩ := traced.answered other result before
    exact ⟨worker, id, (congrArg Call.phase (kept phase)).trans phase, answer⟩
  · exact Nat.le_succ_of_le traced.ids
  · intro other later target id phase
    rcases phases phase with ⟨-, rfl⟩ | before
    · exact traced.ids
    · exact traced.recent other later target id before

theorem post_traced (traced : Traced start s) {worker : Nat} (known : worker < s.spawned)
    {request : Request} (used : request.id < s.nextRequestId)
    (only : ∀ number target, (s.calls number).phase = .posted target request.id →
      target = some worker) : Traced start (s.updateWorker worker (Worker.post request)) := by
  by_cases stopped : (s.workers worker).life = .stopped
  · apply updateWorker_traced traced known
    unfold Worker.post
    simp only [stopped]
    exact .refl _
  · have post := post_running stopped request
    have old : ∀ {other}, other ≠ worker →
        (s.updateWorker worker (Worker.post request)).workers other = s.workers other :=
      fun apart => updateWorker_other s _ apart
    have new : (s.updateWorker worker (Worker.post request)).workers worker = _ :=
      (updateWorker_self s worker _).trans post
    refine { traced with
      unborn := ?_, posted := ?_, queued := ?_, handled := ?_, sent := ?_, answered := ?_, stopped := ?_ }
    · intro other unborn
      rw [old (Nat.ne_of_gt (Nat.lt_of_lt_of_le known unborn))]
      exact traced.unborn other unborn
    · intro other asked inside
      by_cases same : other = worker
      · subst same
        rw [new, List.mem_append, List.mem_singleton] at inside
        rcases inside with before | rfl
        · exact traced.posted other asked before
        · exact ⟨used, only⟩
      · rw [old same] at inside
        exact traced.posted other asked inside
    · intro other asked inside
      by_cases same : other = worker
      · subst same
        rw [new] at inside ⊢
        rw [List.mem_append] at inside ⊢
        exact inside.imp_left (traced.queued other asked)
      · rw [old same] at inside ⊢
        exact traced.queued other asked inside
    · intro other operation inside
      by_cases same : other = worker
      · subst same
        rw [new] at inside ⊢
        exact List.mem_append_left _ (traced.handled other operation inside)
      · rw [old same] at inside ⊢
        exact traced.handled other operation inside
    · intro other response inside
      by_cases same : other = worker
      · subst same
        rw [new] at inside ⊢
        exact traced.sent other response inside
      · rw [old same] at inside ⊢
        exact traced.sent other response inside
    · intro number result inside
      obtain ⟨other, id, phase, operation, handled, answer⟩ :=
        traced.answered number result inside
      refine ⟨other, id, phase, operation, ?_, answer⟩
      by_cases same : other = worker
      · subst same
        rwa [new]
      · rwa [old same]
    · intro other ended
      have apart : other ≠ worker := by
        rintro rfl
        exact stopped (traced.stopped other ended).1
      rw [old apart]
      exact traced.stopped other ended

theorem resume_traced (traced : Traced start s) {number origin : Nat} (issued : number < s.issued)
    (waits : (s.calls number).phase = .waiting origin) (outcome : Except String Unit) :
    Traced start (resume number outcome s) := by
  cases outcome with
  | error error =>
    apply settle_traced traced
    intro _ rejected
    cases rejected
  | ok =>
    have registered := registering_traced traced issued waits
    cases target : s.worker with
    | none =>
      rw [resume_unposted target]
      apply settle_traced registered
      intro _ rejected
      cases rejected
    | some worker =>
      rw [resume_posted target]
      apply post_traced registered (traced.current worker target) (Nat.lt_succ_self _)
      intro other destination phase
      by_cases here : other = number
      · subst here
        rw [registering_self] at phase
        cases phase
        exact target
      · rw [registering_other s here] at phase
        exact absurd (traced.used other destination _ phase) (Nat.lt_irrefl _)

theorem greet_grown (current : Worker) {response : WorkerResponse} {rest : List WorkerResponse}
    (outbox : current.outbox = response :: rest) :
    Grown current { current.greet response with
      outbox := rest, answered := current.answered ++ [response] } := by
  have sent : ∀ message ∈ rest, message ∈ current.outbox := by
    rw [outbox]
    exact fun message inside => List.mem_cons_of_mem response inside
  unfold Worker.greet
  split
  · exact ⟨rfl, fun _ => id, id, fun _ => id, fun _ => .inl, fun message inside =>
      .inl (sent message inside)⟩
  · exact ⟨rfl, fun _ => id, id, fun _ => id, fun _ => .inl, fun message inside =>
      .inl (sent message inside)⟩

theorem deliver_traced (traced : Traced start s) {worker : Nat} (known : worker < s.spawned)
    {response : WorkerResponse} {rest : List WorkerResponse}
    (outbox : (s.workers worker).outbox = response :: rest) :
    Traced start (deliver worker response rest s) := by
  have delivered : Traced start (s.updateWorker worker fun current => { current.greet response with
      outbox := rest, answered := current.answered ++ [response] }) :=
    updateWorker_traced traced known (greet_grown (s.workers worker) outbox)
  unfold deliver answer
  split
  · exact delivered
  · rename_i positive
    split
    · exact delivered
    · rename_i number found
      apply settle_traced (pending_traced delivered ?_)
      · intro result answer
        obtain zero | ⟨operation, handled, same⟩ := traced.sent worker response
          (by rw [outbox]; exact List.mem_cons_self)
        · exact absurd zero positive
        · obtain ⟨target, phase⟩ := traced.pending response.id number found
          have id : operation.request.id = response.id := congrArg WorkerResponse.id same
          have only := (traced.posted worker operation.request
            (traced.handled worker operation handled)).2 number target (id ▸ phase)
          subst only
          refine ⟨worker, response.id, phase, operation, ?_, id, ?_⟩
          · rw [updateWorker_self]
            exact (greet_grown (s.workers worker) outbox).handled operation handled
          · exact (congrArg WorkerResponse.answer same).trans answer
      · intro id other present
        simp only [InsertionMap.get?_erase] at present
        split at present
        · cases present
        · exact present

theorem Grown.stop (worker : Worker) : Grown worker worker.stop :=
  ⟨rfl, fun _ => id, fun _ => rfl, fun _ => id, fun _ => .inl, fun _ => .inl⟩

theorem Grown.started {worker : Worker} (starting : worker.life = .starting)
    (outcome : Except String Unit) : Grown worker (worker.start outcome) := by
  cases outcome with
  | ok =>
    refine ⟨rfl, fun _ => id, ?_, fun _ => id, fun _ => .inl, ?_⟩
    · intro stopped
      cases starting.symm.trans stopped
    · intro response inside
      refine (List.mem_append.mp inside).imp_right fun greeting => .inl ?_
      rw [List.mem_singleton.mp greeting]
  | error error =>
    refine ⟨rfl, fun _ => id, fun _ => rfl, fun _ => id, fun _ => .inl, ?_⟩
    intro response inside
    refine (List.mem_append.mp inside).imp_right fun greeting => .inl ?_
    rw [List.mem_singleton.mp greeting]

theorem handle_traced (traced : Traced start s) {worker : Nat} (known : worker < s.spawned)
    {request : Request} {rest : List Request} (inbox : (s.workers worker).inbox = request :: rest)
    (attempt : Attempt) : Traced start (handle worker request rest attempt s) := by
  have grown : ∀ answer : Except String Result, Traced start
      (s.updateWorker worker fun current => { current with
        connected := current.connected && decide (request.op ≠ .close)
        inbox := rest
        outbox := current.outbox ++ [⟨request.id, answer⟩]
        handled := current.handled ++ [⟨request, attempt, answer⟩] }) := by
    intro answer
    apply updateWorker_traced traced known
    refine ⟨rfl, ?_, id, fun _ => List.mem_append_left _, ?_, ?_⟩
    · intro other inside
      rw [inbox]
      exact List.mem_cons_of_mem request inside
    · intro operation inside
      refine (List.mem_append.mp inside).imp_right fun now => ?_
      rw [List.mem_singleton.mp now, inbox]
      exact List.mem_cons_self
    · intro response inside
      refine (List.mem_append.mp inside).imp_right fun now => .inr ?_
      exact ⟨_, List.mem_append_right _ List.mem_cons_self, (List.mem_singleton.mp now).symm⟩
  exact { grown (execute (s.workers worker).connected attempt request.op s.file).1 with }

theorem step_traced (traced : Traced start s) {event : Event} (taken : step s event = some next) :
    Traced start next := by
  cases step_taken taken with
  | call constructed => exact call_traced traced _ constructed
  | resume issued waits => exact resume_traced traced issued waits _
  | started outcome known starting =>
    exact updateWorker_traced traced known (.started starting outcome)
  | handle attempt _ inbox => exact handle_traced traced (inbox_known traced.unborn inbox) inbox attempt
  | deliver outbox => exact deliver_traced traced (outbox_known traced.unborn outbox) outbox
  | error error known =>
    have stopped := updateWorker_traced traced known (.stop _)
    refine pending_traced (rejectAll_traced stopped error _) ?_
    intro _ _ found
    cases found
  | exit known => exact updateWorker_traced traced known (.stop _)
  | closeIdle => exact traced
  | close => exact call_traced traced .close (.ok ())
  | terminateNone => exact { traced with }
  | terminate current =>
    exact { updateWorker_traced traced (traced.current _ current) (.stop _) with }
  | closed =>
    refine { traced with current := ?_ }
    intro _ current
    cases current

end Changes

section Runs

variable {s later : State} {allowed : State → Event → Prop}

theorem run_traced {file : File} {events : List Event}
    (run : Run step allowed (initial file) events s) : Traced (initial file) s :=
  run.invariant _ (fun _ _ _ traced _ taken => step_traced traced taken) (initial_traced file)

theorem later_traced {file : File} {events more : List Event}
    (run : Run step allowed (initial file) events s) (after : Run step allowed s more later) :
    Traced s later :=
  after.invariant _ (fun _ _ _ traced _ taken => step_traced traced taken) (run_traced run).restart

theorem answered_by_running {file : File} {events more : List Event}
    (run : Run step allowed (initial file) events s) (after : Run step allowed s more later)
    {number : Nat} (recent : s.issued ≤ number) {result : Result}
    (settled : .ok result ∈ (later.calls number).settled) :
    ∃ worker id, (later.calls number).phase = .posted (some worker) id ∧
      (s.workers worker).life ≠ .stopped ∧ ∃ operation ∈ (later.workers worker).handled,
        operation.request.id = id ∧ operation.answer = .ok result := by
  have before := run_traced run
  have traced := later_traced run after
  obtain ⟨worker, id, phase, operation, handled, rfl, answer⟩ := traced.answered number result settled
  refine ⟨worker, operation.request.id, phase, ?_, operation, handled, rfl, answer⟩
  intro stopped
  have posted := traced.handled worker operation handled
  rw [(traced.stopped worker stopped).2] at posted
  have used := (before.posted worker operation.request posted).1
  have fresh := traced.recent number recent _ _ phase
  exact absurd used (Nat.not_lt_of_le fresh)

end Runs

end BaileysSession.SqliteAdapter
