import BaileysSession.Adapter.SqliteResponses

set_option autoImplicit false

namespace BaileysSession.SqliteAdapter

open SqliteWorker Transition

/-- How the `ready` promise has settled, or settles with the message that comes next. -/
def Worker.greeted (worker : Worker) : Option (Except String Unit) :=
  match worker.ready, worker.outbox with
  | some outcome, _ => some outcome
  | none, [] => none
  | none, response :: _ => some response.greeting

def Worker.Rejecting (worker : Worker) : Prop := ∃ error, worker.greeted = some (.error error)

def Worker.Greets (worker : Worker) : Prop := worker.greeted ≠ none ∨ worker.life = .starting

section Definitions

variable (s : State)

/-- A request that is posted now is not lost: there is no worker, and the call throws, or one that
has not stopped. -/
def CanPost : Prop := ∀ worker, s.worker = some worker → (s.workers worker).life ≠ .stopped

def Joinable (worker : Nat) : Prop :=
  (s.workers worker).Rejecting ∨ (s.workers worker).Greets ∧ CanPost s

def Underway (worker id : Nat) : Prop :=
  (s.workers worker).life ≠ .stopped ∧ id ∈ (s.workers worker).inbox.map Request.id ∨
    id ∈ (s.workers worker).outbox.map WorkerResponse.id

def Served (number : Nat) : Prop :=
  match (s.calls number).phase with
  | .waiting worker => Joinable s worker
  | .posted target id => s.pending.get? id = some number ∧
      ∃ worker, target = some worker ∧ Underway s worker id

def Awaited (id : Nat) : Prop :=
  ∃ number, s.pending.get? id = some number ∧ (s.calls number).settled = []

def Spares (worker other : Nat) : Prop :=
  (s.workers other).Rejecting ∨
    s.worker ≠ some worker ∧ (other = worker → (s.workers worker).life ≠ .starting)

def Dispensable (worker : Nat) : Prop :=
  ∀ number, number < s.issued → (s.calls number).settled = [] → ∀ other,
    (s.calls number).phase = .waiting other → Spares s worker other

def Unasked (worker : Nat) : Prop :=
  ∀ request ∈ (s.workers worker).inbox, ¬ Awaited s request.id

end Definitions

/-- Workers fail, exit and are terminated only when nobody depends on them any more, and no call is
made that waits for a worker that has stopped. -/
def Safe (s : State) : Event → Prop
  | .error worker _ => Dispensable s worker
  | .exit worker => Dispensable s worker ∧ Unasked s worker
  | .terminate _ => ∀ worker, s.worker = some worker → Dispensable s worker ∧ Unasked s worker
  | .started worker (.error _) => Unasked s worker ∧
      ∀ number, number < s.issued → (s.calls number).settled = [] → ∀ other,
        (s.calls number).phase = .waiting other →
          other = worker ∨ (s.workers other).Rejecting ∨ s.worker ≠ some worker
  | .call _ _ => ∀ worker, s.ready = some worker → Joinable s worker
  | .close => s.worker ≠ none → ∀ worker, s.ready = some worker → Joinable s worker
  | .started _ (.ok _) | .resume _ | .handle _ _ | .deliver _ | .closed _ => True

structure Sound (s : State) : Prop where
  current : ∀ worker, s.worker = some worker → worker < s.spawned
  cached : ∀ worker, s.ready = some worker → worker < s.spawned
  unborn : ∀ worker, s.spawned ≤ worker → s.workers worker = .new
  starting : ∀ worker, (s.workers worker).life = .starting →
    (s.workers worker).ready = none ∧ (s.workers worker).outbox = []
  waiting : ∀ number, number < s.issued → ∀ worker,
    (s.calls number).phase = .waiting worker → worker < s.spawned
  positive : 0 < s.nextRequestId
  pending : ∀ id number, s.pending.get? id = some number → 0 < id ∧ id < s.nextRequestId ∧
    number < s.issued ∧ ∃ target, (s.calls number).phase = .posted target id
  served : ∀ number, number < s.issued → (s.calls number).settled = [] → Served s number

theorem initial_sound (file : File) : Sound (initial file) := by
  refine ⟨?_, ?_, fun _ _ => rfl, fun _ _ => ⟨rfl, rfl⟩, ?_, Nat.one_pos, ?_, ?_⟩
  · intro _ current
    cases current
  · intro _ cached
    cases cached
  · exact fun number bound => absurd bound (Nat.not_lt_zero number)
  · intro _ _ found
    cases found
  · exact fun number bound => absurd bound (Nat.not_lt_zero number)

theorem Served.kept {s next : State} {number : Nat} (served : Served s number)
    (same : (next.calls number).phase = (s.calls number).phase)
    (waits : ∀ worker, (s.calls number).phase = .waiting worker → Joinable s worker →
      Joinable next worker)
    (asks : ∀ worker id, (s.calls number).phase = .posted (some worker) id →
      s.pending.get? id = some number → Underway s worker id →
        next.pending.get? id = some number ∧ Underway next worker id) : Served next number := by
  unfold Served at served ⊢
  rw [same]
  cases phase : (s.calls number).phase with
  | waiting worker =>
    rw [phase] at served
    exact waits worker phase served
  | posted target id =>
    rw [phase] at served
    obtain ⟨found, worker, rfl, underway⟩ := served
    obtain ⟨still, later⟩ := asks worker id phase found underway
    exact ⟨still, worker, rfl, later⟩

section Settling

variable {s : State}

theorem settle_phase (s : State) (number other : Nat) (outcome : Except String Result) :
    ((s.settle number outcome).calls other).phase = (s.calls other).phase := by
  by_cases same : other = number
  · rw [same, settle_self]
  · rw [settle_other s outcome same]

theorem settle_open {number other : Nat} {outcome : Except String Result}
    (open_ : ((s.settle number outcome).calls other).settled = []) :
    other ≠ number ∧ (s.calls other).settled = [] := by
  by_cases same : other = number
  · rw [same, settle_self] at open_
    simp at open_
  · rw [settle_other s outcome same] at open_
    exact ⟨same, open_⟩

theorem settle_sound (sound : Sound s) (number : Nat) (outcome : Except String Result) :
    Sound (s.settle number outcome) := by
  refine ⟨sound.current, sound.cached, sound.unborn, sound.starting, ?_, sound.positive, ?_, ?_⟩
  · intro other bound worker phase
    rw [settle_phase] at phase
    exact sound.waiting other bound worker phase
  · intro id other found
    rw [settle_phase]
    exact sound.pending id other found
  · intro other bound open_
    obtain ⟨-, before⟩ := settle_open open_
    exact (sound.served other bound before).kept (settle_phase s number other outcome)
      (fun _ _ => id) fun _ _ _ found underway => ⟨found, underway⟩

theorem erase_sound (sound : Sound s) {id : Nat} (settled : ¬ Awaited s id) :
    Sound { s with pending := s.pending.erase id } := by
  refine ⟨sound.current, sound.cached, sound.unborn, sound.starting, sound.waiting, sound.positive, ?_, ?_⟩
  · intro other number found
    simp only [InsertionMap.get?_erase] at found
    split at found
    · cases found
    · exact sound.pending other number found
  · intro number bound open_
    refine (sound.served number bound open_).kept rfl (fun _ _ joinable => joinable) ?_
    intro worker other _ found underway
    have apart : other ≠ id := by
      rintro rfl
      exact settled ⟨number, found, open_⟩
    simp only [InsertionMap.get?_erase, if_neg apart]
    exact ⟨found, underway⟩

theorem clear_sound (sound : Sound s) (settled : ∀ id, ¬ Awaited s id) :
    Sound { s with pending := .empty } := by
  refine ⟨sound.current, sound.cached, sound.unborn, sound.starting, sound.waiting, sound.positive, ?_, ?_⟩
  · intro _ _ found
    cases found
  · intro number bound open_
    refine (sound.served number bound open_).kept rfl (fun _ _ joinable => joinable) ?_
    exact fun worker id _ found _ => absurd ⟨number, found, open_⟩ (settled id)

def rejectAll (error : String) (waiters : List (Nat × Nat)) (s : State) : State :=
  waiters.foldl (fun s waiter => s.settle waiter.2 (.error error)) s

theorem rejectAll_sound (error : String) (waiters : List (Nat × Nat)) (sound : Sound s) :
    Sound (rejectAll error waiters s) := by
  induction waiters generalizing s with
  | nil => exact sound
  | cons waiter rest ih => exact ih (settle_sound sound waiter.2 (.error error))

theorem rejectAll_open (error : String) (waiters : List (Nat × Nat)) {number : Nat}
    (open_ : ((rejectAll error waiters s).calls number).settled = []) :
    number ∉ waiters.map Prod.snd ∧ (s.calls number).settled = [] := by
  induction waiters generalizing s with
  | nil => exact ⟨List.not_mem_nil, open_⟩
  | cons waiter rest ih =>
    obtain ⟨absent, later⟩ := ih open_
    obtain ⟨apart, before⟩ := settle_open later
    rw [List.map_cons, List.mem_cons, not_or]
    exact ⟨⟨apart, absent⟩, before⟩

theorem rejectAll_same (error : String) (waiters : List (Nat × Nat)) (s : State) :
    rejectAll error waiters s = { s with calls := (rejectAll error waiters s).calls } := by
  induction waiters generalizing s with
  | nil => rfl
  | cons waiter rest ih => exact ih (s.settle waiter.2 (.error error))

theorem rejectPending_eq (error : String) (s : State) : rejectPending error s =
    { s with pending := .empty, calls := (rejectAll error s.pending.entries s).calls } :=
  congrArg (fun rejected : State => { rejected with pending := .empty })
    (rejectAll_same error s.pending.entries s)

theorem rejectPending_sound (error : String) (sound : Sound s) :
    Sound (rejectPending error s) := by
  have rejected := rejectAll_sound error s.pending.entries sound
  apply clear_sound rejected
  rintro id ⟨number, found, open_⟩
  have same : (rejectAll error s.pending.entries s).pending = s.pending := by
    rw [rejectAll_same]
  rw [same] at found
  have inside := (InsertionMap.get?_eq_some_iff _ _ _).mp found
  exact (rejectAll_open error _ open_).1 (List.mem_map_of_mem inside)

end Settling

section Workers

variable {s : State} {worker : Nat}

theorem updateWorker_sound (sound : Sound s) (known : worker < s.spawned)
    (change : Worker → Worker)
    (starting : (change (s.workers worker)).life = .starting →
      (change (s.workers worker)).ready = none ∧ (change (s.workers worker)).outbox = [])
    (served : ∀ number, number < s.issued → (s.calls number).settled = [] → Served s number →
      Served (s.updateWorker worker change) number) : Sound (s.updateWorker worker change) := by
  refine ⟨sound.current, sound.cached, ?_, ?_, sound.waiting, sound.positive, sound.pending, ?_⟩
  · intro other unborn
    have apart : other ≠ worker := Nat.ne_of_gt (Nat.lt_of_lt_of_le known unborn)
    rw [updateWorker_other s change apart]
    exact sound.unborn other unborn
  · intro other
    by_cases same : other = worker
    · rw [same, updateWorker_self]
      exact starting
    · rw [updateWorker_other s change same]
      exact sound.starting other
  · exact fun number bound open_ => served number bound open_ (sound.served number bound open_)

theorem served_update {change : Worker → Worker} {number : Nat}
    (waits : ∀ other, (s.calls number).phase = .waiting other → Joinable s other →
      Joinable (s.updateWorker worker change) other)
    (asks : ∀ target id, (s.calls number).phase = .posted target id →
      s.pending.get? id = some number → Underway s worker id →
        Underway (s.updateWorker worker change) worker id)
    (served : Served s number) : Served (s.updateWorker worker change) number := by
  refine served.kept rfl waits ?_
  intro other id phase found underway
  refine ⟨found, ?_⟩
  by_cases here : other = worker
  · subst here
    exact asks _ id phase found underway
  · unfold Underway at underway ⊢
    rwa [updateWorker_other s change here]

theorem canPost_update {change : Worker → Worker} (canPost : CanPost s)
    (alive : s.worker = some worker → (change (s.workers worker)).life ≠ .stopped) :
    CanPost (s.updateWorker worker change) := by
  intro other current
  by_cases same : other = worker
  · subst same
    rw [updateWorker_self]
    exact alive current
  · rw [updateWorker_other s change same]
    exact canPost other current

theorem stop_sound (sound : Sound s) (known : worker < s.spawned)
    (dispensable : Dispensable s worker) (unasked : Unasked s worker) :
    Sound (s.updateWorker worker Worker.stop) := by
  apply updateWorker_sound sound known
  · intro starting
    cases starting
  · intro number bound open_
    apply served_update
    · intro other waits joinable
      have greeted : ((s.updateWorker worker Worker.stop).workers other).greeted =
          (s.workers other).greeted := by
        by_cases same : other = worker
        · rw [same, updateWorker_self]
          rfl
        · rw [updateWorker_other s _ same]
      rcases dispensable number bound open_ other waits with rejecting | ⟨elsewhere, started⟩
      · left
        unfold Worker.Rejecting at rejecting ⊢
        rwa [greeted]
      · refine joinable.imp ?_ ?_
        · unfold Worker.Rejecting
          rw [greeted]
          exact id
        · rintro ⟨greets, canPost⟩
          refine ⟨?_, canPost_update canPost fun current => absurd current elsewhere⟩
          unfold Worker.Greets at greets ⊢
          rw [greeted]
          refine greets.imp_right fun starting => ?_
          by_cases same : other = worker
          · exact absurd (same ▸ starting) (started same)
          · rwa [updateWorker_other s _ same]
    · intro target id phase found underway
      unfold Underway at underway ⊢
      rw [updateWorker_self]
      refine .inr (underway.resolve_left ?_)
      rintro ⟨-, queued⟩
      obtain ⟨request, inside, rfl⟩ := List.mem_map.mp queued
      exact unasked request inside ⟨number, found, open_⟩

theorem start_greeted (unready : (s.workers worker).ready = none)
    (empty : (s.workers worker).outbox = []) (outcome : Except String Unit) :
    (Worker.start outcome (s.workers worker)).greeted = some outcome := by
  cases outcome <;>
    simp [Worker.greeted, Worker.start, unready, empty, WorkerResponse.greeting]

theorem listening_sound (sound : Sound s) (known : worker < s.spawned)
    (starting : (s.workers worker).life = .starting) :
    Sound (s.updateWorker worker (Worker.start (.ok ()))) := by
  obtain ⟨unready, empty⟩ := sound.starting worker starting
  have canPost : CanPost s → CanPost (s.updateWorker worker (Worker.start (.ok ()))) :=
    fun canPost => canPost_update canPost fun _ stopped => by cases stopped
  apply updateWorker_sound sound known
  · intro starts
    cases starts
  · intro number bound open_
    apply served_update
    · intro other waits joinable
      by_cases same : other = worker
      · subst same
        have unrejecting : ¬ (s.workers other).Rejecting := by
          rintro ⟨error, rejecting⟩
          simp [Worker.greeted, unready, empty] at rejecting
        refine .inr ⟨.inl ?_, canPost (joinable.resolve_left unrejecting).2⟩
        rw [updateWorker_self, start_greeted unready empty]
        exact Option.some_ne_none _
      · unfold Joinable at joinable ⊢
        rw [updateWorker_other s _ same]
        exact joinable.imp_right fun greets => ⟨greets.1, canPost greets.2⟩
    · intro target id phase found underway
      unfold Underway at underway ⊢
      rw [empty] at underway
      rw [updateWorker_self]
      exact .inl ⟨Life.noConfusion, (underway.resolve_right List.not_mem_nil).2⟩

theorem refused_sound (sound : Sound s) (known : worker < s.spawned)
    (starting : (s.workers worker).life = .starting) (error : String)
    (safe : Safe s (.started worker (.error error))) :
    Sound (s.updateWorker worker (Worker.start (.error error))) := by
  obtain ⟨unready, empty⟩ := sound.starting worker starting
  apply updateWorker_sound sound known
  · intro starts
    cases starts
  · intro number bound open_
    apply served_update
    · intro other waits joinable
      by_cases same : other = worker
      · subst same
        refine .inl ⟨error, ?_⟩
        rw [updateWorker_self, start_greeted unready empty]
      · unfold Joinable at joinable ⊢
        rw [updateWorker_other s _ same]
        rcases (safe.2 number bound open_ other waits).resolve_left same with
          rejecting | elsewhere
        · exact .inl rejecting
        · exact joinable.imp_right fun greets =>
            ⟨greets.1, canPost_update greets.2 fun current => absurd current elsewhere⟩
    · intro target id phase found underway
      unfold Underway at underway
      rw [empty] at underway
      have queued := (underway.resolve_right List.not_mem_nil).2
      obtain ⟨request, inside, rfl⟩ := List.mem_map.mp queued
      exact absurd ⟨number, found, open_⟩ (safe.1 request inside)

theorem started_sound (sound : Sound s) (known : worker < s.spawned)
    (starting : (s.workers worker).life = .starting) (outcome : Except String Unit)
    (safe : Safe s (.started worker outcome)) :
    Sound (s.updateWorker worker (Worker.start outcome)) := by
  cases outcome with
  | ok => exact listening_sound sound known starting
  | error error => exact refused_sound sound known starting error safe

theorem greeted_append {current : Worker} (more : List WorkerResponse) {outcome : Except String Unit}
    (greeted : current.greeted = some outcome) :
    ({ current with outbox := current.outbox ++ more } : Worker).greeted = some outcome := by
  unfold Worker.greeted at greeted ⊢
  cases ready : current.ready with
  | some => simpa [ready] using greeted
  | none =>
    cases outbox : current.outbox with
    | nil => simp [ready, outbox] at greeted
    | cons response rest => simpa [ready, outbox] using greeted

theorem Joinable.update {change : Worker → Worker} {other : Nat} (joinable : Joinable s other)
    (greeted : ∀ outcome, (s.workers worker).greeted = some outcome →
      (change (s.workers worker)).greeted = some outcome)
    (life : (change (s.workers worker)).life = (s.workers worker).life) :
    Joinable (s.updateWorker worker change) other := by
  have canPost : CanPost s → CanPost (s.updateWorker worker change) := by
    intro canPost
    apply canPost_update canPost
    intro current
    rw [life]
    exact canPost worker current
  by_cases same : other = worker
  · subst same
    unfold Joinable at joinable ⊢
    rw [updateWorker_self]
    refine joinable.imp ?_ ?_
    · rintro ⟨error, rejecting⟩
      exact ⟨error, greeted _ rejecting⟩
    · rintro ⟨greets, posts⟩
      refine ⟨greets.imp ?_ ?_, canPost posts⟩
      · intro some
        obtain ⟨outcome, settled⟩ := Option.ne_none_iff_exists'.mp some
        rw [greeted outcome settled]
        exact Option.some_ne_none outcome
      · intro starting
        rwa [life]
  · unfold Joinable at joinable ⊢
    rw [updateWorker_other s change same]
    exact joinable.imp_right fun greets => ⟨greets.1, canPost greets.2⟩

theorem handle_sound (sound : Sound s) (known : worker < s.spawned)
    (listening : (s.workers worker).life = .listening) {request : Request} {rest : List Request}
    (inbox : (s.workers worker).inbox = request :: rest) (attempt : Attempt) :
    Sound (handle worker request rest attempt s) := by
  have handled : ∀ answer : Except String Result, Sound (s.updateWorker worker fun current =>
      { current with
        connected := current.connected && decide (request.op ≠ .close)
        inbox := rest
        outbox := current.outbox ++ [⟨request.id, answer⟩]
        handled := current.handled ++ [⟨request, attempt, answer⟩] }) := by
    intro answer
    apply updateWorker_sound sound known
    · intro starting
      cases listening.symm.trans starting
    · intro number bound open_
      apply served_update
      · intro other _ joinable
        exact joinable.update (fun outcome greeted => greeted_append _ greeted) rfl
      · intro target id _ _ underway
        unfold Underway at underway ⊢
        rw [updateWorker_self]
        simp only [List.map_append, List.mem_append]
        rw [inbox, List.map_cons, List.mem_cons] at underway
        rcases underway with ⟨alive, here | later⟩ | sent
        · exact .inr (.inr (List.mem_singleton.mpr here))
        · exact .inl ⟨alive, later⟩
        · exact .inr (.inl sent)
  have same := handled (execute (s.workers worker).connected attempt request.op s.file).1
  exact ⟨same.current, same.cached, same.unborn, same.starting, same.waiting, same.positive,
    same.pending, same.served⟩

@[simp] theorem greet_life (current : Worker) (response : WorkerResponse) :
    (current.greet response).life = current.life := by
  unfold Worker.greet
  split <;> rfl

@[simp] theorem greet_inbox (current : Worker) (response : WorkerResponse) :
    (current.greet response).inbox = current.inbox := by
  unfold Worker.greet
  split <;> rfl

theorem pop_sound (sound : Sound s) (known : worker < s.spawned) {response : WorkerResponse}
    {rest : List WorkerResponse} (outbox : (s.workers worker).outbox = response :: rest)
    (unawaited : ¬ Awaited s response.id) :
    Sound (s.updateWorker worker fun current => { current.greet response with
      outbox := rest, answered := current.answered ++ [response] }) := by
  apply updateWorker_sound sound known
  · intro starting
    rw [greet_life] at starting
    have empty := (sound.starting worker starting).2
    rw [outbox] at empty
    cases empty
  · intro number bound open_
    apply served_update
    · intro other _ joinable
      refine joinable.update ?_ (greet_life _ _)
      intro outcome greeted
      unfold Worker.greeted at greeted ⊢
      cases ready : (s.workers worker).ready with
      | some settled =>
        rw [ready] at greeted
        simp only [Worker.greet, ready]
        exact greeted
      | none =>
        rw [ready, outbox] at greeted
        simp only [Worker.greet, ready]
        exact greeted
    · intro target id _ found underway
      unfold Underway at underway ⊢
      rw [updateWorker_self]
      simp only [greet_life, greet_inbox]
      refine underway.imp_right ?_
      intro sent
      rw [outbox, List.map_cons, List.mem_cons] at sent
      refine sent.resolve_left ?_
      rintro rfl
      exact unawaited ⟨number, found, open_⟩

theorem deliver_sound (sound : Sound s) (known : worker < s.spawned) {response : WorkerResponse}
    {rest : List WorkerResponse} (outbox : (s.workers worker).outbox = response :: rest) :
    Sound (deliver worker response rest s) := by
  by_cases zero : response.id = 0
  · have unawaited : ¬ Awaited s response.id := by
      rintro ⟨number, found, -⟩
      have positive := (sound.pending _ _ found).1
      omega
    simp only [deliver, answer, if_pos zero]
    exact pop_sound sound known outbox unawaited
  · cases found : s.pending.get? response.id with
    | none =>
      have unawaited : ¬ Awaited s response.id := by
        rintro ⟨number, awaiting, -⟩
        rw [found] at awaiting
        cases awaiting
      have missing : (s.updateWorker worker fun current => { current.greet response with
          outbox := rest, answered := current.answered ++ [response] }).pending.get? response.id =
            none := found
      simp only [deliver, answer, if_neg zero, missing]
      exact pop_sound sound known outbox unawaited
    | some number =>
      -- The call settles and its entry goes; then nobody waits for the message any more.
      have settled := settle_sound sound number response.answer
      have answered : ¬ Awaited (s.settle number response.answer) response.id := by
        rintro ⟨other, awaiting, open_⟩
        have same : s.pending.get? response.id = some other := awaiting
        rw [found] at same
        exact (settle_open open_).1 (Option.some.inj same).symm
      have erased := erase_sound settled answered
      have unawaited : ¬ Awaited { s.settle number response.answer with
          pending := s.pending.erase response.id } response.id := by
        rintro ⟨other, awaiting, -⟩
        simp at awaiting
      have present : (s.updateWorker worker fun current => { current.greet response with
          outbox := rest, answered := current.answered ++ [response] }).pending.get? response.id =
            some number := found
      simp only [deliver, answer, if_neg zero, present]
      exact pop_sound erased known outbox unawaited

end Workers

section Calls

variable {s : State}

def spawn (fresh : Worker) (current : Option Nat) (s : State) : State :=
  { s.updateWorker s.spawned fun _ => fresh with
    worker := current
    ready := some s.spawned
    spawned := s.spawned + 1 }

theorem spawn_self (fresh : Worker) (current : Option Nat) (s : State) :
    (spawn fresh current s).workers s.spawned = fresh :=
  Function.update_self _ _ _

theorem spawn_other (fresh : Worker) (current : Option Nat) {s : State} {worker : Nat}
    (apart : worker ≠ s.spawned) : (spawn fresh current s).workers worker = s.workers worker :=
  Function.update_of_ne apart _ _

theorem spawn_sound (sound : Sound s) {fresh : Worker} {current : Option Nat}
    (starting : fresh.life = .starting → fresh.ready = none ∧ fresh.outbox = [])
    (known : ∀ worker, current = some worker → worker < s.spawned + 1)
    (posts : CanPost s → CanPost (spawn fresh current s)) : Sound (spawn fresh current s) := by
  refine ⟨known, ?_, ?_, ?_, ?_, sound.positive, sound.pending, ?_⟩
  · rintro _ ⟨⟩
    exact Nat.lt_succ_self _
  · intro worker unborn
    have later : s.spawned < worker := unborn
    rw [spawn_other fresh current (Nat.ne_of_gt later)]
    exact sound.unborn worker (Nat.le_of_lt later)
  · intro worker
    by_cases same : worker = s.spawned
    · rw [same, spawn_self]
      exact starting
    · rw [spawn_other fresh current same]
      exact sound.starting worker
  · exact fun number bound worker phase =>
      Nat.lt_succ_of_lt (sound.waiting number bound worker phase)
  · intro number bound open_
    refine (sound.served number bound open_).kept rfl ?_ ?_
    · intro worker waits joinable
      have apart := Nat.ne_of_lt (sound.waiting number bound worker waits)
      simp only [Joinable, spawn_other fresh current apart] at joinable ⊢
      exact joinable.imp_right fun greets => ⟨greets.1, posts greets.2⟩
    · intro worker id _ found underway
      have apart : worker ≠ s.spawned := by
        rintro rfl
        rw [Underway, sound.unborn _ (Nat.le_refl _)] at underway
        simp [Worker.new] at underway
      refine ⟨found, ?_⟩
      unfold Underway at underway ⊢
      rwa [spawn_other fresh current apart]

theorem ensureWorker_sound (sound : Sound s) (constructed : Except String Unit)
    (joinable : ∀ worker, s.ready = some worker → Joinable s worker) :
    Sound (ensureWorker constructed s).1 ∧
      (ensureWorker constructed s).2 < (ensureWorker constructed s).1.spawned ∧
      Joinable (ensureWorker constructed s).1 (ensureWorker constructed s).2 := by
  cases cached : s.ready with
  | some worker =>
    simp only [ensureWorker, cached]
    exact ⟨sound, sound.cached worker cached, joinable worker cached⟩
  | none =>
    cases constructed with
    | ok =>
      have made : ensureWorker (.ok ()) s = (spawn .new (some s.spawned) s, s.spawned) := by
        simp only [ensureWorker, cached, spawn, State.updateWorker]
      have posts : CanPost (spawn .new (some s.spawned) s) := by
        rintro _ ⟨⟩ stopped
        simp only [spawn, updateWorker_self] at stopped
        cases stopped
      rw [made]
      refine ⟨spawn_sound sound (fun _ => ⟨rfl, rfl⟩) ?_ fun _ => posts, Nat.lt_succ_self _, .inr
        ⟨.inr ?_, posts⟩⟩
      · rintro _ ⟨⟩
        exact Nat.lt_succ_self _
      · simp only [spawn, updateWorker_self]
        rfl
    | error error =>
      let failed : Worker := { Worker.new with life := .stopped, ready := some (.error error) }
      have made : ensureWorker (.error error) s = (spawn failed s.worker s, s.spawned) := by
        simp only [ensureWorker, cached, spawn, State.updateWorker, failed]
      rw [made]
      refine ⟨spawn_sound sound ?_ ?_ ?_, Nat.lt_succ_self _, .inl ⟨error, ?_⟩⟩
      · intro starting
        cases starting
      · exact fun worker current => Nat.lt_succ_of_lt (sound.current worker current)
      · intro canPost worker current
        have apart := Nat.ne_of_lt (sound.current worker current)
        simp only [spawn, updateWorker_other s _ apart]
        exact canPost worker current
      · simp only [spawn, updateWorker_self]
        rfl

theorem issue_sound (sound : Sound s) {worker : Nat} (known : worker < s.spawned)
    (joinable : Joinable s worker) (op : Op) :
    Sound { s with
      issued := s.issued + 1
      calls := Function.update s.calls s.issued ⟨op, .waiting worker, []⟩ } := by
  have old : ∀ {number}, number ≠ s.issued →
      Function.update s.calls s.issued ⟨op, .waiting worker, []⟩ number = s.calls number :=
    fun apart => Function.update_of_ne apart _ _
  refine ⟨sound.current, sound.cached, sound.unborn, sound.starting, ?_, sound.positive, ?_, ?_⟩
  · intro number bound other phase
    rcases Nat.lt_succ_iff_lt_or_eq.mp bound with before | rfl
    · simp only [old (Nat.ne_of_lt before)] at phase
      exact sound.waiting number before other phase
    · simp only [Function.update_self, Phase.waiting.injEq] at phase
      exact phase ▸ known
  · intro id number found
    obtain ⟨positive, used, bound, phase⟩ := sound.pending id number found
    simp only [old (Nat.ne_of_lt bound)]
    exact ⟨positive, used, Nat.lt_succ_of_lt bound, phase⟩
  · intro number bound open_
    rcases Nat.lt_succ_iff_lt_or_eq.mp bound with before | rfl
    · simp only [old (Nat.ne_of_lt before)] at open_
      exact (sound.served number before open_).kept
        (congrArg Call.phase (old (Nat.ne_of_lt before))) (fun _ _ joinable => joinable)
        fun _ _ _ found underway => ⟨found, underway⟩
    · simp only [Served, Function.update_self]
      exact joinable

theorem call_sound (sound : Sound s) (op : Op) (constructed : Except String Unit)
    (joinable : ∀ worker, s.ready = some worker → Joinable s worker) :
    Sound (call op constructed s) := by
  obtain ⟨ensured, known, joins⟩ := ensureWorker_sound sound constructed joinable
  have issuing := issue_sound ensured known joins op
  rw [ensureWorker_issued] at issuing
  exact issuing

def registering (number : Nat) (s : State) : State :=
  { s with
    nextRequestId := s.nextRequestId + 1
    pending := s.pending.set s.nextRequestId number
    calls := Function.update s.calls number
      { s.calls number with phase := .posted s.worker s.nextRequestId } }

theorem registering_self (s : State) (number : Nat) : (registering number s).calls number =
    { s.calls number with phase := .posted s.worker s.nextRequestId } :=
  Function.update_self _ _ _

theorem registering_other (s : State) {number other : Nat} (apart : other ≠ number) :
    (registering number s).calls other = s.calls other :=
  Function.update_of_ne apart _ _

theorem resume_unposted {s : State} {number : Nat} (absent : s.worker = none) :
    resume number (.ok ()) s = (registering number s).settle number
      (.error "Cannot read properties of null (reading 'postMessage')") := by
  simp only [resume, absent, registering]

theorem resume_posted {s : State} {number worker : Nat} (current : s.worker = some worker) :
    resume number (.ok ()) s = (registering number s).updateWorker worker
      (Worker.post ⟨s.nextRequestId, (s.calls number).op⟩) := by
  simp only [resume, current, registering]

theorem registering_sound (sound : Sound s) {number : Nat} (bound : number < s.issued)
    {origin : Nat} (waits : (s.calls number).phase = .waiting origin)
    (sent : (s.calls number).settled = [] →
      ∃ worker, s.worker = some worker ∧ Underway s worker s.nextRequestId) :
    Sound (registering number s) := by
  have entries : ∀ id, (registering number s).pending.get? id =
      if id = s.nextRequestId then some number else s.pending.get? id :=
    fun id => InsertionMap.get?_set s.pending s.nextRequestId id number
  refine ⟨sound.current, sound.cached, sound.unborn, sound.starting, ?_, Nat.succ_pos _, ?_, ?_⟩
  · intro other known worker phase
    by_cases same : other = number
    · rw [same, registering_self] at phase
      cases phase
    · rw [registering_other s same] at phase
      exact sound.waiting other known worker phase
  · intro id other found
    rw [entries] at found
    split at found
    · rename_i same
      obtain rfl := Option.some.inj found
      refine ⟨same ▸ sound.positive, same ▸ Nat.lt_succ_self _, bound, s.worker, ?_⟩
      rw [registering_self, same]
    · obtain ⟨positive, used, known, target, phase⟩ := sound.pending id other found
      refine ⟨positive, Nat.lt_succ_of_lt used, known, target, ?_⟩
      have apart : other ≠ number := by
        rintro rfl
        rw [waits] at phase
        cases phase
      rwa [registering_other s apart]
  · intro other known open_
    by_cases same : other = number
    · subst same
      rw [registering_self] at open_
      obtain ⟨worker, current, underway⟩ := sent open_
      unfold Served
      rw [registering_self]
      exact ⟨(entries _).trans (if_pos rfl), worker, current, underway⟩
    · rw [registering_other s same] at open_
      refine (sound.served other known open_).kept (congrArg Call.phase (registering_other s same))
        (fun _ _ joinable => joinable) ?_
      intro worker id _ found underway
      rw [entries, if_neg (Nat.ne_of_lt (sound.pending id other found).2.1)]
      exact ⟨found, underway⟩

theorem post_running {worker : Worker} (alive : worker.life ≠ .stopped) (request : Request) :
    Worker.post request worker = { worker with
      inbox := worker.inbox ++ [request]
      posted := worker.posted ++ [request] } := by
  unfold Worker.post
  split
  · rename_i stopped
    exact absurd stopped alive
  · rfl
  · rfl

theorem post_sound (sound : Sound s) {worker : Nat} (known : worker < s.spawned)
    (request : Request) : Sound (s.updateWorker worker (Worker.post request)) := by
  have life : (Worker.post request (s.workers worker)).life = (s.workers worker).life := by
    unfold Worker.post
    split <;> rfl
  have ready : (Worker.post request (s.workers worker)).ready = (s.workers worker).ready := by
    unfold Worker.post
    split <;> rfl
  have outbox : (Worker.post request (s.workers worker)).outbox = (s.workers worker).outbox := by
    unfold Worker.post
    split <;> rfl
  apply updateWorker_sound sound known
  · rw [life, ready, outbox]
    exact sound.starting worker
  · intro number _ _
    apply served_update
    · intro other _ joinable
      refine joinable.update (fun outcome greeted => ?_) life
      unfold Worker.greeted at greeted ⊢
      rwa [ready, outbox]
    · intro _ id _ _ underway
      unfold Underway at underway ⊢
      rw [updateWorker_self, life, outbox]
      refine underway.imp_left fun ⟨alive, queued⟩ => ⟨alive, ?_⟩
      unfold Worker.post
      split
      · exact queued
      · rw [List.map_append]
        exact List.mem_append_left _ queued
      · rw [List.map_append]
        exact List.mem_append_left _ queued

theorem resume_sound (sound : Sound s) {number worker : Nat} (bound : number < s.issued)
    (waits : (s.calls number).phase = .waiting worker) (open_ : (s.calls number).settled = [])
    {outcome : Except String Unit} (ready : (s.workers worker).ready = some outcome) :
    Sound (resume number outcome s) := by
  cases outcome with
  | error error => exact settle_sound sound number (.error error)
  | ok =>
    cases current : s.worker with
    | none =>
      have thrown := settle_sound sound number
        (.error "Cannot read properties of null (reading 'postMessage')")
      have registered := registering_sound thrown bound
        (by rw [settle_phase, waits]) (by
          intro still
          exact absurd rfl (settle_open still).1)
      have same : resume number (.ok ()) s = registering number
          (s.settle number (.error "Cannot read properties of null (reading 'postMessage')")) := by
        simp only [resume, current, registering, State.settle, Function.update_self,
          Function.update_idem]
      rwa [same]
    | some target =>
      have served := sound.served number bound open_
      unfold Served at served
      rw [waits] at served
      have alive : (s.workers target).life ≠ .stopped := by
        refine (served.resolve_left ?_).2 target current
        rintro ⟨error, rejecting⟩
        simp [Worker.greeted, ready] at rejecting
      have posted := post_sound sound (sound.current target current)
        ⟨s.nextRequestId, (s.calls number).op⟩
      have registered := registering_sound posted bound waits (by
        intro _
        refine ⟨target, current, .inl ?_⟩
        rw [updateWorker_self, post_running alive]
        exact ⟨alive, List.mem_map_of_mem (List.mem_append_right _ List.mem_cons_self)⟩)
      have same : resume number (.ok ()) s = registering number
          (s.updateWorker target (Worker.post ⟨s.nextRequestId, (s.calls number).op⟩)) := by
        simp only [resume, current, registering, State.updateWorker]
      rwa [same]

end Calls

section Runs

variable {s next : State}

theorem inbox_known (unborn : ∀ worker, s.spawned ≤ worker → s.workers worker = .new)
    {worker : Nat} {request : Request} {rest : List Request}
    (inbox : (s.workers worker).inbox = request :: rest) : worker < s.spawned := by
  by_contra outside
  rw [unborn worker (Nat.le_of_not_lt outside)] at inbox
  cases inbox

theorem outbox_known (unborn : ∀ worker, s.spawned ≤ worker → s.workers worker = .new)
    {worker : Nat} {response : WorkerResponse} {rest : List WorkerResponse}
    (outbox : (s.workers worker).outbox = response :: rest) : worker < s.spawned := by
  by_contra outside
  rw [unborn worker (Nat.le_of_not_lt outside)] at outbox
  cases outbox

theorem rejectAll_updateWorker (error : String) (waiters : List (Nat × Nat)) (s : State)
    (worker : Nat) (change : Worker → Worker) :
    rejectAll error waiters (s.updateWorker worker change) =
      (rejectAll error waiters s).updateWorker worker change := by
  induction waiters generalizing s with
  | nil => rfl
  | cons waiter rest ih => exact ih (s.settle waiter.2 (.error error))

theorem rejectAll_phase (error : String) (waiters : List (Nat × Nat)) (s : State) (number : Nat) :
    ((rejectAll error waiters s).calls number).phase = (s.calls number).phase := by
  induction waiters generalizing s with
  | nil => rfl
  | cons waiter rest ih =>
    exact (ih (s.settle waiter.2 (.error error))).trans (settle_phase s waiter.2 number _)

theorem error_sound (sound : Sound s) {worker : Nat} (known : worker < s.spawned) (error : String)
    (dispensable : Dispensable s worker) :
    Sound (rejectPending error (s.updateWorker worker Worker.stop)) := by
  have same : rejectPending error (s.updateWorker worker Worker.stop) =
      (rejectPending error s).updateWorker worker Worker.stop :=
    congrArg (fun rejected : State => { rejected with pending := .empty })
      (rejectAll_updateWorker error s.pending.entries s worker Worker.stop)
  have rejecting := rejectPending_eq error s
  rw [same]
  apply stop_sound (rejectPending_sound error sound)
  · rwa [rejecting]
  · intro number bound open_ other waits
    rw [rejecting] at bound
    have before := (rejectAll_open error s.pending.entries open_).2
    have phase := rejectAll_phase error s.pending.entries s number
    unfold Spares
    rw [rejecting]
    exact dispensable number bound before other (phase.symm.trans waits)
  · rintro request _ ⟨_, found, _⟩
    cases found

theorem closed_sound (sound : Sound s) (number : Nat) : Sound { s with
    worker := none
    ready := none
    closing := Function.update s.closing number .closed } := by
  refine { sound with current := ?_, cached := ?_, served := ?_ }
  · intro _ current
    cases current
  · intro _ cached
    cases cached
  · intro other bound open_
    refine (sound.served other bound open_).kept rfl ?_
      fun _ _ _ found underway => ⟨found, underway⟩
    intro worker _ joinable
    refine joinable.imp_right fun greets => ⟨greets.1, ?_⟩
    intro _ current
    cases current

theorem step_sound (sound : Sound s) {event : Event} (safe : Safe s event)
    (taken : step s event = some next) : Sound next := by
  cases step_taken taken with
  | call constructed => exact call_sound sound _ constructed safe
  | resume issued waits unsettled ready => exact resume_sound sound issued waits unsettled ready
  | started outcome known starting => exact started_sound sound known starting outcome safe
  | handle attempt listening inbox =>
    exact handle_sound sound (inbox_known sound.unborn inbox) listening inbox attempt
  | deliver outbox => exact deliver_sound sound (outbox_known sound.unborn outbox) outbox
  | error error known => exact error_sound sound known error safe
  | exit known => exact stop_sound sound known safe.1 safe.2
  | closeIdle => exact sound
  | close present => exact call_sound sound .close (.ok ()) (safe present)
  | terminateNone => exact { sound with }
  | terminate current =>
    obtain ⟨dispensable, unasked⟩ := safe _ current
    exact { stop_sound sound (sound.current _ current) dispensable unasked with }
  | @closed number => exact closed_sound sound number

theorem run_sound {file : File} {events : List Event} (run : Run step Safe (initial file) events s) :
    Sound s :=
  run.invariant _ (fun _ _ _ sound safe taken => step_sound sound safe taken) (initial_sound file)

end Runs

end BaileysSession.SqliteAdapter
