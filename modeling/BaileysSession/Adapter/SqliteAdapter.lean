import BaileysSession.Adapter.SqliteWorker
import BaileysSession.Shared.Transition
import Mathlib.Logic.Function.Basic

set_option autoImplicit false

namespace BaileysSession.SqliteAdapter

open SqliteWorker

structure Request where
  id : Nat
  op : Op
  deriving DecidableEq, Repr

structure WorkerResponse where
  id : Nat
  answer : Except String Result

-- `starting`: the worker's main function has not come to its end.
inductive Life where
  | starting
  | listening
  | stopped
  deriving DecidableEq, Repr

structure Handled where
  request : Request
  attempt : Attempt
  answer : Except String Result

def Handled.response (handled : Handled) : WorkerResponse := ⟨handled.request.id, handled.answer⟩

structure Worker where
  life : Life
  -- The promise of `ensureWorker`; while it is open the `once` handler waits for a message.
  ready : Option (Except String Unit)
  connected : Bool
  inbox : List Request
  outbox : List WorkerResponse
  -- History: the requests posted to the worker, those it handled, and its delivered messages.
  posted : List Request
  handled : List Handled
  answered : List WorkerResponse

def Worker.new : Worker where
  life := .starting
  ready := none
  connected := true
  inbox := []
  outbox := []
  posted := []
  handled := []
  answered := []

-- Where a call is; `posted` has the worker that got the request, if one did.
inductive Phase where
  | waiting (worker : Nat)
  | posted (worker : Option Nat) (id : Nat)
  deriving DecidableEq, Repr

-- `settled` has every `resolve` and `reject` of the promise; the first is the one that counts.
structure Call where
  op : Op
  phase : Phase
  settled : List (Except String Result)

-- How far a `close` is once its call has settled.
inductive Closing where
  | calling
  | terminated
  | closed
  deriving DecidableEq, Repr

structure State where
  worker : Option Nat
  nextRequestId : Nat
  pending : InsertionMap Nat Nat
  ready : Option Nat
  -- The workers and calls so far, numbered in the order they came in.
  spawned : Nat
  workers : Nat → Worker
  issued : Nat
  calls : Nat → Call
  closing : Nat → Closing
  file : File

def initial (file : File) : State where
  worker := none
  nextRequestId := 1
  pending := .empty
  ready := none
  spawned := 0
  workers := fun _ => .new
  issued := 0
  calls := fun _ => ⟨.init, .waiting 0, []⟩
  closing := fun _ => .calling
  file := file

def State.updateWorker (s : State) (worker : Nat) (change : Worker → Worker) : State :=
  { s with workers := Function.update s.workers worker (change (s.workers worker)) }

def State.settle (s : State) (call : Nat) (outcome : Except String Result) : State :=
  { s with
    calls := Function.update s.calls call
      { s.calls call with settled := (s.calls call).settled ++ [outcome] } }

/-- The number of the worker whose `ready` promise is the cached one; `constructed` is what
`new Worker` comes to, if it is called. -/
def ensureWorker (constructed : Except String Unit) (s : State) : State × Nat :=
  match s.ready with
  | some worker => (s, worker)
  | none =>
    let spawned := { s with ready := some s.spawned, spawned := s.spawned + 1 }
    match constructed with
    | .ok _ =>
      ({ spawned.updateWorker s.spawned fun _ => .new with worker := some s.spawned }, s.spawned)
    | .error error =>
      (spawned.updateWorker s.spawned fun _ =>
        { Worker.new with life := .stopped, ready := some (.error error) }, s.spawned)

-- `call` up to its `await`.
def call (op : Op) (constructed : Except String Unit) (s : State) : State :=
  let (ensured, worker) := ensureWorker constructed s
  { ensured with
    issued := s.issued + 1
    calls := Function.update ensured.calls s.issued ⟨op, .waiting worker, []⟩ }

def Worker.post (request : Request) (worker : Worker) : Worker :=
  match worker.life with
  -- Nobody gets a message to a worker that has stopped.
  | .stopped => worker
  | .starting | .listening =>
    { worker with inbox := worker.inbox ++ [request], posted := worker.posted ++ [request] }

/-- `call` after its `await`. -/
def resume (number : Nat) (outcome : Except String Unit) (s : State) : State :=
  match outcome with
  | .error error => s.settle number (.error error)
  | .ok _ =>
    let id := s.nextRequestId
    let waiting := { s with
      nextRequestId := id + 1
      pending := s.pending.set id number
      calls := Function.update s.calls number
        { s.calls number with phase := .posted s.worker id } }
    match s.worker with
    | some worker => waiting.updateWorker worker (Worker.post ⟨id, (s.calls number).op⟩)
    | none =>
      waiting.settle number (.error "Cannot read properties of null (reading 'postMessage')")

/-- The end of the worker's main function: it listens, or posts why it failed. -/
def Worker.start (outcome : Except String Unit) (worker : Worker) : Worker :=
  match outcome with
  | .ok _ => { worker with life := .listening, outbox := worker.outbox ++ [⟨0, .ok .ready⟩] }
  | .error error => { worker with life := .stopped, outbox := worker.outbox ++ [⟨0, .error error⟩] }

def Worker.stop (worker : Worker) : Worker := { worker with life := .stopped }

-- The worker's `message` handler.
def handle (worker : Nat) (request : Request) (rest : List Request) (attempt : Attempt)
    (s : State) : State :=
  let executed := execute (s.workers worker).connected attempt request.op s.file
  { s.updateWorker worker fun current => { current with
      connected := current.connected && decide (request.op ≠ .close)
      inbox := rest
      outbox := current.outbox ++ [⟨request.id, executed.1⟩]
      handled := current.handled ++ [⟨request, attempt, executed.1⟩] } with
    file := executed.2 }

-- What a first message makes of the `ready` promise.
def WorkerResponse.greeting (response : WorkerResponse) : Except String Unit :=
  match response.answer with
  | .error error => .error error
  | .ok _ => if response.id = 0 then .ok () else .error "sqlite worker failed to start"

-- `worker.once('message')`
def Worker.greet (response : WorkerResponse) (worker : Worker) : Worker :=
  match worker.ready with
  | some _ => worker
  | none => { worker with ready := some response.greeting }

-- `worker.on('message')`
def answer (response : WorkerResponse) (s : State) : State :=
  if response.id = 0 then s
  else
    match s.pending.get? response.id with
    | none => s
    | some number => { s with pending := s.pending.erase response.id }.settle number response.answer

def deliver (worker : Nat) (response : WorkerResponse) (rest : List WorkerResponse) (s : State) :
    State :=
  answer response (s.updateWorker worker fun current =>
    { current.greet response with outbox := rest, answered := current.answered ++ [response] })

-- `worker.on('error')`
def rejectPending (error : String) (s : State) : State :=
  { s.pending.entries.foldl (fun s waiter => s.settle waiter.2 (.error error)) s with
    pending := .empty }

inductive Event where
  | call (op : Op) (constructed : Except String Unit)
  | resume (call : Nat)
  | started (worker : Nat) (outcome : Except String Unit)
  | handle (worker : Nat) (attempt : Attempt)
  | deliver (worker : Nat)
  | error (worker : Nat) (error : String)
  | exit (worker : Nat)
  | close
  | terminate (call : Nat)
  | closed (call : Nat)

def step : Transition.Step State Event := fun s event =>
  match event with
  | .call op constructed => if op = .close then none else some (call op constructed s)
  | .resume number =>
    if number < s.issued then
      match (s.calls number).phase with
      | .posted _ _ => none
      | .waiting worker =>
        if (s.calls number).settled = [] then
          (s.workers worker).ready.map fun outcome => resume number outcome s
        else none
    else none
  | .started worker outcome =>
    if worker < s.spawned ∧ (s.workers worker).life = .starting then
      some (s.updateWorker worker (Worker.start outcome))
    else none
  | .handle worker attempt =>
    match (s.workers worker).life, (s.workers worker).inbox with
    | .listening, request :: rest => some (handle worker request rest attempt s)
    | _, _ => none
  | .deliver worker =>
    match (s.workers worker).outbox with
    | [] => none
    | response :: rest => some (deliver worker response rest s)
  | .error worker error =>
    if worker < s.spawned ∧ (s.workers worker).life ≠ .stopped then
      some (rejectPending error (s.updateWorker worker Worker.stop))
    else none
  | .exit worker =>
    if worker < s.spawned ∧ (s.workers worker).life ≠ .stopped then
      some (s.updateWorker worker Worker.stop)
    else none
  | .close => if s.worker = none then some s else some (call .close (.ok ()) s)
  -- `await this.worker.terminate()`, which throws when there is no worker any more.
  | .terminate number =>
    if number < s.issued ∧ (s.calls number).op = .close ∧ (s.calls number).settled ≠ [] ∧
        s.closing number = .calling then
      match s.worker with
      | none => some { s with closing := Function.update s.closing number .closed }
      | some worker => some { s.updateWorker worker Worker.stop with
          closing := Function.update s.closing number .terminated }
    else none
  | .closed number =>
    if s.closing number = .terminated then
      some { s with
        worker := none
        ready := none
        closing := Function.update s.closing number .closed }
    else none

inductive Taken (s : State) : Event → State → Prop
  | call {op : Op} (constructed : Except String Unit) (other : op ≠ .close) :
    Taken s (.call op constructed) (SqliteAdapter.call op constructed s)
  | resume {number worker : Nat} {outcome : Except String Unit} (issued : number < s.issued)
    (waits : (s.calls number).phase = .waiting worker) (unsettled : (s.calls number).settled = [])
    (ready : (s.workers worker).ready = some outcome) :
    Taken s (.resume number) (SqliteAdapter.resume number outcome s)
  | started {worker : Nat} (outcome : Except String Unit) (known : worker < s.spawned)
    (starting : (s.workers worker).life = .starting) :
    Taken s (.started worker outcome) (s.updateWorker worker (Worker.start outcome))
  | handle {worker : Nat} {request : Request} {rest : List Request} (attempt : Attempt)
    (listening : (s.workers worker).life = .listening)
    (inbox : (s.workers worker).inbox = request :: rest) :
    Taken s (.handle worker attempt) (SqliteAdapter.handle worker request rest attempt s)
  | deliver {worker : Nat} {response : WorkerResponse} {rest : List WorkerResponse}
    (outbox : (s.workers worker).outbox = response :: rest) :
    Taken s (.deliver worker) (SqliteAdapter.deliver worker response rest s)
  | error {worker : Nat} (error : String) (known : worker < s.spawned)
    (running : (s.workers worker).life ≠ .stopped) :
    Taken s (.error worker error) (rejectPending error (s.updateWorker worker Worker.stop))
  | exit {worker : Nat} (known : worker < s.spawned) (running : (s.workers worker).life ≠ .stopped) :
    Taken s (.exit worker) (s.updateWorker worker Worker.stop)
  | closeIdle (absent : s.worker = none) : Taken s .close s
  | close (present : s.worker ≠ none) : Taken s .close (SqliteAdapter.call .close (.ok ()) s)
  | terminateNone {number : Nat} (absent : s.worker = none) : Taken s (.terminate number)
      { s with closing := Function.update s.closing number .closed }
  | terminate {number worker : Nat} (current : s.worker = some worker) : Taken s (.terminate number)
      { s.updateWorker worker Worker.stop with
        closing := Function.update s.closing number .terminated }
  | closed {number : Nat} (terminated : s.closing number = .terminated) : Taken s (.closed number)
      { s with
        worker := none
        ready := none
        closing := Function.update s.closing number .closed }

theorem step_taken {s next : State} {event : Event} (taken : step s event = some next) :
    Taken s event next := by
  cases event with
  | call op constructed =>
    simp only [step] at taken
    split at taken
    · cases taken
    · rename_i other
      cases taken
      exact .call constructed other
  | resume number =>
    simp only [step] at taken
    split at taken
    · rename_i issued
      split at taken
      · cases taken
      · rename_i worker waits
        split at taken
        · rename_i unsettled
          obtain ⟨outcome, ready, rfl⟩ := Option.map_eq_some_iff.mp taken
          exact .resume issued waits unsettled ready
        · cases taken
    · cases taken
  | started worker outcome =>
    simp only [step] at taken
    split at taken
    · rename_i enabled
      cases taken
      exact .started outcome enabled.1 enabled.2
    · cases taken
  | handle worker attempt =>
    simp only [step] at taken
    split at taken
    · rename_i request rest listening inbox
      cases taken
      exact .handle attempt listening inbox
    · cases taken
  | deliver worker =>
    simp only [step] at taken
    split at taken
    · cases taken
    · rename_i response rest outbox
      cases taken
      exact .deliver outbox
  | error worker error =>
    simp only [step] at taken
    split at taken
    · rename_i enabled
      cases taken
      exact .error error enabled.1 enabled.2
    · cases taken
  | exit worker =>
    simp only [step] at taken
    split at taken
    · rename_i enabled
      cases taken
      exact .exit enabled.1 enabled.2
    · cases taken
  | close =>
    simp only [step] at taken
    split at taken
    · rename_i absent
      cases taken
      exact .closeIdle absent
    · rename_i present
      cases taken
      exact .close present
  | terminate number =>
    simp only [step] at taken
    split at taken
    · split at taken
      · rename_i absent
        cases taken
        exact .terminateNone absent
      · rename_i worker current
        cases taken
        exact .terminate current
    · cases taken
  | closed number =>
    simp only [step] at taken
    split at taken
    · rename_i terminated
      cases taken
      exact .closed terminated
    · cases taken

end BaileysSession.SqliteAdapter
