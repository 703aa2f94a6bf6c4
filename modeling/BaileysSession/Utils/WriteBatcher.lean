import BaileysSession.Shared.InsertionMap
import BaileysSession.Shared.Transition

set_option autoImplicit false

namespace BaileysSession.WriteBatcher

inductive Outcome where
  | resolved
  | rejected
  deriving DecidableEq, Repr

structure Write where
  key : String
  value : String
  deriving DecidableEq, Repr

-- `writer` is a history variable: the number of the write call the value comes from.
structure Stored where
  value : String
  writer : Nat
  deriving DecidableEq, Repr

abbrev Batch := List (String × Stored)

-- Who awaits the promise of a `flushNow` call.
inductive Caller where
  | timer
  | user
  | write (writer : Nat)
  | destroy (issued : Nat)
  deriving DecidableEq, Repr

-- A `flushNow` call together with the `flushWaiters` it detached.
structure FlushCall where
  waiters : List Nat
  caller : Caller
  deriving DecidableEq, Repr

-- The queue task that runs. No entries: `pending` was empty and `flush` is not called.
structure Task where
  call : FlushCall
  entries : Batch
  deriving DecidableEq, Repr

structure State where
  pending : InsertionMap String Stored
  timer : Bool
  flushWaiters : List Nat
  queue : List FlushCall
  running : Option Task
  -- Settled tasks whose `flushNow` has not resumed after its `await` yet.
  settled : List (FlushCall × Outcome)
  -- `destroy` calls that still have to run `queue.clear()`.
  clears : List Nat
  -- History: the write calls, their promises, the finished flush callbacks, the
  -- `destroy` calls that resolved (as the number of writes issued before them).
  writes : List Write
  promises : Nat → Option Outcome
  flushed : List (Batch × Outcome)
  destroyed : List Nat

def initial : State where
  pending := .empty
  timer := false
  flushWaiters := []
  queue := []
  running := none
  settled := []
  clears := []
  writes := []
  promises := fun _ => none
  flushed := []
  destroyed := []

-- The queue task up to its `await this.flush(entries)`.
def start (call : FlushCall) (s : State) : State :=
  { s with running := some ⟨call, s.pending.entries⟩, pending := .empty }

def flushNow (caller : Caller) (s : State) : State :=
  let call : FlushCall := ⟨s.flushWaiters, caller⟩
  let detached := { s with timer := false, flushWaiters := [] }
  match s.running with
  | none => start call detached
  | some _ => { detached with queue := s.queue ++ [call] }

def write (debounceMs : Int) (key value : String) (s : State) : State :=
  let writer := s.writes.length
  let stored := { s with
    pending := s.pending.set key ⟨value, writer⟩
    writes := s.writes ++ [⟨key, value⟩] }
  if debounceMs ≤ 0 then flushNow (.write writer) stored
  else { stored with flushWaiters := s.flushWaiters ++ [writer], timer := true }

-- p-queue with concurrency 1: the next task starts when its predecessor settles.
def settleTask (task : Task) (outcome : Outcome) (s : State) : State :=
  let finished := { s with
    running := none
    settled := s.settled ++ [(task.call, outcome)]
    flushed := if task.entries = [] then s.flushed else s.flushed ++ [(task.entries, outcome)] }
  match s.queue with
  | [] => finished
  | call :: rest => start call { finished with queue := rest }

-- A promise that is settled keeps its outcome.
def settlePromise (outcome : Outcome) (s : State) (writer : Nat) : State :=
  { s with promises := fun other =>
      if other = writer then (s.promises other).or (some outcome) else s.promises other }

-- `flushNow` after its `await`, then the code that awaits it.
def resume (call : FlushCall) (outcome : Outcome) (s : State) : State :=
  match outcome with
  | .resolved =>
    let released := call.waiters.foldl (settlePromise .resolved) s
    match call.caller with
    | .write writer => settlePromise .resolved released writer
    | .destroy issued => { released with clears := released.clears ++ [issued] }
    | .timer | .user => released
  | .rejected =>
    -- The rejection skips the loop over the waiters.
    match call.caller with
    | .write writer => settlePromise .rejected s writer
    | .timer | .user | .destroy _ => s

inductive Event where
  | write (key value : String)
  | timerFires
  | flushNow
  | destroy
  | flushSettles (outcome : Outcome)
  | resume
  | clear
  deriving DecidableEq, Repr

def step (debounceMs : Int) : Transition.Step State Event := fun s event =>
  match event with
  | .write key value => some (write debounceMs key value s)
  | .timerFires => if s.timer then some (flushNow .timer s) else none
  | .flushNow => some (flushNow .user s)
  | .destroy => some (flushNow (.destroy s.writes.length) s)
  | .flushSettles outcome =>
    match s.running with
    | none => none
    | some task =>
      -- Without a flush callback there is nothing to reject.
      if task.entries = [] ∧ outcome = .rejected then none else some (settleTask task outcome s)
  | .resume =>
    match s.settled with
    | [] => none
    | (call, outcome) :: rest => some (resume call outcome { s with settled := rest })
  | .clear =>
    match s.clears with
    | [] => none
    | issued :: rest =>
      some { s with queue := [], clears := rest, destroyed := s.destroyed ++ [issued] }

def Quiescent (s : State) : Prop :=
  s.timer = false ∧ s.queue = [] ∧ s.running = none ∧ s.settled = []

def CREDS_KEY : String := "creds"

-- `await batcher.write(CREDS_KEY, ..)`, then `await batcher.flushNow()`.
def saveCreds (written flushed : Option Outcome) : Option Outcome :=
  match written with
  | some .resolved => flushed
  | unfinished => unfinished

end BaileysSession.WriteBatcher
