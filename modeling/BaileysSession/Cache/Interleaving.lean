import BaileysSession.Cache.Operations

set_option autoImplicit false

namespace BaileysSession.Interleaving

open Async CacheManager KeysSet

-- No call fails here, so a choice is the clock alone.
def now (time : Int) : Choice := ⟨time, none⟩

def ticking (clock : Nat → Int) : Oracle Choice := fun index => now (clock index)

structure Read (Instance : Type) where
  self : Instance
  sessionId : String
  key : String
  program : Program (Option String)

structure Branch where
  key : String
  program : Program Unit

inductive Stage where
  -- setMany or deleteMany is called.
  | issued (change : Section)
  -- It has taken effect, and its response is on the way.
  | stored (change : Section)
  | announcing (change : Section) (branches : List Branch)

structure Held (Instance : Type) where
  self : Instance
  stage : Stage

structure Pool (Instance : Type) where
  cluster : Cluster Instance
  reads : Nat → Option (Read Instance)
  -- Keyed by session id: a lock has one holder.
  sections : String → Option (Held Instance)

inductive Event (Instance : Type) where
  | call (thread : Nat) (self : Instance) (sessionId key : String) (clock : Nat → Int)
  | performRead (thread : Nat) (time : Int)
  | resumeRead (thread : Nat) (clock : Nat → Int)
  | grant (self : Instance) (sessionId : String) (change : Section)
  | store (sessionId : String) (time : Int)
  | announce (sessionId : String) (clock : Nat → Int)
  | performBranch (sessionId : String) (index : Nat) (time : Int)
  | release (sessionId : String)
  | deliver (subscriber : Instance) (key : String)
  | sweepExpired (self : Instance) (time : Int)

variable {Instance : Type} [DecidableEq Instance]

def Pool.initial (settings : Settings) (db : Database) : Pool Instance where
  cluster := .initial settings db
  reads := fun _ => none
  sections := fun _ => none

def Pool.moved (p : Pool Instance) (cluster : Cluster Instance) (sessionId : String)
    (held : Option (Held Instance)) : Pool Instance :=
  { p with cluster, sections := Function.update p.sections sessionId held }

def waits {Result : Type} : Program Result → Bool
  | .await call _ => !call.synchronous
  | .done _ | .failed _ => false

def finished {Result : Type} : Program Result → Bool
  | .done _ | .failed _ => true
  | .await _ _ => false

def inFlight (read : Read Instance) : Option (Read Instance) :=
  if finished read.program then none else some read

section Step

variable (settings : Settings) (p : Pool Instance)

def call (thread : Nat) (self : Instance) (sessionId key : String) (clock : Nat → Int) :
    Option (Pool Instance) :=
  match p.reads thread with
  | some _ => none
  | none =>
    let paused := drain (effect settings self) Call.synchronous
      (get settings.redis sessionId key) (ticking clock) p.cluster
    some { p with
      cluster := paused.world
      reads := Function.update p.reads thread (inFlight ⟨self, sessionId, key, paused.program⟩) }

def performRead (thread : Nat) (time : Int) : Option (Pool Instance) :=
  match p.reads thread with
  | none => none
  | some read =>
    match read.program with
    | .done _ | .failed _ => none
    | .await call next =>
      if call.synchronous then none
      else
        let answered := effect settings read.self call (now time) p.cluster
        some { p with
          cluster := answered.2
          reads := Function.update p.reads thread
            (some { read with program := next answered.1 }) }

-- A response arrives, and what follows it runs up to the next `await`.
def resumeRead (thread : Nat) (clock : Nat → Int) : Option (Pool Instance) :=
  match p.reads thread with
  | none => none
  | some read =>
    if waits read.program then none
    else
      let paused := drain (effect settings read.self) Call.synchronous read.program
        (ticking clock) p.cluster
      some { p with
        cluster := paused.world
        reads := Function.update p.reads thread
          (inFlight { read with program := paused.program }) }

-- The next section of any `keys.set` call, once the session's lock is free.
def grant (self : Instance) (sessionId : String) (change : Section) : Option (Pool Instance) :=
  match p.sections sessionId with
  | some _ => none
  | none => some (p.moved p.cluster sessionId (some ⟨self, .issued change⟩))

def store (sessionId : String) (time : Int) : Option (Pool Instance) :=
  match p.sections sessionId with
  | some ⟨self, .issued change⟩ =>
    some (p.moved
      { p.cluster with db := change.write settings.versioning time sessionId p.cluster.db }
      sessionId (some ⟨self, .stored change⟩))
  | _ => none

def branches (sessionId : String) : Section → List Branch
  | .upsert entries => entries.map fun entry => ⟨entry.key, do
      let version ← dateNow
      onWritten settings.redis sessionId entry.key entry.value version⟩
  | .remove deletions => deletions.map fun key => ⟨key, onDeleted settings.redis sessionId key⟩

-- The calls start one after the other, each running up to its first `await`.
def start (self : Instance) : List Branch → Oracle Choice → Cluster Instance →
    List Branch × Cluster Instance
  | [], _, w => ([], w)
  | branch :: rest, oracle, w =>
    let paused := drain (effect settings self) Call.synchronous branch.program oracle w
    let started := start self rest paused.oracle paused.world
    (⟨branch.key, paused.program⟩ :: started.1, started.2)

def announce (sessionId : String) (clock : Nat → Int) : Option (Pool Instance) :=
  match p.sections sessionId with
  | some ⟨self, .stored change⟩ =>
    let started := start settings self (branches settings sessionId change) (ticking clock)
      p.cluster
    some (p.moved started.2 sessionId (some ⟨self, .announcing change started.1⟩))
  | _ => none

-- What is left of a branch after its L1 update are Redis commands.
def performBranch (sessionId : String) (index : Nat) (time : Int) : Option (Pool Instance) :=
  match p.sections sessionId with
  | some ⟨self, .announcing change branches⟩ =>
    match branches[index]? with
    | some ⟨key, .await call next⟩ =>
      let answered := effect settings self call (now time) p.cluster
      some (p.moved answered.2 sessionId
        (some ⟨self, .announcing change (branches.set index ⟨key, next answered.1⟩)⟩))
    | _ => none
  | _ => none

def release (sessionId : String) : Option (Pool Instance) :=
  match p.sections sessionId with
  | some ⟨_, .announcing _ branches⟩ =>
    if branches.all fun branch => finished branch.program then
      some (p.moved p.cluster sessionId none)
    else none
  | _ => none

def step : Event Instance → Option (Pool Instance)
  | .call thread self sessionId key clock => call settings p thread self sessionId key clock
  | .performRead thread time => performRead settings p thread time
  | .resumeRead thread clock => resumeRead settings p thread clock
  | .grant self sessionId change => grant p self sessionId change
  | .store sessionId time => store settings p sessionId time
  | .announce sessionId clock => announce settings p sessionId clock
  | .performBranch sessionId index time => performBranch settings p sessionId index time
  | .release sessionId => release p sessionId
  | .deliver subscriber key =>
    if key ∈ p.cluster.inbox subscriber then
      some { p with cluster := CacheManager.deliver p.cluster subscriber key }
    else none
  | .sweepExpired self time => some { p with
      cluster := p.cluster.withL1 self ((p.cluster.l1 self).sweepExpired time) }

end Step

/-- No operation is in flight, and every invalidation message has been delivered. -/
structure Pool.Quiescent (p : Pool Instance) : Prop where
  reads : ∀ thread, p.reads thread = none
  sections : ∀ sessionId, p.sections sessionId = none
  delivered : ∀ self, p.cluster.inbox self = []

end BaileysSession.Interleaving
