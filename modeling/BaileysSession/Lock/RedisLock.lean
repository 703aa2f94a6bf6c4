import BaileysSession.Shared.ExpiringStore
import BaileysSession.Shared.Transition

set_option autoImplicit false

namespace BaileysSession.RedisLock

/-- The arguments of each `withLock` call and the token it draws, for one lock object's TTL. -/
structure Calls (Client : Type) where
  ttlMs : Nat
  key : Client → String
  token : Client → String
  maxWaitMs : Client → Nat

def lockKey (key : String) : String := "baileys-auth:lock:" ++ key

def timeoutMessage (key : String) (maxWaitMs : Nat) : String :=
  "Timed out waiting for distributed lock on \"" ++ key ++ "\" after " ++ toString maxWaitMs ++ "ms"

inductive Phase where
  | idle
  -- `client.set` is under way.
  | waiting (deadline : Nat)
  -- `set` answered null; the deadline is checked next.
  | refused (deadline : Nat)
  -- `set` took effect at that time and its answer is under way.
  | acquired (since : Nat)
  | running (since : Nat)
  -- `fn` has settled and `client.eval` is under way.
  | releasing (since : Nat) (returned : Bool)
  | done (returned : Bool)
  | timedOut (message : String)
  -- `client.set` rejected.
  | failed
  deriving DecidableEq, Repr

structure State (Client : Type) where
  now : Nat
  store : ExpiringStore String String
  phase : Client → Phase

def initial (Client : Type) : State Client where
  now := 0
  store := .empty
  phase := fun _ => .idle

inductive Event (Client : Type) where
  | call (client : Client) (dateNow : Nat)
  | set (client : Client)
  | setFails (client : Client) (applied : Bool)
  | checkDeadline (client : Client) (dateNow : Nat)
  | granted (client : Client)
  | bodySettles (client : Client) (returned : Bool)
  | release (client : Client)
  | releaseFails (client : Client) (applied : Bool)
  | elapse (ms : Nat)
  deriving DecidableEq, Repr

def Event.client? {Client : Type} : Event Client → Option Client
  | .call client _ | .set client | .setFails client _ | .checkDeadline client _
  | .granted client | .bodySettles client _ | .release client | .releaseFails client _ =>
    some client
  | .elapse _ => none

variable {Client : Type} [DecidableEq Client]

def State.enter (s : State Client) (client : Client) (phase : Phase) : State Client :=
  { s with phase := Function.update s.phase client phase }

-- Redis refuses `PX 0`.
def trySet (calls : Calls Client) (s : State Client) (client : Client) :
    Option (ExpiringStore String String) :=
  if calls.ttlMs = 0 then none
  else s.store.setIfAbsent s.now (lockKey (calls.key client)) (calls.token client) calls.ttlMs

def runScript (calls : Calls Client) (s : State Client) (client : Client) :
    ExpiringStore String String :=
  s.store.deleteIfEqual s.now (lockKey (calls.key client)) (calls.token client)

def step (calls : Calls Client) : Transition.Step (State Client) (Event Client) := fun s event =>
  match event with
  | .call client dateNow =>
    match s.phase client with
    | .idle => some (s.enter client (.waiting (dateNow + calls.maxWaitMs client)))
    | _ => none
  | .set client =>
    match s.phase client with
    | .waiting deadline =>
      if calls.ttlMs = 0 then none
      else match trySet calls s client with
        | some store => some ({ s with store }.enter client (.acquired s.now))
        | none => some (s.enter client (.refused deadline))
    | _ => none
  | .setFails client applied =>
    -- The answer is lost, whether the command was executed or not.
    match s.phase client with
    | .waiting _ =>
      some ({ s with store := if applied then (trySet calls s client).getD s.store
                              else s.store }.enter client .failed)
    | _ => none
  | .checkDeadline client dateNow =>
    match s.phase client with
    | .refused deadline =>
      if deadline ≤ dateNow then
        some (s.enter client (.timedOut (timeoutMessage (calls.key client) (calls.maxWaitMs client))))
      else some (s.enter client (.waiting deadline))
    | _ => none
  | .granted client =>
    match s.phase client with
    | .acquired since => some (s.enter client (.running since))
    | _ => none
  | .bodySettles client returned =>
    match s.phase client with
    | .running since => some (s.enter client (.releasing since returned))
    | _ => none
  | .release client =>
    match s.phase client with
    | .releasing _ returned =>
      some ({ s with store := runScript calls s client }.enter client (.done returned))
    | _ => none
  | .releaseFails client applied =>
    match s.phase client with
    | .releasing _ returned =>
      some ({ s with store := if applied then runScript calls s client
                              else s.store }.enter client (.done returned))
    | _ => none
  | .elapse ms => some { s with now := s.now + ms }

def Phase.since? : Phase → Option Nat
  | .acquired since | .running since | .releasing since _ => some since
  | .idle | .waiting _ | .refused _ | .done _ | .timedOut _ | .failed => none

def Phase.committed : Phase → Bool
  | .acquired _ | .running _ | .releasing _ _ | .done _ | .failed => true
  | .idle | .waiting _ | .refused _ | .timedOut _ => false

def Owns (s : State Client) (client : Client) (since : Nat) : Prop :=
  (s.phase client).since? = some since

end BaileysSession.RedisLock
