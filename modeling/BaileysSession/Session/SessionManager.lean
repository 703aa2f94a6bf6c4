import BaileysSession.Adapter.DatabaseAdapter
import BaileysSession.Shared.Async

set_option autoImplicit false

namespace BaileysSession.SessionManager

open Async Conformance DatabaseAdapter
open KeyedTable (Arrangement)

section Source

abbrev Program := Async Operation (fun _ => Answer) String

def sessionExists (sessionId : String) : Program Bool := do
  match ← perform (.sessionExists sessionId) with
  | .bool found => pure found
  | _ => throw "rejected"

def getAllKeys (sessionId : String) : Program (List String) := do
  match ← perform (.getAllKeys sessionId) with
  | .texts found => pure found
  | _ => throw "rejected"

def get (sessionId key : String) : Program (Option Record) := do
  match ← perform (.get sessionId key) with
  | .record found => pure found
  | _ => throw "rejected"

def setMany (sessionId : String) (entries : List Entry) : Program Unit := do
  match ← perform (.setMany sessionId entries) with
  | .done => pure ()
  | _ => throw "rejected"

def exportKeys (sessionId : String) : List String → Program (List (String × String))
  | [] => pure []
  | key :: rest => do
    let record ← get sessionId key
    let more ← exportKeys sessionId rest
    match record with
    | some record => pure ((key, record.value) :: more)
    | none => pure more

def exportSession (sessionId : String) : Program (List (String × String)) := do
  let keys ← getAllKeys sessionId
  exportKeys sessionId keys

-- An assignment to `__proto__` that is no object has no effect.
def assign (object : InsertionMap String String) (pair : String × String) :
    InsertionMap String String :=
  if pair.1 = "__proto__" then object else object.set pair.1 pair.2

def exportSessionToObject (sessionId : String) : Program (InsertionMap String String) := do
  let pairs ← exportSession sessionId
  pure (pairs.foldl assign .empty)

def importSession (sessionId : String) (data : InsertionMap String String) : Program Unit :=
  setMany sessionId (data.entries.map fun entry => ⟨entry.1, entry.2⟩)

structure SessionInfo where
  sessionId : String
  keys : List String
  updatedAt : Int
  deriving DecidableEq, Repr

def getEach (sessionId : String) : List String → Program (List (Option Record))
  | [] => pure []
  | key :: rest => do
    let record ← get sessionId key
    let more ← getEach sessionId rest
    pure (record :: more)

def latest (updatedAt : Int) (record : Option Record) : Int :=
  match record with
  | some record => if record.updatedAt > updatedAt then record.updatedAt else updatedAt
  | none => updatedAt

-- The reads take effect in some order, and their answers arrive in another one.
def getSessionInfo (order : Arrangement String) (arrival : Arrangement (Option Record))
    (sessionId : String) : Program (Option SessionInfo) := do
  let found ← sessionExists sessionId
  if found then do
    let keys ← getAllKeys sessionId
    let records ← getEach sessionId (order.arrange keys)
    pure (some ⟨sessionId, keys, (arrival.arrange records).foldl latest 0⟩)
  else pure none

end Source

section Calls

variable {State Choice : Type}

/-- A database, and what is stored in it. -/
structure World (State : Type) where
  state : State
  rows : Rows

def Sound (holds : State → Rows → Prop) (w : World State) : Prop := holds w.state w.rows

-- The calls others make before a call, and what the database and the clock leave open in it.
structure Turn (Choice : Type) where
  others : List (Choice × Call)
  choice : Choice
  dateNow : Int

def Turn.before (turn : Turn Choice) (rows : Rows) : Rows :=
  contract.asks rows (turn.others.map Prod.snd)

def effect (component : Component State Choice Call Answer) :
    Effect (fun _ : Operation => Answer) (Turn Choice) (World State) :=
  fun operation turn w =>
    let answered := component turn.choice ⟨operation, turn.dateNow⟩
      (final component w.state turn.others)
    (answered.1, ⟨answered.2, asked ⟨operation, turn.dateNow⟩ (turn.before w.rows)⟩)

/-- All calls are admitted, and the rows that the own call finds meet a condition. -/
def Taken (admitted : Rows → Choice → Call → Prop) (found : Rows → Prop) (w : World State)
    (operation : Operation) (turn : Turn Choice) : Prop :=
  contract.Admits admitted w.rows turn.others ∧
    admitted (turn.before w.rows) turn.choice ⟨operation, turn.dateNow⟩ ∧ found (turn.before w.rows)

variable {component : Component State Choice Call Answer} {holds : State → Rows → Prop}
  {admitted : Rows → Choice → Call → Prop} {found : Rows → Prop}

/-- A call is answered rightly for rows that meet the condition. -/
theorem perform_spec (conforms : Conforms contract component holds admitted)
    (operation : Operation) :
    Triple (effect component) (Taken admitted found) (Sound holds)
      (perform operation : Program Answer)
      (Returns fun answer w => Sound holds w ∧ ∃ rows dateNow, found rows ∧
        right ⟨operation, dateNow⟩ rows answer ∧ w.rows = asked ⟨operation, dateNow⟩ rows) := by
  constructor
  rintro oracle w initial ⟨⟨others, own, meets⟩, -⟩
  have between := (conforms.run initial others).2
  have answered := conforms.answered (oracle 0).choice ⟨operation, (oracle 0).dateNow⟩ _ _ between own
  have kept := conforms.kept (oracle 0).choice ⟨operation, (oracle 0).dateNow⟩ _ _ between own
  exact ⟨kept, _, _, meets, answered, rfl⟩

end Calls

section Reading

variable {State Choice : Type} {component : Component State Choice Call Answer}
  {holds : State → Rows → Prop} {admitted : Rows → Choice → Call → Prop}
  {sessionId : String} {throughout : String → Option Stamped → Prop}

def Meets (sessionId : String) (throughout : String → Option Stamped → Prop) (rows : Rows) : Prop :=
  ∀ key, throughout key (rows (sessionId, key))

variable (conforms : Conforms contract component holds admitted)

include conforms

theorem getAllKeys_spec :
    Triple (effect component) (Taken admitted (Meets sessionId throughout))
      (Sound holds) (getAllKeys sessionId)
      (Returns fun keys w => Sound holds w ∧ ∃ rows, Meets sessionId throughout rows ∧
        Lists keys fun key => rows (sessionId, key) ≠ none) := by
  apply triple_then (perform_spec conforms (.getAllKeys sessionId))
  intro answer
  apply triple_from
  rintro w ⟨after, rows, dateNow, meets, ⟨keys, rfl, lists⟩, -⟩
  apply triple_done
  rintro _ rfl
  exact ⟨after, rows, meets, lists⟩

theorem get_spec (key : String) :
    Triple (effect component) (Taken admitted (Meets sessionId throughout))
      (Sound holds) (get sessionId key)
      (Returns fun found w => Sound holds w ∧
        throughout key (found.map fun record => ⟨record.value, record.updatedAt⟩)) := by
  apply triple_then (perform_spec conforms (.get sessionId key))
  intro answer
  apply triple_from
  rintro w ⟨after, rows, dateNow, meets, ⟨found, rfl, stored⟩, -⟩
  apply triple_done
  rintro _ rfl
  refine ⟨after, ?_⟩
  have same : (found.map fun record => ⟨record.value, record.updatedAt⟩) = rows (sessionId, key) := by
    have contents := congrArg (Option.map Prod.snd) stored
    rw [Option.map_map, content, Option.map_map] at contents
    exact contents.trans Option.map_id'
  exact same ▸ meets key

end Reading

end BaileysSession.SessionManager
