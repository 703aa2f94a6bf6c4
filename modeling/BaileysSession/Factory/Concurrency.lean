import BaileysSession.Factory.KeysGet
import BaileysSession.Shared.Transition
import Mathlib.Algebra.Order.BigOperators.Group.List
import Mathlib.Algebra.Order.Ring.Nat

set_option autoImplicit false

namespace BaileysSession.Concurrency

open Async CacheManager KeysGet Transition

variable {Value : Type}

structure AuthState (Value : Type) where
  sessionId : String
  redis : Option RedisMode
  codec : Codec Value
  concurrency : Nat

def readId (auth : AuthState Value) (type : Category) (id : String) : Program (Option Value) := do
  let raw ← CacheManager.get auth.redis auth.sessionId (cacheKeyName type id)
  match decodeEntry auth.codec type raw with
  | .error error => throw error
  | .ok value => pure value

inductive Phase where
  | queued
  | running
  | settled
  deriving DecidableEq

structure Task where
  key : String
  phase : Phase

structure SessionInfo where
  sessionId : String
  keys : List String
  updatedAt : Int

-- What `getSessionInfo` waits for; `Promise.all` has rejected once there is a failure.
inductive InfoStage where
  | sessionExists
  | getAllKeys
  | records (tasks : List Task) (updatedAt : Int) (failure : Option String)
  | settled (result : Except String (Option SessionInfo))

inductive ExportStage where
  | getAllKeys
  | record (task : Task) (rest : List String)
  -- The consumer has the entry and has not asked for the next one.
  | yielded (entry : String × String) (rest : List String)
  | settled (failure : Option String)

-- The function mapped over one id; `uncached` says that no cache has the id, and that the
-- database has not answered yet.
structure Branch (Value : Type) where
  uncached : Bool
  program : Program (Option Value)

inductive Operation (Value : Type) where
  | keysGet (branches : List (Branch Value))
  | getSessionInfo (sessionId : String) (stage : InfoStage)
  | exportSession (sessionId : String) (stage : ExportStage)

-- One reply for whichever call a branch waits for.
abbrev Replies := (call : Call) → Reply call

inductive Action where
  | reply (branch : Nat) (replies : Replies)
  | sessionExists (answer : Except String Bool)
  | allKeys (answer : Except String (List String))
  -- The limiter starts a function, which calls `adapter.get`.
  | start (task : Nat)
  | record (task : Nat) (answer : Except String (Option SessionRecord))
  | next
  | stop

def resume {Result : Type} (replies : Replies) : Program Result → Option (Program Result)
  | .await call next => some (next (replies call))
  | .done _ | .failed _ => none

def asks {Result : Type} : Program Result → Bool
  | .await (.dbGet _ _) _ => true
  | _ => false

def Branch.resumed (branch : Branch Value) (program : Program (Option Value)) : Branch Value :=
  ⟨branch.uncached && !asks branch.program, program⟩

def exportNext : List String → ExportStage
  | [] => .settled none
  | key :: rest => .record ⟨key, .queued⟩ rest

def latest (updatedAt : Int) : Option SessionRecord → Int
  | some record => if record.updatedAt > updatedAt then record.updatedAt else updatedAt
  | none => updatedAt

def InfoStage.recorded (tasks : List Task) (updatedAt : Int) (failure : Option String) :
    Except String (Option SessionRecord) → InfoStage
  | .ok record => .records tasks (latest updatedAt record) failure
  | .error error => .records tasks updatedAt (failure <|> some error)

def ExportStage.recorded (key : String) (rest : List String) :
    Except String (Option SessionRecord) → ExportStage
  | .ok (some found) => .yielded (key, found.value) rest
  | .ok none => exportNext rest
  | .error error => .settled (some error)

def moveTask (tasks : List Task) (index : Nat) (before after : Phase) : Option (List Task) :=
  match tasks[index]? with
  | some task => if task.phase = before then some (tasks.set index { task with phase := after })
    else none
  | none => none

def InfoStage.result (sessionId : String) : InfoStage → Option (Except String (Option SessionInfo))
  | .records tasks updatedAt none =>
    if tasks.all fun task => task.phase = .settled then
      some (.ok (some ⟨sessionId, tasks.map Task.key, updatedAt⟩))
    else none
  | .records _ _ (some error) => some (.error error)
  | .settled result => some result
  | .sessionExists | .getAllKeys => none

-- `free` says that the limiter runs fewer functions than it may.
def InfoStage.act (free : Bool) : Action → InfoStage → Option InfoStage
  | .sessionExists (.ok true), .sessionExists => some .getAllKeys
  | .sessionExists (.ok false), .sessionExists => some (.settled (.ok none))
  | .sessionExists (.error error), .sessionExists => some (.settled (.error error))
  | .allKeys (.ok keys), .getAllKeys => some (.records (keys.map fun key => ⟨key, .queued⟩) 0 none)
  | .allKeys (.error error), .getAllKeys => some (.settled (.error error))
  | .start task, .records tasks updatedAt failure =>
    if free then (moveTask tasks task .queued .running).map (.records · updatedAt failure)
    else none
  | .record task answer, .records tasks updatedAt failure =>
    (moveTask tasks task .running .settled).map (.recorded · updatedAt failure answer)
  | _, _ => none

def ExportStage.act (free : Bool) : Action → ExportStage → Option ExportStage
  | .allKeys (.ok keys), .getAllKeys => some (exportNext keys)
  | .allKeys (.error error), .getAllKeys => some (.settled (some error))
  | .start _, .record task rest =>
    if free ∧ task.phase = .queued then some (.record { task with phase := .running } rest)
    else none
  | .record _ answer, .record task rest =>
    if task.phase = .running then some (.recorded task.key rest answer) else none
  | .next, .yielded _ rest => some (exportNext rest)
  | .stop, .yielded _ _ => some (.settled none)
  | _, _ => none

def Operation.act (free : Bool) (action : Action) : Operation Value → Option (Operation Value)
  | .keysGet branches =>
    match action with
    | .reply index replies =>
      branches[index]?.bind fun branch => (resume replies branch.program).map fun program =>
        .keysGet (branches.set index (branch.resumed program))
    | _ => none
  | .getSessionInfo sessionId stage =>
    (stage.act free action).map (.getSessionInfo sessionId)
  | .exportSession sessionId stage => (stage.act free action).map (.exportSession sessionId)

def Phase.runs : Phase → Nat
  | .running => 1
  | .queued | .settled => 0

def Phase.waits : Phase → Nat
  | .queued | .running => 1
  | .settled => 0

def InfoStage.tasks : InfoStage → List Task
  | .records tasks _ _ => tasks
  | .sessionExists | .getAllKeys | .settled _ => []

def ExportStage.tasks : ExportStage → List Task
  | .record task _ => [task]
  | .getAllKeys | .yielded _ _ | .settled _ => []

def Operation.branches : Operation Value → List (Branch Value)
  | .keysGet branches => branches
  | .getSessionInfo _ _ | .exportSession _ _ => []

def Operation.tasks : Operation Value → List Task
  | .keysGet _ => []
  | .getSessionInfo _ stage => stage.tasks
  | .exportSession _ stage => stage.tasks

def total {Item : Type} (measure : Item → Nat) (items : List Item) : Nat :=
  (items.map measure).sum

def tasksIn (measure : Phase → Nat) (tasks : List Task) : Nat :=
  total (fun task => measure task.phase) tasks

abbrev State (Value : Type) := List (Operation Value)

def asking (branches : List (Branch Value)) : Nat :=
  total (fun branch => (asks branch.program).toNat) branches

def missing (branches : List (Branch Value)) : Nat :=
  total (fun branch => branch.uncached.toNat) branches

def lookups (state : State Value) : Nat :=
  total (fun operation => asking operation.branches) state

/-- The ids of `keys.get` that no cache has, while the database has not answered for them. -/
def uncached (state : State Value) : Nat :=
  total (fun operation => missing operation.branches) state

def running (state : State Value) : Nat :=
  total (fun operation => tasksIn Phase.runs operation.tasks) state

def unsettled (state : State Value) : Nat :=
  total (fun operation => tasksIn Phase.waits operation.tasks) state

/-- The calls of `adapter.get` that no answer has come for. -/
def inFlight (state : State Value) : Nat := lookups state + running state

inductive Event where
  -- With each id, whether no cache has it.
  | keysGet (type : Category) (ids : List (String × Bool))
  | getSessionInfo (sessionId : String)
  | exportSession (sessionId : String)
  | act (operation : Nat) (action : Action)

def step (auth : AuthState Value) : Step (State Value) Event
  | state, .keysGet type ids =>
    some (state ++ [.keysGet (ids.map fun id => ⟨id.2, readId auth type id.1⟩)])
  | state, .getSessionInfo sessionId => some (state ++ [.getSessionInfo sessionId .sessionExists])
  | state, .exportSession sessionId => some (state ++ [.exportSession sessionId .getAllKeys])
  | state, .act index action =>
    (state[index]?.bind (Operation.act (decide (running state < auth.concurrency)) action)).map
      fun operation => state.set index operation

/-- A reply sends a branch of `keys.get` on to the database only for an id that no cache has. -/
def foreseen : Action → Operation Value → Bool
  | .reply index replies, .keysGet branches =>
    branches[index]?.all fun branch => (resume replies branch.program).all fun program =>
      !asks program || (branch.resumed program).uncached
  | _, _ => true

def InfoStage.handed : Action → InfoStage → Nat
  | .allKeys (.ok keys), .getAllKeys => keys.length
  | _, _ => 0

def ExportStage.handed : Action → ExportStage → Nat
  | .allKeys (.ok keys), .getAllKeys => min 1 keys.length
  | .next, .yielded _ rest => min 1 rest.length
  | _, _ => 0

def handed (action : Action) : Operation Value → Nat
  | .keysGet _ => 0
  | .getSessionInfo _ stage => stage.handed action
  | .exportSession _ stage => stage.handed action

def fresh (ids : List (String × Bool)) : Nat := total (fun id => id.2.toNat) ids

/-- The ids that no cache has fit under the cap together with the functions that the limiter has
still to settle: where such ids are asked for, and where functions are given to the limiter. -/
def LeavesRoom (auth : AuthState Value) (state : State Value) : Event → Prop
  | .keysGet _ ids =>
    fresh ids = 0 ∨ uncached state + unsettled state + fresh ids ≤ auth.concurrency
  | .act index action => ∀ operation ∈ state[index]?, foreseen action operation = true ∧
      (uncached state = 0 ∨ handed action operation = 0 ∨
        uncached state + unsettled state + handed action operation ≤ auth.concurrency)
  | .getSessionInfo _ | .exportSession _ => True

instance (auth : AuthState Value) (state : State Value) (event : Event) :
    Decidable (LeavesRoom auth state event) :=
  match event with
  | .keysGet _ _ => inferInstanceAs (Decidable (_ ∨ _))
  | .act index action => inferInstanceAs (Decidable (∀ operation ∈ state[index]?,
      foreseen action operation = true ∧ (uncached state = 0 ∨ handed action operation = 0 ∨
        uncached state + unsettled state + handed action operation ≤ auth.concurrency)))
  | .getSessionInfo _ | .exportSession _ => .isTrue trivial

section Totals

variable {Item : Type} {measure : Item → Nat}

theorem total_set {items : List Item} {index : Nat} {item : Item} (other : Item)
    (found : items[index]? = some item) :
    total measure (items.set index other) + measure item = total measure items + measure other := by
  induction items generalizing index with
  | nil => cases found
  | cons first rest ih =>
    cases index with
    | zero =>
      cases Option.some.inj found
      simp only [total, List.set_cons_zero, List.map_cons, List.sum_cons]
      omega
    | succ index =>
      have later := ih found
      simp only [total, List.set_cons_succ, List.map_cons, List.sum_cons] at later ⊢
      omega

theorem total_le {larger : Item → Nat} (below : ∀ item, measure item ≤ larger item)
    (items : List Item) : total measure items ≤ total larger items :=
  List.sum_le_sum fun item _ => below item

end Totals

theorem runs_le_waits (phase : Phase) : phase.runs ≤ phase.waits := by
  cases phase <;> decide

theorem running_le_unsettled (state : State Value) : running state ≤ unsettled state := by
  apply total_le
  intro operation
  exact total_le (fun task => runs_le_waits task.phase) operation.tasks

theorem moveTask_tasks {tasks moved : List Task} {index : Nat} {before after : Phase}
    (measure : Phase → Nat) (done : moveTask tasks index before after = some moved) :
    tasksIn measure moved + measure before = tasksIn measure tasks + measure after := by
  rw [moveTask] at done
  split at done
  · rename_i task found
    split at done
    · rename_i same
      cases Option.some.inj done
      rw [← same]
      exact total_set { task with phase := after } found
    · cases done
  · cases done

def Moves (free : Bool) (given : Nat) (before after : List Task) : Prop :=
  (free = true ∧ tasksIn Phase.runs after = tasksIn Phase.runs before + 1 ∧
      tasksIn Phase.waits after = tasksIn Phase.waits before) ∨
    (tasksIn Phase.runs after ≤ tasksIn Phase.runs before ∧
      tasksIn Phase.waits after ≤ tasksIn Phase.waits before + given)

theorem moves_untouched {free : Bool} {tasks : List Task} : Moves free 0 tasks tasks :=
  .inr ⟨Nat.le_refl _, Nat.le_refl _⟩

theorem tasksIn_queued (measure : Phase → Nat) (keys : List String) :
    tasksIn measure (keys.map fun key => ⟨key, .queued⟩) = keys.length * measure .queued := by
  induction keys with
  | nil => simp [tasksIn, total]
  | cons key rest ih =>
    simp only [tasksIn, total, List.map_cons, List.sum_cons, List.length_cons] at ih ⊢
    rw [ih, Nat.add_one_mul, Nat.add_comm]

theorem result_eq_none_iff (sessionId : String) (tasks : List Task) (updatedAt : Int) :
    (InfoStage.records tasks updatedAt none).result sessionId = none ↔
      0 < tasksIn Phase.waits tasks := by
  have settled : (tasks.all fun task => decide (task.phase = .settled)) = true ↔
      tasksIn Phase.waits tasks = 0 := by
    induction tasks with
    | nil => simp [tasksIn, total]
    | cons task rest ih =>
      simp only [tasksIn, total, List.all_cons, Bool.and_eq_true, decide_eq_true_eq,
        List.map_cons, List.sum_cons, Nat.add_eq_zero_iff] at ih ⊢
      rw [ih]
      cases task.phase <;> simp [Phase.waits]
  rw [InfoStage.result]
  split
  · rename_i all
    simp [settled.mp all]
  · rename_i waiting
    simp only [true_iff]
    exact Nat.pos_of_ne_zero fun none => waiting (settled.mpr none)

theorem moves_start {free : Bool} {tasks moved : List Task} {index : Nat}
    (room : free = true) (done : moveTask tasks index .queued .running = some moved) :
    Moves free 0 tasks moved := by
  have runs := moveTask_tasks Phase.runs done
  have waits := moveTask_tasks Phase.waits done
  simp only [Phase.runs, Phase.waits] at runs waits
  exact .inl ⟨room, by omega, by omega⟩

theorem moves_settle {free : Bool} {tasks moved : List Task} {index : Nat}
    (done : moveTask tasks index .running .settled = some moved) : Moves free 0 tasks moved := by
  have runs := moveTask_tasks Phase.runs done
  have waits := moveTask_tasks Phase.waits done
  simp only [Phase.runs, Phase.waits] at runs waits
  exact .inr ⟨by omega, by omega⟩

theorem InfoStage.act_moves {free : Bool} {action : Action} {stage next : InfoStage}
    (acted : stage.act free action = some next) :
    Moves free (stage.handed action) stage.tasks next.tasks := by
  unfold InfoStage.act at acted
  split at acted
  · cases acted
    exact moves_untouched
  · cases acted
    exact moves_untouched
  · cases acted
    exact moves_untouched
  · rename_i keys
    cases acted
    right
    simp only [InfoStage.tasks, InfoStage.handed, tasksIn_queued, Phase.runs, Phase.waits]
    omega
  · cases acted
    exact moves_untouched
  · split at acted
    · rename_i room
      obtain ⟨moved, done, rfl⟩ := Option.map_eq_some_iff.mp acted
      exact moves_start room done
    · cases acted
  · rename_i answer _ _ _
    obtain ⟨moved, done, rfl⟩ := Option.map_eq_some_iff.mp acted
    cases answer with
    | ok record => exact moves_settle done
    | error error => exact moves_settle done
  · cases acted

theorem exportNext_tasks (measure : Phase → Nat) (keys : List String) :
    tasksIn measure (exportNext keys).tasks = min 1 keys.length * measure .queued := by
  have tasks : (exportNext keys).tasks = (keys.take 1).map fun key => ⟨key, .queued⟩ := by
    cases keys <;> rfl
  rw [tasks, tasksIn_queued, List.length_take]

theorem moves_next {free : Bool} (keys : List String) :
    Moves free (min 1 keys.length) [] (exportNext keys).tasks := by
  right
  simp only [exportNext_tasks, Phase.runs, Phase.waits]
  omega

theorem ExportStage.act_moves {free : Bool} {action : Action} {stage next : ExportStage}
    (acted : stage.act free action = some next) :
    Moves free (stage.handed action) stage.tasks next.tasks := by
  unfold ExportStage.act at acted
  split at acted
  · rename_i keys
    cases acted
    exact moves_next keys
  · cases acted
    exact moves_untouched
  · rename_i task rest
    split at acted
    · rename_i room
      cases acted
      left
      simp [ExportStage.tasks, tasksIn, total, room.1, room.2, Phase.runs, Phase.waits]
    · cases acted
  · rename_i answer task rest
    split at acted
    · rename_i started
      cases acted
      have one : ∀ measure, tasksIn measure (ExportStage.record task rest).tasks =
          measure .running := by
        intro measure
        rw [← started]
        exact Nat.add_zero _
      right
      rw [one, one]
      cases answer with
      | error error => exact ⟨Nat.zero_le _, Nat.zero_le _⟩
      | ok record =>
        cases record with
        | some record => exact ⟨Nat.zero_le _, Nat.zero_le _⟩
        | none =>
          simp only [ExportStage.recorded, exportNext_tasks, Phase.runs, Phase.waits]
          omega
    · cases acted
  · rename_i entry rest
    cases acted
    exact moves_next rest
  · cases acted
    exact moves_untouched
  · cases acted

theorem act_moves {free : Bool} {action : Action} {operation next : Operation Value}
    (acted : operation.act free action = some next) :
    Moves free (handed action operation) operation.tasks next.tasks := by
  cases operation with
  | keysGet branches =>
    have idle : next.tasks = [] := by
      cases action with
      | reply index replies =>
        obtain ⟨branch, _, resumed⟩ := Option.bind_eq_some_iff.mp acted
        obtain ⟨program, _, rfl⟩ := Option.map_eq_some_iff.mp resumed
        rfl
      | _ => cases acted
    rw [idle]
    exact moves_untouched
  | getSessionInfo sessionId stage =>
    obtain ⟨later, moved, rfl⟩ := Option.map_eq_some_iff.mp acted
    exact InfoStage.act_moves moved
  | exportSession sessionId stage =>
    obtain ⟨later, moved, rfl⟩ := Option.map_eq_some_iff.mp acted
    exact ExportStage.act_moves moved

/-- The branches that ask the database are ones whose id no cache has. -/
def Foreseen (operation : Operation Value) : Prop :=
  ∀ branch ∈ operation.branches, asks branch.program = true → branch.uncached = true

theorem act_foreseen {free : Bool} {action : Action} {operation next : Operation Value}
    (before : Foreseen operation) (foretold : foreseen action operation = true)
    (acted : operation.act free action = some next) :
    Foreseen next ∧ missing next.branches ≤ missing operation.branches := by
  cases operation with
  | keysGet branches =>
    cases action with
    | reply index replies =>
      obtain ⟨branch, found, resumed⟩ := Option.bind_eq_some_iff.mp acted
      obtain ⟨program, ran, rfl⟩ := Option.map_eq_some_iff.mp resumed
      constructor
      · intro other inside asking
        rcases List.mem_or_eq_of_mem_set inside with old | rfl
        · exact before other old asking
        · simpa [foreseen, found, ran, show asks program = true from asking] using foretold
      · have counted : missing (branches.set index (branch.resumed program)) +
            branch.uncached.toNat = missing branches + (branch.resumed program).uncached.toNat :=
          total_set (branch.resumed program) found
        have fewer : (branch.resumed program).uncached.toNat ≤ branch.uncached.toNat :=
          Bool.toNat_le_toNat fun _ => by simp_all [Branch.resumed]
        simp only [Operation.branches]
        omega
    | _ => cases acted
  | getSessionInfo sessionId stage =>
    obtain ⟨later, _, rfl⟩ := Option.map_eq_some_iff.mp acted
    exact ⟨nofun, Nat.zero_le _⟩
  | exportSession sessionId stage =>
    obtain ⟨later, _, rfl⟩ := Option.map_eq_some_iff.mp acted
    exact ⟨nofun, Nat.zero_le _⟩

/-- The limiter keeps to its own bound, and `keys.get` only reads where the two fit together. -/
structure Capped (concurrency : Nat) (state : State Value) : Prop where
  limited : running state ≤ concurrency
  foreseen : ∀ operation ∈ state, Foreseen operation
  fits : uncached state = 0 ∨ uncached state + unsettled state ≤ concurrency

theorem lookups_le_uncached {state : State Value}
    (foretold : ∀ operation ∈ state, Foreseen operation) : lookups state ≤ uncached state := by
  apply List.sum_le_sum
  intro operation inside
  apply List.sum_le_sum
  intro branch listed
  exact Bool.toNat_le_toNat (foretold operation inside branch listed)

theorem Capped.inFlight_le {concurrency : Nat} {state : State Value}
    (capped : Capped concurrency state) : inFlight state ≤ concurrency := by
  have limited := capped.limited
  have fewer := running_le_unsettled state
  have asked := lookups_le_uncached capped.foreseen
  rw [inFlight]
  rcases capped.fits with none | fits <;> omega

theorem total_snoc {Item : Type} (measure : Item → Nat) (items : List Item) (item : Item) :
    total measure (items ++ [item]) = total measure items + measure item := by
  simp [total]

theorem Capped.called {concurrency : Nat} {state : State Value} (operation : Operation Value)
    (capped : Capped concurrency state) (silent : asking operation.branches = 0)
    (idle : operation.tasks = []) (room : missing operation.branches = 0 ∨
      uncached state + unsettled state + missing operation.branches ≤ concurrency) :
    Capped concurrency (state ++ [operation]) := by
  have runs : running (state ++ [operation]) = running state := by
    rw [running, total_snoc, idle]
    rfl
  have waits : unsettled (state ++ [operation]) = unsettled state := by
    rw [unsettled, total_snoc, idle]
    rfl
  have more : uncached (state ++ [operation]) = uncached state + missing operation.branches :=
    total_snoc _ _ _
  refine ⟨runs ▸ capped.limited, ?_, ?_⟩
  · intro other inside
    rcases List.mem_append.mp inside with old | added
    · exact capped.foreseen other old
    · obtain rfl := List.mem_singleton.mp added
      intro branch listed asking
      have counted := List.sum_eq_zero_iff.mp silent _ (List.mem_map_of_mem listed)
      rw [asking] at counted
      cases counted
  · have fits := capped.fits
    rw [waits, more]
    omega

theorem asking_fresh (auth : AuthState Value) (type : Category) (ids : List (String × Bool)) :
    asking (ids.map fun id => ⟨id.2, readId auth type id.1⟩) = 0 := by
  induction ids with
  | nil => rfl
  | cons id rest ih =>
    simp only [asking, total, List.map_cons, List.sum_cons] at ih ⊢
    rw [ih]
    rfl

theorem missing_fresh (auth : AuthState Value) (type : Category) (ids : List (String × Bool)) :
    missing (ids.map fun id => ⟨id.2, readId auth type id.1⟩) = fresh ids := by
  rw [missing, total, List.map_map]
  rfl

theorem step_capped {auth : AuthState Value} {state next : State Value} {event : Event}
    (capped : Capped auth.concurrency state) (room : LeavesRoom auth state event)
    (taken : step auth state event = some next) : Capped auth.concurrency next := by
  cases event with
  | keysGet type ids =>
    cases taken
    refine Capped.called (.keysGet _) capped (asking_fresh auth type ids) rfl ?_
    exact (missing_fresh auth type ids).symm ▸ room
  | getSessionInfo sessionId =>
    cases taken
    exact Capped.called _ capped rfl rfl (.inl rfl)
  | exportSession sessionId =>
    cases taken
    exact Capped.called _ capped rfl rfl (.inl rfl)
  | act index action =>
    obtain ⟨after, acted, rfl⟩ := Option.map_eq_some_iff.mp taken
    obtain ⟨operation, found, acted⟩ := Option.bind_eq_some_iff.mp acted
    obtain ⟨foretold, given⟩ := room operation found
    have misses : uncached (state.set index after) + missing operation.branches =
        uncached state + missing after.branches := total_set after found
    have runs : running (state.set index after) + tasksIn Phase.runs operation.tasks =
        running state + tasksIn Phase.runs after.tasks := total_set after found
    have waits : unsettled (state.set index after) + tasksIn Phase.waits operation.tasks =
        unsettled state + tasksIn Phase.waits after.tasks := total_set after found
    obtain ⟨still, fewer⟩ :=
      act_foreseen (capped.foreseen operation (List.mem_of_getElem? found)) foretold acted
    have limited := capped.limited
    have fits := capped.fits
    have bounded : running (state.set index after) ≤ auth.concurrency := by
      rcases act_moves acted with ⟨free, started, _⟩ | ⟨started, _⟩
      · have below := of_decide_eq_true free
        omega
      · omega
    have grown : unsettled (state.set index after) ≤ unsettled state +
        handed action operation := by
      rcases act_moves acted with ⟨_, _, same⟩ | ⟨_, more⟩
      · omega
      · omega
    refine ⟨bounded, ?_, ?_⟩
    · intro other inside
      rcases List.mem_or_eq_of_mem_set inside with old | rfl
      · exact capped.foreseen other old
      · exact still
    · omega

/-- Where the ids that no cache has always leave room for the limiter, the cap is kept at every
moment. -/
theorem inFlight_le_concurrency (auth : AuthState Value) {events : List Event} {state : State Value}
    (run : Run (step auth) (LeavesRoom auth) [] events state) :
    inFlight state ≤ auth.concurrency := by
  have initial : Capped auth.concurrency ([] : State Value) :=
    ⟨Nat.zero_le _, nofun, .inl rfl⟩
  have capped := run.invariant (Capped auth.concurrency)
    (fun _ _ _ holds room taken => step_capped holds room taken) initial
  exact capped.inFlight_le

def nothingStored : Replies
  | .dateNow => (0 : Int)
  | .l1Get _ => (none : Option Versioned)
  | .l1Set _ _ _ | .l1Delete _ | .l1DeleteByPrefix _ | .l1Clear => ()
  | .l2Get _ => (.ok none : Except String (Option Versioned))
  | .dbGet _ _ => (.ok none : Except String (Option SessionRecord))
  | .dbGetMany _ _ => (.ok .empty : Except String (InsertionMap String SessionRecord))
  | .dbGetAllKeys _ => (.ok [] : Except String (List String))
  | .l2Set _ _ _ | .l2Del _ | .publishInvalidation _ | .dbSetMany _ _ | .dbDeleteMany _ _
  | .dbDeleteSession _ => (.ok () : Except String Unit)

section FanOut

variable {auth : AuthState Value} (direct : auth.redis = none) (type : Category)

include direct

theorem readId_misses (id : String) :
    (resume nothingStored (readId auth type id)).any asks = true := by
  unfold readId
  rw [direct]
  rfl

theorem misses_in_order (before : List (Branch Value)) (ids : List String) :
    ∃ events branches, Run (step auth) anything
        [.keysGet (before ++ ids.map fun id => ⟨true, readId auth type id⟩)] events
        [.keysGet branches] ∧
      asking branches = asking before + ids.length := by
  induction ids generalizing before with
  | nil =>
    rw [List.map_nil, List.append_nil]
    exact ⟨[], before, .nil _, rfl⟩
  | cons id rest ih =>
    obtain ⟨program, resumed, asked⟩ := (Option.any_eq_true _ _).mp
      (readId_misses direct type id)
    let branch : Branch Value := ⟨true, readId auth type id⟩
    let others := rest.map fun id => (⟨true, readId auth type id⟩ : Branch Value)
    obtain ⟨events, branches, later, counted⟩ := ih (before ++ [branch.resumed program])
    refine ⟨.act 0 (.reply before.length nothingStored) :: events, branches,
      .cons trivial ?_ later, ?_⟩
    · have found : (before ++ branch :: others)[before.length]? = some branch := by
        rw [List.getElem?_append_right (Nat.le_refl _), Nat.sub_self]
        rfl
      have moved : (before ++ branch :: others).set before.length (branch.resumed program) =
          before ++ [branch.resumed program] ++ others := by
        rw [List.set_append_right _ _ (Nat.le_refl _), Nat.sub_self, List.append_assoc]
        rfl
      simp only [step, List.map_cons, List.getElem?_cons_zero, Option.bind_some, Operation.act]
      show Option.map _ (Option.bind (before ++ branch :: others)[before.length]? _) = _
      rw [found]
      simp only [Option.bind_some, branch, resumed, Option.map_some, List.set_cons_zero]
      exact congrArg (fun branches => some [Operation.keysGet branches]) moved
    · rw [counted]
      simp only [asking, total, List.map_append, List.sum_append, List.map_cons, List.map_nil,
        List.sum_cons, List.sum_nil, Branch.resumed, asked, Bool.toNat_true, List.length_cons]
      omega

/-- One call has as many reads in flight as it has ids, whatever the cap is. -/
theorem keysGet_fan_out (ids : List String) :
    ∃ events state, Run (step auth) anything []
        (.keysGet type (ids.map fun id => (id, true)) :: events) state ∧
      inFlight state = ids.length := by
  obtain ⟨events, branches, run, counted⟩ := misses_in_order direct type [] ids
  refine ⟨events, [.keysGet branches], .cons trivial ?_ run, ?_⟩
  · simp only [step, List.map_map, List.nil_append]
    rfl
  · simp only [inFlight, lookups, running, total, List.map_cons, List.map_nil, List.sum_cons,
      List.sum_nil, Operation.branches, Operation.tasks, tasksIn, counted]
    exact Nat.zero_add _

end FanOut

def textCodec : Codec String where
  decode := .ok
  truthy := fun _ => true
  fromObject := .ok

def authState (concurrency : Nat) : AuthState String :=
  ⟨"bot", none, textCodec, concurrency⟩

def missBoth : List Event :=
  [.keysGet .preKey [("1", true), ("2", true)], .act 0 (.reply 0 nothingStored),
    .act 0 (.reply 1 nothingStored)]

def shareCap : List Event :=
  missBoth ++ [.act 0 (.reply 0 nothingStored), .getSessionInfo "bot",
    .act 1 (.sessionExists (.ok true)), .act 1 (.allKeys (.ok ["creds"])), .act 1 (.start 0)]

theorem shared_cap_full : ∃ state, Run (step (authState 2)) (LeavesRoom (authState 2)) [] shareCap
    state ∧ lookups state = 1 ∧ running state = 1 ∧ inFlight state ≤ 2 := by
  have replayed : (replay (step (authState 2)) (LeavesRoom (authState 2)) [] shareCap).map
      (fun state => (lookups state, running state)) = some (1, 1) := by
    decide +kernel
  obtain ⟨state, reached, counted⟩ := Option.map_eq_some_iff.mp replayed
  have run := replay_run _ _ _ _ _ reached
  exact ⟨state, run, congrArg Prod.fst counted, congrArg Prod.snd counted,
    inFlight_le_concurrency (authState 2) run⟩

/-- With a cap of one, two ids that no cache has are read at once. -/
theorem two_reads_in_flight : (authState 1).concurrency = 1 ∧
    ∃ state, Run (step (authState 1)) anything [] missBoth state ∧ inFlight state = 2 := by
  have replayed : (replay (step (authState 1)) anything [] missBoth).map inFlight = some 2 := by
    decide +kernel
  obtain ⟨state, reached, counted⟩ := Option.map_eq_some_iff.mp replayed
  exact ⟨rfl, state, replay_run _ _ _ _ _ reached, counted⟩

end BaileysSession.Concurrency
