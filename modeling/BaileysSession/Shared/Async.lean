import Mathlib.Logic.Basic

set_option autoImplicit false

/-- An asynchronous function: it settles with a value or an error, or waits for the reply to a
call. -/
inductive Async (Call : Type) (Reply : Call → Type) (Error Result : Type) where
  | done (result : Result)
  | failed (error : Error)
  | await (call : Call) (next : Reply call → Async Call Reply Error Result)

namespace Async

variable {Call : Type} {Reply : Call → Type} {Error Result Other : Type}

def bind : Async Call Reply Error Result → (Result → Async Call Reply Error Other) →
    Async Call Reply Error Other
  | .done result, next => next result
  | .failed error, _ => .failed error
  | .await call rest, next => .await call fun reply => (rest reply).bind next

def recover : Async Call Reply Error Result → (Error → Async Call Reply Error Result) →
    Async Call Reply Error Result
  | .done result, _ => .done result
  | .failed error, handler => handler error
  | .await call rest, handler => .await call fun reply => (rest reply).recover handler

instance : Monad (Async Call Reply Error) where
  pure := .done
  bind := bind

instance : MonadExcept Error (Async Call Reply Error) where
  throw := .failed
  tryCatch := recover

def perform (call : Call) : Async Call Reply Error (Reply call) := .await call .done

section Evaluation

variable {Choice World : Type}

-- What a call does to the world and what it answers; the choice settles what is left open.
abbrev Effect (Reply : Call → Type) (Choice World : Type) :=
  (call : Call) → Choice → World → Reply call × World

abbrev Oracle (Choice : Type) := Nat → Choice

def Oracle.later (oracle : Oracle Choice) : Oracle Choice := fun index => oracle (index + 1)

structure Outcome (Error Result Choice World : Type) where
  result : Except Error Result
  world : World
  oracle : Oracle Choice

def evaluate (effect : Effect Reply Choice World) :
    Async Call Reply Error Result → Oracle Choice → World → Outcome Error Result Choice World
  | .done result, oracle, world => ⟨.ok result, world, oracle⟩
  | .failed error, oracle, world => ⟨.error error, world, oracle⟩
  | .await call next, oracle, world =>
    let answered := effect call (oracle 0) world
    evaluate effect (next answered.1) oracle.later answered.2

/-- Every call of the evaluation satisfies a condition in the world it is made in. -/
def Along (effect : Effect Reply Choice World) (ok : World → Call → Choice → Prop) :
    Async Call Reply Error Result → Oracle Choice → World → Prop
  | .done _, _, _ => True
  | .failed _, _, _ => True
  | .await call next, oracle, world =>
    let answered := effect call (oracle 0) world
    ok world call (oracle 0) ∧ Along effect ok (next answered.1) oracle.later answered.2

variable (effect : Effect Reply Choice World) (ok : World → Call → Choice → Prop)

instance along_decidable [∀ world call choice, Decidable (ok world call choice)] :
    (program : Async Call Reply Error Result) → (oracle : Oracle Choice) → (world : World) →
      Decidable (Along effect ok program oracle world)
  | .done _, _, _ => .isTrue trivial
  | .failed _, _, _ => .isTrue trivial
  | .await call next, oracle, world =>
    let answered := effect call (oracle 0) world
    @instDecidableAnd _ _ _ (along_decidable (next answered.1) oracle.later answered.2)

theorem Along.mono {effect : Effect Reply Choice World} {ok weaker : World → Call → Choice → Prop}
    (relaxed : ∀ world call choice, ok world call choice → weaker world call choice)
    {program : Async Call Reply Error Result} {oracle : Oracle Choice} {world : World}
    (along : Along effect ok program oracle world) : Along effect weaker program oracle world := by
  induction program generalizing oracle world with
  | done => trivial
  | failed => trivial
  | await call next ih => exact ⟨relaxed _ _ _ along.1, ih _ along.2⟩

/-- What every call keeps holds where each call is made. -/
theorem Along.kept {effect : Effect Reply Choice World} {ok : World → Call → Choice → Prop}
    {inv : World → Prop} (kept : ∀ world call choice, inv world → ok world call choice →
      inv (effect call choice world).2)
    {program : Async Call Reply Error Result} {oracle : Oracle Choice} {world : World}
    (along : Along effect ok program oracle world) (initial : inv world) :
    Along effect (fun world call choice => ok world call choice ∧ inv world) program oracle world ∧
      inv (evaluate effect program oracle world).world := by
  induction program generalizing oracle world with
  | done => exact ⟨trivial, initial⟩
  | failed => exact ⟨trivial, initial⟩
  | await call next ih =>
    have later := ih _ along.2 (kept world call (oracle 0) initial along.1)
    exact ⟨⟨⟨along.1, initial⟩, later.1⟩, later.2⟩

theorem Along.of_oracle {accepted : Choice → Prop} (program : Async Call Reply Error Result)
    {oracle : Oracle Choice} (world : World) (accepts : ∀ index, accepted (oracle index)) :
    Along effect (fun _ _ choice => accepted choice) program oracle world := by
  induction program generalizing oracle world with
  | done => trivial
  | failed => trivial
  | await call next ih => exact ⟨accepts 0, ih _ _ fun index => accepts (index + 1)⟩

theorem along_always (program : Async Call Reply Error Result) (oracle : Oracle Choice)
    (world : World) : Along effect (fun _ _ _ => True) program oracle world := by
  induction program generalizing oracle world with
  | done => trivial
  | failed => trivial
  | await call next ih => exact ⟨trivial, ih _ _ _⟩

theorem evaluate_bind (program : Async Call Reply Error Result)
    (next : Result → Async Call Reply Error Other) (oracle : Oracle Choice) (world : World) :
    evaluate effect (program >>= next) oracle world =
      match evaluate effect program oracle world with
      | ⟨.ok result, later, rest⟩ => evaluate effect (next result) rest later
      | ⟨.error error, later, rest⟩ => ⟨.error error, later, rest⟩ := by
  induction program generalizing oracle world with
  | done => rfl
  | failed => rfl
  | await call rest ih => exact ih _ _ _

theorem along_bind (program : Async Call Reply Error Result)
    (next : Result → Async Call Reply Error Other) (oracle : Oracle Choice) (world : World) :
    Along effect ok (program >>= next) oracle world ↔
      Along effect ok program oracle world ∧ ∀ result,
        (evaluate effect program oracle world).result = .ok result →
          Along effect ok (next result) (evaluate effect program oracle world).oracle
            (evaluate effect program oracle world).world := by
  induction program generalizing oracle world with
  | done result =>
    simp [Along, evaluate, Bind.bind, bind]
  | failed error =>
    simp [Along, evaluate, Bind.bind, bind]
  | await call rest ih =>
    simp only [Bind.bind] at ih
    simp only [Along, evaluate, Bind.bind, bind, ih, and_assoc]

/-- From every world that satisfies `before`, an evaluation all of whose calls satisfy `ok` ends
with a result and a world that satisfy `after`. -/
structure Triple (before : World → Prop) (program : Async Call Reply Error Result)
    (after : Except Error Result → World → Prop) : Prop where
  run : ∀ oracle world, before world → Along effect ok program oracle world →
    after (evaluate effect program oracle world).result (evaluate effect program oracle world).world

variable {effect ok}

theorem triple_done {before : World → Prop} {after : Except Error Result → World → Prop}
    {result : Result} (holds : ∀ world, before world → after (.ok result) world) :
    Triple effect ok before (.done result) after :=
  ⟨fun _ world initially _ => holds world initially⟩

theorem triple_bind {before : World → Prop} {between : Except Error Result → World → Prop}
    {after : Except Error Other → World → Prop} {program : Async Call Reply Error Result}
    {next : Result → Async Call Reply Error Other}
    (first : Triple effect ok before program between)
    (continues : ∀ result, Triple effect ok (between (.ok result)) (next result) after)
    (fails : ∀ error world, between (.error error) world → after (.error error) world) :
    Triple effect ok before (program >>= next) after := by
  constructor
  intro oracle world initially along
  obtain ⟨alongFirst, alongNext⟩ := (along_bind effect ok program next oracle world).mp along
  have middle := first.run oracle world initially alongFirst
  rw [evaluate_bind]
  revert middle alongNext
  obtain ⟨result, later, rest⟩ := evaluate effect program oracle world
  intro alongNext middle
  cases result with
  | error error => exact fails error later middle
  | ok result => exact (continues result).run rest later middle (alongNext result rfl)

theorem triple_from {before : World → Prop} {after : Except Error Result → World → Prop}
    {program : Async Call Reply Error Result}
    (each : ∀ world, before world → Triple effect ok (· = world) program after) :
    Triple effect ok before program after :=
  ⟨fun oracle world holds along => (each world holds).run oracle world rfl along⟩

theorem triple_at {before : World → Prop} {after : Except Error Result → World → Prop}
    {program : Async Call Reply Error Result} {world : World} (holds : before world)
    (triple : Triple effect ok before program after) :
    Triple effect ok (· = world) program after :=
  ⟨fun oracle _ same along => triple.run oracle _ (same ▸ holds) along⟩

def Returns (after : Result → World → Prop) : Except Error Result → World → Prop
  | .ok result, world => after result world
  | .error _, _ => False

theorem triple_then {before : World → Prop} {between : Result → World → Prop}
    {after : Except Error Other → World → Prop} {program : Async Call Reply Error Result}
    {next : Result → Async Call Reply Error Other}
    (first : Triple effect ok before program (Returns between))
    (continues : ∀ result, Triple effect ok (between result) (next result) after) :
    Triple effect ok before (program >>= next) after :=
  triple_bind first continues fun _ _ impossible => False.elim impossible

/-- Like `Returns`, with something that holds of the world an error leaves behind. -/
def Ends (failed : World → Prop) (after : Result → World → Prop) :
    Except Error Result → World → Prop
  | .ok result, world => after result world
  | .error _, world => failed world

theorem triple_ends {before failed : World → Prop} {between : Result → World → Prop}
    {after : Other → World → Prop} {program : Async Call Reply Error Result}
    {next : Result → Async Call Reply Error Other}
    (first : Triple effect ok before program (Ends failed between))
    (continues : ∀ result, Triple effect ok (between result) (next result) (Ends failed after)) :
    Triple effect ok before (program >>= next) (Ends failed after) :=
  triple_bind first continues fun _ _ left => left

theorem triple_weaken {before stronger failed anyhow : World → Prop}
    {after weaker : Result → World → Prop} {program : Async Call Reply Error Result}
    (triple : Triple effect ok before program (Ends failed after))
    (initially : ∀ world, stronger world → before world)
    (fails : ∀ world, failed world → anyhow world)
    (weaken : ∀ result world, after result world → weaker result world) :
    Triple effect ok stronger program (Ends anyhow weaker) := by
  constructor
  intro oracle world holds along
  have settled := triple.run oracle world (initially world holds) along
  revert settled
  cases (evaluate effect program oracle world).result with
  | ok result => exact weaken result _
  | error error => exact fails _

theorem triple_attempt {world : World} {failed : World → Prop} {between : Result → World → Prop}
    {after : Other → World → Prop} {program : Async Call Reply Error Result}
    {next : Result → Async Call Reply Error Other} (unharmed : failed world)
    (first : Triple effect ok (· = world) program (Ends (· = world) between))
    (continues : ∀ result, Triple effect ok (between result) (next result) (Ends failed after)) :
    Triple effect ok (· = world) (program >>= next) (Ends failed after) :=
  triple_ends (triple_weaken first (fun _ same => same) (fun _ same => same ▸ unharmed)
    fun _ _ holds => holds) continues

theorem triple_ending {before failed : World → Prop} {after : Result → World → Prop}
    {program : Async Call Reply Error Result}
    (triple : Triple effect ok before program (Ends failed after)) {oracle : Oracle Choice}
    {world : World} (initially : before world) (along : Along effect ok program oracle world) :
    (∀ result, (evaluate effect program oracle world).result = .ok result →
      after result (evaluate effect program oracle world).world) ∧
    ∀ error, (evaluate effect program oracle world).result = .error error →
      failed (evaluate effect program oracle world).world := by
  have settled := triple.run oracle world initially along
  constructor
  · intro result returned
    rw [returned] at settled
    exact settled
  · intro error returned
    rw [returned] at settled
    exact settled

theorem triple_consequence {before stronger : World → Prop} {after weaker : Result → World → Prop}
    {program : Async Call Reply Error Result}
    (triple : Triple effect ok before program (Returns after))
    (initially : ∀ world, stronger world → before world)
    (weaken : ∀ result world, after result world → weaker result world) :
    Triple effect ok stronger program (Returns weaker) := by
  constructor
  intro oracle world holds along
  have settled := triple.run oracle world (initially world holds) along
  revert settled
  cases (evaluate effect program oracle world).result with
  | ok result => exact weaken result _
  | error error => exact id

theorem triple_returns {before : World → Prop} {after : Result → World → Prop}
    {program : Async Call Reply Error Result}
    (triple : Triple effect ok before program (Returns after)) {oracle : Oracle Choice}
    {world : World} (initially : before world) (along : Along effect ok program oracle world) :
    ∃ result, (evaluate effect program oracle world).result = .ok result ∧
      after result (evaluate effect program oracle world).world := by
  have settled := triple.run oracle world initially along
  cases returned : (evaluate effect program oracle world).result with
  | ok result =>
    rw [returned] at settled
    exact ⟨result, rfl, settled⟩
  | error error =>
    rw [returned] at settled
    exact False.elim settled

theorem Triple.stricter {strict : World → Call → Choice → Prop} {before : World → Prop}
    {after : Except Error Result → World → Prop} {program : Async Call Reply Error Result}
    (triple : Triple effect ok before program after)
    (stricter : ∀ world call choice, strict world call choice → ok world call choice) :
    Triple effect strict before program after :=
  ⟨fun oracle world holds along => triple.run oracle world holds (along.mono stricter)⟩

theorem triple_anyhow {before failed : World → Prop} {after : Result → World → Prop}
    {program : Async Call Reply Error Result}
    (triple : Triple effect ok before program (Returns after)) :
    Triple effect ok before program (Ends failed after) := by
  constructor
  intro oracle world holds along
  obtain ⟨result, returned, settled⟩ := triple_returns triple holds along
  rw [returned]
  exact settled

theorem triple_kept {inv : World → Prop} {program : Async Call Reply Error Result}
    (kept : ∀ oracle world, inv world → inv (evaluate effect program oracle world).world) :
    Triple effect ok inv program (Ends inv fun _ => inv) := by
  constructor
  intro oracle world holds _
  have after := kept oracle world holds
  cases (evaluate effect program oracle world).result with
  | ok result => exact after
  | error error => exact after

theorem triple_keeps {before inv : World → Prop} {program : Async Call Reply Error Result}
    (triple : Triple effect ok before program (Ends inv fun _ => inv)) {oracle : Oracle Choice}
    {world : World} (initially : before world) (along : Along effect ok program oracle world) :
    inv (evaluate effect program oracle world).world := by
  have settled := triple.run oracle world initially along
  revert settled
  cases (evaluate effect program oracle world).result with
  | ok result => exact id
  | error error => exact id

end Evaluation

section Interleaved

def Only (allowed : Call → Prop) : Async Call Reply Error Result → Prop
  | .done _ => True
  | .failed _ => True
  | .await call next => allowed call ∧ ∀ reply, Only allowed (next reply)

theorem only_bind {allowed : Call → Prop} {program : Async Call Reply Error Result}
    {next : Result → Async Call Reply Error Other} (first : program.Only allowed)
    (later : ∀ result, (next result).Only allowed) : (program >>= next).Only allowed := by
  induction program with
  | done result => exact later result
  | failed => trivial
  | await call rest ih => exact ⟨first.1, fun reply => ih reply (first.2 reply)⟩

theorem only_recover {allowed : Call → Prop} {program : Async Call Reply Error Result}
    {handler : Error → Async Call Reply Error Result} (first : program.Only allowed)
    (later : ∀ error, (handler error).Only allowed) : (tryCatch program handler).Only allowed := by
  induction program with
  | done => trivial
  | failed error => exact later error
  | await call rest ih => exact ⟨first.1, fun reply => ih reply (first.2 reply)⟩

def Resolves : Async Call Reply Error Result → Prop
  | .done _ => True
  | .failed _ => False
  | .await _ next => ∀ reply, Resolves (next reply)

theorem resolves_bind {program : Async Call Reply Error Result}
    {next : Result → Async Call Reply Error Other} (first : program.Resolves)
    (later : ∀ result, (next result).Resolves) : (program >>= next).Resolves := by
  induction program with
  | done result => exact later result
  | failed => exact False.elim first
  | await call rest ih => exact fun reply => ih reply (first reply)

theorem resolves_recover (program : Async Call Reply Error Result)
    {handler : Error → Async Call Reply Error Result} (handled : ∀ error, (handler error).Resolves) :
    (tryCatch program handler).Resolves := by
  induction program with
  | done => trivial
  | failed error => exact handled error
  | await call rest ih => exact fun reply => ih reply

theorem evaluate_resolves {Choice World : Type} (effect : Effect Reply Choice World)
    {program : Async Call Reply Error Result} (resolves : program.Resolves)
    (oracle : Oracle Choice) (world : World) :
    ∃ result, (evaluate effect program oracle world).result = .ok result := by
  induction program generalizing oracle world with
  | done result => exact ⟨result, rfl⟩
  | failed => exact False.elim resolves
  | await call next ih => exact ih _ (resolves _) _ _

theorem evaluate_invariant {Choice World : Type} {effect : Effect Reply Choice World}
    {allowed : Call → Prop} {inv : World → Prop}
    (kept : ∀ call choice world, allowed call → inv world → inv (effect call choice world).2)
    {program : Async Call Reply Error Result} (only : program.Only allowed)
    (oracle : Oracle Choice) {world : World} (initial : inv world) :
    inv (evaluate effect program oracle world).world := by
  induction program generalizing oracle world with
  | done => exact initial
  | failed => exact initial
  | await call next ih =>
    exact ih _ (only.2 _) oracle.later (kept call (oracle 0) world only.1 initial)

/-- Two worlds that answer every allowed call alike, and go on doing so, give one result. -/
theorem evaluate_agrees {Choice World : Type} {effect : Effect Reply Choice World}
    {allowed : Call → Prop} {alike : World → World → Prop}
    (agrees : ∀ call choice first second, allowed call → alike first second →
      (effect call choice first).1 = (effect call choice second).1 ∧
        alike (effect call choice first).2 (effect call choice second).2)
    {program : Async Call Reply Error Result} (only : program.Only allowed)
    (oracle : Oracle Choice) {first second : World} (initial : alike first second) :
    (evaluate effect program oracle first).result =
      (evaluate effect program oracle second).result := by
  induction program generalizing oracle first second with
  | done => rfl
  | failed => rfl
  | await call next ih =>
    obtain ⟨same, kept⟩ := agrees call (oracle 0) first second only.1 initial
    simp only [evaluate, ← same]
    exact ih _ (only.2 _) oracle.later kept

theorem Along.of_only {Choice World : Type} {effect : Effect Reply Choice World}
    {ok : World → Call → Choice → Prop} {allowed : Call → Prop}
    (fine : ∀ world call choice, allowed call → ok world call choice)
    {program : Async Call Reply Error Result} (only : program.Only allowed)
    (oracle : Oracle Choice) (world : World) : Along effect ok program oracle world := by
  induction program generalizing oracle world with
  | done => trivial
  | failed => trivial
  | await call next ih => exact ⟨fine _ _ _ only.1, ih _ (only.2 _) _ _⟩

theorem Along.on_only {Choice World : Type} {effect : Effect Reply Choice World}
    {ok other : World → Call → Choice → Prop} {allowed : Call → Prop}
    (same : ∀ world call choice, allowed call → ok world call choice → other world call choice)
    {program : Async Call Reply Error Result} (only : program.Only allowed)
    {oracle : Oracle Choice} {world : World} (along : Along effect ok program oracle world) :
    Along effect other program oracle world := by
  induction program generalizing oracle world with
  | done => trivial
  | failed => trivial
  | await call next ih => exact ⟨same _ _ _ only.1 along.1, ih _ (only.2 _) along.2⟩

theorem Triple.of_only {Choice World : Type} {effect : Effect Reply Choice World}
    {ok other : World → Call → Choice → Prop} {allowed : Call → Prop} {before : World → Prop}
    {after : Except Error Result → World → Prop} {program : Async Call Reply Error Result}
    (triple : Triple effect ok before program after) (only : program.Only allowed)
    (fine : ∀ world call choice, allowed call → ok world call choice) :
    Triple effect other before program after :=
  ⟨fun oracle world holds _ => triple.run oracle world holds (.of_only fine only oracle world)⟩

def ahead (answer : (call : Call) → Reply call) : Async Call Reply Error Result → List Call
  | .done _ => []
  | .failed _ => []
  | .await call next => call :: ahead answer (next (answer call))

variable {Choice World : Type}

structure Paused (Call : Type) (Reply : Call → Type) (Error Result Choice World : Type) where
  program : Async Call Reply Error Result
  world : World
  oracle : Oracle Choice

variable (effect : Effect Reply Choice World) (here : Call → Bool)

/-- Runs a program up to its first call that is not answered on the spot. -/
def drain : Async Call Reply Error Result → Oracle Choice → World →
    Paused Call Reply Error Result Choice World
  | .done result, oracle, world => ⟨.done result, world, oracle⟩
  | .failed error, oracle, world => ⟨.failed error, world, oracle⟩
  | .await call next, oracle, world =>
    if here call then
      let answered := effect call (oracle 0) world
      drain (next answered.1) oracle.later answered.2
    else ⟨.await call next, world, oracle⟩

def Drains (ok : Call → Prop) : Async Call Reply Error Result → Oracle Choice → World → Prop
  | .done _, _, _ => True
  | .failed _, _, _ => True
  | .await call next, oracle, world =>
    if here call then
      let answered := effect call (oracle 0) world
      ok call ∧ Drains ok (next answered.1) oracle.later answered.2
    else True

instance drains_decidable (ok : Call → Prop) [DecidablePred ok] :
    (program : Async Call Reply Error Result) → (oracle : Oracle Choice) → (world : World) →
      Decidable (Drains effect here ok program oracle world)
  | .done _, _, _ => .isTrue trivial
  | .failed _, _, _ => .isTrue trivial
  | .await call next, oracle, world =>
    let answered := effect call (oracle 0) world
    have := drains_decidable ok (next answered.1) oracle.later answered.2
    inferInstanceAs (Decidable (if here call then _ ∧ _ else True))

variable {effect here}

theorem drains_await {ok : Call → Prop} {call : Call}
    {next : Reply call → Async Call Reply Error Result} {oracle : Oracle Choice} {world : World} :
    Drains effect here ok (.await call next) oracle world ↔ (here call = true → ok call ∧
      Drains effect here ok (next (effect call (oracle 0) world).1) oracle.later
        (effect call (oracle 0) world).2) := by
  rw [Drains]
  by_cases immediate : here call = true <;> simp [immediate]

theorem Drains.mono {ok weaker : Call → Prop} (relaxed : ∀ call, ok call → weaker call)
    {program : Async Call Reply Error Result} {oracle : Oracle Choice} {world : World}
    (drains : Drains effect here ok program oracle world) :
    Drains effect here weaker program oracle world := by
  induction program generalizing oracle world with
  | done => trivial
  | failed => trivial
  | await call next ih =>
    rw [drains_await] at drains ⊢
    intro immediate
    exact ⟨relaxed call (drains immediate).1, ih _ (drains immediate).2⟩

theorem drain_invariant {ok : Call → Prop} (inv : Async Call Reply Error Result → World → Prop)
    (preserved : ∀ call next choice world, here call = true → ok call →
      inv (.await call next) world →
        inv (next (effect call choice world).1) (effect call choice world).2)
    {program : Async Call Reply Error Result} {oracle : Oracle Choice} {world : World}
    (drains : Drains effect here ok program oracle world) (initial : inv program world) :
    inv (drain effect here program oracle world).program
      (drain effect here program oracle world).world := by
  induction program generalizing oracle world with
  | done => exact initial
  | failed => exact initial
  | await call next ih =>
    unfold drain
    unfold Drains at drains
    split
    · rename_i immediate
      rw [if_pos immediate] at drains
      exact ih _ drains.2 (preserved call next (oracle 0) world immediate drains.1 initial)
    · exact initial

end Interleaved

end Async
