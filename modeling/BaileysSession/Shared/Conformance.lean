import Mathlib.Data.List.Forall2

set_option autoImplicit false

-- Components that answer one request after another, and what their answers are to be.
namespace Conformance

variable {State Spec Choice Request Answer : Type}

abbrev Component (State Choice Request Answer : Type) :=
  Choice → Request → State → Answer × State

def answers (component : Component State Choice Request Answer) :
    State → List (Choice × Request) → List Answer
  | _, [] => []
  | state, (choice, request) :: rest =>
    let answered := component choice request state
    answered.1 :: answers component answered.2 rest

def final (component : Component State Choice Request Answer) :
    State → List (Choice × Request) → State
  | state, [] => state
  | state, (choice, request) :: rest => final component (component choice request state).2 rest

structure Interface (Spec Request Answer : Type) where
  asked : Request → Spec → Spec
  right : Request → Spec → Answer → Prop

def Interface.asks (interface : Interface Spec Request Answer) : Spec → List Request → Spec
  | spec, [] => spec
  | spec, request :: rest => interface.asks (interface.asked request spec) rest

def Interface.Answers (interface : Interface Spec Request Answer) :
    Spec → List Request → List Answer → Prop
  | _, [], found => found = []
  | spec, request :: rest, found => ∃ first later, found = first :: later ∧
      interface.right request spec first ∧
        interface.Answers (interface.asked request spec) rest later

def Interface.Admits (interface : Interface Spec Request Answer)
    (admitted : Spec → Choice → Request → Prop) : Spec → List (Choice × Request) → Prop
  | _, [] => True
  | spec, (choice, request) :: rest =>
    admitted spec choice request ∧ interface.Admits admitted (interface.asked request spec) rest

/-- From a state that holds what is there, a component answers every admitted request rightly, and
goes on to a state that holds what is there then. -/
structure Conforms (interface : Interface Spec Request Answer)
    (component : Component State Choice Request Answer)
    (holds : State → Spec → Prop) (admitted : Spec → Choice → Request → Prop) : Prop where
  answered : ∀ choice request state spec, holds state spec → admitted spec choice request →
    interface.right request spec (component choice request state).1
  kept : ∀ choice request state spec, holds state spec → admitted spec choice request →
    holds (component choice request state).2 (interface.asked request spec)

variable {interface : Interface Spec Request Answer}
  {component : Component State Choice Request Answer}
  {holds : State → Spec → Prop} {admitted : Spec → Choice → Request → Prop}

theorem Conforms.mono (conforms : Conforms interface component holds admitted)
    {fewer : Spec → Choice → Request → Prop}
    (allowed : ∀ spec choice request, fewer spec choice request → admitted spec choice request) :
    Conforms interface component holds fewer :=
  ⟨fun choice request state spec initial taken =>
      conforms.answered choice request state spec initial (allowed spec choice request taken),
    fun choice request state spec initial taken =>
      conforms.kept choice request state spec initial (allowed spec choice request taken)⟩

theorem Conforms.given {granted : Prop}
    (conforms : granted → Conforms interface component holds admitted) :
    Conforms interface component holds fun spec choice request =>
      granted ∧ admitted spec choice request :=
  ⟨fun choice request state spec initial taken =>
      (conforms taken.1).answered choice request state spec initial taken.2,
    fun choice request state spec initial taken =>
      (conforms taken.1).kept choice request state spec initial taken.2⟩

theorem Conforms.run (conforms : Conforms interface component holds admitted) {state : State}
    {spec : Spec} (initial : holds state spec) {turns : List (Choice × Request)}
    (allowed : interface.Admits admitted spec turns) :
    interface.Answers spec (turns.map Prod.snd) (answers component state turns) ∧
      holds (final component state turns) (interface.asks spec (turns.map Prod.snd)) := by
  induction turns generalizing state spec with
  | nil => exact ⟨rfl, initial⟩
  | cons turn rest ih =>
    obtain ⟨choice, request⟩ := turn
    have later := ih (conforms.kept choice request state spec initial allowed.1) allowed.2
    exact ⟨⟨_, _, rfl, conforms.answered choice request state spec initial allowed.1, later.1⟩,
      later.2⟩

theorem Interface.Admits.of_each {turns : List (Choice × Request)}
    (each : ∀ turn ∈ turns, ∀ spec, admitted spec turn.1 turn.2) (spec : Spec) :
    interface.Admits admitted spec turns := by
  induction turns generalizing spec with
  | nil => trivial
  | cons turn rest ih =>
    exact ⟨each turn List.mem_cons_self spec,
      ih (fun other inside => each other (List.mem_cons_of_mem turn inside)) _⟩

theorem Interface.Admits.project {Joint : Type} {both : Spec → Joint → Request → Prop}
    (chosen : Joint → Choice)
    (each : ∀ spec joint request, both spec joint request → admitted spec (chosen joint) request)
    {turns : List (Joint × Request)} {spec : Spec} (allowed : interface.Admits both spec turns) :
    interface.Admits admitted spec (turns.map fun turn => (chosen turn.1, turn.2)) := by
  induction turns generalizing spec with
  | nil => trivial
  | cons turn rest ih => exact ⟨each spec turn.1 turn.2 allowed.1, ih allowed.2⟩

theorem Interface.Answers.alike {alike : Answer → Answer → Prop}
    (same : ∀ request spec first second, interface.right request spec first →
      interface.right request spec second → alike first second)
    {spec : Spec} {requests : List Request} {first second : List Answer}
    (left : interface.Answers spec requests first) (right : interface.Answers spec requests second) :
    List.Forall₂ alike first second := by
  induction requests generalizing spec first second with
  | nil =>
    cases left
    cases right
    exact .nil
  | cons request rest ih =>
    obtain ⟨one, ones, rfl, rightly, later⟩ := left
    obtain ⟨other, others, rfl, rightlyToo, laterToo⟩ := right
    exact .cons (same request spec one other rightly rightlyToo) (ih later laterToo)

section Exchange

variable {Other Another : Type} {alike : Answer → Answer → Prop}
  {other : Component Other Another Request Answer} {held : Other → Spec → Prop}
  {taken : Spec → Another → Request → Prop}

/-- Of two components that conform to one interface either can stand for the other. -/
theorem Conforms.exchange (conforms : Conforms interface component holds admitted)
    (conformsToo : Conforms interface other held taken)
    (same : ∀ request spec first second, interface.right request spec first →
      interface.right request spec second → alike first second)
    {state : State} {another : Other} {spec : Spec} (initial : holds state spec)
    (initially : held another spec) {turns : List (Choice × Request)}
    {others : List (Another × Request)} (requests : turns.map Prod.snd = others.map Prod.snd)
    (allowed : interface.Admits admitted spec turns) (allowedToo : interface.Admits taken spec others) :
    List.Forall₂ alike (answers component state turns) (answers other another others) := by
  have first := (conforms.run initial allowed).1
  have second := (conformsToo.run initially allowedToo).1
  rw [← requests] at second
  exact first.alike same second

end Exchange

end Conformance
