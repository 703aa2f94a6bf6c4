import Mathlib.Logic.Relation

set_option autoImplicit false

namespace Transition

variable {State Event : Type}

-- `none` is an event that is not enabled in the state.
abbrev Step (State Event : Type) := State → Event → Option State

-- Runs every step of which satisfies `allowed` in the state it is taken from.
inductive Run (step : Step State Event) (allowed : State → Event → Prop) :
    State → List Event → State → Prop
  | nil (state : State) : Run step allowed state [] state
  | cons {state next final : State} {event : Event} {rest : List Event}
      (permitted : allowed state event) (taken : step state event = some next)
      (tail : Run step allowed next rest final) :
      Run step allowed state (event :: rest) final

def anything (_ : State) (_ : Event) : Prop := True

instance (state : State) (event : Event) : Decidable (anything state event) :=
  inferInstanceAs (Decidable True)

def replay (step : Step State Event) (allowed : State → Event → Prop)
    [∀ state event, Decidable (allowed state event)] : State → List Event → Option State
  | state, [] => some state
  | state, event :: rest =>
    if allowed state event then
      (step state event).bind fun next => replay step allowed next rest
    else none

theorem replay_run (step : Step State Event) (allowed : State → Event → Prop)
    [∀ state event, Decidable (allowed state event)] (state final : State) (events : List Event)
    (replayed : replay step allowed state events = some final) :
    Run step allowed state events final := by
  induction events generalizing state with
  | nil => exact Option.some.inj replayed ▸ .nil state
  | cons event rest ih =>
    rw [replay] at replayed
    split at replayed
    · rename_i permitted
      obtain ⟨next, taken, later⟩ := Option.bind_eq_some_iff.mp replayed
      exact .cons permitted taken (ih next later)
    · cases replayed

theorem Run.append {step : Step State Event} {allowed : State → Event → Prop}
    {state middle final : State} {first second : List Event}
    (left : Run step allowed state first middle) (right : Run step allowed middle second final) :
    Run step allowed state (first ++ second) final := by
  induction left with
  | nil => exact right
  | cons permitted taken _ ih => exact .cons permitted taken (ih right)

theorem Run.weaken {step : Step State Event} {allowed relaxed : State → Event → Prop}
    {state final : State} {events : List Event} (run : Run step allowed state events final)
    (weaker : ∀ state event, allowed state event → relaxed state event) :
    Run step relaxed state events final := by
  induction run with
  | nil state => exact .nil state
  | cons permitted taken _ ih => exact .cons (weaker _ _ permitted) taken ih

theorem Run.invariant {step : Step State Event} {allowed : State → Event → Prop}
    {state final : State} {events : List Event} (run : Run step allowed state events final)
    (inv : State → Prop)
    (preserved : ∀ state event next, inv state → allowed state event →
      step state event = some next → inv next)
    (initial : inv state) : inv final := by
  induction run with
  | nil => exact initial
  | cons permitted taken _ ih => exact ih (preserved _ _ _ initial permitted taken)

end Transition
