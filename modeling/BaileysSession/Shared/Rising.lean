import Mathlib.Logic.Basic

set_option autoImplicit false

-- Readings of a counter that some calls of a run must move up and no call may move down.
namespace Rising

variable {State Call Version : Type}

def Raises (less : Version → Version → Prop) (before after : Option Version) : Prop :=
  ∃ version, after = some version ∧ ∀ earlier, before = some earlier → less earlier version

def Keeps (less : Version → Version → Prop) (before after : Option Version) : Prop :=
  ∀ earlier, before = some earlier →
    ∃ version, after = some version ∧ (version = earlier ∨ less earlier version)

theorem Keeps.same (less : Version → Version → Prop) (reading : Option Version) :
    Keeps less reading reading := fun earlier held => ⟨earlier, held, .inl rfl⟩

section Order

variable {less : Version → Version → Prop} {first second third : Option Version}

theorem Raises.keeps (raises : Raises less first second) : Keeps less first second := by
  obtain ⟨version, found, above⟩ := raises
  exact fun earlier held => ⟨version, found, .inr (above earlier held)⟩

variable (ordered : ∀ low middle high, less low middle → less middle high → less low high)

include ordered

theorem Keeps.trans (left : Keeps less first second) (right : Keeps less second third) :
    Keeps less first third := by
  intro earlier held
  obtain ⟨middle, found, between⟩ := left earlier held
  obtain ⟨version, read, above⟩ := right middle found
  refine ⟨version, read, ?_⟩
  rcases between with rfl | lower
  · exact above
  · rcases above with rfl | higher
    · exact .inr lower
    · exact .inr (ordered _ _ _ lower higher)

theorem Raises.then_keeps (left : Raises less first second) (right : Keeps less second third) :
    Raises less first third := by
  obtain ⟨middle, found, above⟩ := left
  obtain ⟨version, read, kept⟩ := right middle found
  refine ⟨version, read, fun earlier held => ?_⟩
  rcases kept with rfl | higher
  · exact above earlier held
  · exact ordered _ _ _ (above earlier held) higher

theorem Keeps.then_raises (left : Keeps less first second) (right : Raises less second third) :
    Raises less first third := by
  obtain ⟨version, read, above⟩ := right
  refine ⟨version, read, fun earlier held => ?_⟩
  obtain ⟨middle, found, between⟩ := left earlier held
  rcases between with rfl | lower
  · exact above _ found
  · exact ordered _ _ _ lower (above _ found)

end Order

theorem run_raises (less : Version → Version → Prop)
    (ordered : ∀ low middle high, less low middle → less middle high → less low high)
    (step : State → Call → State) (read : State → Option Version) (writes : Call → Prop)
    (Good : State → Prop) (calls : List Call)
    (moves : ∀ state, ∀ call ∈ calls, Good state → Good (step state call) ∧
      Keeps less (read state) (read (step state call)) ∧
        (writes call → Raises less (read state) (read (step state call))))
    {state : State} (good : Good state) :
    Good (calls.foldl step state) ∧ Keeps less (read state) (read (calls.foldl step state)) ∧
      ((∃ call ∈ calls, writes call) →
        Raises less (read state) (read (calls.foldl step state))) := by
  induction calls generalizing state with
  | nil => exact ⟨good, .same less _, fun some => by simp at some⟩
  | cons call rest ih =>
    obtain ⟨next, kept, raised⟩ := moves state call List.mem_cons_self good
    obtain ⟨final, later, rises⟩ := ih
      (fun state call inside => moves state call (List.mem_cons_of_mem _ inside)) next
    refine ⟨final, kept.trans ordered later, ?_⟩
    rintro ⟨writer, listed, wrote⟩
    rcases List.mem_cons.mp listed with rfl | inside
    · exact (raised wrote).then_keeps ordered later
    · exact kept.then_raises ordered (rises ⟨writer, inside, wrote⟩)

end Rising
