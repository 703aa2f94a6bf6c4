import Mathlib.Data.List.Basic
import Mathlib.Data.List.Nodup

set_option autoImplicit false

namespace Schedule

variable {Call Action State : Type}

-- Actions in the order they take effect, each with the call it belongs to.
def execute (apply : Action → State → State) (schedule : List (Call × Action)) (state : State) :
    State :=
  schedule.foldl (fun state event => apply event.2 state) state

def Commute (apply : Action → State → State) (first second : Action) : Prop :=
  ∀ state, apply second (apply first state) = apply first (apply second state)

theorem execute_append (apply : Action → State → State) (first second : List (Call × Action))
    (state : State) :
    execute apply (first ++ second) state = execute apply second (execute apply first state) :=
  List.foldl_append

theorem execute_commute (apply : Action → State → State) (action : Action)
    (schedule : List (Call × Action)) (state : State)
    (commute : ∀ event ∈ schedule, Commute apply action event.2) :
    execute apply schedule (apply action state) = apply action (execute apply schedule state) := by
  induction schedule generalizing state with
  | nil => rfl
  | cons event rest ih =>
    have here := commute event List.mem_cons_self state
    have later := ih (apply event.2 state) fun other inside =>
      commute other (List.mem_cons_of_mem event inside)
    simpa only [execute, List.foldl_cons, here] using later

variable [DecidableEq Call]

def ofCall (call : Call) (schedule : List (Call × Action)) : List (Call × Action) :=
  schedule.filter fun event => event.1 = call

def others (call : Call) (schedule : List (Call × Action)) : List (Call × Action) :=
  schedule.filter fun event => !decide (event.1 = call)

def serial (order : List Call) (schedule : List (Call × Action)) : List (Call × Action) :=
  order.flatMap fun call => ofCall call schedule

/-- Two actions of different calls are either in the given order or commute. -/
def Respects (apply : Action → State → State) (order : List Call)
    (schedule : List (Call × Action)) : Prop :=
  ∀ first later, [first, later].Sublist schedule → [later.1, first.1].Sublist order →
    Commute apply first.2 later.2

omit [DecidableEq Call] in
theorem Respects.mono {apply : Action → State → State} {order larger : List Call}
    {schedule longer : List (Call × Action)} (respects : Respects apply larger longer)
    (fewer : order.Sublist larger) (shorter : schedule.Sublist longer) :
    Respects apply order schedule :=
  fun first later pair reversed =>
    respects first later (pair.trans shorter) (reversed.trans fewer)

theorem execute_call_first (apply : Action → State → State) (call : Call)
    (schedule : List (Call × Action)) (state : State)
    (movable : ∀ first later, [first, later].Sublist schedule → first.1 ≠ call →
      later.1 = call → Commute apply first.2 later.2) :
    execute apply schedule state =
      execute apply (others call schedule) (execute apply (ofCall call schedule) state) := by
  induction schedule generalizing state with
  | nil => rfl
  | cons event rest ih =>
    have later := ih (apply event.2 state) fun first second pair =>
      movable first second (pair.trans (List.sublist_cons_self event rest))
    by_cases same : event.1 = call
    · simpa [execute, others, ofCall, same] using later
    · have across := execute_commute apply event.2 (ofCall call rest) state fun other inside => by
        obtain ⟨present, owned⟩ := List.mem_filter.mp inside
        apply movable event other _ same (of_decide_eq_true owned)
        exact (List.singleton_sublist.mpr present).cons_cons event
      rw [across] at later
      simpa [execute, others, ofCall, same] using later

theorem ofCall_others (call other : Call) (schedule : List (Call × Action))
    (different : other ≠ call) : ofCall other (others call schedule) = ofCall other schedule := by
  rw [ofCall, others, List.filter_filter]
  apply List.filter_congr
  intro event _
  by_cases same : event.1 = other
  · simp [same, different]
  · simp [same]

theorem execute_serial (apply : Action → State → State) (order : List Call)
    (schedule : List (Call × Action)) (state : State) (distinct : order.Nodup)
    (complete : ∀ event ∈ schedule, event.1 ∈ order)
    (respects : Respects apply order schedule) :
    execute apply schedule state = execute apply (serial order schedule) state := by
  induction order generalizing schedule state with
  | nil =>
    have empty : schedule = [] := List.eq_nil_iff_forall_not_mem.mpr fun event inside => by
      cases complete event inside
    rw [empty]
    rfl
  | cons call rest ih =>
    rw [List.nodup_cons] at distinct
    have movable : ∀ first later, [first, later].Sublist schedule → first.1 ≠ call →
        later.1 = call → Commute apply first.2 later.2 := by
      intro first later pair apart owned
      have inOrder := complete first (pair.subset List.mem_cons_self)
      have inRest : first.1 ∈ rest := (List.mem_cons.mp inOrder).resolve_left apart
      apply respects first later pair
      rw [owned]
      exact (List.singleton_sublist.mpr inRest).cons_cons call
    have remaining : serial rest (others call schedule) = serial rest schedule := by
      apply List.flatMap_congr
      intro other inside
      apply ofCall_others
      rintro rfl
      exact distinct.1 inside
    have front : serial (call :: rest) schedule = ofCall call schedule ++ serial rest schedule :=
      List.flatMap_cons
    rw [execute_call_first apply call schedule state movable, ih _ _ distinct.2, remaining, front,
      execute_append]
    · intro event inside
      obtain ⟨present, apart⟩ := List.mem_filter.mp inside
      exact (List.mem_cons.mp (complete event present)).resolve_left (by simpa using apart)
    · exact respects.mono (List.sublist_cons_self call rest) List.filter_sublist

theorem pair_sublist_cons {Item : Type} {first later head : Item} {rest : List Item} :
    [first, later].Sublist (head :: rest) ↔
      [first, later].Sublist rest ∨ first = head ∧ later ∈ rest := by
  rw [List.sublist_cons_iff]
  constructor
  · rintro (inside | ⟨_, same, inside⟩)
    · exact .inl inside
    · cases same
      exact .inr ⟨rfl, List.singleton_sublist.mp inside⟩
  · rintro (inside | ⟨rfl, inside⟩)
    · exact .inl inside
    · exact .inr ⟨_, rfl, List.singleton_sublist.mpr inside⟩

theorem reversed_pairs {Item : Type} {first later : Item} {items : List Item}
    (distinct : items.Nodup) (forward : [first, later].Sublist items)
    (reversed : [later, first].Sublist items) : first = later := by
  induction items with
  | nil => cases forward
  | cons head rest ih =>
    rw [List.nodup_cons] at distinct
    rcases pair_sublist_cons.mp forward with forward | ⟨firstHead, -⟩
    · rcases pair_sublist_cons.mp reversed with reversed | ⟨laterHead, -⟩
      · exact ih distinct.2 forward reversed
      · have again : later ∈ rest := forward.subset (by simp)
        exact absurd (laterHead ▸ again) distinct.1
    · rcases pair_sublist_cons.mp reversed with reversed | ⟨laterHead, -⟩
      · have again : first ∈ rest := reversed.subset (by simp)
        exact absurd (firstHead ▸ again) distinct.1
      · rw [firstHead, laterHead]

def firstCalls : List (Call × Action) → List Call
  | [] => []
  | event :: rest => event.1 :: firstCalls (others event.1 rest)
termination_by schedule => schedule.length
decreasing_by
  exact Nat.lt_succ_of_le (List.length_filter_le _ rest)

theorem mem_firstCalls (schedule : List (Call × Action)) (call : Call) :
    call ∈ firstCalls schedule ↔ ∃ event ∈ schedule, event.1 = call := by
  induction schedule using firstCalls.induct with
  | case1 => simp [firstCalls]
  | case2 event rest ih =>
    rw [firstCalls, List.mem_cons, ih]
    constructor
    · rintro (rfl | ⟨other, inside, rfl⟩)
      · exact ⟨event, List.mem_cons_self, rfl⟩
      · exact ⟨other, List.mem_cons_of_mem event (List.mem_filter.mp inside).1, rfl⟩
    · rintro ⟨other, inside, rfl⟩
      by_cases same : other.1 = event.1
      · exact .inl same
      · have present : other ∈ rest := by
          rcases List.mem_cons.mp inside with rfl | present
          · exact absurd rfl same
          · exact present
        exact .inr ⟨other, List.mem_filter.mpr ⟨present, by simp [same]⟩, rfl⟩

theorem firstCalls_nodup (schedule : List (Call × Action)) : (firstCalls schedule).Nodup := by
  induction schedule using firstCalls.induct with
  | case1 => simp [firstCalls]
  | case2 event rest ih =>
    rw [firstCalls, List.nodup_cons]
    refine ⟨?_, ih⟩
    rw [mem_firstCalls]
    rintro ⟨other, inside, same⟩
    simpa [same] using (List.mem_filter.mp inside).2

theorem pair_of_mem {Item : Type} {first later : Item} {items : List Item} (inside : first ∈ items)
    (there : later ∈ items) (apart : first ≠ later) :
    [first, later].Sublist items ∨ [later, first].Sublist items := by
  induction items with
  | nil => cases inside
  | cons head rest ih =>
    rw [pair_sublist_cons, pair_sublist_cons]
    rcases List.mem_cons.mp inside with firstHead | firstRest
    · have after := (List.mem_cons.mp there).resolve_left fun same => apart (firstHead.trans same.symm)
      exact .inl (.inr ⟨firstHead, after⟩)
    · rcases List.mem_cons.mp there with laterHead | laterRest
      · exact .inr (.inr ⟨laterHead, firstRest⟩)
      · exact (ih firstRest laterRest).imp .inl .inl

/-- A call that began before another one, and acts after it, has acted before it too. -/
theorem opened_before (schedule : List (Call × Action)) {first later : Call × Action}
    (pair : [first, later].Sublist schedule)
    (reversed : [later.1, first.1].Sublist (firstCalls schedule)) :
    ∃ opening, [opening, first, later].Sublist schedule ∧ opening.1 = later.1 := by
  induction schedule using firstCalls.induct with
  | case1 => cases pair
  | case2 event rest ih =>
    have distinct := firstCalls_nodup (event :: rest)
    rw [firstCalls, List.nodup_cons] at distinct
    rw [firstCalls] at reversed
    have notFirst : first.1 ≠ event.1 := by
      intro same
      rcases pair_sublist_cons.mp reversed with inside | ⟨-, inside⟩
      · have last : first.1 ∈ firstCalls (others event.1 rest) := inside.subset (by simp)
        exact distinct.1 (same ▸ last)
      · exact distinct.1 (same ▸ inside)
    have inside : [first, later].Sublist rest := by
      rcases pair_sublist_cons.mp pair with inside | ⟨rfl, -⟩
      · exact inside
      · exact absurd rfl notFirst
    by_cases closing : later.1 = event.1
    · exact ⟨event, inside.cons_cons event, closing.symm⟩
    · have kept : [first, later].Sublist (others event.1 rest) := by
        have filtered := inside.filter fun other => !decide (other.1 = event.1)
        simpa only [others, List.filter_cons, notFirst, closing, decide_false, Bool.not_false,
          if_true, List.filter_nil] using filtered
      have ordered : [later.1, first.1].Sublist (firstCalls (others event.1 rest)) := by
        rcases pair_sublist_cons.mp reversed with inside | ⟨same, -⟩
        · exact inside
        · exact absurd same closing
      obtain ⟨opening, three, same⟩ := ih kept ordered
      exact ⟨opening, (three.trans List.filter_sublist).cons event, same⟩

end Schedule
