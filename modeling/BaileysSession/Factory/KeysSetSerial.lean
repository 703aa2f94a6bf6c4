import BaileysSession.Factory.KeysSet
import BaileysSession.Shared.Schedule
import BaileysSession.Shared.Transition

set_option autoImplicit false

namespace BaileysSession.KeysSet

open Transition Database

abbrev Contents := String → String → Option String

def Section.effect (sessionId : String) (change : Section) (contents : Contents) : Contents :=
  fun other key =>
    if other = sessionId then
      match change with
      | .upsert entries => (written entries key).or (contents other key)
      | .remove deletions => if key ∈ deletions then none else contents other key
    else contents other key

theorem write_effect (versioning : Versioning) (now : Int) (sessionId : String) (db : Database)
    (change : Section) :
    (change.write versioning now sessionId db).value? = change.effect sessionId db.value? := by
  funext other key
  cases change with
  | upsert entries =>
    rw [Section.write, value?_setMany]
    rfl
  | remove deletions =>
    rw [Section.write, value?_deleteMany, Section.effect]
    by_cases session : other = sessionId <;> simp [session]

variable {Caller Value : Type} [DecidableEq Caller]

structure State (Caller : Type) where
  pending : Caller → List Section
  db : Database

/-- The lock is granted to a caller's next critical section, which then runs to its end. -/
structure Grant (Caller : Type) where
  caller : Caller
  now : Int
  deriving DecidableEq, Repr

def start (calls : Caller → Call Value) (db : Database) : State Caller where
  pending := fun caller => (collect (calls caller)).sections
  db := db

def step (versioning : Versioning) (sessionId : String) : Step (State Caller) (Grant Caller) :=
  fun s grant =>
    match s.pending grant.caller with
    | [] => none
    | change :: rest => some {
        pending := Function.update s.pending grant.caller rest
        db := change.write versioning grant.now sessionId s.db }

def granted : (Caller → List Section) → List (Grant Caller) → List (Caller × Section)
  | _, [] => []
  | pending, grant :: rest =>
    match pending grant.caller with
    | [] => granted pending rest
    | change :: later =>
      (grant.caller, change) :: granted (Function.update pending grant.caller later) rest

def serially (versioning : Versioning) (sessionId : String) (calls : Caller → Call Value)
    (clock : Caller → Int) (order : List Caller) (db : Database) : Database :=
  order.foldl (fun db caller =>
    (collect (calls caller)).sections.foldl
      (fun db change => change.write versioning (clock caller) sessionId db) db) db

theorem step_cases {versioning : Versioning} {sessionId : String} {s next : State Caller}
    {grant : Grant Caller} (taken : step versioning sessionId s grant = some next) :
    ∃ change rest, s.pending grant.caller = change :: rest ∧ next = {
      pending := Function.update s.pending grant.caller rest
      db := change.write versioning grant.now sessionId s.db } := by
  unfold step at taken
  split at taken
  · cases taken
  · rename_i change rest pending
    exact ⟨change, rest, pending, (Option.some.inj taken).symm⟩

theorem run_contents {versioning : Versioning} {sessionId : String} {s final : State Caller}
    {grants : List (Grant Caller)}
    (run : Run (step versioning sessionId) anything s grants final) :
    final.db.value? =
      Schedule.execute (Section.effect sessionId) (granted s.pending grants) s.db.value? := by
  induction run with
  | nil => rfl
  | cons _ taken _ ih =>
    obtain ⟨change, rest, pending, rfl⟩ := step_cases taken
    rw [write_effect] at ih
    simp only [granted, pending]
    exact ih

theorem run_program_order {versioning : Versioning} {sessionId : String} {s final : State Caller}
    {grants : List (Grant Caller)}
    (run : Run (step versioning sessionId) anything s grants final) (caller : Caller) :
    (Schedule.ofCall caller (granted s.pending grants)).map Prod.snd ++ final.pending caller =
      s.pending caller := by
  induction run with
  | nil => rfl
  | @cons s _ _ grant _ _ taken _ ih =>
    obtain ⟨change, rest, pending, rfl⟩ := step_cases taken
    dsimp only at ih
    simp only [granted, pending]
    by_cases same : grant.caller = caller
    · subst same
      rw [Function.update_self] at ih
      rw [Schedule.ofCall, List.filter_cons_of_pos (by simp), List.map_cons, List.cons_append, pending]
      exact congrArg (change :: ·) ih
    · rw [Function.update_of_ne (Ne.symm same)] at ih
      rw [Schedule.ofCall, List.filter_cons_of_neg (by simpa using same)]
      exact ih

theorem sections_contents (versioning : Versioning) (now : Int) (sessionId : String)
    (caller : Caller) (schedule : List (Caller × Section)) (db : Database) :
    (((Schedule.ofCall caller schedule).map Prod.snd).foldl
      (fun db change => Section.write versioning now sessionId db change) db).value? =
      Schedule.execute (Section.effect sessionId) (Schedule.ofCall caller schedule) db.value? := by
  rw [List.foldl_map]
  induction Schedule.ofCall caller schedule generalizing db with
  | nil => rfl
  | cons event rest ih =>
    have later := ih (event.2.write versioning now sessionId db)
    rw [write_effect] at later
    exact later

theorem serially_contents (versioning : Versioning) (sessionId : String)
    (calls : Caller → Call Value) (clock : Caller → Int) (order : List Caller)
    (schedule : List (Caller × Section)) (db : Database)
    (whole : ∀ caller,
      (Schedule.ofCall caller schedule).map Prod.snd = (collect (calls caller)).sections) :
    (serially versioning sessionId calls clock order db).value? =
      Schedule.execute (Section.effect sessionId) (Schedule.serial order schedule) db.value? := by
  induction order generalizing db with
  | nil => rfl
  | cons caller rest ih =>
    have first := sections_contents versioning (clock caller) sessionId caller schedule db
    have later := ih ((collect (calls caller)).sections.foldl
      (fun db change => change.write versioning (clock caller) sessionId db) db)
    rw [← whole, first, ← Schedule.execute_append, whole] at later
    exact later

/-- Of two sections one stores what the other deletes, or they store different values. -/
def Conflict : Section → Section → Prop
  | .upsert first, .upsert later => ∃ key ∈ first.map Entry.key,
      key ∈ later.map Entry.key ∧ written first key ≠ written later key
  | .upsert entries, .remove deletions => ∃ entry ∈ entries, entry.key ∈ deletions
  | .remove deletions, .upsert entries => ∃ entry ∈ entries, entry.key ∈ deletions
  | .remove _, .remove _ => False

instance (first later : Section) : Decidable (Conflict first later) :=
  match first, later with
  | .upsert first, .upsert later => inferInstanceAs (Decidable (∃ key ∈ first.map Entry.key,
      key ∈ later.map Entry.key ∧ written first key ≠ written later key))
  | .upsert entries, .remove deletions
  | .remove deletions, .upsert entries =>
    inferInstanceAs (Decidable (∃ entry ∈ entries, entry.key ∈ deletions))
  | .remove _, .remove _ => inferInstanceAs (Decidable False)

theorem not_written {entries : List Entry} {deletions : List String} {key : String}
    (apart : ¬ ∃ entry ∈ entries, entry.key ∈ deletions) (deleted : key ∈ deletions) :
    written entries key = none := by
  rw [written_eq_none_iff]
  intro present
  obtain ⟨entry, inside, rfl⟩ := List.mem_map.mp present
  exact apart ⟨entry, inside, deleted⟩

theorem commute_of_not_conflict (sessionId : String) (first later : Section)
    (apart : ¬ Conflict first later) :
    Schedule.Commute (Section.effect sessionId) first later := by
  intro contents
  funext other key
  by_cases session : other = sessionId
  · cases first with
    | upsert entries =>
      cases later with
      | upsert newer =>
        simp only [Section.effect, session, if_true]
        cases stored : written entries key with
        | none => simp
        | some value =>
          cases again : written newer key with
          | none => simp
          | some replaced =>
            have present : key ∈ entries.map Entry.key := by
              by_contra absent
              simp [(written_eq_none_iff entries key).mpr absent] at stored
            have present' : key ∈ newer.map Entry.key := by
              by_contra absent
              simp [(written_eq_none_iff newer key).mpr absent] at again
            have same : written entries key = written newer key := by
              by_contra different
              exact apart ⟨key, present, present', different⟩
            rw [stored, again] at same
            simp [Option.some.inj same]
      | remove deletions =>
        by_cases deleted : key ∈ deletions
        · simp [Section.effect, session, deleted, not_written apart deleted]
        · simp [Section.effect, session, deleted]
    | remove deletions =>
      cases later with
      | upsert newer =>
        by_cases deleted : key ∈ deletions
        · simp [Section.effect, session, deleted, not_written apart deleted]
        · simp [Section.effect, session, deleted]
      | remove newer =>
        by_cases deleted : key ∈ deletions <;> by_cases again : key ∈ newer <;>
          simp [Section.effect, session, deleted, again]
  · simp [Section.effect, session]

/-- Sections of different calls that conflict were granted in the order of their calls. -/
def Consistent (order : List Caller) (schedule : List (Caller × Section)) : Prop :=
  schedule.Pairwise fun first later =>
    first.1 ≠ later.1 → Conflict first.2 later.2 → [first.1, later.1].Sublist order

instance (order : List Caller) (schedule : List (Caller × Section)) :
    Decidable (Consistent order schedule) :=
  inferInstanceAs (Decidable (schedule.Pairwise fun first later =>
    first.1 ≠ later.1 → Conflict first.2 later.2 → [first.1, later.1].Sublist order))

/-- Between two sections of one call no other call is granted a section that conflicts with the
second. -/
def Undisturbed (schedule : List (Caller × Section)) : Prop :=
  ∀ opening between closing, [opening, between, closing].Sublist schedule →
    opening.1 = closing.1 → between.1 ≠ closing.1 → ¬ Conflict between.2 closing.2

omit [DecidableEq Caller] in
theorem consistent_respects (sessionId : String) {order : List Caller}
    {schedule : List (Caller × Section)} (distinct : order.Nodup)
    (consistent : Consistent order schedule) :
    Schedule.Respects (Section.effect sessionId) order schedule := by
  intro first later pair reversed
  apply commute_of_not_conflict
  intro conflict
  have apart : first.1 ≠ later.1 := by
    have both := distinct.sublist reversed
    simpa [eq_comm] using both
  have ordered := List.pairwise_iff_forall_sublist.mp consistent pair apart conflict
  have both := Schedule.reversed_pairs distinct ordered reversed
  exact apart both

/-- Where nothing disturbs the calls, the order of their first grants agrees with the grants. -/
theorem firstCalls_consistent {schedule : List (Caller × Section)}
    (undisturbed : Undisturbed schedule) :
    Consistent (Schedule.firstCalls schedule) schedule := by
  refine List.pairwise_iff_forall_sublist.mpr ?_
  intro first later pair apart conflict
  have listed : ∀ event ∈ schedule, event.1 ∈ Schedule.firstCalls schedule := fun event inside =>
    (Schedule.mem_firstCalls schedule event.1).mpr ⟨event, inside, rfl⟩
  rcases Schedule.pair_of_mem (listed first (pair.subset (by simp)))
    (listed later (pair.subset (by simp))) apart with ordered | reversed
  · exact ordered
  · obtain ⟨opening, three, same⟩ := Schedule.opened_before schedule pair reversed
    exact absurd conflict (undisturbed opening first later three same apart)

theorem keys_set_serial (versioning : Versioning) (sessionId : String)
    (calls : Caller → Call Value) (db : Database) (grants : List (Grant Caller))
    (s : State Caller)
    (run : Run (step versioning sessionId) anything (start calls db) grants s)
    (completed : ∀ caller, s.pending caller = []) :
    let schedule := granted (start calls db).pending grants
    (∀ order : List Caller, order.Nodup → (∀ event ∈ schedule, event.1 ∈ order) →
      Consistent order schedule → ∀ clock,
        s.db.value? = (serially versioning sessionId calls clock order db).value?) ∧
    (Undisturbed schedule → let order := Schedule.firstCalls schedule
      order.Nodup ∧ (∀ event ∈ schedule, event.1 ∈ order) ∧ Consistent order schedule ∧ ∀ clock,
        s.db.value? = (serially versioning sessionId calls clock order db).value?) := by
  intro schedule
  have whole : ∀ caller,
      (Schedule.ofCall caller schedule).map Prod.snd = (collect (calls caller)).sections := by
    intro caller
    have ordered := run_program_order run caller
    rw [completed caller, List.append_nil] at ordered
    exact ordered
  have rows := run_contents run
  have inOrder : ∀ order : List Caller, order.Nodup → (∀ event ∈ schedule, event.1 ∈ order) →
      Consistent order schedule → ∀ clock,
        s.db.value? = (serially versioning sessionId calls clock order db).value? := by
    intro order distinct complete consistent clock
    rw [serially_contents versioning sessionId calls clock order schedule db whole,
      ← Schedule.execute_serial _ order schedule _ distinct complete
        (consistent_respects sessionId distinct consistent)]
    exact rows
  refine ⟨inOrder, fun undisturbed => ?_⟩
  have distinct := Schedule.firstCalls_nodup schedule
  have complete : ∀ event ∈ schedule, event.1 ∈ Schedule.firstCalls schedule := by
    intro event inside
    exact (Schedule.mem_firstCalls schedule event.1).mpr ⟨event, inside, rfl⟩
  have consistent := firstCalls_consistent undisturbed
  exact ⟨distinct, complete, consistent, inOrder _ distinct complete consistent⟩

def sessionCall (ids : InsertionMap String (Option String)) : Call (Option String) where
  data := ⟨[(.session, some ids)], List.nodup_singleton Category.session⟩
  truthy := fun value => value.any (· ≠ "")
  encode := fun _ _ value => value.getD ""

def twoCalls : Bool → Call (Option String)
  | false => sessionCall ⟨[("x", some "1"), ("y", none)], by decide⟩
  | true => sessionCall ⟨[("y", some "2"), ("z", none)], by decide⟩

def twoGrants : List (Grant Bool) := [⟨true, 1⟩, ⟨false, 2⟩, ⟨true, 3⟩, ⟨false, 4⟩]

theorem keys_set_serial_grants :
    ∃ s, replay (step (fun _ => 1) "bot") anything (start twoCalls .empty) twoGrants = some s ∧
      s.db.value? = (serially (fun _ => 1) "bot" twoCalls (fun _ => 5) [true, false] .empty).value? :=
  ⟨_, rfl, (keys_set_serial (fun _ => 1) "bot" twoCalls .empty twoGrants _
    (replay_run _ _ _ _ _ rfl) (by decide)).1 [true, false] (by decide) (by decide)
    (by decide) _⟩

def crossingCalls : Bool → Call (Option String)
  | false => sessionCall ⟨[("x", some "1"), ("y", none)], by decide⟩
  | true => sessionCall ⟨[("y", some "2"), ("x", none)], by decide⟩

def crossingGrants : List (Grant Bool) := [⟨false, 1⟩, ⟨true, 2⟩, ⟨false, 3⟩, ⟨true, 4⟩]

theorem keys_set_not_serial :
    ∃ s, replay (step (fun _ => 1) "bot") anything (start crossingCalls .empty) crossingGrants =
        some s ∧ (∀ caller, s.pending caller = []) ∧
      ∀ order : List Bool, order.Perm [false, true] → ∀ clock,
        s.db.value? ≠ (serially (fun _ => 1) "bot" crossingCalls clock order .empty).value? := by
  refine ⟨_, rfl, by decide, ?_⟩
  intro order permuted clock same
  obtain ⟨first, later, rfl⟩ := List.length_eq_two.mp permuted.length_eq
  have apart : first ≠ later := by simpa using permuted.nodup_iff.mpr (by decide)
  cases first with
  | false =>
    cases later with
    | false => exact apart rfl
    | true =>
      have row := congrFun (congrFun same "bot") "session-y"
      cases row
  | true =>
    cases later with
    | false =>
      have row := congrFun (congrFun same "bot") "session-x"
      cases row
    | true => exact apart rfl

end BaileysSession.KeysSet
