import BaileysSession.Utils.WriteBatcherInvariant

set_option autoImplicit false

namespace BaileysSession.WriteBatcher

open Transition

def Carries (batch : Batch) (key : String) (writer : Nat) : Prop :=
  ∃ stored, (key, stored) ∈ batch ∧ writer ≤ stored.writer

def Flushed (s : State) (key : String) (writer : Nat) : Prop :=
  ∃ batch, (batch, .resolved) ∈ s.flushed ∧ Carries batch key writer

structure Durable (s : State) : Prop where
  waitingSafe : ∀ writer ∈ waiting s, ∀ asked, s.writes[writer]? = some asked →
    Carries s.pending.entries asked.key writer ∨
      (∃ task, s.running = some task ∧ Carries task.entries asked.key writer) ∨
      Flushed s asked.key writer
  runningSafe : ∀ task, s.running = some task → ∀ writer ∈ task.call.awaits,
    ∀ asked, s.writes[writer]? = some asked →
      Carries task.entries asked.key writer ∨ Flushed s asked.key writer
  settledSafe : ∀ call, (call, .resolved) ∈ s.settled → ∀ writer ∈ call.awaits,
    ∀ asked, s.writes[writer]? = some asked → Flushed s asked.key writer
  promisesSafe : ∀ writer, s.promises writer = some .resolved →
    ∀ asked, s.writes[writer]? = some asked → Flushed s asked.key writer

/-- A flush only rejects while no value of its batch comes from a write that still waits for
a flush that has not started. -/
def BatchOwned (s : State) : Event → Prop
  | .flushSettles .rejected => ∀ task ∈ s.running,
      ∀ entry ∈ task.entries, entry.2.writer ∉ waiting s
  | _ => True

instance (s : State) : (event : Event) → Decidable (BatchOwned s event)
  | .flushSettles .rejected => inferInstanceAs (Decidable (∀ task ∈ s.running,
      ∀ entry ∈ task.entries, entry.2.writer ∉ waiting s))
  | .flushSettles .resolved | .write _ _ | .timerFires | .flushNow | .destroy | .resume | .clear =>
    isTrue trivial

theorem initial_durable : Durable initial where
  waitingSafe := fun _ inside => by cases inside
  runningSafe := fun _ running => by cases running
  settledSafe := fun _ inside => by cases inside
  promisesSafe := fun _ done => by cases done

theorem carries_pending (pending : InsertionMap String Stored) (key : String) (writer : Nat) :
    Carries pending.entries key writer ↔
      ∃ stored, pending.get? key = some stored ∧ writer ≤ stored.writer := by
  simp only [Carries, InsertionMap.get?_eq_some_iff]

theorem carries_set {pending : InsertionMap String Stored} {key : String} {writer : Nat}
    (carried : Carries pending.entries key writer) (name value : String) (issued : Nat)
    (later : writer ≤ issued) :
    Carries (pending.set name ⟨value, issued⟩).entries key writer := by
  obtain ⟨stored, found, fresh⟩ := (carries_pending _ _ _).mp carried
  rw [carries_pending, InsertionMap.get?_set]
  by_cases same : key = name
  · exact ⟨_, by rw [if_pos same], later⟩
  · exact ⟨stored, by rw [if_neg same, found], fresh⟩

theorem flushNow_durable (caller : Caller) (s : State) (idle : s.running = none → s.queue = [])
    (safe : ∀ writer ∈ waiting s ++ caller.awaits, ∀ asked, s.writes[writer]? = some asked →
      Carries s.pending.entries asked.key writer ∨
        (∃ task, s.running = some task ∧ Carries task.entries asked.key writer) ∨
        Flushed s asked.key writer)
    (runningSafe : ∀ task, s.running = some task → ∀ writer ∈ task.call.awaits,
      ∀ asked, s.writes[writer]? = some asked →
        Carries task.entries asked.key writer ∨ Flushed s asked.key writer)
    (settledSafe : ∀ call, (call, .resolved) ∈ s.settled → ∀ writer ∈ call.awaits,
      ∀ asked, s.writes[writer]? = some asked → Flushed s asked.key writer)
    (promisesSafe : ∀ writer, s.promises writer = some .resolved →
      ∀ asked, s.writes[writer]? = some asked → Flushed s asked.key writer) :
    Durable (flushNow caller s) := by
  cases running : s.running with
  | none =>
    rw [flushNow_idle caller s running]
    refine ⟨?_, ?_, settledSafe, promisesSafe⟩
    · intro writer member
      simp [start, waiting, idle running] at member
    · rintro task ⟨⟩ writer member asked known
      have inside : writer ∈ waiting s ++ caller.awaits := by
        simpa [waiting, idle running, FlushCall.awaits] using member
      rcases safe writer inside asked known with pending | ⟨_, busy, _⟩ | flushed
      · exact .inl pending
      · rw [running] at busy
        cases busy
      · exact .inr flushed
  | some task =>
    have awaited := flushNow_waiting caller s task running
    rw [flushNow_busy caller s task running] at awaited ⊢
    refine ⟨?_, runningSafe, settledSafe, promisesSafe⟩
    intro writer member
    rw [awaited] at member
    exact safe writer member

theorem write_durable {s : State} (valid : WellFormed s) (durable : Durable s)
    (debounceMs : Int) (key value : String) : Durable (write debounceMs key value s) := by
  let asked : Write := ⟨key, value⟩
  -- Only write number `s.writes.length` is new; the others keep what they had.
  have old {writer : Nat} (bound : writer < s.writes.length) {found : Write}
      (known : (s.writes ++ [asked])[writer]? = some found) : s.writes[writer]? = some found := by
    rwa [List.getElem?_append_left bound] at known
  have bounded {task : Task} (running : s.running = some task) {writer : Nat}
      (member : writer ∈ task.call.awaits) : writer < s.writes.length :=
    outstanding_known valid (List.mem_append_left _ (List.mem_append_right _ (by
      simpa [taskAwaits, running] using member)))
  have safe : ∀ writer ∈ waiting s ++ [s.writes.length], ∀ found,
      (s.writes ++ [asked])[writer]? = some found →
        Carries (s.pending.set key ⟨value, s.writes.length⟩).entries found.key writer ∨
          (∃ task, s.running = some task ∧ Carries task.entries found.key writer) ∨
          Flushed s found.key writer := by
    intro writer member found known
    rcases List.mem_append.mp member with before | new
    · have bound := outstanding_known valid (waiting_outstanding before)
      rcases durable.waitingSafe writer before found (old bound known) with
        pending | running | flushed
      · exact .inl (carries_set pending key value _ (Nat.le_of_lt bound))
      · exact .inr (.inl running)
      · exact .inr (.inr flushed)
    · obtain rfl := List.mem_singleton.mp new
      rw [List.getElem?_append_right (Nat.le_refl _), Nat.sub_self] at known
      cases known
      exact .inl ((carries_pending _ _ _).mpr
        ⟨⟨value, s.writes.length⟩, by simp [asked], Nat.le_refl _⟩)
  have runningSafe : ∀ task, s.running = some task → ∀ writer ∈ task.call.awaits, ∀ found,
      (s.writes ++ [asked])[writer]? = some found →
        Carries task.entries found.key writer ∨ Flushed s found.key writer :=
    fun task running writer member found known =>
      durable.runningSafe task running writer member found (old (bounded running member) known)
  have settledSafe : ∀ call, (call, .resolved) ∈ s.settled → ∀ writer ∈ call.awaits, ∀ found,
      (s.writes ++ [asked])[writer]? = some found → Flushed s found.key writer := by
    intro call done writer member found known
    have bound : writer < s.writes.length := outstanding_known valid
      (List.mem_append_left _ (List.mem_append_left _ (List.mem_flatMap.mpr ⟨_, done, member⟩)))
    exact durable.settledSafe call done writer member found (old bound known)
  have promisesSafe : ∀ writer, s.promises writer = some .resolved → ∀ found,
      (s.writes ++ [asked])[writer]? = some found → Flushed s found.key writer := by
    intro writer done found known
    have bound := valid.known writer (by simp [done])
    exact durable.promisesSafe writer done found (old bound known)
  unfold write
  split
  · exact flushNow_durable _ _ valid.idle safe runningSafe settledSafe promisesSafe
  · refine ⟨fun writer member => safe writer ?_, runningSafe, settledSafe, promisesSafe⟩
    simpa [waiting] using member

theorem flushNow_keeps_durable {s : State} (valid : WellFormed s) (durable : Durable s)
    (caller : Caller) (silent : caller.awaits = []) : Durable (flushNow caller s) :=
  flushNow_durable caller s valid.idle (by simpa [silent] using durable.waitingSafe)
    durable.runningSafe durable.settledSafe durable.promisesSafe

theorem settleTask_durable {s : State} (valid : WellFormed s) (durable : Durable s)
    (task : Task) (running : s.running = some task) (outcome : Outcome)
    (owned : outcome = .rejected → ∀ entry ∈ task.entries, entry.2.writer ∉ waiting s) :
    Durable (settleTask task outcome s) := by
  have kept {key : String} {writer : Nat} (flushed : Flushed s key writer) :
      Flushed (settleTask task outcome s) key writer := by
    obtain ⟨batch, inside, carries⟩ := flushed
    refine ⟨batch, ?_, carries⟩
    rcases settleTask_cases task outcome s with ⟨-, shape⟩ | ⟨_, _, -, shape⟩ <;>
      · rw [shape]
        dsimp only
        split
        · exact inside
        · exact List.mem_append_left _ inside
  have landed {key : String} {writer : Nat} (carries : Carries task.entries key writer)
      (success : outcome = .resolved) : Flushed (settleTask task outcome s) key writer := by
    have some : task.entries ≠ [] := by
      rintro empty
      obtain ⟨_, inside, -⟩ := carries
      rw [empty] at inside
      cases inside
    refine ⟨task.entries, ?_, carries⟩
    rcases settleTask_cases task outcome s with ⟨-, shape⟩ | ⟨_, _, -, shape⟩ <;>
      · rw [shape, success]
        simp [some]
  -- A rejected batch holds no value that a flush still to come would have to answer for.
  have notLost {key : String} {writer : Nat} (member : writer ∈ waiting s)
      (carries : Carries task.entries key writer) : outcome = .resolved := by
    cases outcome with
    | resolved => rfl
    | rejected =>
      obtain ⟨stored, inside, later⟩ := carries
      have genuine := valid.runningGenuine task running _ inside
      have bound := (List.getElem?_eq_some_iff.mp genuine).1
      exact absurd (suffix_closed valid.latest member later bound) (owned rfl _ inside)
  have waitingSafe : ∀ writer ∈ waiting s, ∀ asked, s.writes[writer]? = some asked →
      Carries s.pending.entries asked.key writer ∨
        Flushed (settleTask task outcome s) asked.key writer := by
    intro writer member asked known
    rcases durable.waitingSafe writer member asked known with pending | ⟨_, busy, carries⟩ | flushed
    · exact .inl pending
    · cases running.symm.trans busy
      exact .inr (landed carries (notLost member carries))
    · exact .inr (kept flushed)
  have settledSafe : ∀ call, (call, .resolved) ∈ s.settled ++ [(task.call, outcome)] →
      ∀ writer ∈ call.awaits, ∀ asked, s.writes[writer]? = some asked →
        Flushed (settleTask task outcome s) asked.key writer := by
    intro call done writer member asked known
    rcases List.mem_append.mp done with before | new
    · exact kept (durable.settledSafe call before writer member asked known)
    · cases List.mem_singleton.mp new
      rcases durable.runningSafe task running writer member asked known with carries | flushed
      · exact landed carries rfl
      · exact kept flushed
  have promisesSafe : ∀ writer, s.promises writer = some .resolved → ∀ asked,
      s.writes[writer]? = some asked → Flushed (settleTask task outcome s) asked.key writer :=
    fun writer done asked known => kept (durable.promisesSafe writer done asked known)
  rcases settleTask_cases task outcome s with ⟨queue, shape⟩ | ⟨call, rest, queue, shape⟩
  · rw [shape] at waitingSafe settledSafe promisesSafe ⊢
    refine ⟨?_, fun _ started => (by cases started), settledSafe, promisesSafe⟩
    intro writer member asked known
    rcases waitingSafe writer member asked known with pending | flushed
    · exact .inl pending
    · exact .inr (.inr flushed)
  · rw [shape] at waitingSafe settledSafe promisesSafe ⊢
    refine ⟨?_, ?_, settledSafe, promisesSafe⟩
    · intro writer member asked known
      have before : writer ∈ waiting s := by
        simp only [waiting, queue, List.flatMap_cons, List.append_assoc]
        exact List.mem_append_right _ member
      rcases waitingSafe writer before asked known with pending | flushed
      · exact .inr (.inl ⟨_, rfl, pending⟩)
      · exact .inr (.inr flushed)
    · rintro started ⟨⟩ writer member asked known
      have before : writer ∈ waiting s := by
        simp only [waiting, queue, List.flatMap_cons, List.append_assoc]
        exact List.mem_append_left _ member
      exact waitingSafe writer before asked known

theorem resume_durable {s : State} (durable : Durable s) (call : FlushCall) (outcome : Outcome)
    (rest : List (FlushCall × Outcome)) (head : s.settled = (call, outcome) :: rest) :
    Durable (resume call outcome { s with settled := rest }) := by
  rw [resume_eq]
  refine ⟨durable.waitingSafe, durable.runningSafe, ?_, ?_⟩
  · intro later done
    exact durable.settledSafe later (by rw [head]; exact List.mem_cons_of_mem _ done)
  · intro writer done asked known
    dsimp only at done
    split at done
    · rename_i released
      cases before : s.promises writer with
      | some earlier =>
        rw [before] at done
        exact durable.promisesSafe writer (before.trans done) asked known
      | none =>
        rw [before] at done
        cases done
        exact durable.settledSafe call (by simp [head]) writer released asked known
    · exact durable.promisesSafe writer done asked known

theorem clear_durable {s : State} (durable : Durable s) (issued : Nat) (rest : List Nat) :
    Durable { s with
      queue := [], clears := rest, destroyed := s.destroyed ++ [issued] } :=
  ⟨fun writer member => durable.waitingSafe writer (List.mem_append_right _ member),
    durable.runningSafe, durable.settledSafe, durable.promisesSafe⟩

theorem step_durable {debounceMs : Int} {s next : State} {event : Event} (valid : WellFormed s)
    (durable : Durable s) (owned : BatchOwned s event)
    (taken : step debounceMs s event = some next) : Durable next := by
  rcases step_cases taken with ⟨key, value, -, rfl⟩ | ⟨caller, silent, rfl, -⟩ |
    ⟨task, outcome, rfl, running, -, rfl⟩ | ⟨call, outcome, rest, -, head, rfl⟩ |
    ⟨issued, rest, -, -, rfl⟩
  · exact write_durable valid durable debounceMs key value
  · exact flushNow_keeps_durable valid durable caller silent
  · refine settleTask_durable valid durable task running outcome ?_
    rintro rfl
    exact owned task running
  · exact resume_durable durable call outcome rest head
  · exact clear_durable durable issued rest

/-- A write whose promise resolved is in a flush that resolved, as itself or as a later write
to the same key. -/
def Acknowledged (s : State) : Prop :=
  ∀ writer asked, s.writes[writer]? = some asked → s.promises writer = some .resolved →
    ∃ batch later newer, (batch, .resolved) ∈ s.flushed ∧ writer ≤ later ∧
      s.writes[later]? = some newer ∧ newer.key = asked.key ∧
      (asked.key, ⟨newer.value, later⟩) ∈ batch

theorem acknowledged_of_durable {s : State} (valid : WellFormed s) (durable : Durable s) :
    Acknowledged s := by
  intro writer asked known done
  obtain ⟨batch, inside, stored, carried, later⟩ := durable.promisesSafe writer done asked known
  exact ⟨batch, stored.writer, ⟨asked.key, stored.value⟩, inside, later,
    valid.flushedGenuine _ inside _ carried, rfl, carried⟩

theorem acknowledged_run (debounceMs : Int) (events : List Event) (s : State)
    (run : Run (step debounceMs) BatchOwned initial events s) : Acknowledged s := by
  have both : WellFormed s ∧ Durable s := run.invariant (fun s => WellFormed s ∧ Durable s)
    (fun _ _ _ held owned taken =>
      ⟨step_wellFormed held.1 taken, step_durable held.1 held.2 owned taken⟩)
    ⟨initial_wellFormed, initial_durable⟩
  exact acknowledged_of_durable both.1 both.2

def acknowledgedRun : List Event :=
  [.write "creds" "1", .flushNow, .flushSettles .resolved, .write "pre-key-1" "2", .flushNow,
    .flushSettles .rejected, .resume, .resume]

theorem acknowledged_run_failing :
    ∃ s, replay (step 50) BatchOwned initial acknowledgedRun = some s ∧
      s.promises 0 = some .resolved ∧ Acknowledged s :=
  ⟨_, rfl, rfl, acknowledged_run 50 acknowledgedRun _ (replay_run _ _ _ _ _ rfl)⟩

-- The second flush takes the value of write 2 as well and rejects; the flush that write 2
-- waits for finds nothing pending.
def lostRun (last : Event) : List Event :=
  [.write "a" "1", .flushNow, .write "b" "2", .flushNow, .write "c" "3",
    .flushSettles .rejected, .flushSettles .rejected, last, .flushSettles .resolved,
    .resume, .resume, .resume]

theorem acknowledged_lost : ∃ s, replay (step 50) anything initial (lostRun .timerFires) = some s ∧
    s.writes[2]? = some ⟨"c", "3"⟩ ∧ s.promises 2 = some .resolved ∧
    (∀ batch, (batch, Outcome.resolved) ∉ s.flushed) ∧ ¬ Acknowledged s := by
  have nothing : ∀ batch : Batch, (batch, Outcome.resolved) ∉
      [([("a", (⟨"1", 0⟩ : Stored))], Outcome.rejected),
        ([("b", ⟨"2", 1⟩), ("c", ⟨"3", 2⟩)], Outcome.rejected)] := by
    intro batch inside
    simp at inside
  refine ⟨_, rfl, rfl, rfl, nothing, ?_⟩
  intro acknowledged
  obtain ⟨batch, _, _, inside, -⟩ := acknowledged 2 _ rfl rfl
  exact nothing batch inside

end BaileysSession.WriteBatcher
