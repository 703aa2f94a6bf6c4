import BaileysSession.Lock.LocalMutexLock
import BaileysSession.Shared.Transition
import Mathlib.Logic.Function.Basic

set_option autoImplicit false

namespace BaileysSession.LocalMutexLock

open Transition

section Source

-- What a mutex knows: whose body runs, and who waits, first come first.
structure Locking where
  running : Option Nat
  waiters : List Nat
  deriving DecidableEq, Repr

inductive Mark where
  | starts (call : Nat)
  | ends (call : Nat) (resolved : Bool)
  deriving DecidableEq, Repr

def Mark.call : Mark → Nat
  | .starts call => call
  | .ends call _ => call

/-- A lock and the mutexes of its process. `calls` and `log` are history variables: the keys of
the `withLock` calls, and what their bodies did. -/
structure State where
  lock : LocalMutexLock
  made : Nat
  mutexes : Mutex → Locking
  calls : List String
  log : List Mark

def initial : State := ⟨new, 0, fun _ => ⟨none, []⟩, [], []⟩

def runExclusive (mutex : Mutex) (key : String) (s : State) : State :=
  let call := s.calls.length
  let called := { s with calls := s.calls ++ [key] }
  match s.mutexes mutex with
  | ⟨none, waiters⟩ => { called with
      mutexes := Function.update s.mutexes mutex ⟨some call, waiters⟩
      log := s.log ++ [.starts call] }
  | ⟨some running, waiters⟩ => { called with
      mutexes := Function.update s.mutexes mutex ⟨some running, waiters ++ [call]⟩ }

def withLock (key : String) (s : State) : State :=
  let acquiring := s.lock.getMutex key s.made
  runExclusive acquiring.mutex key { s with lock := acquiring.lock, made := acquiring.made }

-- `runExclusive` releases the mutex however the body ends.
def release (mutex : Mutex) (call : Nat) (resolved : Bool) (s : State) : State :=
  let ended := { s with log := s.log ++ [Mark.ends call resolved] }
  match (s.mutexes mutex).waiters with
  | [] => { ended with mutexes := Function.update s.mutexes mutex ⟨none, []⟩ }
  | next :: rest => { ended with
      mutexes := Function.update s.mutexes mutex ⟨some next, rest⟩
      log := ended.log ++ [Mark.starts next] }

inductive Event where
  | withLock (key : String)
  -- The body that runs under a mutex settles.
  | settles (mutex : Mutex) (resolved : Bool)
  deriving DecidableEq, Repr

def step : Step State Event := fun s event =>
  match event with
  | .withLock key => some (withLock key s)
  | .settles mutex resolved =>
    (s.mutexes mutex).running.map fun call => release mutex call resolved s

end Source

section Turns

variable (s : State) (key : String)

def callsOf : List Nat :=
  (List.range s.calls.length).filter fun call => decide (s.calls[call]? = some key)

def logOf : List Mark := s.log.filter fun mark => decide (s.calls[mark.call]? = some key)

def bodies (done : List (Nat × Bool)) : List Mark :=
  done.flatMap fun body => [.starts body.1, .ends body.1 body.2]

/-- The bodies of the calls with a key run one at a time, in the order of the calls, and one runs
if any waits. -/
structure Turn (done : List (Nat × Bool)) (locking : Locking) : Prop where
  calls : callsOf s key = done.map Prod.fst ++ locking.running.toList ++ locking.waiters
  log : logOf s key = bodies done ++ locking.running.toList.map Mark.starts
  busy : locking.running = none → locking.waiters = []

def InTurn : Prop := ∃ done locking, Turn s key done locking

structure Holds (s : State) : Prop where
  fresh : ∀ key mutex, s.lock.locks.get? key = some mutex → mutex < s.made
  apart : ∀ key other mutex, s.lock.locks.get? key = some mutex →
    s.lock.locks.get? other = some mutex → key = other
  unmade : ∀ mutex, s.made ≤ mutex → s.mutexes mutex = ⟨none, []⟩
  owned : ∀ mutex call, (s.mutexes mutex).running = some call →
    ∃ key, s.lock.locks.get? key = some mutex
  marked : ∀ mark ∈ s.log, mark.call < s.calls.length
  unknown : ∀ key, s.lock.locks.get? key = none → callsOf s key = [] ∧ logOf s key = []
  turn : ∀ key mutex, s.lock.locks.get? key = some mutex → ∃ done, Turn s key done (s.mutexes mutex)

end Turns

theorem initial_holds : Holds initial where
  fresh := fun _ _ found => by cases found
  apart := fun _ _ _ found => by cases found
  unmade := fun _ _ => rfl
  owned := fun _ _ running => by cases running
  marked := fun _ inside => absurd inside List.not_mem_nil
  unknown := fun _ _ => ⟨rfl, rfl⟩
  turn := fun _ _ found => by cases found

section Steps

variable {s next : State} {key : String} {mutex : Mutex} {locking : Locking}

theorem callsOf_called (calls : next.calls = s.calls ++ [key]) (other : String) :
    callsOf next other = callsOf s other ++ if key = other then [s.calls.length] else [] := by
  have before : ∀ call ∈ List.range s.calls.length,
      decide ((s.calls ++ [key])[call]? = some other) = decide (s.calls[call]? = some other) := by
    intro call inside
    rw [List.getElem?_append_left (List.mem_range.mp inside)]
  rw [callsOf, calls, List.length_append, List.length_singleton, List.range_succ,
    List.filter_append, List.filter_congr before, callsOf, List.filter_singleton,
    List.getElem?_concat_length]
  by_cases same : key = other <;> simp [same]

theorem logOf_marked (holds : Holds s) {more : List String} {marks : List Mark}
    (calls : next.calls = s.calls ++ more) (log : next.log = s.log ++ marks) (other : String) :
    logOf next other = logOf s other ++
      marks.filter fun mark => decide (next.calls[mark.call]? = some other) := by
  have before : ∀ mark ∈ s.log, decide (next.calls[mark.call]? = some other) =
      decide (s.calls[mark.call]? = some other) := by
    intro mark inside
    rw [calls, List.getElem?_append_left (holds.marked mark inside)]
  rw [logOf, log, List.filter_append, List.filter_congr before, logOf]

theorem logOf_under (holds : Holds s) {more : List String} {marks : List Mark}
    (calls : next.calls = s.calls ++ more) (log : next.log = s.log ++ marks)
    (under : ∀ mark ∈ marks, next.calls[mark.call]? = some key) :
    logOf next key = logOf s key ++ marks ∧
      ∀ other, other ≠ key → logOf next other = logOf s other := by
  refine ⟨?_, ?_⟩
  · rw [logOf_marked holds calls log, List.filter_eq_self.mpr]
    intro mark inside
    exact decide_eq_true (under mark inside)
  · intro other different
    rw [logOf_marked holds calls log, List.filter_eq_nil_iff.mpr, List.append_nil]
    intro mark inside
    rw [under mark inside]
    simpa using Ne.symm different

theorem mem_callsOf {call : Nat} (inside : call ∈ callsOf s key) : s.calls[call]? = some key := by
  simpa using (List.mem_filter.mp inside).2

theorem advance_holds (holds : Holds s) (owner : s.lock.locks.get? key = some mutex)
    {more : List String} {marks : List Mark} (lock : next.lock = s.lock) (made : next.made = s.made)
    (mutexes : next.mutexes = Function.update s.mutexes mutex locking)
    (calls : next.calls = s.calls ++ more) (log : next.log = s.log ++ marks)
    (under : ∀ mark ∈ marks, next.calls[mark.call]? = some key)
    (others : ∀ other, other ≠ key → callsOf next other = callsOf s other)
    (turn : logOf next key = logOf s key ++ marks → ∃ done, Turn next key done locking) :
    Holds next := by
  have elsewhere : ∀ other, other ≠ mutex → next.mutexes other = s.mutexes other := by
    intro other different
    rw [mutexes, Function.update_of_ne different]
  obtain ⟨logged, logs⟩ := logOf_under holds calls log under
  refine ⟨?_, ?_, ?_, ?_, ?_, ?_, ?_⟩
  · rw [lock, made]
    exact holds.fresh
  · rw [lock]
    exact holds.apart
  · intro other beyond
    rw [made] at beyond
    have different : other ≠ mutex := by
      rintro rfl
      exact absurd (holds.fresh key other owner) (Nat.not_lt.mpr beyond)
    rw [elsewhere other different]
    exact holds.unmade other beyond
  · intro other call running
    rw [lock]
    by_cases here : other = mutex
    · exact ⟨key, here ▸ owner⟩
    · rw [elsewhere other here] at running
      exact holds.owned other call running
  · intro mark inside
    rw [log] at inside
    rcases List.mem_append.mp inside with before | here
    · rw [calls, List.length_append]
      exact Nat.lt_add_right _ (holds.marked mark before)
    · exact (List.getElem?_eq_some_iff.mp (under mark here)).1
  · intro other missing
    rw [lock] at missing
    have different : other ≠ key := by
      rintro rfl
      rw [owner] at missing
      cases missing
    rw [others other different, logs other different]
    exact holds.unknown other missing
  · intro other another found
    rw [lock] at found
    by_cases here : other = key
    · subst here
      rw [owner] at found
      cases found
      rw [mutexes, Function.update_self]
      exact turn logged
    · have different : another ≠ mutex := fun same => here (holds.apart other key mutex
        (same ▸ found) owner)
      obtain ⟨done, called, log, busy⟩ := holds.turn other another found
      rw [elsewhere another different]
      exact ⟨done, (others other here).trans called, (logs other here).trans log, busy⟩

theorem getMutex_holds (holds : Holds s) (key : String) :
    let acquiring := s.lock.getMutex key s.made
    Holds { s with lock := acquiring.lock, made := acquiring.made } := by
  unfold getMutex
  split
  · exact holds
  · rename_i missing
    have found : ∀ other mutex, (s.lock.locks.set key s.made).get? other = some mutex →
        (other = key ∧ mutex = s.made) ∨ (other ≠ key ∧ s.lock.locks.get? other = some mutex) := by
      intro other mutex there
      rw [InsertionMap.get?_set] at there
      split at there
      · rename_i same
        cases there
        exact .inl ⟨same, rfl⟩
      · rename_i different
        exact .inr ⟨different, there⟩
    refine ⟨?_, ?_, ?_, ?_, holds.marked, ?_, ?_⟩
    · intro other mutex there
      rcases found other mutex there with ⟨-, rfl⟩ | ⟨-, before⟩
      · exact Nat.lt_succ_self _
      · exact Nat.lt_succ_of_lt (holds.fresh other mutex before)
    · intro first second mutex one two
      rcases found first mutex one with ⟨rfl, rfl⟩ | ⟨-, before⟩
      · rcases found second _ two with ⟨rfl, -⟩ | ⟨-, before⟩
        · rfl
        · exact absurd (holds.fresh second _ before) (Nat.lt_irrefl _)
      · rcases found second mutex two with ⟨-, rfl⟩ | ⟨-, also⟩
        · exact absurd (holds.fresh first _ before) (Nat.lt_irrefl _)
        · exact holds.apart first second mutex before also
    · exact fun mutex beyond => holds.unmade mutex (Nat.le_of_succ_le beyond)
    · intro mutex call running
      obtain ⟨other, before⟩ := holds.owned mutex call running
      refine ⟨other, ?_⟩
      have different : other ≠ key := by
        rintro rfl
        rw [missing] at before
        cases before
      rw [InsertionMap.get?_set, if_neg different]
      exact before
    · intro other none
      rw [InsertionMap.get?_set] at none
      split at none
      · cases none
      · exact holds.unknown other none
    · intro other mutex there
      rcases found other mutex there with ⟨rfl, rfl⟩ | ⟨-, before⟩
      · obtain ⟨calls, log⟩ := holds.unknown other missing
        rw [holds.unmade s.made (Nat.le_refl _)]
        exact ⟨[], calls, log, fun _ => rfl⟩
      · obtain ⟨done, calls, log, busy⟩ := holds.turn other mutex before
        exact ⟨done, calls, log, busy⟩

theorem runExclusive_holds (holds : Holds s) (owner : s.lock.locks.get? key = some mutex) :
    Holds (runExclusive mutex key s) := by
  obtain ⟨done, calls, log, busy⟩ := holds.turn key mutex owner
  have called : (s.calls ++ [key])[s.calls.length]? = some key := List.getElem?_concat_length
  have others : ∀ {next : State}, next.calls = s.calls ++ [key] → ∀ other, other ≠ key →
      callsOf next other = callsOf s other := by
    intro next calling other different
    rw [callsOf_called calling, if_neg (Ne.symm different), List.append_nil]
  unfold runExclusive
  split
  · rename_i waiters free
    rw [free] at calls log busy
    have under : ∀ mark ∈ [Mark.starts s.calls.length],
        (s.calls ++ [key])[mark.call]? = some key := by
      intro mark here
      rw [List.mem_singleton.mp here]
      exact called
    refine advance_holds holds owner rfl rfl rfl rfl rfl under (others rfl) fun logged =>
      ⟨done, ?_, logged.trans ?_, ?_⟩
    · rw [callsOf_called rfl, if_pos rfl, calls, busy rfl]
      simp
    · rw [log]
      simp
    · intro idle
      cases idle
  · rename_i running waiters taken
    rw [taken] at calls log
    have under : ∀ mark ∈ ([] : List Mark), (s.calls ++ [key])[mark.call]? = some key := by
      intro mark here
      cases here
    refine advance_holds holds owner rfl rfl rfl rfl (List.append_nil _).symm under (others rfl)
      fun logged => ⟨done, ?_, logged.trans ?_, ?_⟩
    · rw [callsOf_called rfl, if_pos rfl, calls]
      simp
    · rw [log]
      simp
    · intro idle
      cases idle

theorem withLock_holds (holds : Holds s) (key : String) : Holds (withLock key s) :=
  runExclusive_holds (getMutex_holds holds key) (getMutex_kept s.lock key s.made)

theorem release_holds {call : Nat} (holds : Holds s) (running : (s.mutexes mutex).running = some call)
    (resolved : Bool) : Holds (release mutex call resolved s) := by
  obtain ⟨key, owner⟩ := holds.owned mutex call running
  obtain ⟨done, calls, log, -⟩ := holds.turn key mutex owner
  rw [running] at calls log
  have keyed : ∀ other ∈ call :: (s.mutexes mutex).waiters, s.calls[other]? = some key := by
    intro other inside
    refine mem_callsOf ?_
    rw [calls]
    simpa using Or.inr inside
  unfold release
  split
  · rename_i empty
    rw [empty] at calls keyed
    have under : ∀ mark ∈ [Mark.ends call resolved], s.calls[mark.call]? = some key := by
      intro mark here
      rw [List.mem_singleton.mp here]
      exact keyed call List.mem_cons_self
    refine advance_holds holds owner rfl rfl rfl (List.append_nil _).symm rfl under
      (fun _ _ => rfl) fun logged =>
        ⟨done ++ [(call, resolved)], ?_, logged.trans ?_, fun _ => rfl⟩
    · simpa [callsOf] using calls
    · rw [log]
      simp [bodies]
  · rename_i follower rest waiting
    rw [waiting] at calls keyed
    have under : ∀ mark ∈ [Mark.ends call resolved, Mark.starts follower],
        s.calls[mark.call]? = some key := by
      intro mark here
      rcases List.mem_pair.mp here with rfl | rfl
      · exact keyed call List.mem_cons_self
      · exact keyed follower (List.mem_cons_of_mem _ List.mem_cons_self)
    refine advance_holds holds owner rfl rfl rfl (List.append_nil _).symm (by simp) under
      (fun _ _ => rfl) fun logged => ⟨done ++ [(call, resolved)], ?_, logged.trans ?_, ?_⟩
    · simpa [callsOf] using calls
    · rw [log]
      simp [bodies]
    · intro idle
      cases idle

theorem step_holds {event : Event} (holds : Holds s) (stepped : step s event = some next) :
    Holds next := by
  cases event with
  | withLock key =>
    cases stepped
    exact withLock_holds holds key
  | settles mutex resolved =>
    obtain ⟨call, running, rfl⟩ := Option.map_eq_some_iff.mp stepped
    exact release_holds holds running resolved

/-- The bodies of a key never overlap, run in the order of their calls, whether they resolve or
reject, and the key is idle only when nobody waits for it. -/
theorem served_in_turn (events : List Event) (final : State)
    (run : Run step anything initial events final) (key : String) : InTurn final key := by
  have holds : Holds final := run.invariant Holds
    (fun _ _ _ holds _ stepped => step_holds holds stepped) initial_holds
  cases found : final.lock.locks.get? key with
  | none =>
    obtain ⟨calls, log⟩ := holds.unknown key found
    exact ⟨[], ⟨none, []⟩, calls, log, fun _ => rfl⟩
  | some mutex =>
    obtain ⟨done, turn⟩ := holds.turn key mutex found
    exact ⟨done, _, turn⟩

def contended : List Event :=
  [.withLock "a", .withLock "b", .withLock "a", .settles 0 false, .withLock "a", .settles 1 true]

theorem served_in_turn_contended : ∃ final, replay step anything initial contended = some final ∧
    logOf final "a" = [.starts 0, .ends 0 false, .starts 2] ∧ InTurn final "a" :=
  ⟨_, rfl, rfl, served_in_turn contended _ (replay_run _ _ _ _ _ rfl) "a"⟩

end Steps

end BaileysSession.LocalMutexLock
