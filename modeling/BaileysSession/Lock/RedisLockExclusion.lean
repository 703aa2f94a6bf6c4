import BaileysSession.Lock.RedisLockOwnership

set_option autoImplicit false

namespace BaileysSession.RedisLock

open Transition

variable {Client : Type} [DecidableEq Client]

/-- Two bodies for one key run at once only if one of them acquired the lock at least `ttlMs`
before the other did. -/
theorem overlapping_bodies (calls : Calls Client) (distinct : Function.Injective calls.token)
    (events : List (Event Client)) (s : State Client)
    (run : Run (step calls) anything (initial Client) events s)
    (first second : Client) (different : first ≠ second)
    (same : calls.key first = calls.key second) (since later : Nat)
    (firstRuns : s.phase first = .running since) (secondRuns : s.phase second = .running later) :
    (since + calls.ttlMs ≤ later ∧ later ≤ s.now) ∨
      (later + calls.ttlMs ≤ since ∧ since ≤ s.now) := by
  have held := run_ownership distinct run
  have firstOwns : Owns s first since := by rw [Owns, firstRuns]; rfl
  have secondOwns : Owns s second later := by rw [Owns, secondRuns]; rfl
  rcases held.apart first second since later different same firstOwns secondOwns with
    before | after
  · exact .inl ⟨before, held.past second later secondOwns⟩
  · exact .inr ⟨after, held.past first since firstOwns⟩

def overlapRun : List (Event Bool) :=
  [.call false 0, .set false, .granted false, .elapse 10000, .call true 0, .set true,
    .granted true]

theorem overlapping_bodies_expired :
    ∃ s, replay (step twoCalls) anything (initial Bool) overlapRun = some s ∧
      ((0 + 10000 ≤ 10000 ∧ 10000 ≤ s.now) ∨ (10000 + 10000 ≤ 0 ∧ 0 ≤ s.now)) :=
  ⟨_, rfl, overlapping_bodies twoCalls twoCalls_distinct overlapRun _ (replay_run _ _ _ _ _ rfl)
    false true (by decide) rfl 0 10000 rfl rfl⟩

theorem bodies_overlap :
    ∃ s, replay (step twoCalls) anything (initial Bool) overlapRun = some s ∧
      twoCalls.key false = twoCalls.key true ∧
      s.phase false = .running 0 ∧ s.phase true = .running 10000 :=
  ⟨_, rfl, rfl, rfl, rfl⟩

end BaileysSession.RedisLock
