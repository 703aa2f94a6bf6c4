import Mathlib.Logic.Function.Basic
import BaileysSession.Lock.RedisLock

set_option autoImplicit false

namespace BaileysSession.RedisLock

open Transition

variable {Client : Type} [DecidableEq Client]

theorem lockKey_injective : Function.Injective lockKey := by
  intro left right same
  exact (String.append_right_inj _).mp same

@[simp] theorem enter_self (s : State Client) (client : Client) (phase : Phase) :
    (s.enter client phase).phase client = phase := Function.update_self ..

theorem enter_other (s : State Client) {client other : Client} (phase : Phase)
    (different : other ≠ client) : (s.enter client phase).phase other = s.phase other :=
  Function.update_of_ne different ..

@[simp] theorem enter_store (s : State Client) (client : Client) (phase : Phase) :
    (s.enter client phase).store = s.store := rfl

@[simp] theorem enter_now (s : State Client) (client : Client) (phase : Phase) :
    (s.enter client phase).now = s.now := rfl

inductive Effect (calls : Calls Client) (s : State Client) : Event Client → State Client → Prop
  | elapse (ms : Nat) : Effect calls s (.elapse ms) { s with now := s.now + ms }
  | acquire (client : Client) (store : ExpiringStore String String)
      (free : (s.phase client).committed = false) (taken : trySet calls s client = some store) :
      Effect calls s (.set client) ({ s with store }.enter client (.acquired s.now))
  | lost (client : Client) (applied : Bool) (store : ExpiringStore String String)
      (free : (s.phase client).committed = false)
      (taken : store = s.store ∨ trySet calls s client = some store) :
      Effect calls s (.setFails client applied) ({ s with store }.enter client .failed)
  | release (client : Client) (event : Event Client) (since : Nat) (returned : Bool)
      (store : ExpiringStore String String)
      (releasing : event = .release client ∨ ∃ applied, event = .releaseFails client applied)
      (held : (s.phase client).since? = some since)
      (script : store = s.store ∨ store = runScript calls s client) :
      Effect calls s event ({ s with store }.enter client (.done returned))
  | move (client : Client) (event : Event Client) (phase : Phase)
      (mine : event.client? = some client)
      (since : phase.since? = (s.phase client).since?)
      (committed : phase.committed = (s.phase client).committed)
      (starts : event = .granted client → phase.committed = true)
      (unfinished : ∀ message, s.phase client ≠ .timedOut message) :
      Effect calls s event (s.enter client phase)

theorem step_effect {calls : Calls Client} {s next : State Client} {event : Event Client}
    (taken : step calls s event = some next) : Effect calls s event next := by
  cases event with
  | elapse ms =>
    cases taken
    exact .elapse ms
  | call client dateNow =>
    simp only [step] at taken
    split at taken <;> cases taken
    rename_i phase
    exact .move client _ _ rfl (by rw [phase]; rfl) (by rw [phase]; rfl) nofun
      (by simp [phase])
  | set client =>
    simp only [step] at taken
    split at taken
    · rename_i phase
      split at taken
      · cases taken
      split at taken <;> cases taken
      · rename_i set
        exact .acquire client _ (by rw [phase]; rfl) set
      · exact .move client _ _ rfl (by rw [phase]; rfl) (by rw [phase]; rfl) nofun
          (by simp [phase])
    · cases taken
  | setFails client applied =>
    simp only [step] at taken
    split at taken <;> cases taken
    rename_i phase
    refine .lost client applied _ (by rw [phase]; rfl) ?_
    split
    · cases set : trySet calls s client with
      | none => exact .inl rfl
      | some store => exact .inr rfl
    · exact .inl rfl
  | checkDeadline client dateNow =>
    simp only [step] at taken
    split at taken
    · rename_i phase
      split at taken <;> cases taken <;>
        exact .move client _ _ rfl (by rw [phase]; rfl) (by rw [phase]; rfl) nofun
          (by simp [phase])
    · cases taken
  | granted client =>
    simp only [step] at taken
    split at taken <;> cases taken
    rename_i phase
    exact .move client _ _ rfl (by rw [phase]; rfl) (by rw [phase]; rfl) (fun _ => rfl)
      (by simp [phase])
  | bodySettles client returned =>
    simp only [step] at taken
    split at taken <;> cases taken
    rename_i phase
    exact .move client _ _ rfl (by rw [phase]; rfl) (by rw [phase]; rfl) nofun
      (by simp [phase])
  | release client =>
    simp only [step] at taken
    split at taken <;> cases taken
    rename_i since returned phase
    exact .release client _ since returned _ (.inl rfl) (by rw [phase]; rfl) (.inr rfl)
  | releaseFails client applied =>
    simp only [step] at taken
    split at taken <;> cases taken
    rename_i since returned phase
    refine .release client _ since returned _ (.inr ⟨applied, rfl⟩) (by rw [phase]; rfl) ?_
    split
    · exact .inr rfl
    · exact .inl rfl

omit [DecidableEq Client] in
theorem trySet_eq_some {calls : Calls Client} {s : State Client} {client : Client}
    {store : ExpiringStore String String} (taken : trySet calls s client = some store) :
    s.store.get s.now (lockKey (calls.key client)) = none ∧
      store = Function.update s.store (lockKey (calls.key client))
        (some ⟨calls.token client, s.now + calls.ttlMs⟩) := by
  unfold trySet at taken
  split at taken
  · cases taken
  · exact ExpiringStore.setIfAbsent_eq_some taken

structure Ownership (calls : Calls Client) (s : State Client) : Prop where
  past : ∀ client since, Owns s client since → since ≤ s.now
  stored : ∀ client since, Owns s client since → s.now < since + calls.ttlMs →
    s.store (lockKey (calls.key client)) = some ⟨calls.token client, since + calls.ttlMs⟩
  apart : ∀ first second since later, first ≠ second →
    calls.key first = calls.key second → Owns s first since → Owns s second later →
    since + calls.ttlMs ≤ later ∨ later + calls.ttlMs ≤ since

omit [DecidableEq Client] in
theorem initial_ownership (calls : Calls Client) : Ownership calls (initial Client) where
  past := fun _ _ owner => by cases owner
  stored := fun _ _ owner => by cases owner
  apart := fun _ _ _ _ _ _ owner => by cases owner

section Steps

variable {calls : Calls Client} {s : State Client} (held : Ownership calls s)
include held

omit [DecidableEq Client] in
theorem trySet_keeps {client owner : Client} {since : Nat} {store : ExpiringStore String String}
    (taken : trySet calls s client = some store) (owns : Owns s owner since)
    (live : s.now < since + calls.ttlMs) :
    store (lockKey (calls.key owner)) = s.store (lockKey (calls.key owner)) := by
  obtain ⟨free, rfl⟩ := trySet_eq_some taken
  by_cases same : lockKey (calls.key owner) = lockKey (calls.key client)
  · have stored := held.stored owner since owns live
    rw [same] at stored
    have expired := ExpiringStore.get_none free stored
    exact absurd live (Nat.not_lt.mpr expired)
  · exact Function.update_of_ne same ..

omit [DecidableEq Client] in
theorem elapse_ownership (ms : Nat) : Ownership calls { s with now := s.now + ms } where
  past := fun client since owns => Nat.le_add_right_of_le (held.past client since owns)
  stored := fun client since owns live =>
    held.stored client since owns (Nat.lt_of_le_of_lt (Nat.le_add_right _ _) live)
  apart := held.apart

theorem leave_ownership (client : Client) (phase : Phase) (store : ExpiringStore String String)
    (leaves : phase.since? = none)
    (kept : ∀ owner since, owner ≠ client → Owns s owner since → s.now < since + calls.ttlMs →
      store (lockKey (calls.key owner)) = s.store (lockKey (calls.key owner))) :
    Ownership calls ({ s with store }.enter client phase) := by
  have other : ∀ owner since, Owns ({ s with store }.enter client phase) owner since →
      owner ≠ client ∧ Owns s owner since := by
    intro owner since owns
    by_cases same : owner = client
    · subst same
      simp [Owns, leaves] at owns
    · exact ⟨same, by rwa [Owns, enter_other _ _ same] at owns⟩
  refine ⟨?_, ?_, ?_⟩
  · intro owner since owns
    exact held.past owner since (other owner since owns).2
  · intro owner since owns live
    obtain ⟨different, before⟩ := other owner since owns
    exact (kept owner since different before live).trans (held.stored owner since before live)
  · intro first second since later different same firstOwns secondOwns
    exact held.apart first second since later different same (other first since firstOwns).2
      (other second later secondOwns).2

theorem move_ownership (client : Client) (phase : Phase)
    (since : phase.since? = (s.phase client).since?) : Ownership calls (s.enter client phase) := by
  have same : ∀ owner time, Owns (s.enter client phase) owner time → Owns s owner time := by
    intro owner time owns
    by_cases here : owner = client
    · subst here
      rwa [Owns, enter_self, since] at owns
    · rwa [Owns, enter_other _ _ here] at owns
  refine ⟨?_, ?_, ?_⟩
  · intro owner time owns
    exact held.past owner time (same owner time owns)
  · intro owner time owns live
    exact held.stored owner time (same owner time owns) live
  · intro first second time later different keys firstOwns secondOwns
    exact held.apart first second time later different keys (same first time firstOwns)
      (same second later secondOwns)

theorem acquire_ownership (client : Client) (store : ExpiringStore String String)
    (taken : trySet calls s client = some store) :
    Ownership calls ({ s with store }.enter client (.acquired s.now)) := by
  obtain ⟨free, written⟩ := trySet_eq_some taken
  -- An owner of the same key has outlived its TTL: its entry would still be visible.
  have expired : ∀ owner since, calls.key owner = calls.key client → Owns s owner since →
      since + calls.ttlMs ≤ s.now := by
    intro owner since same owns
    by_contra live
    have stored := held.stored owner since owns (Nat.lt_of_not_le live)
    rw [same] at stored
    exact live (ExpiringStore.get_none free stored)
  have mine : ∀ since, Owns ({ s with store }.enter client (.acquired s.now)) client since →
      since = s.now := by
    intro since owns
    rw [Owns, enter_self] at owns
    exact (Option.some.inj owns).symm
  have other : ∀ owner since, owner ≠ client →
      Owns ({ s with store }.enter client (.acquired s.now)) owner since → Owns s owner since := by
    intro owner since different owns
    rwa [Owns, enter_other _ _ different] at owns
  refine ⟨?_, ?_, ?_⟩
  · intro owner since owns
    by_cases here : owner = client
    · subst here
      exact Nat.le_of_eq (mine since owns)
    · exact held.past owner since (other owner since here owns)
  · intro owner since owns live
    by_cases here : owner = client
    · subst here
      rw [mine since owns, written]
      exact Function.update_self ..
    · have before := other owner since here owns
      exact (trySet_keeps held taken before live).trans (held.stored owner since before live)
  · intro first second since later different same firstOwns secondOwns
    by_cases here : first = client
    · subst here
      right
      rw [mine since firstOwns]
      exact expired second later same.symm (other second later different.symm secondOwns)
    · by_cases there : second = client
      · subst there
        left
        rw [mine later secondOwns]
        exact expired first since same (other first since here firstOwns)
      · exact held.apart first second since later different same (other first since here firstOwns)
          (other second later there secondOwns)

end Steps

omit [DecidableEq Client] in
theorem runScript_keeps (calls : Calls Client) (s : State Client) (client : Client) {key : String}
    {entry : Expiring String} (stored : s.store key = some entry)
    (different : entry.value ≠ calls.token client) : runScript calls s client key = some entry :=
  ExpiringStore.deleteIfEqual_other stored different

theorem step_ownership {calls : Calls Client} (distinct : Function.Injective calls.token)
    {s next : State Client} {event : Event Client} (held : Ownership calls s)
    (taken : step calls s event = some next) : Ownership calls next := by
  cases step_effect taken with
  | elapse ms => exact elapse_ownership held ms
  | acquire client store free set => exact acquire_ownership held client store set
  | lost client applied store free set =>
    refine leave_ownership held client .failed store rfl ?_
    intro owner since different owns live
    rcases set with rfl | set
    · rfl
    · exact trySet_keeps held set owns live
  | release client event since returned store releasing before script =>
    refine leave_ownership held client (.done returned) store rfl ?_
    intro owner later different owns live
    rcases script with rfl | rfl
    · rfl
    · have stored := held.stored owner later owns live
      rw [runScript_keeps calls s client stored (fun same => different (distinct same)), stored]
  | move client event phase mine since => exact move_ownership held client phase since

theorem run_ownership {calls : Calls Client} (distinct : Function.Injective calls.token)
    {events : List (Event Client)} {s : State Client}
    (run : Run (step calls) anything (initial Client) events s) : Ownership calls s :=
  run.invariant _ (fun _ _ _ held _ taken => step_ownership distinct held taken)
    (initial_ownership calls)

theorem committed_stays {calls : Calls Client} {s next : State Client} {event : Event Client}
    (taken : step calls s event = some next) (client : Client)
    (committed : (s.phase client).committed = true) : (next.phase client).committed = true := by
  cases step_effect taken with
  | elapse ms => exact committed
  | acquire other store free set =>
    by_cases same : client = other
    · rw [same, enter_self]
      rfl
    · rwa [enter_other _ _ same]
  | lost other applied store free set =>
    by_cases same : client = other
    · rw [same, enter_self]
      rfl
    · rwa [enter_other _ _ same]
  | release other event since returned store releasing before script =>
    by_cases same : client = other
    · rw [same, enter_self]
      rfl
    · rwa [enter_other _ _ same]
  | move other event phase mine since kept =>
    by_cases same : client = other
    · rw [same, enter_self, kept, ← same, committed]
    · rwa [enter_other _ _ same]

theorem committed_run {calls : Calls Client} {s final : State Client}
    {events : List (Event Client)} (run : Run (step calls) anything s events final)
    (client : Client) (committed : (s.phase client).committed = true) :
    (final.phase client).committed = true :=
  run.invariant (fun s => (s.phase client).committed = true)
    (fun _ _ _ before _ taken => committed_stays taken client before) committed

theorem uncommitted_step {calls : Calls Client} {s next : State Client} {event : Event Client}
    (taken : step calls s event = some next) {client : Client}
    (mine : event.client? = some client) (free : (next.phase client).committed = false) :
    next.store = s.store ∧ event ≠ .granted client := by
  cases step_effect taken with
  | elapse ms => cases mine
  | acquire other store before set =>
    cases mine
    simp [Phase.committed] at free
  | lost other applied store before set =>
    cases mine
    simp [Phase.committed] at free
  | release other event since returned store releasing before script =>
    have same : other = client := by
      rcases releasing with rfl | ⟨_, rfl⟩ <;> exact Option.some.inj mine
    simp [same, Phase.committed] at free
  | move other event phase theirs since kept starts =>
    have same : other = client := Option.some.inj (theirs.symm.trans mine)
    subst same
    refine ⟨rfl, ?_⟩
    rintro rfl
    simp [starts rfl] at free

theorem run_split {calls : Calls Client} {s final : State Client}
    {earlier later : List (Event Client)} {event : Event Client}
    (run : Run (step calls) anything s (earlier ++ event :: later) final)
    {before after : State Client} (prior : Run (step calls) anything s earlier before)
    (taken : step calls before event = some after) :
    Run (step calls) anything after later final := by
  induction prior with
  | nil state =>
    cases run with
    | cons _ first tail => exact Option.some.inj (first.symm.trans taken) ▸ tail
  | cons _ first _ ih =>
    cases run with
    | cons _ again tail =>
      cases first.symm.trans again
      exact ih tail taken

/-- A client owns its lock until its TTL or its release; no release touches another client's
lock; a client that timed out never ran `fn` nor changed a lock. -/
theorem lock_ownership (calls : Calls Client) (distinct : Function.Injective calls.token)
    (events : List (Event Client)) (s : State Client)
    (run : Run (step calls) anything (initial Client) events s) :
    (∀ client since, Owns s client since → s.now < since + calls.ttlMs →
      s.store.get s.now (lockKey (calls.key client)) = some (calls.token client) ∧
        ∀ other, calls.key other = calls.key client → trySet calls s other = none) ∧
    (∀ client event next,
      (event = .release client ∨ ∃ applied, event = .releaseFails client applied) →
      step calls s event = some next → ∀ key entry, s.store key = some entry →
        entry.value ≠ calls.token client → next.store key = some entry) ∧
    (∀ client message, s.phase client = .timedOut message →
      ∀ earlier event later before after, events = earlier ++ event :: later →
        event.client? = some client → Run (step calls) anything (initial Client) earlier before →
        step calls before event = some after →
        after.store = before.store ∧ event ≠ .granted client) := by
  have held := run_ownership distinct run
  refine ⟨?_, ?_, ?_⟩
  · intro client since owns live
    have stored := held.stored client since owns live
    refine ⟨(ExpiringStore.get_eq_some_iff _ _ _ _).mpr ⟨_, stored, live⟩, ?_⟩
    intro other same
    unfold trySet
    split
    · rfl
    · exact ExpiringStore.setIfAbsent_live (same ▸ stored) live _ _
  · intro client event next releasing taken key entry stored different
    cases step_effect taken with
    | elapse ms => rcases releasing with h | ⟨_, h⟩ <;> cases h
    | acquire other store free set => rcases releasing with h | ⟨_, h⟩ <;> cases h
    | lost other applied store free set => rcases releasing with h | ⟨_, h⟩ <;> cases h
    | release other event since returned store also before script =>
      have same : other = client := by
        rcases releasing with rfl | ⟨_, rfl⟩ <;> rcases also with h | ⟨_, h⟩ <;> cases h <;> rfl
      subst same
      rcases script with rfl | rfl
      · exact stored
      · exact runScript_keeps calls s other stored different
    | move other event phase => exact stored
  · intro client message timedOut earlier event later before after split mine prior taken
    subst split
    refine uncommitted_step taken mine ?_
    by_contra committed
    have final := committed_run (run_split run prior taken) client (by simpa using committed)
    rw [timedOut] at final
    cases final

def twoCalls : Calls Bool where
  ttlMs := 10000
  key := fun _ => "my-bot"
  token := fun client => if client then "token-b" else "token-a"
  maxWaitMs := fun _ => 10000

theorem twoCalls_distinct : Function.Injective twoCalls.token := by
  intro left right same
  cases left <;> cases right <;> first | rfl | exact absurd same (by decide)

-- The first client outlives its TTL; the second acquires the lock before the late release.
def lateRelease : List (Event Bool) :=
  [.call false 0, .set false, .granted false, .call true 5, .set true, .checkDeadline true 9000,
    .elapse 10000, .set true, .granted true, .bodySettles false true, .release false]

theorem lock_ownership_late :
    ∃ s, replay (step twoCalls) anything (initial Bool) lateRelease = some s ∧
      s.store.get s.now (lockKey "my-bot") = some "token-b" ∧ trySet twoCalls s false = none := by
  refine ⟨_, rfl, ?_⟩
  obtain ⟨owned, -, -⟩ := lock_ownership twoCalls twoCalls_distinct lateRelease _
    (replay_run _ _ _ _ _ rfl)
  obtain ⟨stored, others⟩ := owned true 10000 rfl (by decide)
  exact ⟨stored, others false rfl⟩

end BaileysSession.RedisLock
