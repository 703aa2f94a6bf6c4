import BaileysSession.Adapter.SqliteWorker
import BaileysSession.Utils.Retry

set_option autoImplicit false

namespace BaileysSession.RetriedWrites

open Database Retry

-- What becomes of one attempt: the caller of a write that took effect may still see it fail.
inductive Outcome
  | failsBefore (error : String)
  | failsAfter (error : String)
  | succeeds
  deriving DecidableEq, Repr

namespace Outcome

def report : Outcome → Except String Unit
  | failsBefore error | failsAfter error => .error error
  | succeeds => .ok ()

def takesEffect : Outcome → Bool
  | failsBefore _ => false
  | failsAfter _ | succeeds => true

end Outcome

/-- One attempt of an atomic `setMany`: a batch, a transaction or a single statement, with the
clock it stores. -/
def attempt (now : Nat → Int) (outcomes : Nat → Outcome) (sessionId : String)
    (entries : List Entry) (index : Nat) (db : Database) : Except String Unit × Database :=
  ((outcomes index).report,
    if (outcomes index).takesEffect then
      db.setMany SqliteWorker.versioning (now index) sessionId entries
    else db)

/-- The attempts of the SQLite worker on a file with the table are of this kind. -/
theorem sqlite_attempt (tried : SqliteWorker.Attempt) (sessionId : String) (entries : List Entry)
    (db : Database) :
    ∃ outcome,
      (SqliteWorker.execute true tried (.setMany sessionId entries) ⟨some db⟩).1.map (fun _ => ()) =
        (attempt (fun _ => tried.now) (fun _ => outcome) sessionId entries 0 db).1 ∧
      (SqliteWorker.execute true tried (.setMany sessionId entries) ⟨some db⟩).2 =
        ⟨some (attempt (fun _ => tried.now) (fun _ => outcome) sessionId entries 0 db).2⟩ := by
  cases answered : (SqliteWorker.execute true tried (.setMany sessionId entries) ⟨some db⟩).1 with
  | ok result =>
    obtain ⟨_, table, written⟩ := SqliteWorker.setMany_file answered
    cases table
    exact ⟨.succeeds, rfl, written⟩
  | error error => exact ⟨.failsBefore error, rfl, SqliteWorker.execute_throws answered⟩

def versionOf (db : Database) (sessionId key : String) : Int :=
  ((db.get sessionId key).map SessionRecord.version).getD 0

def effects (outcomes : Nat → Outcome) : Nat → Nat
  | 0 => 0
  | count + 1 => effects outcomes count + if (outcomes count).takesEffect then 1 else 0

theorem effects_le (outcomes : Nat → Outcome) (count : Nat) : effects outcomes count ≤ count := by
  induction count with
  | zero => exact Nat.le_refl 0
  | succ count ih =>
    rw [effects]
    split <;> omega

/-- The rows after so many writes of the entries: all written alike, and no other row. -/
structure Rewritten (before : Database) (sessionId : String) (entries : List Entry) (writes : Nat)
    (after : Database) : Prop where
  unchanged : writes = 0 → after = before
  carried : 0 < writes → ∀ entry ∈ entries,
    after.value? sessionId entry.key = some entry.value ∧
      versionOf after sessionId entry.key = versionOf before sessionId entry.key + writes
  others : ∀ other key, other ≠ sessionId ∨ key ∉ entries.map Entry.key →
    after.get other key = before.get other key

theorem setMany_rewritten {before after : Database} {sessionId : String} {entries : List Entry}
    {writes : Nat} (distinct : (entries.map Entry.key).Nodup)
    (rewritten : Rewritten before sessionId entries writes after) (now : Int) :
    Rewritten before sessionId entries (writes + 1)
      (after.setMany SqliteWorker.versioning now sessionId entries) where
  unchanged := by
    intro none
    omega
  carried := by
    intro _ entry inside
    have stored := get_setMany_of_nodup after SqliteWorker.versioning now sessionId distinct inside
    have version : versionOf after sessionId entry.key =
        versionOf before sessionId entry.key + writes := by
      rcases Nat.eq_zero_or_pos writes with none | some
      · simp [rewritten.unchanged none, none]
      · exact (rewritten.carried some entry inside).2
    rw [value?, versionOf, stored]
    refine ⟨rfl, ?_⟩
    show versionOf after sessionId entry.key + 1 = _
    omega
  others := by
    intro other key elsewhere
    rw [← rewritten.others other key elsewhere]
    by_cases session : other = sessionId
    · subst session
      exact get_setMany_of_not_mem after _ now other key entries (elsewhere.resolve_left (· rfl))
    · exact get_setMany_other after _ now session key entries

section Loop

variable (now : Nat → Int) (outcomes : Nat → Outcome) (sessionId : String) (entries : List Entry)
  (before : Database)

structure Failed (count : Nat) (w : Nat × Database) : Prop where
  calls : w.1 = count
  failed : ∀ index, index < count → outcomes index ≠ .succeeds
  rows : Rewritten before sessionId entries (effects outcomes count) w.2

variable {now outcomes sessionId entries before}

theorem attempt_rewritten (now : Nat → Int) (distinct : (entries.map Entry.key).Nodup) {count : Nat}
    {w : Nat × Database} (failed : Failed outcomes sessionId entries before count w) :
    Rewritten before sessionId entries (effects outcomes (count + 1))
      (counted (attempt now outcomes sessionId entries) w).2.2 := by
  rw [effects]
  simp only [counted, attempt, failed.calls]
  split
  · exact setMany_rewritten distinct failed.rows (now count)
  · exact failed.rows

theorem attempt_failed (distinct : (entries.map Entry.key).Nodup) (count : Nat)
    (w : Nat × Database) (error : String)
    (failed : Failed outcomes sessionId entries before count w)
    (thrown : (counted (attempt now outcomes sessionId entries) w).1 = .error error) :
    Failed outcomes sessionId entries before (count + 1)
      (counted (attempt now outcomes sessionId entries) w).2 where
  calls := congrArg (· + 1) failed.calls
  failed := by
    intro index early
    rcases Nat.lt_succ_iff_lt_or_eq.mp early with earlier | rfl
    · exact failed.failed index earlier
    · intro succeeded
      simp [counted, attempt, failed.calls, succeeded, Outcome.report] at thrown
  rows := attempt_rewritten now distinct failed

theorem report_ok_iff (outcome : Outcome) : outcome.report = .ok () ↔ outcome = .succeeds := by
  cases outcome <;> simp [Outcome.report]

/-- A retried atomic write either reaches all of its rows or none, however many of its attempts
took effect without the caller being told. -/
theorem retried_setMany (now : Nat → Int) (outcomes : Nat → Outcome)
    (options : Option RetryOptions) (label sessionId : String) (entries : List Entry)
    (db : Database) (retrying : 0 ≤ retries options) (distinct : (entries.map Entry.key).Nodup) :
    let retried := withRetry (counted (attempt now outcomes sessionId entries)) options label (0, db)
    let after := retried.world.2
    retried.world.1 = retried.attempts ∧
      (retried.attempts : Int) ≤ retries options + 1 ∧
      (retried.result = .ok () ↔
        ∃ index : Nat, (index : Int) ≤ retries options ∧ outcomes index = .succeeds) ∧
      (retried.result = .ok () → ∀ entry ∈ entries,
        after.value? sessionId entry.key = some entry.value ∧
          versionOf db sessionId entry.key + 1 ≤ versionOf after sessionId entry.key ∧
          versionOf after sessionId entry.key ≤
            versionOf db sessionId entry.key + retried.attempts) ∧
      (∀ thrown, retried.result = .error thrown →
        (∃ error, thrown = some error ∧
          (outcomes (retried.attempts - 1)).report = .error error) ∧
        (after = db ∨
          ∀ entry ∈ entries, after.value? sessionId entry.key = some entry.value)) ∧
      ∀ other key, other ≠ sessionId ∨ key ∉ entries.map Entry.key →
        after.get other key = db.get other key := by
  intro retried after
  have start : Failed outcomes sessionId entries db 0 (0, db) :=
    ⟨rfl, fun index early => absurd early (Nat.not_lt_zero index),
      fun _ => rfl, fun none => absurd none (Nat.lt_irrefl 0), fun _ _ _ => rfl⟩
  obtain ⟨last, w, failed, world, attempts, within, ending⟩ :=
    withRetry_last (counted (attempt now outcomes sessionId entries)) options label
      (attempt_failed distinct) (0, db) start retrying
  have rows : Rewritten db sessionId entries (effects outcomes (last + 1)) after := by
    have final := attempt_rewritten now distinct failed
    rwa [← world] at final
  have answer : (counted (attempt now outcomes sessionId entries) w).1 = (outcomes last).report := by
    simp only [counted, attempt, failed.calls]
  rw [answer] at ending
  change retried.attempts = last + 1 at attempts
  refine ⟨?_, by omega, ?_, ?_, ?_, rows.others⟩
  · rw [world, attempts]
    exact congrArg (· + 1) failed.calls
  · constructor
    · intro resolved
      rcases ending with ⟨_, reported, _⟩ | ⟨_, _, result, _⟩
      · exact ⟨last, within, (report_ok_iff _).mp reported⟩
      · rw [result] at resolved
        cases resolved
    · rintro ⟨index, early, succeeded⟩
      rcases ending with ⟨_, _, result⟩ | ⟨error, reported, _, final⟩
      · exact result
      · -- The last attempt failed as the ones before it did.
        rcases Nat.lt_or_eq_of_le (show index ≤ last by omega) with earlier | rfl
        · exact absurd succeeded (failed.failed index earlier)
        · rw [succeeded] at reported
          cases reported
  · intro resolved entry inside
    rcases ending with ⟨_, reported, _⟩ | ⟨_, _, result, _⟩
    · have succeeded := (report_ok_iff _).mp reported
      have counted : effects outcomes (last + 1) = effects outcomes last + 1 := by
        simp [effects, succeeded, Outcome.takesEffect]
      have bound := effects_le outcomes (last + 1)
      obtain ⟨value, version⟩ := rows.carried (by omega) entry inside
      exact ⟨value, by omega, by omega⟩
    · rw [result] at resolved
      cases resolved
  · intro thrown rejected
    rcases ending with ⟨_, _, result⟩ | ⟨error, reported, result, _⟩
    · rw [result] at rejected
      cases rejected
    · rw [result, Except.error.injEq] at rejected
      refine ⟨⟨error, rejected.symm, ?_⟩, ?_⟩
      · rw [attempts]
        exact reported
      · rcases Nat.eq_zero_or_pos (effects outcomes (last + 1)) with none | some
        · exact .inl (rows.unchanged none)
        · exact .inr fun entry inside => (rows.carried some entry inside).1

theorem lost_answer_resolves :
    let outcomes : Nat → Outcome := fun index =>
      if index = 0 then .failsAfter "timeout" else .succeeds
    let retried := withRetry (counted (attempt (fun _ => 7) outcomes "s" [⟨"creds", "v"⟩])) none
      "setMany" (0, Database.empty)
    retried.result = .ok () ∧ retried.attempts = 2 ∧
      retried.world.2.value? "s" "creds" = some "v" := by
  intro outcomes retried
  have spec := retried_setMany (fun _ => 7) outcomes none "setMany" "s" [⟨"creds", "v"⟩] .empty
    (by decide) (by decide)
  have resolved : retried.result = .ok () := spec.2.2.1.mpr ⟨1, by decide, rfl⟩
  exact ⟨resolved, by decide, (spec.2.2.2.1 resolved ⟨"creds", "v"⟩ List.mem_cons_self).1⟩

end Loop

end BaileysSession.RetriedWrites
