import Mathlib.Algebra.Order.Ring.Int

set_option autoImplicit false

namespace BaileysSession

structure RetryOptions where
  retries : Option Int
  minDelayMs : Option Int
  maxDelayMs : Option Int

namespace Retry

def DEFAULT_RETRIES : Int := 3
def DEFAULT_MIN_DELAY_MS : Int := 200
def DEFAULT_MAX_DELAY_MS : Int := 5000

def retries (options : Option RetryOptions) : Int :=
  (options.bind RetryOptions.retries).getD DEFAULT_RETRIES

def minDelayMs (options : Option RetryOptions) : Int :=
  (options.bind RetryOptions.minDelayMs).getD DEFAULT_MIN_DELAY_MS

def maxDelayMs (options : Option RetryOptions) : Int :=
  (options.bind RetryOptions.maxDelayMs).getD DEFAULT_MAX_DELAY_MS

-- A call of `logger.warn`, with the time that is slept after it.
structure Warning where
  message : String
  error : String
  delay : Int
  deriving DecidableEq, Repr

structure Retried (Value World : Type) where
  -- What was thrown; `none` is the `undefined` that is left when `fn` was never called.
  result : Except (Option String) Value
  world : World
  attempts : Nat
  warnings : List Warning

variable {Value World : Type}

def delay (options : Option RetryOptions) (attempt : Nat) : Int :=
  min (minDelayMs options * 2 ^ attempt) (maxDelayMs options)

/-- The loop from the given attempt on; `rounds` is how often `attempt <= retries` still holds. -/
def attemptFrom (fn : World → Except String Value × World) (options : Option RetryOptions)
    (label : String) : Nat → Nat → Option String → World → Retried Value World
  | 0, attempt, lastError, w => ⟨.error lastError, w, attempt, []⟩
  | rounds + 1, attempt, _, w =>
    match fn w with
    | (.ok value, next) => ⟨.ok value, next, attempt + 1, []⟩
    | (.error error, next) =>
      let attemptsLeft := retries options - attempt
      if attemptsLeft ≤ 0 then ⟨.error (some error), next, attempt + 1, []⟩
      else
        let later := attemptFrom fn options label rounds (attempt + 1) (some error) next
        { later with warnings :=
            ⟨label ++ " failed, retrying in " ++ toString (delay options attempt) ++ "ms (" ++
              toString attemptsLeft ++ " attempt(s) left)", error, delay options attempt⟩ ::
                later.warnings }

def withRetry (fn : World → Except String Value × World) (options : Option RetryOptions)
    (label : String) (w : World) : Retried Value World :=
  attemptFrom fn options label (retries options + 1).toNat 0 none w

theorem attemptFrom_last (fn : World → Except String Value × World) (options : Option RetryOptions)
    (label : String) {Holds : Nat → World → Prop}
    (step : ∀ index w error, Holds index w → (fn w).1 = .error error →
      Holds (index + 1) (fn w).2)
    (rounds attempt : Nat) (lastError : Option String) (w : World) (start : Holds attempt w)
    (left : rounds = (retries options + 1 - attempt).toNat) (again : 0 < rounds) :
    let retried := attemptFrom fn options label rounds attempt lastError w
    ∃ index last, Holds index last ∧ retried.world = (fn last).2 ∧
      retried.attempts = index + 1 ∧ (index : Int) ≤ retries options ∧
      ((∃ value, (fn last).1 = .ok value ∧ retried.result = .ok value) ∨
        ∃ error, (fn last).1 = .error error ∧ retried.result = .error (some error) ∧
          (index : Int) = retries options) := by
  induction rounds generalizing attempt lastError w with
  | zero => exact absurd again (Nat.lt_irrefl 0)
  | succ rounds ih =>
    have within : (attempt : Int) ≤ retries options := by omega
    rw [attemptFrom]
    split
    · rename_i value next answered
      exact ⟨attempt, w, start, by rw [answered], rfl, within, .inl ⟨value, by rw [answered], rfl⟩⟩
    · rename_i error next answered
      have failed : (fn w).1 = .error error := by rw [answered]
      dsimp only
      split
      · exact ⟨attempt, w, start, by rw [answered], rfl, within,
          .inr ⟨error, failed, rfl, by omega⟩⟩
      · have later := ih (attempt + 1) (some error) (fn w).2 (step attempt w error start failed)
          (by omega) (by omega)
        rw [answered] at later
        exact later

theorem withRetry_last (fn : World → Except String Value × World) (options : Option RetryOptions)
    (label : String) {Holds : Nat → World → Prop}
    (step : ∀ index w error, Holds index w → (fn w).1 = .error error →
      Holds (index + 1) (fn w).2)
    (w : World) (start : Holds 0 w) (trying : 0 ≤ retries options) :
    let retried := withRetry fn options label w
    ∃ index last, Holds index last ∧ retried.world = (fn last).2 ∧
      retried.attempts = index + 1 ∧ (index : Int) ≤ retries options ∧
      ((∃ value, (fn last).1 = .ok value ∧ retried.result = .ok value) ∨
        ∃ error, (fn last).1 = .error error ∧ retried.result = .error (some error) ∧
          (index : Int) = retries options) :=
  attemptFrom_last fn options label step _ 0 none w start (by omega) (by omega)

theorem withRetry_ok {fn : World → Except String Value × World} {options : Option RetryOptions}
    (label : String) {w next : World} {value : Value} (trying : 0 ≤ retries options)
    (answered : fn w = (.ok value, next)) :
    withRetry fn options label w = ⟨.ok value, next, 1, []⟩ := by
  obtain ⟨rounds, more⟩ := Nat.exists_eq_succ_of_ne_zero
    (show (retries options + 1).toNat ≠ 0 by omega)
  rw [withRetry, more, attemptFrom, answered]

theorem withRetry_idle (fn : World → Except String Value × World) {options : Option RetryOptions}
    (label : String) (w : World) (idle : retries options < 0) :
    withRetry fn options label w = ⟨.error none, w, 0, []⟩ := by
  rw [withRetry, Int.toNat_of_nonpos (by omega), attemptFrom]

theorem withRetry_refused {fn : World → Except String Value × World} {w : World} {error : String}
    (options : Option RetryOptions) (label : String) (refused : fn w = (.error error, w)) :
    ∃ thrown, (withRetry fn options label w).result = .error thrown ∧
      (withRetry fn options label w).world = w := by
  by_cases trying : 0 ≤ retries options
  · have step : ∀ (index : Nat) (current : World) (failure : String), current = w →
        (fn current).1 = .error failure → (fn current).2 = w := by
      rintro _ _ _ rfl _
      rw [refused]
    obtain ⟨_, last, rfl, world, _, _, ending⟩ :=
      withRetry_last fn options label step w rfl trying
    rw [refused] at world ending
    rcases ending with ⟨_, answered, _⟩ | ⟨_, _, result, _⟩
    · cases answered
    · exact ⟨_, result, world⟩
  · rw [withRetry_idle fn label w (by omega)]
    exact ⟨none, rfl, rfl⟩

section Backoff

variable (fn : World → Except String Value × World) (options : Option RetryOptions)
  (label : String)

theorem attemptFrom_delays (rounds attempt : Nat) (lastError : Option String) (w : World) :
    ∃ count, (attemptFrom fn options label rounds attempt lastError w).warnings.map Warning.delay =
        (List.range count).map (fun index => delay options (attempt + index)) ∧
      (attemptFrom fn options label rounds attempt lastError w).attempts ≤ attempt + count + 1 := by
  induction rounds generalizing attempt lastError w with
  | zero => exact ⟨0, rfl, by simp [attemptFrom]⟩
  | succ rounds ih =>
    rw [attemptFrom]
    split
    · exact ⟨0, rfl, Nat.le_refl _⟩
    · rename_i error next _
      dsimp only
      split
      · exact ⟨0, rfl, Nat.le_refl _⟩
      · obtain ⟨count, delays, bound⟩ := ih (attempt + 1) (some error) next
        refine ⟨count + 1, ?_, by simp only; omega⟩
        rw [List.map_cons, delays, List.range_succ_eq_map, List.map_cons, List.map_map]
        simp only [Nat.add_zero, List.cons.injEq, true_and]
        apply List.map_congr_left
        intro index _
        simp only [Function.comp_apply]
        congr 1
        omega

/-- The delays double from attempt to attempt up to their cap, one before each further attempt. -/
theorem withRetry_delays (w : World) :
    ∃ count, (withRetry fn options label w).warnings.map Warning.delay =
        (List.range count).map (delay options) ∧
      (withRetry fn options label w).attempts ≤ count + 1 := by
  obtain ⟨count, delays, bound⟩ :=
    attemptFrom_delays fn options label (retries options + 1).toNat 0 none w
  refine ⟨count, ?_, by simpa [withRetry] using bound⟩
  simpa [withRetry] using delays

example : (withRetry (fun w : Unit => ((.error "down" : Except String Unit), w)) none "get"
    ()).warnings.map Warning.delay = [200, 400, 800] := by decide

end Backoff

section Failures

def counted (attempt : Nat → World → Except String Value × World) (w : Nat × World) :
    Except String Value × (Nat × World) :=
  ((attempt w.1 w.2).1, w.1 + 1, (attempt w.1 w.2).2)

variable {attempt : Nat → World → Except String Value × World} {failures : Nat}
  {errors : Nat → String}
  (fails : ∀ index, index < failures → ∀ w, (attempt index w).1 = .error (errors index))
  (recovers : ∀ w, ∃ value, (attempt failures w).1 = .ok value)
  (options : Option RetryOptions) (label : String)

include fails recovers

theorem withRetry_decided (w : World) (trying : 0 ≤ retries options) :
    let retried := withRetry (counted attempt) options label (0, w)
    ((failures : Int) ≤ retries options ∧ retried.attempts = failures + 1 ∧
        ∃ value, retried.result = .ok value) ∨
      (retries options < failures ∧ (retried.attempts : Int) = retries options + 1 ∧
        retried.result = .error (some (errors (retries options).toNat))) := by
  have failing : ∀ index current error, current.1 = index ∧ index ≤ failures →
      (counted attempt current).1 = .error error →
        (counted attempt current).2.1 = index + 1 ∧ index + 1 ≤ failures := by
    rintro index current error ⟨rfl, early⟩ failed
    refine ⟨rfl, Nat.lt_of_le_of_ne early fun enough => ?_⟩
    obtain ⟨value, answered⟩ := recovers current.2
    simp only [counted, enough, answered] at failed
    cases failed
  obtain ⟨_, last, ⟨rfl, early⟩, _, attempts, within, ending⟩ :=
    withRetry_last (counted attempt) options label failing (0, w) ⟨rfl, Nat.zero_le _⟩ trying
  rcases ending with ⟨value, answered, result⟩ | ⟨error, failed, result, exhausted⟩
  · have enough : last.1 = failures := by
      by_contra other
      have refused := fails last.1 (by omega) last.2
      rw [counted, refused] at answered
      cases answered
    exact .inl ⟨by omega, by omega, value, result⟩
  · have remaining := (failing last.1 last error ⟨rfl, early⟩ failed).2
    rw [counted, fails last.1 (by omega) last.2] at failed
    cases failed
    refine .inr ⟨by omega, by omega, ?_⟩
    rw [result, ← exhausted, Int.toNat_natCast]

def attempts (options : Option RetryOptions) (failures : Nat) : Nat :=
  (min (failures : Int) (retries options) + 1).toNat

def lastError (options : Option RetryOptions) (errors : Nat → String) : Option String :=
  if 0 ≤ retries options then some (errors (retries options).toNat) else none

theorem withRetry_counted (w : World) :
    (withRetry (counted attempt) options label (0, w)).attempts = attempts options failures ∧
    ((failures : Int) ≤ retries options → ∃ value,
      (withRetry (counted attempt) options label (0, w)).result = .ok value) ∧
    (retries options < failures →
      (withRetry (counted attempt) options label (0, w)).result =
        .error (lastError options errors)) := by
  by_cases trying : 0 ≤ retries options
  · rw [attempts, lastError, if_pos trying]
    rcases withRetry_decided fails recovers options label w trying with
      ⟨within, count, succeeds⟩ | ⟨beyond, count, thrown⟩
    · exact ⟨by omega, fun _ => succeeds, fun beyond => by omega⟩
    · exact ⟨by omega, fun within => by omega, fun _ => thrown⟩
  · rw [withRetry_idle (counted attempt) label (0, w) (by omega), attempts, lastError,
      if_neg trying]
    exact ⟨(Int.toNat_of_nonpos (by omega)).symm, fun within => by omega, fun _ => rfl⟩

end Failures

end Retry

end BaileysSession
