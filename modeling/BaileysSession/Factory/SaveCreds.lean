import BaileysSession.Cache.Operations
import BaileysSession.Utils.WriteBatcher

set_option autoImplicit false

namespace BaileysSession

namespace WriteBatcher

open Transition

structure Idle (s : State) : Prop where
  pending : s.pending = .empty
  running : s.running = none
  queue : s.queue = []

def saveCredsEvents (debounceMs : Int) (creds : String) : List Event :=
  if debounceMs ≤ 0 then [.write CREDS_KEY creds] else [.write CREDS_KEY creds, .timerFires]

/-- An idle batcher flushes the creds of a `saveCreds` call alone, in one batch, and is idle
again: the `flushNow` that follows finds nothing. -/
theorem saveCreds_batch (debounceMs : Int) (creds : String) {s : State} (idle : Idle s) :
    ∃ flushing, Run (step debounceMs) anything s (saveCredsEvents debounceMs creds) flushing ∧
      ∃ task, flushing.running = some task ∧
        task.entries.map (fun entry => (entry.1, entry.2.value)) = [(CREDS_KEY, creds)] ∧
        ∀ outcome, Idle (settleTask task outcome flushing) := by
  obtain ⟨pending, running, queue⟩ := idle
  unfold saveCredsEvents
  by_cases immediate : debounceMs ≤ 0
  · rw [if_pos immediate]
    refine ⟨_, .cons trivial rfl (.nil _), ?_⟩
    simp only [write, if_pos immediate, flushNow, running, start, pending]
    refine ⟨_, rfl, rfl, ?_⟩
    intro outcome
    simp only [settleTask, queue]
    exact ⟨rfl, rfl, rfl⟩
  · rw [if_neg immediate]
    have armed : (write debounceMs CREDS_KEY creds s).timer = true := by
      simp only [write, if_neg immediate]
    refine ⟨_, .cons trivial rfl (.cons trivial (if_pos armed) (.nil _)), ?_⟩
    simp only [write, if_neg immediate, flushNow, running, start, pending]
    refine ⟨_, rfl, rfl, ?_⟩
    intro outcome
    simp only [settleTask, queue]
    exact ⟨rfl, rfl, rfl⟩

structure Rested (s : State) : Prop extends Idle s where
  settled : s.settled = []
  flushWaiters : s.flushWaiters = []
  fresh : ∀ writer, s.writes.length ≤ writer → s.promises writer = none

def saveCredsFlushed (debounceMs : Int) (creds : String) (outcome : Outcome) (s : State) :
    Option State :=
  (saveCredsEvents debounceMs creds ++ [Event.flushSettles outcome, Event.resume]).foldlM
    (step debounceMs) s

/-- What becomes of the promise of a `saveCreds` call whose flush ends in the given way; the
`flushNow` after the write finds nothing to flush. -/
def saveCredsSettles (debounceMs : Int) (creds : String) (outcome : Outcome) (s : State) :
    Option Outcome :=
  (saveCredsFlushed debounceMs creds outcome s).bind fun flushed =>
    saveCreds (flushed.promises s.writes.length) (some .resolved)

section Flushed

variable {s : State} (creds : String)

def flushing (call : FlushCall) (s : State) : State :=
  { s with
    pending := .empty
    timer := false
    flushWaiters := []
    running := some ⟨call, [(CREDS_KEY, ⟨creds, s.writes.length⟩)]⟩
    writes := s.writes ++ [⟨CREDS_KEY, creds⟩] }

def credsCall (debounceMs : Int) (s : State) : FlushCall :=
  if debounceMs ≤ 0 then ⟨[], .write s.writes.length⟩ else ⟨[s.writes.length], .timer⟩

theorem saveCreds_flushing (debounceMs : Int) (rested : Rested s) :
    (saveCredsEvents debounceMs creds).foldlM (step debounceMs) s =
      some (flushing creds (credsCall debounceMs s) s) := by
  obtain ⟨⟨pending, running, queue⟩, settled, waiters, -⟩ := rested
  have alone : (InsertionMap.empty.set CREDS_KEY (⟨creds, s.writes.length⟩ : Stored)).entries =
      [(CREDS_KEY, ⟨creds, s.writes.length⟩)] := rfl
  unfold saveCredsEvents credsCall
  by_cases immediate : debounceMs ≤ 0
  · simp only [if_pos immediate, List.foldlM_cons, List.foldlM_nil, step, write, flushNow, running,
      start, pending, alone, waiters]
    rfl
  · simp only [if_neg immediate, List.foldlM_cons, List.foldlM_nil, step, write, Option.bind_eq_bind,
      Option.bind_some, if_true, flushNow, running, start, pending, alone, waiters, List.nil_append]
    rfl

theorem settlePromise_rested (rested : Rested s) {writer : Nat} (outcome : Outcome)
    (known : writer < s.writes.length) : Rested (settlePromise outcome s writer) := by
  refine ⟨⟨rested.pending, rested.running, rested.queue⟩, rested.settled, rested.flushWaiters, ?_⟩
  intro other later
  have apart : other ≠ writer := Nat.ne_of_gt (Nat.lt_of_lt_of_le known later)
  simp only [settlePromise, if_neg apart]
  exact rested.fresh other later

theorem settlePromise_self {writer : Nat} (outcome : Outcome) (fresh : s.promises writer = none) :
    (settlePromise outcome s writer).promises writer = some outcome := by
  simp only [settlePromise, if_pos, fresh, Option.none_or]

/-- The batcher rests again, and the promise of the call has the outcome of the flush, unless
that is a failure nobody waits for: the timer drops it together with the waiters. -/
theorem saveCreds_flushed (debounceMs : Int) (outcome : Outcome) (rested : Rested s) :
    ∃ flushed, saveCredsFlushed debounceMs creds outcome s = some flushed ∧ Rested flushed ∧
      flushed.promises s.writes.length =
        if outcome = .rejected ∧ 0 < debounceMs then none else some outcome := by
  let idle : State := { flushing creds (credsCall debounceMs s) s with
    running := none
    flushed := s.flushed ++ [([(CREDS_KEY, ⟨creds, s.writes.length⟩)], outcome)] }
  have idleRested : Rested idle := by
    refine ⟨⟨rfl, rfl, rested.queue⟩, rested.settled, rfl, ?_⟩
    intro writer later
    apply rested.fresh
    simp only [idle, flushing, List.length_append, List.length_singleton] at later
    omega
  have known : s.writes.length < idle.writes.length := by
    simp only [idle, flushing, List.length_append, List.length_singleton]
    omega
  have pending : idle.promises s.writes.length = none := rested.fresh _ (Nat.le_refl _)
  have flushes : saveCredsFlushed debounceMs creds outcome s =
      some (resume (credsCall debounceMs s) outcome idle) := by
    unfold saveCredsFlushed
    rw [List.foldlM_append, saveCreds_flushing creds debounceMs rested]
    simp only [Option.bind_eq_bind, Option.bind_some, List.foldlM_cons, List.foldlM_nil, step,
      flushing, settleTask, rested.queue, rested.settled, idle, List.nil_append]
    rfl
  refine ⟨_, flushes, ?_⟩
  unfold credsCall
  by_cases immediate : debounceMs ≤ 0
  · have noDelay : ¬ (outcome = .rejected ∧ 0 < debounceMs) := by omega
    rw [if_pos immediate, if_neg noDelay]
    cases outcome with
    | resolved =>
      exact ⟨settlePromise_rested idleRested _ known, settlePromise_self _ pending⟩
    | rejected =>
      exact ⟨settlePromise_rested idleRested _ known, settlePromise_self _ pending⟩
  · rw [if_neg immediate]
    cases outcome with
    | resolved =>
      exact ⟨settlePromise_rested idleRested _ known, settlePromise_self _ pending⟩
    | rejected =>
      rw [if_pos ⟨rfl, by omega⟩]
      exact ⟨idleRested, pending⟩

theorem saveCredsSettles_eq (debounceMs : Int) (outcome : Outcome) (rested : Rested s) :
    saveCredsSettles debounceMs creds outcome s =
      if outcome = .rejected ∧ 0 < debounceMs then none else some outcome := by
  obtain ⟨flushed, flushes, -, promise⟩ := saveCreds_flushed creds debounceMs outcome rested
  simp only [saveCredsSettles, flushes, Option.bind_some, promise]
  split
  · rfl
  · cases outcome <;> rfl

end Flushed

end WriteBatcher

namespace CacheManager

def saveCreds (redis : Option RedisMode) (sessionId creds : String) : Program Unit :=
  runSection redis sessionId (.upsert [⟨credsKey, creds⟩])

end CacheManager

end BaileysSession
