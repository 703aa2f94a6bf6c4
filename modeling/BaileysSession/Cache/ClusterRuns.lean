import BaileysSession.Cache.CoherentPrograms

set_option autoImplicit false

namespace BaileysSession.CacheManager

open Async MemoryCache Transition

def Operation.On (ids : String → Prop) : Operation → Prop
  | .get sessionId _ | .getMany sessionId _ | .keysSet sessionId _ => ids sessionId
  | .deleteSession _ | .importSession _ _ | .clearCache _ => False

instance (ids : String → Prop) [DecidablePred ids] (operation : Operation) :
    Decidable (operation.On ids) :=
  match operation with
  | .get sessionId _ | .getMany sessionId _ | .keysSet sessionId _ =>
    inferInstanceAs (Decidable (ids sessionId))
  | .deleteSession _ | .importSession _ _ | .clearCache _ => isFalse id

def Operation.Owned (scope : Scope) : Operation → Prop
  | .get sessionId key => Owns scope sessionId key
  | .getMany sessionId keys => ∀ key ∈ keys, Owns scope sessionId key
  | .keysSet sessionId changes =>
    ∀ change ∈ changes.sections, ∀ key ∈ change.keys, Owns scope sessionId key
  | .deleteSession _ | .importSession _ _ | .clearCache _ => False

theorem Operation.On.owned {ids : String → Prop} {operation : Operation} (on : operation.On ids)
    (apart : ∀ sessionId key, ids sessionId → Owns (sessions ids) sessionId key) :
    operation.Owned (sessions ids) := by
  cases operation with
  | get sessionId key => exact apart sessionId key on
  | getMany sessionId keys => exact fun key _ => apart sessionId key on
  | keysSet sessionId changes => exact fun _ _ key _ => apart sessionId key on
  | deleteSession | importSession | clearCache => exact on

variable {Instance : Type} [DecidableEq Instance]

def Permitted (settings : Settings) (ids : String → Prop)
    (ok : Cluster Instance → Call → Choice → Prop) (w : Cluster Instance) :
    Event Instance → Prop
  | .operate self operation oracle => operation.On ids ∧
      Along (effect settings self) ok (operation.program settings.redis) oracle w
  | _ => True

instance (settings : Settings) (ids : String → Prop) [DecidablePred ids]
    (ok : Cluster Instance → Call → Choice → Prop)
    [∀ w call choice, Decidable (ok w call choice)] (w : Cluster Instance)
    (event : Event Instance) : Decidable (Permitted settings ids ok w event) :=
  match event with
  | .operate self operation oracle => inferInstanceAs (Decidable (operation.On ids ∧
      Along (effect settings self) ok (operation.program settings.redis) oracle w))
  | .deliver _ _ | .sweepExpired _ _ | .evict _ _ | .loseL2 _ | .restart _ => isTrue trivial

def Accepted (_ : Cluster Instance) (_ : Call) (choice : Choice) : Prop := choice.rejection = none

instance (w : Cluster Instance) (call : Call) (choice : Choice) :
    Decidable (Accepted w call choice) :=
  decidable_of_iff (choice.rejection.isNone = true) Option.isNone_iff_eq_none

variable {settings : Settings} {scope : Scope} {shared : Prop}

omit [DecidableEq Instance] in
theorem accepted_tolerable (w : Cluster Instance) (call : Call) (choice : Choice)
    (accepted : Accepted w call choice) : Tolerable shared w call choice := by
  have applied : ∀ key, choice.applies key = true := by
    intro key
    rw [applies_accepted accepted]
  cases call with
  | l2Set key _ _ => exact .inl (applied key)
  | l2Del key => exact .inl (applied key)
  | publishInvalidation key => exact fun _ => applied key
  | dbGet | dbGetMany | dbSetMany | dbDeleteMany | dbDeleteSession | dbGetAllKeys => exact accepted
  | _ => trivial

theorem along_accepted {self : Instance} {Result : Type} (program : Program Result)
    (w : Cluster Instance) {oracle : Oracle Choice}
    (accepted : ∀ index, (oracle index).rejection = none) :
    Along (effect settings self) (Tolerable shared) program oracle w :=
  (Along.of_oracle (effect settings self) program w accepted).mono accepted_tolerable

theorem operation_settled (connected : Connected settings shared Instance) (self : Instance)
    (operation : Operation) (owned : operation.Owned scope) :
    Triple (effect settings self) (Tolerable shared) (Settled settings scope shared)
      (operation.program settings.redis) (Returns fun _ => Settled settings scope shared) := by
  cases operation with
  | get sessionId key =>
    apply triple_from
    intro w settled
    apply triple_then (triple_at settled.reading (get_spec owned))
    intro _
    apply triple_done
    exact fun _ after => after.1.1
  | getMany sessionId keys =>
    apply triple_from
    intro w settled
    apply triple_then (triple_at settled.reading (getMany_spec keys owned))
    intro _
    apply triple_done
    exact fun _ after => after.1.1
  | keysSet sessionId changes => exact keysSet_spec connected sessionId changes owned
  | deleteSession | importSession | clearCache => exact False.elim owned

theorem deliver_settled {w : Cluster Instance} (settled : Settled settings scope shared w)
    (subscriber : Instance) (compositeKey : String) :
    Settled settings scope shared (deliver w subscriber compositeKey) := by
  constructor
  · intro self sessionId key held inScope present
    by_cases here : self = subscriber
    · subst here
      simp only [deliver, withL1_l1, if_true, peek_delete] at present
      split at present
      · cases present
      · rename_i apart
        refine (settled.l1 self sessionId key held inScope present).imp id (Or.imp id ?_)
        rintro ⟨isShared, message⟩
        simp only [deliver, Function.update_self]
        exact ⟨isShared, (List.mem_erase_of_ne apart).mpr message⟩
    · simp only [deliver, withL1_l1, if_neg here] at present
      simp only [deliver, Function.update_of_ne here]
      exact settled.l1 self sessionId key held inScope present
  · exact settled.l2

theorem restart_settled {w : Cluster Instance} (settled : Settled settings scope shared w)
    (self : Instance) :
    Settled settings scope shared { w.withL1 self (.new settings.memory) with
      inbox := Function.update w.inbox self [] } := by
  constructor
  · intro other sessionId key held inScope present
    by_cases here : other = self
    · simp [withL1_l1, here] at present
    · simp only [withL1_l1, if_neg here] at present
      simp only [Function.update_of_ne here]
      exact settled.l1 other sessionId key held inScope present
  · exact settled.l2

theorem shrink_settled {w : Cluster Instance} (settled : Settled settings scope shared w)
    (self : Instance) {cache : MemoryCache} (shrinks : Shrinks (w.l1 self) cache) :
    Settled settings scope shared (w.withL1 self cache) := by
  exact (settled.reading.shrink shrinks).1

theorem environment_settled {w next : Cluster Instance} {event : Event Instance}
    (settled : Settled settings scope shared w)
    (outside : ∀ self operation oracle, event ≠ .operate self operation oracle)
    (taken : step settings w event = some next) : Settled settings scope shared next := by
  cases event with
  | operate self operation oracle => exact absurd rfl (outside self operation oracle)
  | deliver subscriber key =>
    obtain ⟨-, rfl⟩ := deliver_taken taken
    exact deliver_settled settled subscriber key
  | sweepExpired self now =>
    cases taken
    exact shrink_settled settled self (sweepExpired_shrinks _ now)
  | evict self key =>
    cases taken
    exact shrink_settled settled self (delete_shrinks _ key)
  | loseL2 key =>
    cases taken
    apply settled.fewer
    · exact fun _ => .refl _
    · intro other held present
      rw [InsertionMap.get?_erase] at present
      split at present
      · cases present
      · exact present
    · rfl
    · exact fun _ _ message => message
  | restart self =>
    cases taken
    exact restart_settled settled self

section Runs

variable {ids : String → Prop}
  (apart : ∀ sessionId key, ids sessionId → Owns (sessions ids) sessionId key)

include apart

theorem step_settled (connected : Connected settings shared Instance) {w next : Cluster Instance}
    {event : Event Instance} (settled : Settled settings (sessions ids) shared w)
    (permitted : Permitted settings ids (Tolerable shared) w event)
    (taken : step settings w event = some next) :
    Settled settings (sessions ids) shared next := by
  cases event with
  | operate self operation oracle =>
    cases taken
    obtain ⟨on, along⟩ := permitted
    obtain ⟨_, -, after⟩ := triple_returns
      (operation_settled connected self operation (on.owned apart)) settled along
    exact after
  | deliver | sweepExpired | evict | loseL2 | restart =>
    exact environment_settled settled (fun _ _ _ same => by cases same) taken

theorem run_settled (connected : Connected settings shared Instance) {w final : Cluster Instance}
    {events : List (Event Instance)} (settled : Settled settings (sessions ids) shared w)
    (run : Run (step settings) (Permitted settings ids (Tolerable shared)) w events final) :
    Settled settings (sessions ids) shared final :=
  run.invariant _ (fun _ _ _ before permitted taken =>
    step_settled apart connected before permitted taken) settled

end Runs

theorem get_current {w : Cluster Instance} (settled : Settled settings scope shared w)
    (self : Instance) {sessionId key : String} (owns : Owns scope sessionId key)
    (undisturbed : Undisturbed scope shared self w.inbox sessionId key) {oracle : Oracle Choice}
    (along : Along (effect settings self) (Tolerable shared) (get settings.redis sessionId key)
      oracle w) :
    (evaluate (effect settings self) (get settings.redis sessionId key) oracle w).result =
      .ok (w.db.value? sessionId key) := by
  obtain ⟨result, returned, -, current⟩ := triple_returns (get_spec owns)
    settled.reading along
  rw [returned, current undisturbed]

theorem getMany_current {w : Cluster Instance} (settled : Settled settings scope shared w)
    (self : Instance) {sessionId key : String} {keys : List String}
    (owns : ∀ key ∈ keys, Owns scope sessionId key)
    (undisturbed : Undisturbed scope shared self w.inbox sessionId key) (asked : key ∈ keys)
    {oracle : Oracle Choice}
    (along : Along (effect settings self) (Tolerable shared)
      (getMany settings.redis sessionId keys) oracle w) :
    ∃ found,
      (evaluate (effect settings self) (getMany settings.redis sessionId keys) oracle w).result =
        .ok found ∧ found.get? key = w.db.value? sessionId key := by
  obtain ⟨found, returned, -, answered⟩ := triple_returns (getMany_spec keys owns)
    settled.reading along
  exact ⟨found, returned, answered.current key asked undisturbed⟩

end BaileysSession.CacheManager
