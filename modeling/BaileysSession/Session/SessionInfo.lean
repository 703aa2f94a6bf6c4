import BaileysSession.Session.SessionTransfer

set_option autoImplicit false

namespace BaileysSession.SessionManager

open Async Conformance DatabaseAdapter
open Interchange (Backend Deployment oneBot)
open KeyedTable (Arrangement)

section Latest

-- No record is later, and there is one of that time unless it is the time the search started with.
structure Latest (start : Int) (records : List (Option Record)) (updatedAt : Int) : Prop where
  start_le : start ≤ updatedAt
  le : ∀ record, some record ∈ records → record.updatedAt ≤ updatedAt
  reached : updatedAt = start ∨ ∃ record, some record ∈ records ∧ record.updatedAt = updatedAt

theorem Latest.perm {start updatedAt : Int} {first second : List (Option Record)}
    (latest : Latest start first updatedAt) (same : first.Perm second) :
    Latest start second updatedAt :=
  ⟨latest.start_le, fun record inside => latest.le record (same.mem_iff.mpr inside),
    latest.reached.imp id fun ⟨record, inside, time⟩ => ⟨record, same.mem_iff.mp inside, time⟩⟩

end Latest

section Info

variable {State Choice : Type} {component : Component State Choice Call Answer}
  {holds : State → Rows → Prop} {admitted : Rows → Choice → Call → Prop}
  {sessionId : String} {throughout : String → Option Stamped → Prop}

def stamped (record : Record) : Stamped := ⟨record.value, record.updatedAt⟩

structure Read (throughout : String → Option Stamped → Prop) (keys : List String)
    (records : List (Option Record)) : Prop where
  asked : ∀ key ∈ keys, ∃ record ∈ records, throughout key (record.map stamped)
  given : ∀ record ∈ records, ∃ key ∈ keys, throughout key (record.map stamped)

theorem Read.cons {key : String} {record : Option Record} {keys : List String}
    {records : List (Option Record)} (found : throughout key (record.map stamped))
    (read : Read throughout keys records) : Read throughout (key :: keys) (record :: records) := by
  constructor
  · intro other inside
    rcases List.mem_cons.mp inside with rfl | later
    · exact ⟨record, List.mem_cons_self, found⟩
    · obtain ⟨own, there, same⟩ := read.asked other later
      exact ⟨own, List.mem_cons_of_mem _ there, same⟩
  · intro other inside
    rcases List.mem_cons.mp inside with rfl | later
    · exact ⟨key, List.mem_cons_self, found⟩
    · obtain ⟨own, there, same⟩ := read.given other later
      exact ⟨own, List.mem_cons_of_mem _ there, same⟩

variable (conforms : Conforms contract component holds admitted)

include conforms

theorem getEach_spec (keys : List String) :
    Triple (effect component) (Taken admitted (Meets sessionId throughout)) (Sound holds)
      (getEach sessionId keys)
      (Returns fun records w => Sound holds w ∧ Read throughout keys records) := by
  induction keys with
  | nil =>
    apply triple_done
    exact fun w after => ⟨after, fun _ inside => absurd inside List.not_mem_nil,
      fun _ inside => absurd inside List.not_mem_nil⟩
  | cons key rest ih =>
    rw [getEach]
    apply triple_then (get_spec conforms key)
    intro record
    apply triple_from
    rintro w ⟨after, found⟩
    apply triple_at after
    apply triple_then ih
    intro more
    apply triple_done
    exact fun next ⟨later, read⟩ => ⟨later, read.cons found⟩

end Info

section Results

end Results

end BaileysSession.SessionManager
