import BaileysSession.Adapter.PostgresAdapter
import BaileysSession.Factory.KeyNames
import BaileysSession.Factory.KeysCollect

set_option autoImplicit false

namespace BaileysSession.KeysSet

open DatabaseAdapter SqlAdapter

variable {Value : Type}

def storedItems (call : Call Value) : List (Category × String × Value) :=
  call.data.entries.flatMap fun bucket =>
    ((items bucket).filter fun item => call.truthy item.2).map fun item => (bucket.1, item)

theorem mem_storedItems (call : Call Value) (category : Category) (id : String) (value : Value) :
    (category, id, value) ∈ storedItems call ↔
      request call.data category id = some value ∧ call.truthy value = true := by
  rw [request_eq_some_iff, storedItems]
  constructor
  · intro inside
    obtain ⟨bucket, present, mapped⟩ := List.mem_flatMap.mp inside
    obtain ⟨item, kept, same⟩ := List.mem_map.mp mapped
    obtain ⟨listed, stored⟩ := List.mem_filter.mp kept
    cases same
    exact ⟨⟨bucket, present, rfl, listed⟩, stored⟩
  · rintro ⟨⟨bucket, present, rfl, listed⟩, stored⟩
    exact List.mem_flatMap.mpr ⟨bucket, present, List.mem_map.mpr
      ⟨(id, value), List.mem_filter.mpr ⟨listed, stored⟩, rfl⟩⟩

theorem collect_entries (call : Call Value) :
    (collect call).entries = (storedItems call).map fun item =>
      ⟨cacheKeyName item.1 item.2.1, call.encode item.1 item.2.1 item.2.2⟩ := by
  rw [collect_eq, storedItems, List.map_flatMap]
  refine congrArg (call.data.entries.flatMap ·) (funext fun bucket => ?_)
  rw [List.map_map]
  rfl

theorem storedItems_nodup (call : Call Value) :
    ((storedItems call).map fun item => (item.1, item.2.1)).Nodup := by
  rw [storedItems, List.map_flatMap, List.nodup_flatMap]
  constructor
  · intro bucket _
    rw [List.map_map]
    have ids : ((items bucket).map Prod.fst).Nodup := by
      obtain ⟨category, ids⟩ := bucket
      cases ids with
      | none => exact List.nodup_nil
      | some ids => exact ids.unique
    have kept := ids.sublist
      ((List.filter_sublist (p := fun item : String × Value => call.truthy item.2)).map Prod.fst)
    have named := kept.map (f := fun id => (bucket.1, id)) fun _ _ same => (Prod.mk.inj same).2
    rwa [List.map_map] at named
  · refine (List.pairwise_map.mp call.data.unique).imp fun {first second} apart => ?_
    intro pair left right
    obtain ⟨_, inside, rfl⟩ := List.mem_map.mp left
    obtain ⟨_, there, same⟩ := List.mem_map.mp right
    obtain ⟨_, -, rfl⟩ := List.mem_map.mp inside
    obtain ⟨_, -, rfl⟩ := List.mem_map.mp there
    exact apart (congrArg Prod.fst same).symm

def Clash (call : Call Value) : Prop :=
  ∃ id first second, request call.data .senderKey ("memory-" ++ id) = some first ∧
    call.truthy first = true ∧ request call.data .senderKeyMemory id = some second ∧
      call.truthy second = true

theorem collect_nodup_iff (call : Call Value) :
    ((collect call).entries.map Entry.key).Nodup ↔ ¬ Clash call := by
  have keys : (collect call).entries.map Entry.key =
      ((storedItems call).map fun item => (item.1, item.2.1)).map fun pair =>
        cacheKeyName pair.1 pair.2 := by
    rw [collect_entries, List.map_map, List.map_map]
    rfl
  have mem : ∀ category id, (category, id) ∈ (storedItems call).map (fun item => (item.1, item.2.1)) ↔
      ∃ value, request call.data category id = some value ∧ call.truthy value = true := by
    intro category id
    constructor
    · intro inside
      obtain ⟨⟨_, _, value⟩, listed, same⟩ := List.mem_map.mp inside
      cases same
      exact ⟨value, (mem_storedItems call _ _ _).mp listed⟩
    · rintro ⟨value, stored⟩
      exact List.mem_map.mpr ⟨_, (mem_storedItems call category id value).mpr stored, rfl⟩
  rw [keys, List.nodup_map_iff_inj_on (storedItems_nodup call)]
  constructor
  · rintro inj ⟨id, first, second, requested, stored, there, storedToo⟩
    have same := inj _ ((mem .senderKey ("memory-" ++ id)).mpr ⟨first, requested, stored⟩) _
      ((mem .senderKeyMemory id).mpr ⟨second, there, storedToo⟩) (cacheKeyName_shadowed id)
    cases same
  · rintro clear ⟨category, id⟩ inside ⟨other, name⟩ there same
    rcases (cacheKeyName_eq_iff (category, id) (other, name)).mp same with
      equal | ⟨rfl, rfl, rfl⟩ | ⟨rfl, rfl, rfl⟩
    · exact equal
    · obtain ⟨first, requested, stored⟩ := (mem _ _).mp inside
      obtain ⟨second, requestedToo, storedToo⟩ := (mem _ _).mp there
      exact absurd ⟨name, first, second, requested, stored, requestedToo, storedToo⟩ clear
    · obtain ⟨first, requested, stored⟩ := (mem _ _).mp there
      obtain ⟨second, requestedToo, storedToo⟩ := (mem _ _).mp inside
      exact absurd ⟨id, first, second, requested, stored, requestedToo, storedToo⟩ clear

/-- Postgres takes the values of a `keys.set` call in one statement exactly when no two of them share
a row, there are at most 16383 and the columns hold them; otherwise it stores none of them. -/
theorem postgres_takes_iff (call : Call Value) (fits : Column → Sql.Value → Bool)
    (order : KeyedTable.Arrangement (Sql.Row Column)) (now : Int) (sessionId : String) (table : Table) :
    ((step PostgresAdapter.queries (PostgresAdapter.engine fits) order
        ⟨.setMany sessionId (collect call).entries, now⟩ table).1 = .done ↔
      ¬ Clash call ∧ (storedItems call).length ≤ 16383 ∧
        ∀ entry ∈ (collect call).entries, PostgresAdapter.Fits fits now sessionId entry) ∧
    ((step PostgresAdapter.queries (PostgresAdapter.engine fits) order
        ⟨.setMany sessionId (collect call).entries, now⟩ table).1 ≠ .done →
      (step PostgresAdapter.queries (PostgresAdapter.engine fits) order
        ⟨.setMany sessionId (collect call).entries, now⟩ table).2 = table) := by
  obtain ⟨taken, refused⟩ := PostgresAdapter.setMany_taken_iff fits order now sessionId
    (collect call).entries table
  have count : (collect call).entries.length = (storedItems call).length := by
    rw [collect_entries, List.length_map]
  rw [collect_nodup_iff, count] at taken
  exact ⟨taken, refused⟩

end BaileysSession.KeysSet
