import Mathlib.Data.List.Nodup
import Mathlib.Logic.Function.Basic

set_option autoImplicit false

-- Tables as lists of rows, no two of which are to have one key.
namespace KeyedTable

-- The order in which rows come without an `ORDER BY`.
structure Arrangement (Item : Type) where
  arrange : List Item → List Item
  perm : ∀ items, (arrange items).Perm items

def Arrangement.stored (Item : Type) : Arrangement Item := ⟨id, List.Perm.refl⟩

variable {Row Key : Type} [DecidableEq Key] (key : Row → Key)

-- A row with the key of one that is there is merged into it; another one goes to the end.
def upsert (merge : Row → Row → Row) (row : Row) : List Row → List Row
  | [] => [row]
  | own :: rest =>
    if key own = key row then merge row own :: rest else own :: upsert merge row rest

def Keyed (rows : List Row) : Prop := (rows.map key).Nodup

instance (rows : List Row) : Decidable (Keyed key rows) :=
  inferInstanceAs (Decidable (List.Nodup _))

variable {key} {merge : Row → Row → Row}

omit [DecidableEq Key] in
theorem Keyed.filter {rows : List Row} (keyed : Keyed key rows) (keep : Row → Bool) :
    Keyed key (rows.filter keep) :=
  List.Nodup.sublist (List.filter_sublist.map key) keyed

omit [DecidableEq Key] in
theorem Keyed.perm {rows other : List Row} (keyed : Keyed key rows) (perm : other.Perm rows) :
    Keyed key other :=
  (perm.map key).nodup_iff.mpr keyed

omit [DecidableEq Key] in
theorem Keyed.eq {rows : List Row} (keyed : Keyed key rows) {first second : Row}
    (inside : first ∈ rows) (there : second ∈ rows) (same : key first = key second) :
    first = second :=
  List.inj_on_of_nodup_map keyed inside there same

theorem upsert_keys (keeps : ∀ row own, key own = key row → key (merge row own) = key row)
    (row : Row) (rows : List Row) :
    (upsert key merge row rows).map key =
      if key row ∈ rows.map key then rows.map key else rows.map key ++ [key row] := by
  induction rows with
  | nil => simp [upsert]
  | cons own rest ih =>
    by_cases same : key own = key row
    · simp [upsert, same, keeps row own same]
    · have other : ¬ key row = key own := fun h => same h.symm
      simp only [upsert, if_neg same, List.map_cons, ih, List.mem_cons, other, false_or]
      split <;> simp

theorem Keyed.upsert (keeps : ∀ row own, key own = key row → key (merge row own) = key row)
    {rows : List Row} (keyed : Keyed key rows) (row : Row) :
    Keyed key (upsert key merge row rows) := by
  rw [Keyed, upsert_keys keeps]
  split
  · exact keyed
  · rename_i absent
    rw [← List.concat_eq_append]
    exact List.Nodup.concat absent keyed

theorem mem_upsert {rows : List Row} (keyed : Keyed key rows) (row other : Row) :
    other ∈ upsert key merge row rows ↔
      (other ∈ rows ∧ key other ≠ key row) ∨ (other = row ∧ key row ∉ rows.map key) ∨
        ∃ own ∈ rows, key own = key row ∧ other = merge row own := by
  induction rows with
  | nil => simp [upsert]
  | cons own rest ih =>
    rw [Keyed, List.map_cons, List.nodup_cons] at keyed
    have later := ih keyed.2
    by_cases same : key own = key row
    · have fresh : key row ∉ rest.map key := same ▸ keyed.1
      have apart : ∀ other ∈ rest, key other ≠ key row := fun other inside found =>
        fresh (found ▸ List.mem_map_of_mem inside)
      simp only [upsert, if_pos same, List.mem_cons, List.map_cons]
      constructor
      · rintro (rfl | inside)
        · exact .inr (.inr ⟨own, .inl rfl, same, rfl⟩)
        · exact .inl ⟨.inr inside, apart other inside⟩
      · rintro (⟨rfl | inside, different⟩ | ⟨-, absent⟩ | ⟨found, rfl | inside, keys, rfl⟩)
        · exact absurd same different
        · exact .inr inside
        · exact absurd (.inl same.symm) absent
        · exact .inl rfl
        · exact absurd keys (apart found inside)
    · have other' : ¬ key row = key own := fun h => same h.symm
      simp only [upsert, if_neg same, List.mem_cons, List.map_cons, later, other', false_or]
      constructor
      · rintro (rfl | ⟨inside, different⟩ | appended | ⟨found, inside, keys, merged⟩)
        · exact .inl ⟨.inl rfl, same⟩
        · exact .inl ⟨.inr inside, different⟩
        · exact .inr (.inl appended)
        · exact .inr (.inr ⟨found, .inr inside, keys, merged⟩)
      · rintro (⟨rfl | inside, different⟩ | appended | ⟨found, rfl | inside, keys, merged⟩)
        · exact .inl rfl
        · exact .inr (.inl ⟨inside, different⟩)
        · exact .inr (.inr (.inl appended))
        · exact absurd keys same
        · exact .inr (.inr (.inr ⟨found, inside, keys, merged⟩))

section Represents

variable {Out : Type} (key) (stamp : Row → Out)

/-- Under each key the table has a row that shows what is stored there. -/
structure Represents (table : List Row) (rows : Key → Option Out) : Prop where
  keyed : Keyed key table
  stored : ∀ name out, rows name = some out ↔ ∃ row ∈ table, key row = name ∧ stamp row = out

variable {key} {stamp : Row → Out} {table : List Row} {rows : Key → Option Out}

omit [DecidableEq Key] in
theorem represents_nothing : Represents key stamp [] fun _ => none :=
  ⟨List.nodup_nil, fun _ _ => ⟨nofun, nofun⟩⟩

theorem Represents.upsert (represents : Represents key stamp table rows)
    (keeps : ∀ row own, key own = key row → key (merge row own) = key row)
    (stamps : ∀ row own, stamp (merge row own) = stamp row) (row : Row) :
    Represents key stamp (upsert key merge row table)
      (Function.update rows (key row) (some (stamp row))) := by
  refine ⟨represents.keyed.upsert keeps row, fun name out => ?_⟩
  have member := fun other => @mem_upsert _ _ _ key merge table represents.keyed row other
  rw [Function.update_apply]
  by_cases here : name = key row
  · subst here
    rw [if_pos rfl, Option.some.injEq]
    constructor
    · rintro rfl
      by_cases present : key row ∈ table.map key
      · obtain ⟨own, inside, same⟩ := List.mem_map.mp present
        exact ⟨merge row own, (member _).mpr (.inr (.inr ⟨own, inside, same, rfl⟩)),
          keeps row own same, stamps row own⟩
      · exact ⟨row, (member _).mpr (.inr (.inl ⟨rfl, present⟩)), rfl, rfl⟩
    · rintro ⟨other, inside, same, rfl⟩
      rcases (member other).mp inside with ⟨-, apart⟩ | ⟨rfl, -⟩ | ⟨own, -, -, rfl⟩
      · exact absurd same apart
      · rfl
      · exact (stamps row own).symm
  · rw [if_neg here, represents.stored]
    constructor
    · rintro ⟨other, inside, rfl, rfl⟩
      exact ⟨other, (member other).mpr (.inl ⟨inside, here⟩), rfl, rfl⟩
    · rintro ⟨other, inside, rfl, rfl⟩
      rcases (member other).mp inside with ⟨old, -⟩ | ⟨rfl, -⟩ | ⟨own, -, same, rfl⟩
      · exact ⟨other, old, rfl, rfl⟩
      · exact absurd rfl here
      · exact absurd (keeps row own same) here

omit [DecidableEq Key] in
theorem Represents.filter (represents : Represents key stamp table rows) (keep : Key → Bool) :
    Represents key stamp (table.filter fun row => keep (key row))
      fun name => if keep name then rows name else none := by
  refine ⟨represents.keyed.filter _, fun name out => ?_⟩
  constructor
  · intro stored
    split at stored
    · rename_i kept
      obtain ⟨row, inside, rfl, rfl⟩ := (represents.stored name out).mp stored
      exact ⟨row, List.mem_filter.mpr ⟨inside, kept⟩, rfl, rfl⟩
    · cases stored
  · rintro ⟨row, inside, rfl, rfl⟩
    obtain ⟨old, kept⟩ := List.mem_filter.mp inside
    rw [if_pos kept]
    exact (represents.stored _ _).mpr ⟨row, old, rfl, rfl⟩

omit [DecidableEq Key] in
theorem Represents.unique (represents : Represents key stamp table rows) {first second : Row}
    (inside : first ∈ table) (there : second ∈ table) (same : key first = key second) :
    first = second := represents.keyed.eq inside there same

omit [DecidableEq Key] in
theorem Represents.nodup (represents : Represents key stamp table rows) : table.Nodup :=
  List.Nodup.of_map _ represents.keyed

omit [DecidableEq Key] in
theorem Represents.of_mem (represents : Represents key stamp table rows) {row : Row}
    (inside : row ∈ table) : rows (key row) = some (stamp row) :=
  (represents.stored _ _).mpr ⟨row, inside, rfl, rfl⟩

end Represents

end KeyedTable
