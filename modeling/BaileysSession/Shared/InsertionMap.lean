import Mathlib.Data.List.Nodup

set_option autoImplicit false

-- A finite map that remembers the order in which its keys were first inserted.
structure InsertionMap (Key Value : Type) where
  entries : List (Key × Value)
  unique : (entries.map Prod.fst).Nodup

namespace InsertionMap

variable {Key Value : Type}

def empty : InsertionMap Key Value := ⟨[], List.nodup_nil⟩

def keys (map : InsertionMap Key Value) : List Key := map.entries.map Prod.fst

def size (map : InsertionMap Key Value) : Nat := map.entries.length

theorem filtered_unique (entries : List (Key × Value)) (keep : Key × Value → Bool)
    (unique : (entries.map Prod.fst).Nodup) :
    ((entries.filter keep).map Prod.fst).Nodup :=
  unique.sublist (List.filter_sublist.map Prod.fst)

def filter (map : InsertionMap Key Value) (keep : Key × Value → Bool) :
    InsertionMap Key Value :=
  ⟨map.entries.filter keep, filtered_unique map.entries keep map.unique⟩

def map {Other : Type} (map : InsertionMap Key Value) (change : Key → Value → Other) :
    InsertionMap Key Other :=
  ⟨map.entries.map fun entry => (entry.1, change entry.1 entry.2), by
    rw [List.map_map]
    exact map.unique⟩

variable [DecidableEq Key]

def get? (map : InsertionMap Key Value) (key : Key) : Option Value :=
  map.entries.lookup key

-- Replacing keeps the key's place; a new key goes to the end.
def setEntry (key : Key) (value : Value) : List (Key × Value) → List (Key × Value)
  | [] => [(key, value)]
  | entry :: rest =>
    if entry.1 = key then (key, value) :: rest else entry :: setEntry key value rest

theorem setEntry_keys (key : Key) (value : Value) (entries : List (Key × Value)) :
    (setEntry key value entries).map Prod.fst =
      if key ∈ entries.map Prod.fst then entries.map Prod.fst
      else entries.map Prod.fst ++ [key] := by
  induction entries with
  | nil => simp [setEntry]
  | cons entry rest ih =>
    by_cases same : entry.1 = key
    · simp [setEntry, same]
    · have other : ¬ key = entry.1 := fun h => same h.symm
      simp only [setEntry, if_neg same, List.map_cons, ih, List.mem_cons, other, false_or]
      split <;> simp

theorem setEntry_unique (key : Key) (value : Value) (entries : List (Key × Value))
    (unique : (entries.map Prod.fst).Nodup) :
    ((setEntry key value entries).map Prod.fst).Nodup := by
  rw [setEntry_keys]
  split
  · exact unique
  · rename_i absent
    exact List.nodup_append.mpr ⟨unique, List.nodup_singleton key, by
      rintro a present b single rfl
      exact absent (List.mem_singleton.mp single ▸ present)⟩

theorem setEntry_fresh {key : Key} (value : Value) {entries : List (Key × Value)}
    (fresh : key ∉ entries.map Prod.fst) :
    setEntry key value entries = entries ++ [(key, value)] := by
  induction entries with
  | nil => rfl
  | cons entry rest ih =>
    rw [List.map_cons, List.mem_cons, not_or] at fresh
    rw [setEntry, if_neg (Ne.symm fresh.1), ih fresh.2, List.cons_append]

def set (map : InsertionMap Key Value) (key : Key) (value : Value) : InsertionMap Key Value :=
  ⟨setEntry key value map.entries, setEntry_unique key value map.entries map.unique⟩

def erase (map : InsertionMap Key Value) (key : Key) : InsertionMap Key Value :=
  map.filter fun entry => !decide (entry.1 = key)

@[simp] theorem get?_empty (key : Key) :
    (empty : InsertionMap Key Value).get? key = none := rfl

theorem lookup_cons (entry : Key × Value) (rest : List (Key × Value)) (key : Key) :
    (entry :: rest).lookup key = if key = entry.1 then some entry.2 else rest.lookup key := by
  obtain ⟨first, value⟩ := entry
  by_cases same : key = first
  · simp [same]
  · rw [List.lookup_cons, beq_eq_false_iff_ne.mpr same, if_neg same]

theorem lookup_setEntry (key other : Key) (value : Value) (entries : List (Key × Value)) :
    (setEntry key value entries).lookup other =
      if other = key then some value else entries.lookup other := by
  induction entries with
  | nil => simp [setEntry, lookup_cons]
  | cons entry rest ih =>
    by_cases present : entry.1 = key
    · rw [setEntry, if_pos present, lookup_cons, lookup_cons, present]
      by_cases here : other = key <;> simp [here]
    · rw [setEntry, if_neg present, lookup_cons, lookup_cons, ih]
      by_cases here : other = entry.1
      · simp [here, present]
      · simp [here]

@[simp] theorem get?_set (map : InsertionMap Key Value) (key other : Key) (value : Value) :
    (map.set key value).get? other = if other = key then some value else map.get? other :=
  lookup_setEntry key other value map.entries

theorem lookup_eq_some_iff (entries : List (Key × Value))
    (unique : (entries.map Prod.fst).Nodup) (key : Key) (value : Value) :
    entries.lookup key = some value ↔ (key, value) ∈ entries := by
  induction entries with
  | nil => simp
  | cons entry rest ih =>
    simp only [List.map_cons, List.nodup_cons] at unique
    rw [lookup_cons]
    by_cases same : key = entry.1
    · have fresh : (key, value) ∉ rest := fun inside =>
        unique.1 (same ▸ List.mem_map_of_mem inside)
      have first : (key, value) = entry ↔ value = entry.2 := by
        rw [Prod.ext_iff]
        exact and_iff_right same
      rw [if_pos same, List.mem_cons, or_iff_left fresh, first, Option.some.injEq, eq_comm]
    · have different : (key, value) ≠ entry := fun h => same (congrArg Prod.fst h)
      simp [same, ih unique.2, different]

theorem get?_eq_some_iff (map : InsertionMap Key Value) (key : Key) (value : Value) :
    map.get? key = some value ↔ (key, value) ∈ map.entries :=
  lookup_eq_some_iff map.entries map.unique key value

theorem get?_of_perm {first second : InsertionMap Key Value}
    (perm : first.entries.Perm second.entries) (key : Key) : first.get? key = second.get? key := by
  refine Option.ext fun value => ?_
  rw [get?_eq_some_iff, get?_eq_some_iff]
  exact perm.mem_iff

theorem get?_eq_none_iff (map : InsertionMap Key Value) (key : Key) :
    map.get? key = none ↔ key ∉ map.keys := by
  constructor
  · intro missing present
    obtain ⟨⟨_, value⟩, inside, rfl⟩ := List.mem_map.mp present
    rw [(get?_eq_some_iff map _ value).mpr inside] at missing
    cases missing
  · intro absent
    cases found : map.get? key with
    | none => rfl
    | some value =>
      exact absurd (List.mem_map_of_mem
        ((get?_eq_some_iff map key value).mp found)) absent

theorem get?_filter_eq_some (map : InsertionMap Key Value) (keep : Key × Value → Bool)
    (key : Key) (value : Value) :
    (map.filter keep).get? key = some value ↔
      map.get? key = some value ∧ keep (key, value) = true := by
  rw [get?_eq_some_iff, get?_eq_some_iff]
  exact List.mem_filter

@[simp] theorem get?_erase (map : InsertionMap Key Value) (key other : Key) :
    (map.erase key).get? other = if other = key then none else map.get? other := by
  ext value
  rw [erase, get?_filter_eq_some]
  by_cases same : other = key <;> simp [same]

theorem lookup_map {Other : Type} (change : Key → Value → Other) (entries : List (Key × Value))
    (key : Key) : (entries.map fun entry => (entry.1, change entry.1 entry.2)).lookup key =
      (entries.lookup key).map (change key) := by
  induction entries with
  | nil => rfl
  | cons entry rest ih =>
    rw [List.map_cons, lookup_cons, lookup_cons, ih]
    by_cases same : key = entry.1 <;> simp [same]

@[simp] theorem get?_map {Other : Type} (map : InsertionMap Key Value)
    (change : Key → Value → Other) (key : Key) :
    (map.map change).get? key = (map.get? key).map (change key) :=
  lookup_map change map.entries key

/-- Reading keys one by one gathers what is there for those that are asked for. -/
theorem get?_gathered (read : Key → Option Value)
    (gather : InsertionMap Key Value → Key → InsertionMap Key Value)
    (gathers : ∀ found key, gather found key = (read key).elim found (found.set key))
    (keys : List Key) (found : InsertionMap Key Value) (key : Key) :
    (keys.foldl gather found).get? key =
      if key ∈ keys then (read key).or (found.get? key) else found.get? key := by
  induction keys generalizing found with
  | nil => simp
  | cons first rest ih =>
    rw [List.foldl_cons, ih, gathers]
    cases stored : read first with
    | none => by_cases same : key = first <;> simp [same, stored]
    | some value => by_cases same : key = first <;> simp [same, stored]

theorem get?_collected {Item : Type} (name : Item → Key) (value : Item → Value) {items : List Item}
    (unique : (items.map name).Nodup) (found : InsertionMap Key Value) (key : Key) (held : Value) :
    (items.foldl (fun map item => map.set (name item) (value item)) found).get? key = some held ↔
      (∃ item ∈ items, name item = key ∧ value item = held) ∨
        (key ∉ items.map name ∧ found.get? key = some held) := by
  induction items generalizing found with
  | nil => simp
  | cons item rest ih =>
    rw [List.map_cons, List.nodup_cons] at unique
    rw [List.foldl_cons, ih unique.2, get?_set]
    by_cases here : key = name item
    · have absent : key ∉ rest.map name := here ▸ unique.1
      have none : ¬ ∃ other ∈ rest, name other = key ∧ value other = held := by
        rintro ⟨other, inside, rfl, -⟩
        exact absent (List.mem_map_of_mem inside)
      rw [or_iff_right none, and_iff_right absent, if_pos here, Option.some.injEq]
      constructor
      · exact fun same => .inl ⟨item, List.mem_cons_self, here.symm, same⟩
      · rintro (⟨other, inside, named, same⟩ | ⟨missing, -⟩)
        · rcases List.mem_cons.mp inside with rfl | later
          · exact same
          · exact absurd ⟨other, later, named, same⟩ none
        · exact absurd (here ▸ List.mem_cons_self) missing
    · rw [if_neg here, List.map_cons, List.mem_cons, not_or, and_iff_right here]
      apply or_congr_left
      constructor
      · rintro ⟨other, inside, fits⟩
        exact ⟨other, List.mem_cons_of_mem item inside, fits⟩
      · rintro ⟨other, inside, named, same⟩
        rcases List.mem_cons.mp inside with rfl | later
        · exact absurd named.symm here
        · exact ⟨other, later, named, same⟩

end InsertionMap
