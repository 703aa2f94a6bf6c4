import BaileysSession.Shared.InsertionMap
import Mathlib.Data.List.Infix

set_option autoImplicit false

-- A tree whose leaves are addressed by the names on the way to them.
namespace PathTree

variable {Name Leaf : Type} [DecidableEq Name]

abbrev Node (Name Leaf : Type) := List (List Name × Leaf)

abbrev Tree (Name Leaf : Type) := InsertionMap (List Name) Leaf

/-- The leaves at and below a place, by the rest of the way to them. -/
def below (place : List Name) (node : Node Name Leaf) : Node Name Leaf :=
  node.filterMap fun leaf =>
    if place.isPrefixOf leaf.1 then some (leaf.1.drop place.length, leaf.2) else none

def snapshot (tree : Tree Name Leaf) (place : List Name) : Node Name Leaf := below place tree.entries

def remove (tree : Tree Name Leaf) (place : List Name) : Tree Name Leaf :=
  tree.filter fun leaf => !place.isPrefixOf leaf.1

-- A place that is written below is no leaf any more.
def write (tree : Tree Name Leaf) (place : List Name) (node : Node Name Leaf) : Tree Name Leaf :=
  node.foldl (fun tree leaf => tree.set (place ++ leaf.1) leaf.2)
    (tree.filter fun leaf => !(place.isPrefixOf leaf.1 || leaf.1.isPrefixOf place))

def Independent (first second : List Name) : Prop := ¬ first <+: second ∧ ¬ second <+: first

omit [DecidableEq Name] in
theorem Independent.symm {first second : List Name} (independent : Independent first second) :
    Independent second first := And.symm independent

omit [DecidableEq Name] in
theorem Independent.not_both {first second leaf : List Name}
    (independent : Independent first second) (left : first <+: leaf) : ¬ second <+: leaf := by
  intro right
  rcases List.prefix_or_prefix_of_prefix left right with nested | nested
  · exact independent.1 nested
  · exact independent.2 nested

theorem below_append (place : List Name) (first second : Node Name Leaf) :
    below place (first ++ second) = below place first ++ below place second :=
  List.filterMap_append

theorem below_eq_nil_iff (place : List Name) (node : Node Name Leaf) :
    below place node = [] ↔ ∀ leaf ∈ node, ¬ place <+: leaf.1 := by
  rw [below, List.filterMap_eq_nil_iff]
  refine forall₂_congr fun leaf _ => ?_
  rw [← List.isPrefixOf_iff_prefix]
  by_cases under : place.isPrefixOf leaf.1 = true <;> simp [under]

theorem below_filter (place : List Name) (node : Node Name Leaf) (keep : List Name × Leaf → Bool)
    (kept : ∀ leaf ∈ node, place <+: leaf.1 → keep leaf = true) :
    below place (node.filter keep) = below place node := by
  rw [below, List.filterMap_filter]
  refine List.filterMap_congr fun leaf inside => ?_
  by_cases under : place <+: leaf.1
  · rw [kept leaf inside under, if_pos rfl]
  · rw [if_neg (mt List.isPrefixOf_iff_prefix.mp under), ite_self]

theorem below_place (place : List Name) (node : Node Name Leaf) :
    below place (node.map fun leaf => (place ++ leaf.1, leaf.2)) = node := by
  induction node with
  | nil => rfl
  | cons leaf rest ih =>
    rw [below] at ih
    have here : place.isPrefixOf (place ++ leaf.1) = true :=
      List.isPrefixOf_iff_prefix.mpr (List.prefix_append _ _)
    simp only [below, List.map_cons, List.filterMap_cons, here, if_true, List.drop_left, ih]

theorem snapshot_remove_self (tree : Tree Name Leaf) (place : List Name) :
    snapshot (remove tree place) place = [] := by
  rw [snapshot, below_eq_nil_iff]
  intro leaf inside under
  have kept := (List.mem_filter.mp inside).2
  rw [List.isPrefixOf_iff_prefix.mpr under] at kept
  cases kept

theorem snapshot_remove_below {tree : Tree Name Leaf} {place other : List Name}
    (nested : place <+: other) : snapshot (remove tree place) other = [] := by
  rw [snapshot, below_eq_nil_iff]
  intro leaf inside under
  have kept := (List.mem_filter.mp inside).2
  rw [List.isPrefixOf_iff_prefix.mpr (nested.trans under)] at kept
  cases kept

theorem snapshot_remove_other {tree : Tree Name Leaf} {place other : List Name}
    (independent : Independent place other) :
    snapshot (remove tree place) other = snapshot tree other := by
  refine below_filter other tree.entries _ fun leaf _ under => ?_
  rw [Bool.not_eq_true', Bool.eq_false_iff, Ne, List.isPrefixOf_iff_prefix]
  exact independent.symm.not_both under

theorem entries_write (tree : Tree Name Leaf) (place : List Name) (node : Node Name Leaf)
    (unique : (node.map Prod.fst).Nodup) :
    (write tree place node).entries =
      (tree.entries.filter fun leaf => !(place.isPrefixOf leaf.1 || leaf.1.isPrefixOf place)) ++
        node.map fun leaf => (place ++ leaf.1, leaf.2) := by
  have appended : ∀ start : Tree Name Leaf,
      (∀ leaf ∈ node, place ++ leaf.1 ∉ start.entries.map Prod.fst) →
      (node.foldl (fun tree leaf => tree.set (place ++ leaf.1) leaf.2) start).entries =
        start.entries ++ node.map fun leaf => (place ++ leaf.1, leaf.2) := by
    induction node with
    | nil => intro start _; simp
    | cons leaf rest ih =>
      intro start fresh
      simp only [List.map_cons, List.nodup_cons] at unique
      have first : (start.set (place ++ leaf.1) leaf.2).entries =
          start.entries ++ [(place ++ leaf.1, leaf.2)] :=
        InsertionMap.setEntry_fresh leaf.2 (fresh leaf List.mem_cons_self)
      rw [List.foldl_cons, ih unique.2, first]
      · simp
      · intro other inside
        rw [first, List.map_append, List.mem_append, not_or]
        refine ⟨fresh other (List.mem_cons_of_mem leaf inside), ?_⟩
        intro single
        have same : other.1 = leaf.1 := List.append_cancel_left (List.mem_singleton.mp single)
        exact unique.1 (same ▸ List.mem_map_of_mem inside)
  refine appended _ fun leaf _ inside => ?_
  obtain ⟨stale, kept, same⟩ := List.mem_map.mp inside
  have away := (List.mem_filter.mp kept).2
  rw [same, List.isPrefixOf_iff_prefix.mpr (List.prefix_append _ _)] at away
  cases away

theorem snapshot_write_self (tree : Tree Name Leaf) (place : List Name) {node : Node Name Leaf}
    (unique : (node.map Prod.fst).Nodup) : snapshot (write tree place node) place = node := by
  rw [snapshot, entries_write tree place node unique, below_append, below_place]
  have cleared : below place (tree.entries.filter fun leaf =>
      !(place.isPrefixOf leaf.1 || leaf.1.isPrefixOf place)) = [] := by
    rw [below_eq_nil_iff]
    intro leaf inside under
    have kept := (List.mem_filter.mp inside).2
    rw [List.isPrefixOf_iff_prefix.mpr under] at kept
    cases kept
  rw [cleared, List.nil_append]

theorem snapshot_write_other {tree : Tree Name Leaf} {place other : List Name}
    {node : Node Name Leaf} (unique : (node.map Prod.fst).Nodup)
    (independent : Independent place other) :
    snapshot (write tree place node) other = snapshot tree other := by
  have written : below other (node.map fun leaf => (place ++ leaf.1, leaf.2)) = [] := by
    rw [below_eq_nil_iff]
    intro leaf inside
    obtain ⟨relative, -, rfl⟩ := List.mem_map.mp inside
    exact independent.not_both (List.prefix_append _ _)
  rw [snapshot, entries_write tree place node unique, below_append, written, List.append_nil]
  refine below_filter other tree.entries _ fun leaf _ under => ?_
  have notBelow : ¬ place.isPrefixOf leaf.1 = true :=
    mt List.isPrefixOf_iff_prefix.mp (independent.symm.not_both under)
  have notAbove : ¬ leaf.1.isPrefixOf place = true := fun above =>
    independent.2 (under.trans (List.isPrefixOf_iff_prefix.mp above))
  simp [notBelow, notAbove]

end PathTree
