import BaileysSession.Shared.InsertionMap
import Mathlib.Algebra.Ring.Nat
import Mathlib.Data.List.Infix

set_option autoImplicit false

-- A list of entries in the order of their last use, the least recently used one first.
namespace Recency

variable {Key Value Item : Type}

/-- The longest end of the list that fits. -/
def longestSuffix (fits : List Item → Bool) : List Item → List Item
  | [] => []
  | item :: rest => if fits (item :: rest) then item :: rest else longestSuffix fits rest

theorem longestSuffix_suffix (fits : List Item → Bool) (items : List Item) :
    longestSuffix fits items <:+ items := by
  induction items with
  | nil => exact List.suffix_rfl
  | cons item rest ih =>
    unfold longestSuffix
    split
    · exact List.suffix_rfl
    · exact ih.trans (List.suffix_cons item rest)

theorem longestSuffix_fits (fits : List Item → Bool) (items : List Item)
    (emptyFits : fits [] = true) : fits (longestSuffix fits items) = true := by
  induction items with
  | nil => exact emptyFits
  | cons item rest ih =>
    unfold longestSuffix
    split
    · assumption
    · exact ih

theorem longestSuffix_longest (fits : List Item → Bool) (items other : List Item)
    (ending : other <:+ items) (otherFits : fits other = true) :
    other <:+ longestSuffix fits items := by
  induction items with
  | nil => exact ending
  | cons item rest ih =>
    unfold longestSuffix
    split
    · exact ending
    · rename_i exceeds
      rcases List.suffix_cons_iff.mp ending with whole | shorter
      · exact absurd (whole ▸ otherFits) exceeds
      · exact ih shorter

/-- Items go from the front until the rest fits, but never a pinned one. -/
def cut (fits : List Item → Bool) (pinned : Item → Bool) : List Item → List Item
  | [] => []
  | item :: rest =>
    if fits (item :: rest) then item :: rest
    else if pinned item then item :: rest
    else cut fits pinned rest

theorem cut_fits_iff (fits : List Item → Bool) (pinned : Item → Bool)
    (closed : ∀ items ending, ending <:+ items → fits items = true → fits ending = true)
    (items : List Item) :
    fits (cut fits pinned items) = true ↔
      fits (items.dropWhile fun item => !pinned item) = true := by
  induction items with
  | nil => exact Iff.rfl
  | cons item rest ih =>
    unfold cut
    by_cases whole : fits (item :: rest) = true
    · have ending : fits ((item :: rest).dropWhile fun item => !pinned item) = true :=
        closed _ _ (List.dropWhile_suffix _) whole
      rw [if_pos whole]
      exact iff_of_true whole ending
    · rw [if_neg whole]
      by_cases held : pinned item = true
      · simp [held]
      · simpa [held] using ih

def weight (weigh : Item → Nat) (items : List Item) : Nat := (items.map weigh).sum

@[simp] theorem weight_nil (weigh : Item → Nat) : weight weigh [] = 0 := rfl

@[simp] theorem weight_cons (weigh : Item → Nat) (item : Item) (rest : List Item) :
    weight weigh (item :: rest) = weigh item + weight weigh rest := by simp [weight]

@[simp] theorem weight_append (weigh : Item → Nat) (left right : List Item) :
    weight weigh (left ++ right) = weight weigh left + weight weigh right := by simp [weight]

theorem weight_sublist (weigh : Item → Nat) {items other : List Item}
    (fewer : other.Sublist items) : weight weigh other ≤ weight weigh items := by
  induction fewer with
  | slnil => exact Nat.le_refl _
  | cons item _ ih =>
    rw [weight_cons]
    omega
  | cons_cons item _ ih =>
    rw [weight_cons, weight_cons]
    omega

variable [DecidableEq Key]

def drop (key : Key) (entries : List (Key × Value)) : List (Key × Value) :=
  entries.filter fun entry => !decide (entry.1 = key)

def pushRecent (key : Key) (value : Value) (entries : List (Key × Value)) : List (Key × Value) :=
  drop key entries ++ [(key, value)]

theorem drop_fresh (key : Key) (entries : List (Key × Value)) :
    key ∉ (drop key entries).map Prod.fst := by
  intro inside
  obtain ⟨entry, kept, same⟩ := List.mem_map.mp inside
  simpa [same] using (List.mem_filter.mp kept).2

theorem drop_absent {key : Key} {entries : List (Key × Value)}
    (absent : key ∉ entries.map Prod.fst) : drop key entries = entries := by
  apply List.filter_eq_self.mpr
  intro entry inside
  have different : entry.1 ≠ key := fun same => absent (same ▸ List.mem_map_of_mem inside)
  simp [different]

theorem drop_found (weigh : Key × Value → Nat) {key : Key} {value : Value}
    {entries : List (Key × Value)} (unique : (entries.map Prod.fst).Nodup)
    (found : entries.lookup key = some value) :
    (drop key entries).length + 1 = entries.length ∧
      weight weigh (drop key entries) + weigh (key, value) = weight weigh entries := by
  induction entries with
  | nil => cases found
  | cons entry rest ih =>
    rw [InsertionMap.lookup_cons] at found
    rw [List.map_cons, List.nodup_cons] at unique
    by_cases same : key = entry.1
    · rw [if_pos same, Option.some.injEq] at found
      have dropped : drop key (entry :: rest) = rest := by
        have others := drop_absent unique.1
        simpa [drop, same] using others
      have whole : (key, value) = entry := Prod.ext same found.symm
      rw [dropped, weight_cons, whole]
      exact ⟨rfl, Nat.add_comm _ _⟩
    · rw [if_neg same] at found
      obtain ⟨fewer, lighter⟩ := ih unique.2 found
      have kept : drop key (entry :: rest) = entry :: drop key rest := by
        simp [drop, Ne.symm same]
      rw [kept, List.length_cons, List.length_cons, weight_cons, weight_cons]
      omega

theorem entries_set_erase (map : InsertionMap Key Value) (key : Key) (value : Value) :
    ((map.erase key).set key value).entries = pushRecent key value map.entries :=
  InsertionMap.setEntry_fresh value (drop_fresh key map.entries)

end Recency
