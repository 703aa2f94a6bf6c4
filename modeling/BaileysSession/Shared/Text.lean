import Mathlib.Data.List.Basic

set_option autoImplicit false

namespace Text

def startsWith (text start : String) : Bool := start.toList.isPrefixOf text.toList

theorem startsWith_iff (text start : String) :
    startsWith text start = true ↔ ∃ rest, text = start ++ rest := by
  rw [startsWith, List.isPrefixOf_iff_prefix]
  constructor
  · rintro ⟨rest, same⟩
    refine ⟨String.ofList rest, ?_⟩
    apply String.toList_inj.mp
    rw [String.toList_append, String.toList_ofList, same]
  · rintro ⟨rest, rfl⟩
    exact ⟨rest.toList, by rw [String.toList_append]⟩

theorem startsWith_append (start rest : String) : startsWith (start ++ rest) start = true :=
  (startsWith_iff _ _).mpr ⟨rest, rfl⟩

theorem split_unique {Item : Type} {separator : Item} {first second rest other : List Item}
    (inFirst : separator ∉ first) (inSecond : separator ∉ second)
    (same : first ++ separator :: rest = second ++ separator :: other) :
    first = second ∧ rest = other := by
  induction first generalizing second with
  | nil =>
    cases second with
    | nil => simpa using same
    | cons head tail =>
      simp only [List.nil_append, List.cons_append, List.cons.injEq] at same
      exact absurd (same.1 ▸ List.mem_cons_self) inSecond
  | cons head tail ih =>
    cases second with
    | nil =>
      simp only [List.nil_append, List.cons_append, List.cons.injEq] at same
      exact absurd (same.1 ▸ List.mem_cons_self) inFirst
    | cons front back =>
      simp only [List.cons_append, List.cons.injEq] at same
      simp only [List.mem_cons, not_or] at inFirst inSecond
      have later := ih inFirst.2 inSecond.2 same.2
      exact ⟨by rw [same.1, later.1], later.2⟩

end Text
