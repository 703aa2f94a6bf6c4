import BaileysSession.Factory.KeysSet
import BaileysSession.Shared.Text

set_option autoImplicit false

namespace BaileysSession

theorem category_extends (first second : Category)
    (starts : Text.startsWith (second.name ++ "-") (first.name ++ "-") = true) :
    first = second ∨ (first = .senderKey ∧ second = .senderKeyMemory) := by
  revert starts
  cases first <;> cases second <;> decide

theorem startsWith_of_extension {first second rest more : String}
    (same : first ++ rest = second ++ more) :
    Text.startsWith first second = true ∨ Text.startsWith second first = true := by
  have lists := congrArg String.toList same
  rw [String.toList_append, String.toList_append] at lists
  rcases List.append_eq_append_iff.mp lists with ⟨tail, longer, -⟩ | ⟨tail, longer, -⟩
  · right
    rw [Text.startsWith, List.isPrefixOf_iff_prefix, longer]
    exact List.prefix_append _ _
  · left
    rw [Text.startsWith, List.isPrefixOf_iff_prefix, longer]
    exact List.prefix_append _ _

theorem append_left_cancel {start first second : String} (same : start ++ first = start ++ second) :
    first = second := by
  have lists := congrArg String.toList same
  rw [String.toList_append, String.toList_append] at lists
  exact String.toList_inj.mp (List.append_cancel_left lists)

/-- A sender key whose id starts with `memory-` has the row of a sender key memory. -/
def Shadows (first second : Category × String) : Prop :=
  first.1 = .senderKey ∧ second.1 = .senderKeyMemory ∧ first.2 = "memory-" ++ second.2

theorem cacheKeyName_shadowed (id : String) :
    cacheKeyName .senderKey ("memory-" ++ id) = cacheKeyName .senderKeyMemory id := by
  simp [cacheKeyName, Category.name, ← String.append_assoc]

theorem cacheKeyName_eq_iff (first second : Category × String) :
    cacheKeyName first.1 first.2 = cacheKeyName second.1 second.2 ↔
      first = second ∨ Shadows first second ∨ Shadows second first := by
  obtain ⟨category, id⟩ := first
  obtain ⟨other, name⟩ := second
  constructor
  · intro same
    have nested := startsWith_of_extension same
    rcases nested.imp (category_extends other category) (category_extends category other) with
      (rfl | ⟨rfl, rfl⟩) | (rfl | ⟨rfl, rfl⟩)
    · exact .inl (Prod.ext rfl (append_left_cancel same))
    · rw [← cacheKeyName_shadowed id] at same
      exact .inr (.inr ⟨rfl, rfl, (append_left_cancel same).symm⟩)
    · exact .inl (Prod.ext rfl (append_left_cancel same))
    · rw [← cacheKeyName_shadowed name] at same
      exact .inr (.inl ⟨rfl, rfl, append_left_cancel same⟩)
  · rintro (same | ⟨rfl, rfl, rfl⟩ | ⟨rfl, rfl, rfl⟩)
    · rw [same]
    · exact cacheKeyName_shadowed name
    · exact (cacheKeyName_shadowed id).symm

end BaileysSession
