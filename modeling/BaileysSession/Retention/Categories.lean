import BaileysSession.Factory.KeyNames
import BaileysSession.Retention.Retention

set_option autoImplicit false

namespace BaileysSession.Retention

theorem cacheKeyName_ne_creds (category : Category) (id : String) :
    cacheKeyName category id ≠ credsKey := by
  intro same
  have starts : Text.startsWith credsKey (category.name ++ "-") = true :=
    same ▸ Text.startsWith_append _ id
  revert starts
  cases category <;> decide

/-- A sender key with such an id looks like a sender key memory. -/
def Remembered (id : String) : Prop := id = "memory" ∨ Text.startsWith id "memory-" = true

instance : DecidablePred Remembered := fun id =>
  inferInstanceAs (Decidable (id = "memory" ∨ Text.startsWith id "memory-" = true))

theorem senderKeyMemory_dash (id : String) :
    cacheKeyName .senderKey ("memory-" ++ id) = Category.senderKeyMemory.name ++ "-" ++ id :=
  cacheKeyName_shadowed id

theorem startsWith_category_iff (category other : Category) (id : String) :
    Text.startsWith (cacheKeyName category id) (other.name ++ "-") = true ↔
      other = category ∨ (other = .senderKey ∧ category = .senderKeyMemory) ∨
        (other = .senderKeyMemory ∧ category = .senderKey ∧
          Text.startsWith id "memory-" = true) := by
  constructor
  · intro starts
    obtain ⟨rest, same⟩ := (Text.startsWith_iff _ _).mp starts
    rcases (startsWith_of_extension same).imp (category_extends other category)
        (category_extends category other) with (here | nested) | (here | ⟨rfl, rfl⟩)
    · exact .inl here
    · exact .inr (.inl nested)
    · exact .inl here.symm
    · rw [← senderKeyMemory_dash] at same
      exact .inr (.inr ⟨rfl, rfl, (Text.startsWith_iff _ _).mpr ⟨rest, append_left_cancel same⟩⟩)
  · rintro (rfl | ⟨rfl, rfl⟩ | ⟨rfl, rfl, starts⟩)
    · exact Text.startsWith_append _ id
    · rw [← cacheKeyName_shadowed]
      exact Text.startsWith_append _ _
    · obtain ⟨rest, rfl⟩ := (Text.startsWith_iff _ _).mp starts
      rw [senderKeyMemory_dash]
      exact Text.startsWith_append _ rest

theorem eq_category_iff (category other : Category) (id : String) :
    cacheKeyName category id = other.name ↔
      other = .senderKeyMemory ∧ category = .senderKey ∧ id = "memory" := by
  constructor
  · intro same
    have longer : other.name ++ "-" = category.name ++ "-" ++ (id ++ "-") := by
      rw [← same, cacheKeyName, String.append_assoc]
    have starts := (Text.startsWith_iff _ _).mpr ⟨_, longer⟩
    rcases category_extends category other starts with rfl | ⟨rfl, rfl⟩
    · have lengths := congrArg String.length same
      have dash : "-".length = 1 := rfl
      simp only [cacheKeyName, String.length_append] at lengths
      omega
    · have memory : cacheKeyName .senderKey "memory" = Category.senderKeyMemory.name := by decide
      exact ⟨rfl, rfl, append_left_cancel (same.trans memory.symm)⟩
  · rintro ⟨rfl, rfl, rfl⟩
    decide

/-- The category a key is taken for is the one it was made from, but for such a sender key. -/
theorem resolveCategory_cacheKeyName (category : Category) (id : String) :
    resolveCategory (cacheKeyName category id) =
      some (if category = .senderKey ∧ Remembered id then .senderKeyMemory else category) := by
  have matching : ∀ other : Category,
      (decide (cacheKeyName category id = other.name) ||
        Text.startsWith (cacheKeyName category id) (other.name ++ "-")) =
      decide (other = category ∨ (other = .senderKey ∧ category = .senderKeyMemory) ∨
        (other = .senderKeyMemory ∧ category = .senderKey ∧ Remembered id)) := by
    intro other
    rw [Bool.eq_iff_iff, Bool.or_eq_true, decide_eq_true_iff, decide_eq_true_iff,
      eq_category_iff, startsWith_category_iff, Remembered]
    tauto
  simp only [resolveCategory, if_neg (cacheKeyName_ne_creds category id), matching]
  by_cases remembered : Remembered id <;> simp only [remembered, and_true, and_false, or_false] <;>
    cases category <;> decide

end BaileysSession.Retention
