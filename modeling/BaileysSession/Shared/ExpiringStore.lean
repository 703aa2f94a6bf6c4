import Mathlib.Logic.Function.Basic

set_option autoImplicit false

-- A key-value store whose entries stop being visible when their time has come.
structure Expiring (Value : Type) where
  value : Value
  expiresAt : Nat
  deriving DecidableEq, Repr

abbrev ExpiringStore (Key Value : Type) := Key → Option (Expiring Value)

namespace ExpiringStore

variable {Key Value : Type}

def empty : ExpiringStore Key Value := fun _ => none

def get (store : ExpiringStore Key Value) (now : Nat) (key : Key) : Option Value :=
  ((store key).filter fun entry => now < entry.expiresAt).map Expiring.value

theorem get_eq_some_iff (store : ExpiringStore Key Value) (now : Nat) (key : Key)
    (value : Value) :
    store.get now key = some value ↔
      ∃ expiresAt, store key = some ⟨value, expiresAt⟩ ∧ now < expiresAt := by
  cases stored : store key with
  | none => simp [get, stored]
  | some entry =>
    by_cases live : now < entry.expiresAt
    · simp only [get, stored, Option.filter_some, live, decide_true, if_true, Option.map_some,
        Option.some.injEq]
      constructor
      · rintro rfl
        exact ⟨entry.expiresAt, rfl, live⟩
      · rintro ⟨_, rfl, -⟩
        rfl
    · simp only [get, stored, Option.filter_some, live, decide_false]
      constructor
      · intro absent
        cases absent
      · rintro ⟨_, same, visible⟩
        cases same
        exact absurd visible live

theorem get_none {store : ExpiringStore Key Value} {now : Nat} {key : Key}
    (absent : store.get now key = none) {entry : Expiring Value}
    (stored : store key = some entry) : entry.expiresAt ≤ now := by
  by_contra live
  have visible := (get_eq_some_iff store now key entry.value).mpr
    ⟨entry.expiresAt, stored, Nat.lt_of_not_le live⟩
  rw [absent] at visible
  cases visible

variable [DecidableEq Key]

-- `SET key value PX ttl NX`: the new store, or `none` when the key is visible.
def setIfAbsent (store : ExpiringStore Key Value) (now : Nat) (key : Key) (value : Value)
    (ttl : Nat) : Option (ExpiringStore Key Value) :=
  match store.get now key with
  | some _ => none
  | none => some (Function.update store key (some ⟨value, now + ttl⟩))

def deleteIfEqual [DecidableEq Value] (store : ExpiringStore Key Value) (now : Nat) (key : Key)
    (value : Value) : ExpiringStore Key Value :=
  if store.get now key = some value then Function.update store key none else store

theorem setIfAbsent_live {store : ExpiringStore Key Value} {now : Nat} {key : Key}
    {entry : Expiring Value} (stored : store key = some entry) (live : now < entry.expiresAt)
    (value : Value) (ttl : Nat) : store.setIfAbsent now key value ttl = none := by
  have visible := (get_eq_some_iff store now key entry.value).mpr ⟨_, stored, live⟩
  simp only [setIfAbsent, visible]

theorem setIfAbsent_eq_some {store next : ExpiringStore Key Value} {now : Nat} {key : Key}
    {value : Value} {ttl : Nat} (set : store.setIfAbsent now key value ttl = some next) :
    store.get now key = none ∧ next = Function.update store key (some ⟨value, now + ttl⟩) := by
  unfold setIfAbsent at set
  split at set
  · cases set
  · rename_i absent
    exact ⟨absent, (Option.some.inj set).symm⟩

theorem deleteIfEqual_other [DecidableEq Value] {store : ExpiringStore Key Value} {now : Nat}
    {key other : Key} {value : Value} {entry : Expiring Value}
    (stored : store other = some entry) (different : entry.value ≠ value) :
    store.deleteIfEqual now key value other = some entry := by
  unfold deleteIfEqual
  split
  · rename_i found
    by_cases same : other = key
    · subst same
      obtain ⟨_, held, -⟩ := (get_eq_some_iff _ _ _ _).mp found
      cases stored.symm.trans held
      exact absurd rfl different
    · rw [Function.update_of_ne same, stored]
  · exact stored

end ExpiringStore
