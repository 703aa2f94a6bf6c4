import BaileysSession.Shared.InsertionMap
import Mathlib.Logic.Function.Basic

set_option autoImplicit false

-- Stores that only say which value a key has, and what entries put into them in order do.
namespace Overlay

variable {Key Value Out : Type} [DecidableEq Key]

abbrev Store (Key Value : Type) := Key → Option Value

def put (store : Store Key Value) (entry : Key × Value) : Store Key Value :=
  Function.update store entry.1 (some entry.2)

def putAll (store : Store Key Value) (entries : List (Key × Value)) : Store Key Value :=
  entries.foldl put store

theorem putAll_append (store : Store Key Value) (first second : List (Key × Value)) :
    putAll store (first ++ second) = putAll (putAll store first) second :=
  List.foldl_append

theorem putAll_unique (read : Value → Out) (entries : List (Key × Value))
    (unique : (entries.map Prod.fst).Nodup) (store : Store Key Out) (key : Key) :
    putAll store (entries.map fun entry => (entry.1, read entry.2)) key =
      ((entries.lookup key).map read).or (store key) := by
  induction entries generalizing store with
  | nil => rfl
  | cons entry rest ih =>
    simp only [List.map_cons, List.nodup_cons] at unique
    have later := ih unique.2 (put store (entry.1, read entry.2))
    rw [putAll] at later
    rw [putAll, List.map_cons, List.foldl_cons, later, InsertionMap.lookup_cons]
    by_cases same : key = entry.1
    · have absent : rest.lookup key = none := by
        cases found : rest.lookup key with
        | none => rfl
        | some value =>
          have inside := (InsertionMap.lookup_eq_some_iff rest unique.2 key value).mp found
          exact absurd (same ▸ List.mem_map_of_mem inside) unique.1
      rw [absent, if_pos same, same]
      simp [put]
    · simp [put, same]

theorem putAll_set (read : Value → Out) (map : InsertionMap Key Value) (name : Key) (value : Value)
    (store : Store Key Out) :
    putAll store ((map.set name value).entries.map fun entry => (entry.1, read entry.2)) =
      put (putAll store (map.entries.map fun entry => (entry.1, read entry.2)))
        (name, read value) := by
  funext key
  have after := putAll_unique read (map.set name value).entries (map.set name value).unique store key
  have before := putAll_unique read map.entries map.unique store key
  have stored := InsertionMap.get?_set map name key value
  rw [InsertionMap.get?] at stored
  rw [after, stored, put]
  by_cases same : key = name
  · rw [same]
    simp
  · simp only [if_neg same, Function.update_of_ne same, before, InsertionMap.get?]

end Overlay
