import BaileysSession.Adapter.Database
import BaileysSession.Types.Baileys

set_option autoImplicit false

namespace BaileysSession

def credsKey : String := "creds"

def cacheKeyName (category : Category) (id : String) : String := category.name ++ "-" ++ id

namespace KeysSet

/-- What one `keys.set` call was handed, and the text `encode` gave for each value of it. -/
structure Call (Value : Type) where
  data : SignalDataSet Value
  -- JavaScript's truth value; null is one of the values.
  truthy : Value → Bool
  encode : Category → String → Value → String

structure Changes where
  entries : List Entry
  deletions : List String
  deriving DecidableEq, Repr

variable {Value : Type}

def collectId (call : Call Value) (category : Category) (changes : Changes)
    (item : String × Value) : Changes :=
  let key := cacheKeyName category item.1
  if call.truthy item.2 then
    { changes with entries := changes.entries ++ [⟨key, call.encode category item.1 item.2⟩] }
  else { changes with deletions := changes.deletions ++ [key] }

def collectBucket (call : Call Value) (changes : Changes)
    (bucket : Category × Option (InsertionMap String Value)) : Changes :=
  match bucket.2 with
  | none => changes
  | some ids => ids.entries.foldl (collectId call bucket.1) changes

def collect (call : Call Value) : Changes :=
  call.data.entries.foldl (collectBucket call) ⟨[], []⟩

/-- What a call does under the lock, one critical section at a time. -/
inductive Section where
  | upsert (entries : List Entry)
  | remove (deletions : List String)
  deriving DecidableEq, Repr

def Section.keys : Section → List String
  | .upsert entries => entries.map Entry.key
  | .remove deletions => deletions

def Changes.sections (changes : Changes) : List Section :=
  (if changes.entries.length > 0 then [.upsert changes.entries] else []) ++
    if changes.deletions.length > 0 then [.remove changes.deletions] else []

def Section.write (versioning : Versioning) (now : Int) (sessionId : String) (db : Database) :
    Section → Database
  | .upsert entries => db.setMany versioning now sessionId entries
  | .remove deletions => db.deleteMany sessionId deletions

def Section.leaves : Section → String → Option String
  | .upsert entries, key => Database.written entries key
  | .remove _, _ => none

theorem value?_write (versioning : Versioning) (now : Int) (sessionId other key : String)
    (db : Database) (change : Section) :
    (change.write versioning now sessionId db).value? other key =
      if other = sessionId ∧ key ∈ change.keys then change.leaves key
      else db.value? other key := by
  cases change with
  | upsert entries =>
    rw [Section.write, Database.value?_setMany]
    by_cases session : other = sessionId
    · by_cases present : key ∈ entries.map Entry.key
      · cases stored : Database.written entries key with
        | none => exact absurd present ((Database.written_eq_none_iff entries key).mp stored)
        | some value => simp [session, Section.keys, Section.leaves, present, stored]
      · have unwritten := (Database.written_eq_none_iff entries key).mpr present
        simp [session, Section.keys, present, unwritten]
    · simp [session]
  | remove deletions => exact Database.value?_deleteMany db sessionId other key deletions

end KeysSet

end BaileysSession
