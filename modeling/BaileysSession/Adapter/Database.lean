import BaileysSession.Shared.InsertionMap

set_option autoImplicit false

namespace BaileysSession

structure SessionRecord where
  value : String
  updatedAt : Int
  version : Int
  deriving DecidableEq, Repr

structure Entry where
  key : String
  value : String
  deriving DecidableEq, Repr

/-- The rows behind an adapter, addressed by session id and key. -/
structure Database where
  rows : InsertionMap (String × String) SessionRecord

-- The version a row gets from the version it had, if there was a row.
abbrev Versioning := Option Int → Int

namespace Database

def empty : Database := ⟨.empty⟩

def get (db : Database) (sessionId key : String) : Option SessionRecord :=
  db.rows.get? (sessionId, key)

def value? (db : Database) (sessionId key : String) : Option String :=
  (db.get sessionId key).map SessionRecord.value

def getMany (db : Database) (sessionId : String) (keys : List String) :
    InsertionMap String SessionRecord :=
  keys.foldl (fun found key =>
    match db.get sessionId key with
    | some record => found.set key record
    | none => found) .empty

def set (db : Database) (versioning : Versioning) (now : Int) (sessionId : String)
    (entry : Entry) : Database :=
  let version := versioning ((db.get sessionId entry.key).map SessionRecord.version)
  ⟨db.rows.set (sessionId, entry.key) ⟨entry.value, now, version⟩⟩

def setMany (db : Database) (versioning : Versioning) (now : Int) (sessionId : String)
    (entries : List Entry) : Database :=
  entries.foldl (fun db entry => db.set versioning now sessionId entry) db

def deleteMany (db : Database) (sessionId : String) (keys : List String) : Database :=
  ⟨db.rows.filter fun row => !(decide (row.1.1 = sessionId) && decide (row.1.2 ∈ keys))⟩

def deleteSession (db : Database) (sessionId : String) : Database :=
  ⟨db.rows.filter fun row => !decide (row.1.1 = sessionId)⟩

def getAllKeys (db : Database) (sessionId : String) : List String :=
  (db.rows.keys.filter fun row => decide (row.1 = sessionId)).map Prod.snd

/-- The value a list of entries leaves for a key: the last one wins. -/
def written : List Entry → String → Option String
  | [], _ => none
  | entry :: rest, key =>
    (written rest key).or (if entry.key = key then some entry.value else none)

theorem written_eq_none_iff (entries : List Entry) (key : String) :
    written entries key = none ↔ key ∉ entries.map Entry.key := by
  induction entries with
  | nil => simp [written]
  | cons entry rest ih =>
    by_cases same : entry.key = key
    · simp [written, same]
    · have other : ¬ key = entry.key := fun h => same h.symm
      simp [written, same, other, ih]

theorem written_later {entry : Entry} {rest : List Entry} {key : String}
    (again : key ∈ rest.map Entry.key) : written (entry :: rest) key = written rest key := by
  rw [written]
  cases later : written rest key with
  | none => exact absurd again ((written_eq_none_iff rest key).mp later)
  | some value => rfl

theorem written_last {entry : Entry} {rest : List Entry}
    (last : entry.key ∉ rest.map Entry.key) :
    written (entry :: rest) entry.key = some entry.value := by
  rw [written, (written_eq_none_iff rest entry.key).mpr last]
  simp

theorem written_mem {entries : List Entry} {key value : String}
    (stored : written entries key = some value) : ⟨key, value⟩ ∈ entries := by
  induction entries with
  | nil => cases stored
  | cons entry rest ih =>
    rw [written] at stored
    cases later : written rest key with
    | some found =>
      rw [later] at stored
      cases stored
      exact List.mem_cons_of_mem entry (ih later)
    | none =>
      rw [later, Option.none_or] at stored
      split at stored
      · rename_i same
        cases stored
        exact same ▸ List.mem_cons_self
      · cases stored

theorem written_of_nodup {entries : List Entry} (unique : (entries.map Entry.key).Nodup)
    {entry : Entry} (inside : entry ∈ entries) :
    written entries entry.key = some entry.value := by
  induction entries with
  | nil => cases inside
  | cons first rest ih =>
    simp only [List.map_cons, List.nodup_cons] at unique
    rcases List.mem_cons.mp inside with rfl | later
    · exact written_last unique.1
    · rw [written_later (List.mem_map_of_mem later)]
      exact ih unique.2 later

theorem get_set (db : Database) (versioning : Versioning) (now : Int)
    (sessionId other key : String) (entry : Entry) :
    (db.set versioning now sessionId entry).get other key =
      if other = sessionId ∧ key = entry.key then
        some ⟨entry.value, now, versioning ((db.get sessionId entry.key).map SessionRecord.version)⟩
      else db.get other key := by
  simp [set, get]

theorem value?_set (db : Database) (versioning : Versioning) (now : Int)
    (sessionId other key : String) (entry : Entry) :
    (db.set versioning now sessionId entry).value? other key =
      if other = sessionId ∧ key = entry.key then some entry.value else db.value? other key := by
  rw [value?, get_set]
  split <;> rfl

theorem value?_setMany (db : Database) (versioning : Versioning) (now : Int)
    (sessionId other key : String) (entries : List Entry) :
    (db.setMany versioning now sessionId entries).value? other key =
      if other = sessionId then (written entries key).or (db.value? other key)
      else db.value? other key := by
  induction entries generalizing db with
  | nil => simp [setMany, written]
  | cons entry rest ih =>
    have first := value?_set db versioning now sessionId other key entry
    have later := ih (db.set versioning now sessionId entry)
    rw [setMany] at later
    rw [setMany, List.foldl_cons, later, first]
    by_cases session : other = sessionId
    · by_cases same : key = entry.key
      · simp [session, same, written]
      · have different : ¬ entry.key = key := fun h => same h.symm
        simp [session, same, different, written]
    · simp [session]

theorem get_setMany_of_not_mem (db : Database) (versioning : Versioning) (now : Int)
    (sessionId key : String) (entries : List Entry) (absent : key ∉ entries.map Entry.key) :
    (db.setMany versioning now sessionId entries).get sessionId key = db.get sessionId key := by
  induction entries generalizing db with
  | nil => rfl
  | cons entry rest ih =>
    simp only [List.map_cons, List.mem_cons, not_or] at absent
    have later := ih (db.set versioning now sessionId entry) absent.2
    rw [get_set, if_neg fun same => absent.1 same.2] at later
    exact later

theorem get_setMany_other (db : Database) (versioning : Versioning) (now : Int)
    {sessionId other : String} (different : other ≠ sessionId) (key : String)
    (entries : List Entry) :
    (db.setMany versioning now sessionId entries).get other key = db.get other key := by
  induction entries generalizing db with
  | nil => rfl
  | cons entry rest ih =>
    have later := ih (db.set versioning now sessionId entry)
    rw [get_set, if_neg fun same => different same.1] at later
    exact later

theorem get_setMany_of_nodup (db : Database) (versioning : Versioning) (now : Int)
    (sessionId : String) {entries : List Entry} (unique : (entries.map Entry.key).Nodup)
    {entry : Entry} (inside : entry ∈ entries) :
    (db.setMany versioning now sessionId entries).get sessionId entry.key =
      some ⟨entry.value, now,
        versioning ((db.get sessionId entry.key).map SessionRecord.version)⟩ := by
  induction entries generalizing db with
  | nil => cases inside
  | cons first rest ih =>
    rw [List.map_cons, List.nodup_cons] at unique
    rcases List.mem_cons.mp inside with rfl | later
    · have kept := get_setMany_of_not_mem (db.set versioning now sessionId entry) versioning now
        sessionId entry.key rest unique.1
      rw [get_set, if_pos ⟨rfl, rfl⟩] at kept
      exact kept
    · have different : entry.key ≠ first.key := fun same =>
        unique.1 (same ▸ List.mem_map_of_mem later)
      have stored := ih (db.set versioning now sessionId first) unique.2 later
      rw [get_set, if_neg fun same => different same.2] at stored
      exact stored

theorem updatedAt_setMany (db : Database) (versioning : Versioning) (now : Int)
    (sessionId key : String) (entries : List Entry) (present : key ∈ entries.map Entry.key) :
    ∃ record, (db.setMany versioning now sessionId entries).get sessionId key = some record ∧
      record.updatedAt = now := by
  induction entries generalizing db with
  | nil => cases present
  | cons entry rest ih =>
    by_cases again : key ∈ rest.map Entry.key
    · exact ih (db.set versioning now sessionId entry) again
    · have same : key = entry.key := by simpa [again] using present
      have later := get_setMany_of_not_mem (db.set versioning now sessionId entry) versioning now
        sessionId key rest again
      rw [get_set, if_pos ⟨rfl, same⟩] at later
      exact ⟨_, later, rfl⟩

theorem get_deleteMany (db : Database) (sessionId other key : String) (keys : List String) :
    (db.deleteMany sessionId keys).get other key =
      if other = sessionId ∧ key ∈ keys then none else db.get other key := by
  ext record
  rw [get, deleteMany, InsertionMap.get?_filter_eq_some]
  by_cases gone : other = sessionId ∧ key ∈ keys
  · simp [gone]
  · rw [← Bool.decide_and, decide_eq_false gone, if_neg gone]
    exact and_iff_left rfl

theorem value?_deleteMany (db : Database) (sessionId other key : String) (keys : List String) :
    (db.deleteMany sessionId keys).value? other key =
      if other = sessionId ∧ key ∈ keys then none else db.value? other key := by
  rw [value?, get_deleteMany]
  split <;> rfl

theorem get_deleteSession (db : Database) (sessionId other key : String) :
    (db.deleteSession sessionId).get other key =
      if other = sessionId then none else db.get other key := by
  ext record
  rw [get, deleteSession, InsertionMap.get?_filter_eq_some]
  by_cases gone : other = sessionId <;> simp [gone, get]

theorem value?_deleteSession (db : Database) (sessionId other key : String) :
    (db.deleteSession sessionId).value? other key =
      if other = sessionId then none else db.value? other key := by
  rw [value?, get_deleteSession]
  split <;> rfl

theorem mem_getAllKeys (db : Database) (sessionId key : String) :
    key ∈ db.getAllKeys sessionId ↔ (db.get sessionId key).isSome := by
  have stored : (sessionId, key) ∈ db.rows.keys ↔ (db.get sessionId key).isSome := by
    rw [get, Option.isSome_iff_ne_none, Ne, InsertionMap.get?_eq_none_iff, not_not]
  rw [← stored]
  constructor
  · intro listed
    obtain ⟨⟨session, _⟩, kept, rfl⟩ := List.mem_map.mp listed
    obtain ⟨present, same⟩ := List.mem_filter.mp kept
    rw [decide_eq_true_eq] at same
    exact same ▸ present
  · intro present
    apply List.mem_map.mpr
    exact ⟨(sessionId, key), List.mem_filter.mpr ⟨present, decide_eq_true rfl⟩, rfl⟩

theorem get?_getMany (db : Database) (sessionId key : String) (keys : List String) :
    (db.getMany sessionId keys).get? key = if key ∈ keys then db.get sessionId key else none := by
  rw [getMany, InsertionMap.get?_gathered (db.get sessionId)]
  · simp
  · intro found key
    cases db.get sessionId key <;> rfl

end Database

end BaileysSession
