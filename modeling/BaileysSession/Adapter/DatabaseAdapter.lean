import BaileysSession.Adapter.Database
import BaileysSession.Shared.Conformance
import BaileysSession.Shared.KeyedTable
import BaileysSession.Shared.Overlay
import Mathlib.Data.List.Perm.Basic

set_option autoImplicit false

-- `IDatabaseAdapter`, as what its callers may rely on.
namespace BaileysSession.DatabaseAdapter

open Overlay

inductive Operation where
  | get (sessionId key : String)
  | getMany (sessionId : String) (keys : List String)
  | set (sessionId key value : String)
  | setMany (sessionId : String) (entries : List Entry)
  | delete (sessionId key : String)
  | deleteMany (sessionId : String) (keys : List String)
  | getAllKeys (sessionId : String)
  | deleteSession (sessionId : String)
  | listSessions
  | sessionExists (sessionId : String)
  deriving DecidableEq, Repr

-- A call, and what `Date.now()` is during it.
structure Call where
  operation : Operation
  dateNow : Int
  deriving DecidableEq, Repr

structure Record where
  sessionId : String
  key : String
  value : String
  updatedAt : Int
  version : Int
  deriving DecidableEq, Repr

inductive Answer where
  | done
  | record (found : Option Record)
  | records (found : InsertionMap String Record)
  | texts (found : List String)
  | bool (found : Bool)
  | rejected

/-- What is stored for a pair, but for the version, which every backend counts in its own way. -/
structure Stamped where
  value : String
  updatedAt : Int
  deriving DecidableEq, Repr

abbrev Rows := Store (String × String) Stamped

def Record.content (record : Record) : (String × String) × Stamped :=
  ((record.sessionId, record.key), ⟨record.value, record.updatedAt⟩)

def content (rows : Rows) (sessionId key : String) : Option ((String × String) × Stamped) :=
  (rows (sessionId, key)).map fun stored => ((sessionId, key), stored)

def stamp (now : Int) (sessionId : String) (entry : Entry) : (String × String) × Stamped :=
  ((sessionId, entry.key), ⟨entry.value, now⟩)

def without (sessionId : String) (keys : List String) (rows : Rows) : Rows :=
  fun row => if row.1 = sessionId ∧ row.2 ∈ keys then none else rows row

def asked (call : Call) (rows : Rows) : Rows :=
  match call.operation with
  | .set sessionId key value => put rows (stamp call.dateNow sessionId ⟨key, value⟩)
  | .setMany sessionId entries => putAll rows (entries.map (stamp call.dateNow sessionId))
  | .delete sessionId key => without sessionId [key] rows
  | .deleteMany sessionId keys => without sessionId keys rows
  | .deleteSession sessionId => fun row => if row.1 = sessionId then none else rows row
  | .get _ _ | .getMany _ _ | .getAllKeys _ | .listSessions | .sessionExists _ => rows

def Lists (found : List String) (listed : String → Prop) : Prop :=
  found.Nodup ∧ ∀ text, text ∈ found ↔ listed text

def right (call : Call) (rows : Rows) (answer : Answer) : Prop :=
  match call.operation with
  | .get sessionId key => ∃ found, answer = .record found ∧
      found.map Record.content = content rows sessionId key
  | .getMany sessionId keys => ∃ found, answer = .records found ∧ ∀ key,
      (found.get? key).map Record.content = if key ∈ keys then content rows sessionId key else none
  | .getAllKeys sessionId => ∃ found, answer = .texts found ∧
      Lists found fun key => rows (sessionId, key) ≠ none
  | .listSessions => ∃ found, answer = .texts found ∧
      Lists found fun sessionId => ∃ key, rows (sessionId, key) ≠ none
  | .sessionExists sessionId => ∃ found, answer = .bool found ∧
      (found = true ↔ ∃ key, rows (sessionId, key) ≠ none)
  | .set _ _ _ | .setMany _ _ | .delete _ _ | .deleteMany _ _ | .deleteSession _ => answer = .done

abbrev contract : Conformance.Interface Rows Call Answer := ⟨asked, right⟩

def nothing : Rows := fun _ => none

def Operation.Within (sessions keys : String → Prop) : Operation → Prop
  | .get sessionId key | .delete sessionId key | .set sessionId key _ =>
    sessions sessionId ∧ keys key
  | .getMany sessionId names | .deleteMany sessionId names =>
    sessions sessionId ∧ ∀ key ∈ names, keys key
  | .setMany sessionId entries => sessions sessionId ∧ ∀ entry ∈ entries, keys entry.key
  | .getAllKeys sessionId | .deleteSession sessionId | .sessionExists sessionId =>
    sessions sessionId
  | .listSessions => True

/-- Two answers that differ in versions and in the order of what they list at most. -/
def Alike : Answer → Answer → Prop
  | .done, .done => True
  | .record first, .record second => first.map Record.content = second.map Record.content
  | .records first, .records second =>
    ∀ key, (first.get? key).map Record.content = (second.get? key).map Record.content
  | .texts first, .texts second => first.Perm second
  | .bool first, .bool second => first = second
  | _, _ => False

theorem without_nil (sessionId : String) (rows : Rows) : without sessionId [] rows = rows := by
  funext row
  simp [without]

theorem Lists.perm {first second : List String} {listed : String → Prop}
    (left : Lists first listed) (right : Lists second listed) : first.Perm second :=
  (List.perm_ext_iff_of_nodup left.1 right.1).mpr fun text =>
    (left.2 text).trans (right.2 text).symm

theorem right_alike (call : Call) (rows : Rows) (first second : Answer)
    (left : right call rows first) (other : right call rows second) : Alike first second := by
  unfold right at left other
  cases operation : call.operation with
  | get sessionId key =>
    simp only [operation] at left other
    obtain ⟨_, rfl, found⟩ := left
    obtain ⟨_, rfl, there⟩ := other
    exact found.trans there.symm
  | getMany sessionId keys =>
    simp only [operation] at left other
    obtain ⟨_, rfl, found⟩ := left
    obtain ⟨_, rfl, there⟩ := other
    exact fun key => (found key).trans (there key).symm
  | getAllKeys sessionId =>
    simp only [operation] at left other
    obtain ⟨_, rfl, found⟩ := left
    obtain ⟨_, rfl, there⟩ := other
    exact found.perm there
  | listSessions =>
    simp only [operation] at left other
    obtain ⟨_, rfl, found⟩ := left
    obtain ⟨_, rfl, there⟩ := other
    exact found.perm there
  | sessionExists sessionId =>
    simp only [operation] at left other
    obtain ⟨_, rfl, found⟩ := left
    obtain ⟨_, rfl, there⟩ := other
    exact Bool.eq_iff_iff.mpr (found.trans there.symm)
  | set _ _ _ | setMany _ _ | delete _ _ | deleteMany _ _ | deleteSession _ =>
    simp only [operation] at left other
    subst left other
    trivial

section Finds

variable {Row : Type} (toRecord : Row → Record)

-- What a query for some keys of a session finds is what is stored for them.
structure Finds (sessionId : String) (asked : String → Prop) (rows : Rows) (found : List Row) :
    Prop where
  sound : ∀ row ∈ found, asked (toRecord row).key ∧
    content rows sessionId (toRecord row).key = some (toRecord row).content
  complete : ∀ key, asked key → rows (sessionId, key) ≠ none →
    key ∈ found.map fun row => (toRecord row).key
  unique : (found.map fun row => (toRecord row).key).Nodup

variable {toRecord} {sessionId : String} {asked : String → Prop} {rows : Rows} {found : List Row}

theorem content_eq_none {key : String} :
    content rows sessionId key = none ↔ rows (sessionId, key) = none := Option.map_eq_none_iff

theorem Finds.present (finds : Finds toRecord sessionId asked rows found) {row : Row}
    (inside : row ∈ found) : rows (sessionId, (toRecord row).key) ≠ none := by
  intro missing
  have stored := (finds.sound row inside).2
  rw [content_eq_none.mpr missing] at stored
  cases stored

theorem Finds.head {key : String} (finds : Finds toRecord sessionId (· = key) rows found) :
    (found.head?.map toRecord).map Record.content = content rows sessionId key := by
  cases found with
  | nil =>
    symm
    rw [List.head?_nil, Option.map_none, Option.map_none, content_eq_none]
    by_contra present
    exact List.not_mem_nil (finds.complete key rfl present)
  | cons row rest =>
    obtain ⟨named, stored⟩ := finds.sound row List.mem_cons_self
    rw [named] at stored
    exact stored.symm

theorem Finds.collected {names : List String}
    (finds : Finds toRecord sessionId (· ∈ names) rows found) (key : String) :
    ((found.foldl (fun map row => map.set (toRecord row).key (toRecord row))
        InsertionMap.empty).get? key).map Record.content =
      if key ∈ names then content rows sessionId key else none := by
  have collected := fun record => InsertionMap.get?_collected
    (fun row => (toRecord row).key) toRecord finds.unique .empty key record
  cases read : (found.foldl (fun map row =>
      map.set (toRecord row).key (toRecord row)) InsertionMap.empty).get? key with
  | some record =>
    rcases (collected record).mp read with ⟨row, inside, rfl, rfl⟩ | ⟨-, impossible⟩
    · obtain ⟨listed, stored⟩ := finds.sound row inside
      rw [if_pos listed, stored]
      rfl
    · cases impossible
  | none =>
    split
    · rename_i listed
      symm
      rw [Option.map_none, content_eq_none]
      by_contra present
      obtain ⟨row, inside, named⟩ := List.mem_map.mp (finds.complete key listed present)
      have there := (collected _).mpr (.inl ⟨row, inside, named, rfl⟩)
      rw [read] at there
      cases there
    · rfl

theorem Finds.lists (finds : Finds toRecord sessionId (fun _ => True) rows found) :
    Lists (found.map fun row => (toRecord row).key) fun key => rows (sessionId, key) ≠ none := by
  refine ⟨finds.unique, fun key => ⟨fun listed => ?_, finds.complete key trivial⟩⟩
  obtain ⟨row, inside, rfl⟩ := List.mem_map.mp listed
  exact finds.present inside

theorem Finds.some_iff (finds : Finds toRecord sessionId (fun _ => True) rows found) :
    found ≠ [] ↔ ∃ key, rows (sessionId, key) ≠ none := by
  constructor
  · intro filled
    obtain ⟨row, inside⟩ := List.exists_mem_of_ne_nil found filled
    exact ⟨_, finds.present inside⟩
  · rintro ⟨key, present⟩ rfl
    exact List.not_mem_nil (finds.complete key trivial present)

end Finds

section Represented

variable {Row : Type} (toRecord : Row → Record)

abbrev Represented (table : List Row) (rows : Rows) : Prop :=
  KeyedTable.Represents (fun row => (toRecord row).content.1)
    (fun row => (toRecord row).content.2) table rows

variable {toRecord} {table : List Row} {rows : Rows}

theorem Represented.finds (represented : Represented toRecord table rows) {sessionId : String}
    {asked : String → Prop} {found : List Row} (unique : found.Nodup)
    (chosen : ∀ row, row ∈ found ↔
      row ∈ table ∧ (toRecord row).sessionId = sessionId ∧ asked (toRecord row).key) :
    Finds toRecord sessionId asked rows found := by
  constructor
  · intro row inside
    obtain ⟨old, rfl, wanted⟩ := (chosen row).mp inside
    have stored : rows ((toRecord row).sessionId, (toRecord row).key) = _ := represented.of_mem old
    rw [content, stored]
    exact ⟨wanted, rfl⟩
  · intro key wanted present
    obtain ⟨stored, there⟩ := Option.ne_none_iff_exists'.mp present
    obtain ⟨row, old, pair, -⟩ := (represented.stored _ _).mp there
    obtain ⟨rfl, rfl⟩ := Prod.mk.inj pair
    exact List.mem_map_of_mem ((chosen row).mpr ⟨old, rfl, wanted⟩)
  · refine List.Nodup.map_on (fun first inside second there same => ?_) unique
    obtain ⟨old, session, -⟩ := (chosen first).mp inside
    obtain ⟨other, sameSession, -⟩ := (chosen second).mp there
    exact represented.unique old other (Prod.ext (session.trans sameSession.symm) same)

theorem Represented.sessions (represented : Represented toRecord table rows) {found : List String}
    (unique : found.Nodup)
    (listed : ∀ sessionId, sessionId ∈ found ↔ ∃ row ∈ table, (toRecord row).sessionId = sessionId) :
    Lists found fun sessionId => ∃ key, rows (sessionId, key) ≠ none := by
  refine ⟨unique, fun sessionId => (listed sessionId).trans ⟨?_, ?_⟩⟩
  · rintro ⟨row, inside, rfl⟩
    have stored : rows ((toRecord row).sessionId, (toRecord row).key) = _ :=
      represented.of_mem inside
    exact ⟨_, fun missing => nomatch stored.symm.trans missing⟩
  · rintro ⟨key, present⟩
    obtain ⟨stored, there⟩ := Option.ne_none_iff_exists'.mp present
    obtain ⟨row, inside, pair, -⟩ := (represented.stored _ _).mp there
    exact ⟨row, inside, (Prod.mk.inj pair).1⟩

end Represented

section OfDatabase

def rowsOf (db : Database) : Rows := fun pair =>
  (db.rows.get? pair).map fun record => ⟨record.value, record.updatedAt⟩

def recordOf (row : (String × String) × SessionRecord) : Record :=
  ⟨row.1.1, row.1.2, row.2.value, row.2.updatedAt, row.2.version⟩

theorem rowsOf_eq (db : Database) (sessionId key : String) : rowsOf db (sessionId, key) =
    (db.get sessionId key).map fun record => ⟨record.value, record.updatedAt⟩ := rfl

theorem rowsOf_empty : rowsOf .empty = nothing := rfl

theorem rowsOf_setMany (db : Database) (versioning : Versioning) (now : Int) (sessionId : String)
    (entries : List Entry) : rowsOf (db.setMany versioning now sessionId entries) =
      putAll (rowsOf db) (entries.map (stamp now sessionId)) := by
  induction entries generalizing db with
  | nil => rfl
  | cons entry rest ih =>
    have first : rowsOf (db.set versioning now sessionId entry) =
        put (rowsOf db) (stamp now sessionId entry) := by
      funext pair
      have same : pair = (stamp now sessionId entry).1 ↔ pair.1 = sessionId ∧ pair.2 = entry.key :=
        Prod.ext_iff
      rw [rowsOf_eq, Database.get_set, put, Function.update_apply]
      by_cases here : pair.1 = sessionId ∧ pair.2 = entry.key
      · rw [if_pos here, if_pos (same.mpr here)]
        rfl
      · rw [if_neg here, if_neg (mt same.mp here)]
        rfl
    rw [List.map_cons, putAll, List.foldl_cons, ← first]
    exact ih (db.set versioning now sessionId entry)

theorem rowsOf_deleteMany (db : Database) (sessionId : String) (keys : List String) :
    rowsOf (db.deleteMany sessionId keys) = without sessionId keys (rowsOf db) := by
  funext pair
  rw [rowsOf_eq, Database.get_deleteMany, without]
  split <;> rfl

theorem rowsOf_deleteSession (db : Database) (sessionId : String) :
    rowsOf (db.deleteSession sessionId) =
      fun pair => if pair.1 = sessionId then none else rowsOf db pair := by
  funext pair
  rw [rowsOf_eq, Database.get_deleteSession]
  split <;> rfl

theorem represented_rowsOf (db : Database) : Represented recordOf db.rows.entries (rowsOf db) := by
  refine ⟨db.rows.unique, fun pair stored => ?_⟩
  rw [rowsOf, Option.map_eq_some_iff]
  constructor
  · rintro ⟨record, found, rfl⟩
    exact ⟨(pair, record), (InsertionMap.get?_eq_some_iff _ _ _).mp found, rfl, rfl⟩
  · rintro ⟨⟨_, record⟩, inside, rfl, rfl⟩
    exact ⟨record, (InsertionMap.get?_eq_some_iff _ _ _).mpr inside, rfl⟩

end OfDatabase

end BaileysSession.DatabaseAdapter
