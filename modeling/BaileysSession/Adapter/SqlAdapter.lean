import BaileysSession.Adapter.DatabaseAdapter
import BaileysSession.Shared.Sql

set_option autoImplicit false

-- What the adapters for Postgres, MySQL and D1 have in common: each sends the same statements in
-- its own dialect.
namespace BaileysSession.SqlAdapter

open Sql DatabaseAdapter KeyedTable

inductive Column where
  | session_id
  | key
  | value
  | updated_at
  | version
  deriving DecidableEq, Repr

abbrev Table := List (Row Column)

def sessionRow (sessionId key value : String) (updatedAt version : Int) : Row Column
  | .session_id => .text sessionId
  | .key => .text key
  | .value => .text value
  | .updated_at => .number updatedAt
  | .version => .number version

-- A text as it is, and a number in digits.
def textOf : Value → String
  | .text value => value
  | .number value => toString value

def numberOf : Value → Int
  | .number value => value
  | .text _ => 0

/-- What an adapter sends, and its `toRecord` of what the driver makes of a row. -/
structure Queries where
  toRecord : Row Column → Record
  get : String → String → Query Column
  getMany : String → List String → Query Column
  setMany : Int → String → List Entry → List (Query Column)
  deleteMany : String → List String → Query Column
  getAllKeys : String → Query Column
  deleteSession : String → Query Column
  listSessions : Query Column
  sessionExists : String → Query Column

section Step

variable (engine : Engine Column) (order : Arrangement (Row Column)) (table : Table)

def reads (query : Query Column) (answer : List (Row Column) → Answer) : Answer × Table :=
  match engine.query order table query with
  | .ok (rows, left) => (answer rows, left)
  | .error _ => (.rejected, table)

def writes (statements : List (Query Column)) : Answer × Table :=
  match engine.batch order statements table with
  | .ok left => (.done, left)
  | .error _ => (.rejected, table)

def step (queries : Queries) (engine : Engine Column) :
    Conformance.Component Table (Arrangement (Row Column)) Call Answer := fun order call table =>
  match call.operation with
  | .get sessionId key =>
    reads engine order table (queries.get sessionId key) fun rows =>
      .record (rows.head?.map queries.toRecord)
  | .getMany sessionId keys =>
    if keys.length = 0 then (.records .empty, table)
    else
      reads engine order table (queries.getMany sessionId keys) fun rows =>
        .records (rows.foldl (fun map row =>
          map.set (queries.toRecord row).key (queries.toRecord row)) .empty)
  | .set sessionId key value =>
    writes engine order table (queries.setMany call.dateNow sessionId [⟨key, value⟩])
  | .setMany sessionId entries =>
    if entries.length = 0 then (.done, table)
    else writes engine order table (queries.setMany call.dateNow sessionId entries)
  | .delete sessionId key => writes engine order table [queries.deleteMany sessionId [key]]
  | .deleteMany sessionId keys =>
    if keys.length = 0 then (.done, table)
    else writes engine order table [queries.deleteMany sessionId keys]
  | .getAllKeys sessionId =>
    reads engine order table (queries.getAllKeys sessionId) fun rows =>
      .texts (rows.map fun row => textOf (row .key))
  | .deleteSession sessionId => writes engine order table [queries.deleteSession sessionId]
  | .listSessions =>
    reads engine order table queries.listSessions fun rows =>
      .texts (rows.map fun row => textOf (row .session_id))
  | .sessionExists sessionId =>
    reads engine order table (queries.sessionExists sessionId) fun rows =>
      .bool (decide (rows.length > 0))

end Step

section Faithful

def upsertUpdates : List (Column × Expression Column) :=
  [(.value, .excluded .value), (.updated_at, .excluded .updated_at), (.version, .own .version 1)]

def newest (now : Int) (sessionId : String) (entry : Entry) : Row Column :=
  sessionRow sessionId entry.key entry.value now 1

def ofSession (sessionId : String) : Check Column := ⟨.session_id, [.text sessionId]⟩

def ofKeys (keys : List String) : Check Column := ⟨.key, keys.map .text⟩

def Accepts (engine : Engine Column) (query : Query Column) : Prop :=
  ∀ most ∈ engine.maxParams, query.params.length ≤ most

structure Storable (engine : Engine Column) (statements : List (Query Column)) (now : Int)
    (sessionId : String) (entries : List Entry) : Prop where
  accepts : ∀ query ∈ statements, Accepts engine query
  fits : ∀ entry ∈ entries, ∀ column,
    engine.fits column (newest now sessionId entry column) = true
  once : engine.once = true → KeyedTable.Keyed engine.keyOf (entries.map (newest now sessionId))

structure Faithful (queries : Queries) (engine : Engine Column) : Prop where
  primaryKey : engine.primaryKey = [.session_id, .key]
  toRecord : ∀ sessionId key value updatedAt version,
    queries.toRecord (sessionRow sessionId key value updatedAt version) =
      ⟨sessionId, key, value, updatedAt, version⟩
  get : ∀ sessionId key,
    (queries.get sessionId key).bound = some (.select [ofSession sessionId, ofKeys [key]] none)
  getMany : ∀ sessionId keys,
    (queries.getMany sessionId keys).bound = some (.select [ofSession sessionId, ofKeys keys] none)
  setMany : ∀ now sessionId entries, entries ≠ [] →
    Storable engine (queries.setMany now sessionId entries) now sessionId entries →
      ∀ order table, engine.batch order (queries.setMany now sessionId entries) table =
        .ok (engine.upsertAll upsertUpdates table (entries.map (newest now sessionId)))
  deleteMany : ∀ sessionId keys,
    (queries.deleteMany sessionId keys).bound = some (.delete [ofSession sessionId, ofKeys keys])
  getAllKeys : ∀ sessionId,
    (queries.getAllKeys sessionId).bound = some (.select [ofSession sessionId] none)
  deleteSession : ∀ sessionId,
    (queries.deleteSession sessionId).bound = some (.delete [ofSession sessionId])
  listSessions : queries.listSessions.bound = some (.selectDistinct .session_id)
  sessionExists : ∀ sessionId,
    (queries.sessionExists sessionId).bound = some (.select [ofSession sessionId] (some 1))

variable {engine : Engine Column} {columns : List Column} {now : Int} {sessionId : String}
  {entries : List Entry}

theorem Storable.takes {statements : List (Query Column)}
    (storable : Storable engine statements now sessionId entries) (columns : List Column) :
    engine.Takes columns (entries.map (newest now sessionId)) := by
  refine ⟨fun row inside column _ => ?_, storable.once⟩
  obtain ⟨entry, listed, rfl⟩ := List.mem_map.mp inside
  exact storable.fits entry listed column

-- The columns of an insert that leaves the version to its default, and what it sends for them.
def insertColumns : List Column := [.session_id, .key, .value, .updated_at]

def tuple (now : Int) (sessionId : String) (entry : Entry) : List Value :=
  [.text sessionId, .text entry.key, .text entry.value, .number now]

theorem rows_newest (engine : Engine Column) (initial : engine.defaults .version = .number 1)
    (now : Int) (sessionId : String) (entries : List Entry) :
    (entries.map (tuple now sessionId)).map (engine.newRow insertColumns) =
      entries.map (newest now sessionId) := by
  rw [List.map_map]
  refine List.map_congr_left fun entry _ => ?_
  funext column
  cases column with
  | version => exact initial
  | _ => rfl

theorem query_run {query : Query Column} {bound : Bound Column} (accepts : Accepts engine query)
    (binds : query.bound = some bound) (order : Arrangement (Row Column)) (table : Table) :
    engine.query order table query = engine.run order table bound := by
  have within : (engine.maxParams.any fun most => decide (most < query.params.length)) = false := by
    unfold Accepts at accepts
    cases limit : engine.maxParams with
    | none => rfl
    | some most =>
      rw [limit] at accepts
      exact decide_eq_false (Nat.not_lt.mpr (accepts most rfl))
  rw [Engine.query, within, binds]
  rfl

end Faithful

section Questions

theorem among_bound (sessionId : String) (keys : List String) :
    bindTests (.value (.text sessionId) :: keys.map fun key => .value (.text key))
        [Test.equals Column.session_id .question, .among .key (keys.map fun _ => .question)]
        (.value (.text sessionId) :: keys.map fun key => .value (.text key)) =
      some ([ofSession sessionId, ofKeys keys], []) := by
  have listed := scalars_questions (.value (.text sessionId) :: keys.map fun key =>
    Param.value (.text key)) [] (keys.map .text)
  rw [List.map_map, List.map_map, List.append_nil] at listed
  simp only [bindTests, Test.bind, Term.scalar, Term.read, Option.map_some, Option.bind_some,
    ofSession, ofKeys]
  exact congrArg (fun found => Option.map _ (Option.bind (Option.map _ found) _)) listed

theorem among_highest (keys : List String) :
    highest ([Test.equals Column.session_id .question,
      .among .key (keys.map fun _ => .question)].flatMap Test.terms) = 0 := by
  refine highest_questions fun term inside => ?_
  simp only [List.flatMap_cons, List.flatMap_nil, Test.terms, List.append_nil, List.mem_append,
    List.mem_singleton, List.mem_map] at inside
  rcases inside with rfl | ⟨_, -, rfl⟩ <;> rfl

theorem select_among (sessionId : String) (keys : List String) :
    Query.bound ⟨.select [.equals .session_id .question, .among .key (keys.map fun _ => .question)] none,
        .value (.text sessionId) :: keys.map fun key => .value (.text key)⟩ =
      some (.select [ofSession sessionId, ofKeys keys] none) := by
  simp only [Query.bound, Statement.bind, among_bound, Option.map_some, Option.bind_some,
    Statement.terms, among_highest]
  rfl

theorem delete_among (sessionId : String) (keys : List String) :
    Query.bound ⟨.delete [.equals .session_id .question, .among .key (keys.map fun _ => .question)],
        .value (.text sessionId) :: keys.map fun key => .value (.text key)⟩ =
      some (.delete [ofSession sessionId, ofKeys keys]) := by
  simp only [Query.bound, Statement.bind, among_bound, Option.map_some, Option.bind_some,
    Statement.terms, among_highest]
  rfl

end Questions

end BaileysSession.SqlAdapter
