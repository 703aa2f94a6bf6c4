import BaileysSession.Adapter.Database
import BaileysSession.Shared.KeyedTable

set_option autoImplicit false

namespace BaileysSession.SqliteWorker

open KeyedTable

structure WorkerRow where
  sessionId : String
  key : String
  record : SessionRecord
  deriving DecidableEq, Repr

inductive Op where
  | init
  | get (sessionId key : String)
  | getMany (sessionId : String) (keys : List String)
  | setMany (sessionId : String) (entries : List Entry)
  | deleteMany (sessionId : String) (keys : List String)
  | getAllKeys (sessionId : String)
  | deleteSession (sessionId : String)
  | listSessions
  | sessionExists (sessionId : String)
  | close
  deriving DecidableEq, Repr

inductive Result where
  | null
  | ready
  | row (row : WorkerRow)
  | rows (rows : List WorkerRow)
  | texts (texts : List String)
  | bool (value : Bool)
  deriving DecidableEq, Repr

structure File where
  table : Option Database

/-- The clock, the statement of an operation that fails, with its message, if one does, and the
order in which its statements meet the rows: none of them has an `ORDER BY`. -/
structure Attempt where
  now : Int
  fails : Option (Nat × String)
  order : Arrangement ((String × String) × SessionRecord)

def Attempt.statement (attempt : Attempt) (index : Nat) : Except String Unit :=
  match attempt.fails with
  | none => .ok ()
  | some (failing, error) => if failing = index then .error error else .ok ()

-- `db.prepare` on the table.
def prepare (connected : Bool) (file : File) : Except String Database :=
  if connected then
    match file.table with
    | some db => .ok db
    | none => .error "no such table: baileys_sessions"
  else .error "The database connection is not open"

def versioning : Versioning := fun version => version.getD 0 + 1

def met (order : Arrangement ((String × String) × SessionRecord)) (db : Database) : Database :=
  ⟨order.arrange db.rows.entries, ((order.perm _).map Prod.fst).nodup_iff.mpr db.rows.unique⟩

def toRow (row : (String × String) × SessionRecord) : WorkerRow := ⟨row.1.1, row.1.2, row.2⟩

/-- The rows of a `setMany` one by one; the statement after the last is the commit. -/
def upsertRows (attempt : Attempt) (sessionId : String) : Nat → List Entry → Database →
    Except String Database
  | index, [], db => do
    attempt.statement index
    pure db
  | index, entry :: rest, db => do
    attempt.statement index
    upsertRows attempt sessionId (index + 1) rest (db.set versioning attempt.now sessionId entry)

def run (connected : Bool) (attempt : Attempt) (file : File) : Op → Except String (Result × File)
  | .init => do
    let _ ← if connected then Except.ok () else .error "The database connection is not open"
    attempt.statement 0
    pure (.null, ⟨some (file.table.getD .empty)⟩)
  | .get sessionId key => do
    let db ← prepare connected file
    attempt.statement 0
    pure (((db.get sessionId key).map fun record => Result.row ⟨sessionId, key, record⟩).getD .null,
      file)
  | .getMany sessionId keys =>
    if keys.length = 0 then .ok (.rows [], file)
    else do
      let db ← prepare connected file
      attempt.statement 0
      pure (.rows (((met attempt.order db).rows.entries.filter fun row =>
        decide (row.1.1 = sessionId) && decide (row.1.2 ∈ keys)).map toRow), file)
  | .setMany sessionId entries => do
    let db ← prepare connected file
    let written ← upsertRows attempt sessionId 0 entries db
    pure (.null, ⟨some written⟩)
  | .deleteMany sessionId keys =>
    if keys.length = 0 then .ok (.null, file)
    else do
      let db ← prepare connected file
      attempt.statement 0
      pure (.null, ⟨some (db.deleteMany sessionId keys)⟩)
  | .getAllKeys sessionId => do
    let db ← prepare connected file
    attempt.statement 0
    pure (.texts ((met attempt.order db).getAllKeys sessionId), file)
  | .deleteSession sessionId => do
    let db ← prepare connected file
    attempt.statement 0
    pure (.null, ⟨some (db.deleteSession sessionId)⟩)
  | .listSessions => do
    let db ← prepare connected file
    attempt.statement 0
    pure (.texts ((met attempt.order db).rows.keys.map Prod.fst).dedup, file)
  | .sessionExists sessionId => do
    let db ← prepare connected file
    attempt.statement 0
    pure (.bool (decide (db.getAllKeys sessionId ≠ [])), file)
  | .close => .ok (.null, file)

/-- What the worker answers a request with, and the file it leaves: a transaction that throws is
rolled back, a statement that throws has done nothing. -/
def execute (connected : Bool) (attempt : Attempt) (op : Op) (file : File) :
    Except String Result × File :=
  match run connected attempt file op with
  | .ok (result, written) => (.ok result, written)
  | .error error => (.error error, file)

theorem execute_throws {connected : Bool} {attempt : Attempt} {op : Op} {file : File}
    {error : String} (thrown : (execute connected attempt op file).1 = .error error) :
    (execute connected attempt op file).2 = file := by
  unfold execute at thrown ⊢
  cases ran : run connected attempt file op with
  | ok written =>
    rw [ran] at thrown
    cases thrown
  | error error => rfl

theorem upsertRows_eq (attempt : Attempt) (sessionId : String) (index : Nat)
    (entries : List Entry) (db : Database) {written : Database}
    (stored : upsertRows attempt sessionId index entries db = .ok written) :
    written = db.setMany versioning attempt.now sessionId entries := by
  induction entries generalizing index db with
  | nil =>
    rw [upsertRows] at stored
    cases first : attempt.statement index with
    | ok =>
      rw [first] at stored
      cases stored
      rfl
    | error error =>
      rw [first] at stored
      cases stored
  | cons entry rest ih =>
    rw [upsertRows] at stored
    cases first : attempt.statement index with
    | ok =>
      rw [first] at stored
      exact ih (index + 1) _ stored
    | error error =>
      rw [first] at stored
      cases stored

theorem setMany_file {connected : Bool} {attempt : Attempt} {sessionId : String}
    {entries : List Entry} {file : File} {result : Result}
    (stored : (execute connected attempt (.setMany sessionId entries) file).1 = .ok result) :
    ∃ db, file.table = some db ∧ (execute connected attempt (.setMany sessionId entries) file).2 =
      ⟨some (db.setMany versioning attempt.now sessionId entries)⟩ := by
  unfold execute run prepare at stored ⊢
  cases connected with
  | false => cases stored
  | true =>
    cases table : file.table with
    | none =>
      rw [table] at stored
      cases stored
    | some db =>
      refine ⟨db, rfl, ?_⟩
      rw [table] at stored
      simp only [if_true] at stored ⊢
      cases rows : upsertRows attempt sessionId 0 entries db with
      | error error => simp [rows, bind, Except.bind] at stored
      | ok written =>
        rw [← upsertRows_eq attempt sessionId 0 entries db rows]
        simp [bind, Except.bind, rows, pure, Except.pure]

end BaileysSession.SqliteWorker
