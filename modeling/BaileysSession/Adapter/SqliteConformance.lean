import BaileysSession.Adapter.DatabaseAdapter
import BaileysSession.Adapter.RecordVersions

set_option autoImplicit false

namespace BaileysSession.SqliteWorker

open DatabaseAdapter KeyedTable Overlay

section Source

def toRecord (row : WorkerRow) : Record where
  sessionId := row.sessionId
  key := row.key
  value := row.record.value
  updatedAt := row.record.updatedAt
  version := row.record.version

def posted : Operation → Option Op
  | .get sessionId key => some (.get sessionId key)
  | .getMany sessionId keys => some (.getMany sessionId keys)
  | .set sessionId key value => some (.setMany sessionId [⟨key, value⟩])
  | .setMany sessionId entries =>
    if entries.length = 0 then none else some (.setMany sessionId entries)
  | .delete sessionId key => some (.deleteMany sessionId [key])
  | .deleteMany sessionId keys => if keys.length = 0 then none else some (.deleteMany sessionId keys)
  | .getAllKeys sessionId => some (.getAllKeys sessionId)
  | .deleteSession sessionId => some (.deleteSession sessionId)
  | .listSessions => some .listSessions
  | .sessionExists sessionId => some (.sessionExists sessionId)

def received : Operation → Result → Answer
  | .get _ _, .row row => .record (some (toRecord row))
  | .get _ _, _ => .record none
  | .getMany _ _, .rows rows =>
    .records (rows.foldl (fun map row => map.set row.key (toRecord row)) .empty)
  | .getAllKeys _, .texts texts | .listSessions, .texts texts => .texts texts
  | .sessionExists _, .bool value => .bool value
  | _, _ => .done

-- better-sqlite3 comes with SQLite's own limit of variables in a statement.
def MAX_VARIABLES : Nat := 32766

def Op.variables : Op → Nat
  | .getMany _ keys | .deleteMany _ keys => keys.length + 1
  | _ => 0

def attempt (now : Int) (order : Arrangement ((String × String) × SessionRecord)) (op : Op) :
    Attempt where
  now := now
  fails := if op.variables ≤ MAX_VARIABLES then none else some (0, "too many SQL variables")
  order := order

def step : Conformance.Component Database (Arrangement ((String × String) × SessionRecord)) Call
    Answer := fun order call db =>
  match posted call.operation with
  | none => (.done, db)
  | some op =>
    match execute true (attempt call.dateNow order op) op ⟨some db⟩ with
    | (.ok result, file) => (received call.operation result, file.table.getD db)
    | (.error _, _) => (.rejected, db)

end Source

-- One statement has a variable for each key.
def Accepted (call : Call) : Prop :=
  match call.operation with
  | .getMany _ keys | .deleteMany _ keys => keys.length < MAX_VARIABLES
  | _ => True

variable {db : Database} {now : Int}
  {order : Arrangement ((String × String) × SessionRecord)}

theorem rowsOf_met (order : Arrangement ((String × String) × SessionRecord)) (db : Database) :
    rowsOf (met order db) = rowsOf db := by
  funext pair
  refine congrArg (Option.map _) (Option.ext fun record => ?_)
  rw [InsertionMap.get?_eq_some_iff, InsertionMap.get?_eq_some_iff]
  exact (order.perm db.rows.entries).mem_iff

theorem execute_run {op : Op} {result : Result} {written : File}
    (few : op.variables ≤ MAX_VARIABLES)
    (ran : run true ⟨now, none, order⟩ ⟨some db⟩ op = .ok (result, written)) :
    execute true (attempt now order op) op ⟨some db⟩ = (.ok result, written) := by
  rw [execute, attempt, if_pos few, ran]

theorem run_setMany (sessionId : String) (entries : List Entry) :
    run true ⟨now, none, order⟩ ⟨some db⟩ (.setMany sessionId entries) =
      .ok (.null, ⟨some (db.setMany versioning now sessionId entries)⟩) := by
  obtain ⟨written, stored⟩ := RecordVersions.upsertRows_ok now order sessionId 0 entries db
  have same := upsertRows_eq ⟨now, none, order⟩ sessionId 0 entries db stored
  subst same
  simp [run, prepare, stored, bind, Except.bind, pure, Except.pure]

theorem finds_rows (db : Database) (sessionId : String) (asked : String → Prop)
    [DecidablePred asked] : Finds recordOf sessionId asked (rowsOf db)
      (db.rows.entries.filter fun row => decide (row.1.1 = sessionId) && decide (asked row.1.2)) := by
  have unique : db.rows.entries.Nodup := List.Nodup.of_map _ db.rows.unique
  refine (represented_rowsOf db).finds (unique.filter _) fun row => ?_
  rw [List.mem_filter, Bool.and_eq_true, decide_eq_true_eq, decide_eq_true_eq]
  rfl

theorem getAllKeys_eq (db : Database) (sessionId : String) : db.getAllKeys sessionId =
    (db.rows.entries.filter fun row => decide (row.1.1 = sessionId) && decide True).map fun row =>
      (recordOf row).key := by
  rw [Database.getAllKeys, InsertionMap.keys, List.filter_map, List.map_map]
  simp only [decide_true, Bool.and_true]
  rfl

theorem step_posted {operation : Operation} {op : Op} {result : Result} {written : File}
    (asks : posted operation = some op)
    (few : op.variables ≤ MAX_VARIABLES)
    (ran : run true ⟨now, none, order⟩ ⟨some db⟩ op = .ok (result, written)) :
    step order ⟨operation, now⟩ db = (received operation result, written.table.getD db) := by
  rw [step, asks]
  dsimp only
  rw [execute_run few ran]

theorem step_idle {operation : Operation} (idle : posted operation = none) :
    step order ⟨operation, now⟩ db = (.done, db) := by
  rw [step, idle]

theorem step_right {call : Call} (accepted : Accepted call) :
    right call (rowsOf db) (step order call db).1 ∧
      rowsOf (step order call db).2 = asked call (rowsOf db) := by
  obtain ⟨operation, now⟩ := call
  unfold Accepted at accepted
  cases operation with
  | get sessionId key =>
    rw [step_posted rfl (Nat.zero_le _) rfl]
    refine ⟨⟨(db.get sessionId key).map fun record =>
      toRecord ⟨sessionId, key, record⟩, ?_, ?_⟩, rfl⟩
    · cases db.get sessionId key <;> rfl
    · rw [content, rowsOf_eq]
      cases db.get sessionId key <;> rfl
  | getMany sessionId keys =>
    have few : (Op.getMany sessionId keys).variables ≤ MAX_VARIABLES := Nat.succ_le_of_lt accepted
    by_cases empty : keys.length = 0
    · have ran : run true ⟨now, none, order⟩ ⟨some db⟩ (.getMany sessionId keys) = _ :=
        if_pos empty
      rw [step_posted rfl few ran]
      refine ⟨⟨_, rfl, fun key => ?_⟩, rfl⟩
      simp [List.length_eq_zero_iff.mp empty]
    · have ran : run true ⟨now, none, order⟩ ⟨some db⟩ (.getMany sessionId keys) = _ :=
        if_neg empty
      rw [step_posted rfl few ran]
      refine ⟨⟨_, rfl, fun key => ?_⟩, rfl⟩
      rw [List.foldl_map, ← rowsOf_met order db]
      exact (finds_rows (met order db) sessionId (· ∈ keys)).collected key
  | set sessionId key value =>
    rw [step_posted rfl (Nat.zero_le _) (run_setMany sessionId _)]
    exact ⟨rfl, rowsOf_setMany _ _ _ _ _⟩
  | setMany sessionId entries =>
    by_cases empty : entries.length = 0
    · have idle : posted (.setMany sessionId entries) = none := if_pos empty
      rw [step_idle idle]
      refine ⟨rfl, ?_⟩
      rw [asked, List.length_eq_zero_iff.mp empty]
      rfl
    · have asks : posted (.setMany sessionId entries) = some _ := if_neg empty
      rw [step_posted asks (Nat.zero_le _) (run_setMany sessionId entries)]
      exact ⟨rfl, rowsOf_setMany _ _ _ _ _⟩
  | delete sessionId key =>
    have few : (Op.deleteMany sessionId [key]).variables ≤ MAX_VARIABLES :=
      show 2 ≤ MAX_VARIABLES by decide
    rw [step_posted rfl few rfl]
    exact ⟨rfl, rowsOf_deleteMany _ _ _⟩
  | deleteMany sessionId keys =>
    by_cases empty : keys.length = 0
    · have idle : posted (.deleteMany sessionId keys) = none := if_pos empty
      rw [step_idle idle]
      refine ⟨rfl, ?_⟩
      rw [asked, List.length_eq_zero_iff.mp empty]
      exact (without_nil sessionId _).symm
    · have asks : posted (.deleteMany sessionId keys) = some _ := if_neg empty
      have ran : run true ⟨now, none, order⟩ ⟨some db⟩ (.deleteMany sessionId keys) = _ :=
        if_neg empty
      rw [step_posted asks (Nat.succ_le_of_lt accepted) ran]
      exact ⟨rfl, rowsOf_deleteMany _ _ _⟩
  | getAllKeys sessionId =>
    rw [step_posted rfl (Nat.zero_le _) rfl]
    refine ⟨⟨_, rfl, ?_⟩, rfl⟩
    rw [getAllKeys_eq, ← rowsOf_met order db]
    exact (finds_rows (met order db) sessionId fun _ => True).lists
  | deleteSession sessionId =>
    rw [step_posted rfl (Nat.zero_le _) rfl]
    exact ⟨rfl, rowsOf_deleteSession _ _⟩
  | listSessions =>
    rw [step_posted rfl (Nat.zero_le _) rfl]
    refine ⟨⟨_, rfl, ?_⟩, rfl⟩
    rw [← rowsOf_met order db]
    refine (represented_rowsOf (met order db)).sessions (List.nodup_dedup _) fun sessionId => ?_
    rw [List.mem_dedup, InsertionMap.keys, List.map_map, List.mem_map]
    rfl
  | sessionExists sessionId =>
    rw [step_posted rfl (Nat.zero_le _) rfl]
    refine ⟨⟨_, rfl, ?_⟩, rfl⟩
    rw [← (finds_rows db sessionId fun _ => True).some_iff, decide_eq_true_eq,
      getAllKeys_eq, Ne, List.map_eq_nil_iff]

theorem sqlite_conforms :
    Conformance.Conforms contract step (fun db rows => rowsOf db = rows) fun _ _ => Accepted :=
  ⟨fun _ _ _ _ same accepted => same ▸ (step_right accepted).1,
    fun _ _ _ _ same accepted => same ▸ (step_right accepted).2⟩

end BaileysSession.SqliteWorker
