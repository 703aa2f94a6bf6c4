import BaileysSession.Adapter.SqlConformance

set_option autoImplicit false

namespace BaileysSession.CloudflareD1Adapter

open Sql SqlAdapter DatabaseAdapter KeyedTable

section Source

def toRecord (row : Row Column) : Record where
  sessionId := textOf (row .session_id)
  key := textOf (row .key)
  value := textOf (row .value)
  updatedAt := numberOf (row .updated_at)
  version := numberOf (row .version)

def upsert (now : Int) (sessionId : String) (entry : Entry) : Query Column :=
  ⟨.insert [.session_id, .key, .value, .updated_at, .version]
      [[.question, .question, .question, .question, .literal (.number 1)]] upsertUpdates,
    [.value (.text sessionId), .value (.text entry.key), .value (.text entry.value),
      .value (.number now)]⟩

def queries : Queries where
  toRecord := toRecord
  get := fun sessionId key =>
    ⟨.select [.equals .session_id .question, .equals .key .question] none,
      [.value (.text sessionId), .value (.text key)]⟩
  getMany := fun sessionId keys =>
    let placeholders := keys.map fun _ => .question
    ⟨.select [.equals .session_id .question, .among .key placeholders] none,
      .value (.text sessionId) :: keys.map fun key => .value (.text key)⟩
  setMany := fun now sessionId entries => entries.map (upsert now sessionId)
  deleteMany := fun sessionId keys =>
    let placeholders := keys.map fun _ => .question
    ⟨.delete [.equals .session_id .question, .among .key placeholders],
      .value (.text sessionId) :: keys.map fun key => .value (.text key)⟩
  getAllKeys := fun sessionId =>
    ⟨.select [.equals .session_id .question] none, [.value (.text sessionId)]⟩
  deleteSession := fun sessionId =>
    ⟨.delete [.equals .session_id .question], [.value (.text sessionId)]⟩
  listSessions := ⟨.selectDistinct .session_id, []⟩
  sessionExists := fun sessionId =>
    ⟨.select [.equals .session_id .question] (some 1), [.value (.text sessionId)]⟩

/-- A D1 database, whose statements bind at most 100 parameters. -/
def engine (fits : Column → Value → Bool) : Engine Column where
  primaryKey := [.session_id, .key]
  defaults := fun _ => .number 1
  fold := id
  once := false
  maxParams := some 100
  fits := fits

end Source

variable {fits : Column → Value → Bool} {now : Int} {sessionId : String}

theorem upsert_run (order : Arrangement (Row Column)) (table : Table) {entry : Entry}
    (roomy : ∀ column, fits column (newest now sessionId entry column) = true) :
    (engine fits).query order table (upsert now sessionId entry) =
      .ok ([], KeyedTable.upsert (engine fits).keyOf (merge upsertUpdates)
        (newest now sessionId entry) table) := by
  have row : [[Value.text sessionId, .text entry.key, .text entry.value, .number now, .number 1]].map
      ((engine fits).newRow [.session_id, .key, .value, .updated_at, .version]) =
        [newest now sessionId entry] := by
    refine congrArg (fun row => [row]) ?_
    funext column
    cases column <;> rfl
  have takes : (engine fits).Takes [.session_id, .key, .value, .updated_at, .version]
      [newest now sessionId entry] := by
    refine ⟨fun row inside column _ => ?_, nofun⟩
    rw [List.mem_singleton.mp inside]
    exact roomy column
  rw [← row] at takes
  have written := insert_taken takes upsertUpdates table
  rw [row] at written
  have binds : (upsert now sessionId entry).bound =
      some (.insert [.session_id, .key, .value, .updated_at, .version]
        [[.text sessionId, .text entry.key, .text entry.value, .number now, .number 1]]
        upsertUpdates) := rfl
  have accepts : Accepts (engine fits) (upsert now sessionId entry) := by
    intro most limit
    cases limit
    exact (by decide : 4 ≤ 100)
  rw [query_run accepts binds, Engine.run, written]
  rfl

theorem batch_upserts (order : Arrangement (Row Column)) (table : Table) {entries : List Entry}
    (roomy : ∀ entry ∈ entries, ∀ column,
      fits column (newest now sessionId entry column) = true) :
    (engine fits).batch order (entries.map (upsert now sessionId)) table =
      .ok ((engine fits).upsertAll upsertUpdates table (entries.map (newest now sessionId))) := by
  induction entries generalizing table with
  | nil => rfl
  | cons entry rest ih =>
    rw [List.map_cons, Engine.batch, upsert_run order table (roomy entry List.mem_cons_self)]
    exact ih _ fun other inside => roomy other (List.mem_cons_of_mem entry inside)

theorem faithful (fits : Column → Value → Bool) : Faithful queries (engine fits) where
  primaryKey := rfl
  toRecord := fun _ _ _ _ _ => rfl
  get := fun _ _ => rfl
  getMany := select_among
  setMany := fun _ _ _ _ storable order table => batch_upserts order table storable.fits
  deleteMany := delete_among
  getAllKeys := fun _ => rfl
  deleteSession := fun _ => rfl
  listSessions := rfl
  sessionExists := fun _ => rfl

end BaileysSession.CloudflareD1Adapter
