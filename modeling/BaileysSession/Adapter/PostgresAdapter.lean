import BaileysSession.Adapter.SqlConformance
import BaileysSession.Factory.KeyNames
import BaileysSession.Factory.KeysCollect
import BaileysSession.Shared.JsonRoundTrip

set_option autoImplicit false

namespace BaileysSession.PostgresAdapter

open Sql SqlAdapter DatabaseAdapter KeyedTable

section Source

-- `pg` hands out a BIGINT in digits.
def fetched (row : Row Column) : Row Column
  | .updated_at => .text (String.ofList (Json.writeNumber (numberOf (row .updated_at))))
  | column => row column

-- The text of anything but an integer is not looked into.
def Number : Value → Int
  | .number value => value
  | .text text =>
    match Json.readNumber text.toList with
    | some (.number value, []) => value
    | _ => 0

def toRecord (row : Row Column) : Record where
  sessionId := textOf (row .session_id)
  key := textOf (row .key)
  value := textOf (row .value)
  updatedAt := Number (row .updated_at)
  version := numberOf (row .version)

def setMany (now : Int) (sessionId : String) (entries : List Entry) : Query Column :=
  let values := entries.mapIdx fun i _ =>
    let base := i * 4
    [.numbered (base + 1), .numbered (base + 2), .numbered (base + 3), .numbered (base + 4)]
  let params := entries.flatMap fun entry =>
    [.value (.text sessionId), .value (.text entry.key), .value (.text entry.value),
      .value (.number now)]
  ⟨.insert [.session_id, .key, .value, .updated_at] values upsertUpdates, params⟩

def queries : Queries where
  toRecord := fun row => toRecord (fetched row)
  get := fun sessionId key =>
    ⟨.select [.equals .session_id (.numbered 1), .equals .key (.numbered 2)] none,
      [.value (.text sessionId), .value (.text key)]⟩
  getMany := fun sessionId keys =>
    ⟨.select [.equals .session_id (.numbered 1), .any .key (.numbered 2)] none,
      [.value (.text sessionId), .array (keys.map .text)]⟩
  setMany := fun now sessionId entries => [setMany now sessionId entries]
  deleteMany := fun sessionId keys =>
    ⟨.delete [.equals .session_id (.numbered 1), .any .key (.numbered 2)],
      [.value (.text sessionId), .array (keys.map .text)]⟩
  getAllKeys := fun sessionId =>
    ⟨.select [.equals .session_id (.numbered 1)] none, [.value (.text sessionId)]⟩
  deleteSession := fun sessionId =>
    ⟨.delete [.equals .session_id (.numbered 1)], [.value (.text sessionId)]⟩
  listSessions := ⟨.selectDistinct .session_id, []⟩
  sessionExists := fun sessionId =>
    ⟨.select [.equals .session_id (.numbered 1)] (some 1), [.value (.text sessionId)]⟩

/-- A server with the table of `init`; a message binds at most 65535 parameters. -/
def engine (fits : Column → Value → Bool) : Engine Column where
  primaryKey := [.session_id, .key]
  defaults := fun _ => .number 1
  fold := id
  once := true
  maxParams := some 65535
  fits := fits

end Source

theorem number_fetched (value : Int) :
    Number (.text (String.ofList (Json.writeNumber value))) = value := by
  have read := @Json.readNumber_writeNumber value [] fun _ inside => nomatch inside
  rw [List.append_nil] at read
  simp only [Number, String.toList_ofList, read]

theorem params_length (now : Int) (sessionId : String) (entries : List Entry) :
    ((entries.map (tuple now sessionId)).flatMap fun tuple => tuple.map Param.value).length =
      entries.length * 4 := by
  induction entries with
  | nil => rfl
  | cons entry rest ih =>
    rw [List.map_cons, List.flatMap_cons, List.length_append, ih, List.length_cons, Nat.succ_mul,
      Nat.add_comm]
    rfl

theorem setMany_bound (now : Int) (sessionId : String) (entries : List Entry) :
    (setMany now sessionId entries).bound = some (.insert insertColumns
      (entries.map (tuple now sessionId)) upsertUpdates) := by
  have numbered : (entries.mapIdx fun i _ => [Term.numbered (i * 4 + 1), .numbered (i * 4 + 2),
      .numbered (i * 4 + 3), .numbered (i * 4 + 4)]) =
      (entries.map (tuple now sessionId)).mapIdx fun index _ => numberedFrom ((index + 0) * 4) 4 := by
    refine List.ext_getElem? fun index => ?_
    rw [List.getElem?_mapIdx, List.getElem?_mapIdx, List.getElem?_map, Option.map_map]
    rfl
  have given : (entries.flatMap fun entry => [Param.value (.text sessionId), .value (.text entry.key),
      .value (.text entry.value), .value (.number now)]) =
      (entries.map (tuple now sessionId)).flatMap fun tuple => tuple.map .value := by
    rw [List.flatMap_map]
    rfl
  have wide : ∀ values ∈ entries.map (tuple now sessionId), values.length = 4 := by
    intro values inside
    obtain ⟨entry, -, rfl⟩ := List.mem_map.mp inside
    rfl
  have binds := bindTuples_numbered 4 [] ((entries.map (tuple now sessionId)).flatMap fun tuple =>
    tuple.map .value) 0 rfl _ wide
  have count := params_length now sessionId entries
  rw [List.nil_append] at binds
  unfold Query.bound setMany
  simp only [numbered, given, Statement.bind, binds, Option.map_some, Option.bind_some,
    Statement.terms, highest_tuples, count]
  by_cases none : entries = []
  · simp [none, insertColumns]
  · simp [none, insertColumns]

theorem faithful (fits : Column → Value → Bool) : Faithful queries (engine fits) where
  primaryKey := rfl
  toRecord := fun sessionId key value updatedAt version => by
    simp only [queries, toRecord, fetched, sessionRow, textOf, numberOf, number_fetched]
  get := fun _ _ => rfl
  getMany := fun _ _ => rfl
  setMany := by
    intro now sessionId entries _ storable order table
    have takes := storable.takes insertColumns
    rw [← rows_newest (engine fits) rfl] at takes ⊢
    rw [queries, Engine.batch, query_run (storable.accepts _ List.mem_cons_self)
      (setMany_bound now sessionId entries), Engine.run, insert_taken takes]
    rfl
  deleteMany := fun _ _ => rfl
  getAllKeys := fun _ => rfl
  deleteSession := fun _ => rfl
  listSessions := rfl
  sessionExists := fun _ => rfl

section BulkWrites

variable {fits : Column → Value → Bool} {now : Int} {sessionId : String} {entries : List Entry}

theorem keyed_newest : KeyedTable.Keyed (engine fits).keyOf (entries.map (newest now sessionId)) ↔
    (entries.map Entry.key).Nodup := by
  have names : (entries.map (newest now sessionId)).map (engine fits).keyOf =
      (entries.map Entry.key).map fun key => [.text sessionId, .text key] := by
    rw [List.map_map, List.map_map]
    rfl
  rw [KeyedTable.Keyed, names]
  refine List.nodup_map_iff fun first second same => ?_
  exact Value.text.inj (List.cons.inj (List.cons.inj same).2).1

def Fits (fits : Column → Value → Bool) (now : Int) (sessionId : String) (entry : Entry) : Prop :=
  ∀ column ∈ insertColumns, fits column (newest now sessionId entry column) = true

theorem takes_iff : (engine fits).Takes insertColumns
    (entries.map (newest now sessionId)) ↔
      (entries.map Entry.key).Nodup ∧ ∀ entry ∈ entries, Fits fits now sessionId entry := by
  constructor
  · intro takes
    exact ⟨keyed_newest.mp (takes.once rfl), fun entry inside =>
      takes.fits _ (List.mem_map_of_mem inside)⟩
  · rintro ⟨unique, fit⟩
    refine ⟨fun row inside => ?_, fun _ => keyed_newest.mpr unique⟩
    obtain ⟨entry, listed, rfl⟩ := List.mem_map.mp inside
    exact fit entry listed

theorem setMany_query (order : Arrangement (Row Column)) (table : Table) :
    (engine fits).query order table (setMany now sessionId entries) =
      if 65535 < entries.length * 4 then .error .tooMany
      else ((engine fits).insert insertColumns (entries.map (tuple now sessionId)) upsertUpdates
        table).map fun written => ([], written) := by
  have count : (setMany now sessionId entries).params.length = entries.length * 4 := by
    rw [← params_length now sessionId entries, List.flatMap_map]
    rfl
  rw [Engine.query, setMany_bound, count]
  by_cases exceeds : 65535 < entries.length * 4
  · rw [if_pos exceeds, if_pos (by simpa [engine] using exceeds)]
  · rw [if_neg exceeds, if_neg (by simpa [engine] using exceeds)]
    rfl

/-- One statement carries the whole batch: it is taken exactly when no key comes twice, it has at
most 16383 rows and the columns hold them, and otherwise nothing of it is. -/
theorem setMany_taken_iff (fits : Column → Value → Bool) (order : Arrangement (Row Column))
    (now : Int) (sessionId : String) (entries : List Entry) (table : Table) :
    ((step queries (engine fits) order ⟨.setMany sessionId entries, now⟩ table).1 = .done ↔
      (entries.map Entry.key).Nodup ∧ entries.length ≤ 16383 ∧
        ∀ entry ∈ entries, Fits fits now sessionId entry) ∧
    ((step queries (engine fits) order ⟨.setMany sessionId entries, now⟩ table).1 ≠ .done →
      (step queries (engine fits) order ⟨.setMany sessionId entries, now⟩ table).2 = table) := by
  by_cases none : entries = []
  · subst none
    exact ⟨⟨fun _ => ⟨List.nodup_nil, Nat.zero_le _, fun _ inside => absurd inside List.not_mem_nil⟩,
      fun _ => rfl⟩, fun _ => rfl⟩
  simp only [step, if_neg (length_ne_zero none), writes, queries, Engine.batch, setMany_query]
  by_cases exceeds : 65535 < entries.length * 4
  · rw [if_pos exceeds]
    refine ⟨⟨fun taken => ?_, fun taken => absurd taken.2.1 (by omega)⟩, fun _ => rfl⟩
    cases taken
  rw [if_neg exceeds]
  by_cases takes : (engine fits).Takes insertColumns
      (entries.map (newest now sessionId))
  · have accepted := takes_iff.mp takes
    rw [← rows_newest (engine fits) rfl] at takes
    rw [insert_taken takes]
    exact ⟨⟨fun _ => ⟨accepted.1, by omega, accepted.2⟩, fun _ => rfl⟩, fun refused =>
      absurd rfl refused⟩
  · have refused := mt takes_iff.mpr takes
    rw [← rows_newest (engine fits) rfl] at takes
    obtain ⟨failure, failed⟩ := insert_refused takes upsertUpdates table
    rw [failed]
    refine ⟨⟨fun taken => ?_, fun taken => absurd ⟨taken.1, taken.2.2⟩ refused⟩, fun _ => rfl⟩
    cases taken

end BulkWrites

end BaileysSession.PostgresAdapter
