import BaileysSession.Adapter.SqlConformance

set_option autoImplicit false

namespace BaileysSession.MysqlAdapter

open Sql SqlAdapter DatabaseAdapter KeyedTable

section Source

def toRecord (row : Row Column) : Record where
  sessionId := textOf (row .session_id)
  key := textOf (row .key)
  value := textOf (row .value)
  updatedAt := numberOf (row .updated_at)
  version := numberOf (row .version)

def setMany (now : Int) (sessionId : String) (entries : List Entry) : Query Column :=
  let values := entries.map fun _ => [.question, .question, .question, .question]
  let params := entries.flatMap fun entry =>
    [.value (.text sessionId), .value (.text entry.key), .value (.text entry.value),
      .value (.number now)]
  ⟨.insert [.session_id, .key, .value, .updated_at] values upsertUpdates, params⟩

def queries : Queries where
  toRecord := toRecord
  get := fun sessionId key =>
    ⟨.select [.equals .session_id .question, .equals .key .question] none,
      [.value (.text sessionId), .value (.text key)]⟩
  getMany := fun sessionId keys =>
    let placeholders := keys.map fun _ => .question
    ⟨.select [.equals .session_id .question, .among .key placeholders] none,
      .value (.text sessionId) :: keys.map fun key => .value (.text key)⟩
  setMany := fun now sessionId entries => [setMany now sessionId entries]
  deleteMany := fun sessionId keys =>
    let placeholders := keys.map fun _ => .question
    ⟨.delete [.equals .session_id .question, .among .key placeholders],
      .value (.text sessionId) :: keys.map fun key => .value (.text key)⟩
  getAllKeys := fun sessionId =>
    ⟨.select [.equals .session_id .question] none, [.value (.text sessionId)]⟩
  deleteSession := fun sessionId =>
    ⟨.delete [.equals .session_id .question], [.value (.text sessionId)]⟩
  listSessions := ⟨.selectDistinct .session_id, []⟩
  sessionExists := fun sessionId =>
    ⟨.select [.equals .session_id .question] (some 1), [.value (.text sessionId)]⟩

/-- A server with the table of `init`, whose columns compare as their collation has it; mysql2 puts
the values into the text of the statement. -/
def engine (fold : Value → Value) (fits : Column → Value → Bool) : Engine Column where
  primaryKey := [.session_id, .key]
  defaults := fun _ => .number 1
  fold := fold
  once := false
  maxParams := none
  fits := fits

end Source

theorem setMany_bound (now : Int) (sessionId : String) (entries : List Entry) :
    (setMany now sessionId entries).bound = some (.insert insertColumns
      (entries.map (tuple now sessionId)) upsertUpdates) := by
  have questions : (entries.map fun _ => [Term.question, .question, .question, .question]) =
      (entries.map (tuple now sessionId)).map fun tuple => tuple.map fun _ => .question := by
    rw [List.map_map]
    rfl
  have given : (entries.flatMap fun entry => [Param.value (.text sessionId), .value (.text entry.key),
      .value (.text entry.value), .value (.number now)]) =
      (entries.map (tuple now sessionId)).flatMap fun tuple => tuple.map .value := by
    rw [List.flatMap_map]
    rfl
  have binds := bindTuples_questions ((entries.map (tuple now sessionId)).flatMap fun tuple =>
    tuple.map .value) [] (entries.map (tuple now sessionId))
  rw [List.append_nil] at binds
  have unnumbered : highest ((entries.map (tuple now sessionId)).map fun tuple =>
      tuple.map fun _ => Term.question).flatten = 0 := by
    refine highest_questions fun term inside => ?_
    obtain ⟨_, listed, there⟩ := List.mem_flatten.mp inside
    obtain ⟨_, -, rfl⟩ := List.mem_map.mp listed
    obtain ⟨_, -, rfl⟩ := List.mem_map.mp there
    rfl
  unfold Query.bound setMany
  simp only [questions, given, Statement.bind, binds, Option.map_some, Option.bind_some,
    Statement.terms, unnumbered]
  rfl

theorem faithful (fold : Value → Value) (fits : Column → Value → Bool) :
    Faithful queries (engine fold fits) where
  primaryKey := rfl
  toRecord := fun _ _ _ _ _ => rfl
  get := fun _ _ => rfl
  getMany := select_among
  setMany := by
    intro now sessionId entries _ storable order table
    have takes := storable.takes insertColumns
    rw [← rows_newest (engine fold fits) rfl] at takes ⊢
    rw [queries, Engine.batch, query_run (storable.accepts _ List.mem_cons_self)
      (setMany_bound now sessionId entries), Engine.run, insert_taken takes]
    rfl
  deleteMany := delete_among
  getAllKeys := fun _ => rfl
  deleteSession := fun _ => rfl
  listSessions := rfl
  sessionExists := fun _ => rfl

section Collations

variable {fold : Value → Value} {fits : Column → Value → Bool}

-- Whether every run over the names is answered as the contract has it.
def Conforms (fold : Value → Value) (fits : Column → Value → Bool) (sessions keys : String → Prop) :
    Prop :=
  ∀ turns : List (Arrangement (Row Column) × Call),
    (∀ turn ∈ turns, turn.2.operation.Within sessions keys ∧
      Accepted queries (engine fold fits) turn.2) →
    contract.Answers nothing (turns.map Prod.snd)
      (Conformance.answers (step queries (engine fold fits)) [] turns)

theorem pairs_told_apart {sessions keys : String → Prop} (conforms : Conforms fold fits sessions keys)
    (roomy : ∀ sessionId key, sessions sessionId → keys key → ∀ column,
      fits column (sessionRow sessionId key "" 0 1 column) = true)
    {sessionId key other name : String} (session : sessions sessionId) (named : keys key)
    (otherSession : sessions other) (otherNamed : keys name)
    (sameSession : fold (.text sessionId) = fold (.text other))
    (sameKey : fold (.text key) = fold (.text name)) : sessionId = other ∧ key = name := by
  let stores : Call := ⟨.set sessionId key "", 0⟩
  let reads : Call := ⟨.get other name, 0⟩
  have storable : Storable (engine fold fits) (queries.setMany 0 sessionId [⟨key, ""⟩]) 0 sessionId
      [⟨key, ""⟩] := by
    refine ⟨fun _ _ => nofun, fun entry inside column => ?_, nofun⟩
    rw [List.mem_singleton.mp inside]
    exact roomy sessionId key session named column
  have written : writes (engine fold fits) (Arrangement.stored _) []
      (queries.setMany 0 sessionId [⟨key, ""⟩]) = (.done, [sessionRow sessionId key "" 0 1]) := by
    rw [writes, (faithful fold fits).setMany 0 sessionId _ (List.cons_ne_nil _ _) storable]
    rfl
  have meet : meets (engine fold fits) [ofSession other, ofKeys [name]]
      (sessionRow sessionId key "" 0 1) = true := by
    simp [meets, Check.holds, ofSession, ofKeys, sessionRow, engine, sameSession, sameKey]
  have answered := conforms [(Arrangement.stored _, stores), (Arrangement.stored _, reads)] (by
    intro turn inside
    rcases List.mem_cons.mp inside with rfl | last
    · exact ⟨⟨session, named⟩, storable⟩
    · rw [List.mem_singleton.mp last]
      exact ⟨⟨otherSession, otherNamed⟩, nofun⟩)
  simp only [Conformance.answers, step, stores, reads, written] at answered
  obtain ⟨_, _, same, -, _, _, later, ⟨found, read, right⟩, -⟩ := answered
  obtain ⟨-, rfl⟩ := List.cons.inj same
  obtain ⟨rfl, -⟩ := List.cons.inj later
  rw [reads_select _ (by exact nofun) ((faithful fold fits).get other name)] at read
  simp only [List.filter_cons, meet, if_true, List.filter_nil, Arrangement.stored, Option.elim_none,
    id, List.head?_cons, Option.map_some, Answer.record.injEq] at read
  subst read
  have stored : (nothing : Rows) (other, name) = none := rfl
  simp only [Option.map_some, content, asked, Overlay.put, stamp, Function.update_apply] at right
  split at right
  · rename_i pair
    exact ⟨(Prod.mk.inj pair).1.symm, (Prod.mk.inj pair).2.symm⟩
  · rw [stored] at right
    cases right

/-- The adapter serves some session ids and keys as the contract has it exactly when the collation of
the table tells them apart. -/
theorem collation_conforms_iff (fold : Value → Value) (fits : Column → Value → Bool)
    (sessions keys : String → Prop) (session : ∃ sessionId, sessions sessionId)
    (key : ∃ key, keys key)
    (roomy : ∀ sessionId key, sessions sessionId → keys key → ∀ column,
      fits column (sessionRow sessionId key "" 0 1 column) = true) :
    Conforms fold fits sessions keys ↔ Distinguishes (engine fold fits) sessions keys := by
  constructor
  · intro conforms
    obtain ⟨sessionId, inside⟩ := session
    obtain ⟨key, named⟩ := key
    exact ⟨fun first second one other same =>
        (pairs_told_apart conforms roomy one named other named same rfl).1,
      fun first second one other same =>
        (pairs_told_apart conforms roomy inside one inside other rfl same).2⟩
  · intro distinguishes turns admitted
    exact ((sql_conforms (faithful fold fits) distinguishes).run
      (empty_holds (engine fold fits) sessions keys)
      (.of_each (fun turn inside _ => admitted turn inside) nothing)).1

-- As a case-insensitive collation has it, for letters without accents.
def caseless : Value → Value
  | .text text => .text (String.ofList (text.toList.map Char.toLower))
  | value => value

-- Ids of app state sync keys are base64.
def twins (key : String) : Prop :=
  key = "app-state-sync-key-AAAAAKq8" ∨ key = "app-state-sync-key-AAAAAkq8"

theorem caseless_merges_keys : ¬ Conforms caseless (fun _ _ => true) (· = "bot") twins := by
  intro conforms
  have apart := (collation_conforms_iff caseless (fun _ _ => true) (· = "bot") twins ⟨_, rfl⟩ ⟨_, .inl rfl⟩
    fun _ _ _ _ _ => rfl).mp conforms
  have same := apart.keys _ _ (.inl rfl) (.inr rfl) (by decide +kernel)
  exact absurd same (by decide)

end Collations

end BaileysSession.MysqlAdapter
