import BaileysSession.Adapter.SqlAdapter

set_option autoImplicit false

namespace BaileysSession.SqlAdapter

open Sql DatabaseAdapter KeyedTable Overlay

/-- The collation tells these session ids apart, and these keys. -/
structure Distinguishes (engine : Engine Column) (sessions keys : String → Prop) : Prop where
  sessions : ∀ first second, sessions first → sessions second →
    engine.fold (.text first) = engine.fold (.text second) → first = second
  keys : ∀ first second, keys first → keys second →
    engine.fold (.text first) = engine.fold (.text second) → first = second

structure Holds (engine : Engine Column) (sessions keys : String → Prop) (table : Table)
    (rows : Rows) : Prop where
  keyed : Keyed engine.keyOf table
  shape : ∀ row ∈ table, ∃ sessionId key value updatedAt version, sessions sessionId ∧ keys key ∧
    row = sessionRow sessionId key value updatedAt version
  stored : ∀ sessionId key value updatedAt, rows (sessionId, key) = some ⟨value, updatedAt⟩ ↔
    ∃ version, sessionRow sessionId key value updatedAt version ∈ table

def Accepted (queries : Queries) (engine : Engine Column) (call : Call) : Prop :=
  match call.operation with
  | .get sessionId key => Accepts engine (queries.get sessionId key)
  | .getMany sessionId keys => keys ≠ [] → Accepts engine (queries.getMany sessionId keys)
  | .set sessionId key value => Storable engine (queries.setMany call.dateNow sessionId [⟨key, value⟩])
      call.dateNow sessionId [⟨key, value⟩]
  | .setMany sessionId entries => entries ≠ [] →
    Storable engine (queries.setMany call.dateNow sessionId entries) call.dateNow sessionId entries
  | .delete sessionId key => Accepts engine (queries.deleteMany sessionId [key])
  | .deleteMany sessionId keys => keys ≠ [] → Accepts engine (queries.deleteMany sessionId keys)
  | .getAllKeys sessionId => Accepts engine (queries.getAllKeys sessionId)
  | .deleteSession sessionId => Accepts engine (queries.deleteSession sessionId)
  | .listSessions => Accepts engine queries.listSessions
  | .sessionExists sessionId => Accepts engine (queries.sessionExists sessionId)

section Rows

theorem sessionRow_inj {sessionId key value other name text : String}
    {updatedAt version now count : Int}
    (same : sessionRow sessionId key value updatedAt version = sessionRow other name text now count) :
    sessionId = other ∧ key = name ∧ value = text ∧ updatedAt = now ∧ version = count :=
  ⟨Value.text.inj (congrFun same .session_id), Value.text.inj (congrFun same .key),
    Value.text.inj (congrFun same .value), Value.number.inj (congrFun same .updated_at),
    Value.number.inj (congrFun same .version)⟩

theorem merge_sessionRow (now : Int) (sessionId other name text : String) (entry : Entry)
    (updatedAt version : Int) :
    merge upsertUpdates (newest now sessionId entry) (sessionRow other name text updatedAt version) =
      sessionRow other name entry.value now (version + 1) := by
  funext column
  cases column <;> rfl

variable {engine : Engine Column} {sessions keys : String → Prop} {table : Table} {rows : Rows}

theorem merge_keyOf (primaryKey : engine.primaryKey = [.session_id, .key]) (row own : Row Column) :
    engine.keyOf (merge upsertUpdates row own) = engine.keyOf own := by
  rw [Engine.keyOf, Engine.keyOf, primaryKey]
  rfl

theorem keyOf_eq_iff (primaryKey : engine.primaryKey = [.session_id, .key])
    (distinguishes : Distinguishes engine sessions keys) {sessionId key other name : String}
    (session : sessions sessionId) (named : keys key) (otherSession : sessions other)
    (otherNamed : keys name) (value text : String) (updatedAt version now count : Int) :
    engine.keyOf (sessionRow sessionId key value updatedAt version) =
        engine.keyOf (sessionRow other name text now count) ↔ sessionId = other ∧ key = name := by
  rw [Engine.keyOf, Engine.keyOf, primaryKey]
  constructor
  · intro same
    have parts : engine.fold (.text sessionId) = engine.fold (.text other) ∧
        engine.fold (.text key) = engine.fold (.text name) := by
      simpa [sessionRow] using same
    exact ⟨distinguishes.sessions _ _ session otherSession parts.1,
      distinguishes.keys _ _ named otherNamed parts.2⟩
  · rintro ⟨rfl, rfl⟩
    rfl

theorem Holds.unique (primaryKey : engine.primaryKey = [.session_id, .key])
    (holds : Holds engine sessions keys table rows) {sessionId key value text : String}
    {updatedAt version now count : Int}
    (first : sessionRow sessionId key value updatedAt version ∈ table)
    (second : sessionRow sessionId key text now count ∈ table) :
    value = text ∧ updatedAt = now ∧ version = count := by
  have same : engine.keyOf (sessionRow sessionId key value updatedAt version) =
      engine.keyOf (sessionRow sessionId key text now count) := by
    rw [Engine.keyOf, Engine.keyOf, primaryKey]
    rfl
  exact (sessionRow_inj (holds.keyed.eq first second same)).2.2

theorem Holds.upsert (primaryKey : engine.primaryKey = [.session_id, .key])
    (distinguishes : Distinguishes engine sessions keys)
    (holds : Holds engine sessions keys table rows) {sessionId : String} {entry : Entry}
    (session : sessions sessionId) (named : keys entry.key) (now : Int) :
    Holds engine sessions keys
      (KeyedTable.upsert engine.keyOf (merge upsertUpdates) (newest now sessionId entry) table)
      (put rows (stamp now sessionId entry)) := by
  have keeps : ∀ row own : Row Column, engine.keyOf own = engine.keyOf row →
      engine.keyOf (merge upsertUpdates row own) = engine.keyOf row := fun row own same =>
    (merge_keyOf primaryKey row own).trans same
  have member := @mem_upsert _ _ _ engine.keyOf (merge upsertUpdates) table holds.keyed
    (newest now sessionId entry)
  have apart : ∀ {other name : String}, sessions other → keys name →
      ∀ (text : String) (updatedAt version : Int),
        (engine.keyOf (sessionRow other name text updatedAt version) =
          engine.keyOf (newest now sessionId entry) ↔ other = sessionId ∧ name = entry.key) :=
    fun otherSession otherNamed text updatedAt version =>
      keyOf_eq_iff primaryKey distinguishes otherSession otherNamed session named _ _ _ _ _ _
  constructor
  · exact holds.keyed.upsert keeps _
  · intro row inside
    rcases (member row).mp inside with ⟨old, -⟩ | ⟨rfl, -⟩ | ⟨own, old, same, rfl⟩
    · exact holds.shape row old
    · exact ⟨sessionId, entry.key, entry.value, now, 1, session, named, rfl⟩
    · obtain ⟨other, name, text, updatedAt, version, otherSession, otherNamed, rfl⟩ :=
        holds.shape own old
      rw [merge_sessionRow]
      exact ⟨other, name, entry.value, now, version + 1, otherSession, otherNamed, rfl⟩
  · intro other name text updatedAt
    rw [put, Function.update_apply]
    by_cases here : (other, name) = (stamp now sessionId entry).1
    · rw [if_pos here]
      obtain ⟨rfl, rfl⟩ := Prod.mk.inj here
      constructor
      · rintro ⟨⟩
        by_cases fresh : engine.keyOf (newest now other entry) ∈ table.map engine.keyOf
        · obtain ⟨own, old, same⟩ := List.mem_map.mp fresh
          obtain ⟨session', name', text', updatedAt', version', there, known, rfl⟩ :=
            holds.shape own old
          obtain ⟨rfl, rfl⟩ := (apart there known _ _ _).mp same
          exact ⟨version' + 1, (member _).mpr (.inr (.inr ⟨_, old, same,
            (merge_sessionRow _ _ _ _ _ _ _ _).symm⟩))⟩
        · exact ⟨1, (member _).mpr (.inr (.inl ⟨rfl, fresh⟩))⟩
      · rintro ⟨version, inside⟩
        rcases (member _).mp inside with ⟨-, different⟩ | ⟨same, -⟩ | ⟨own, old, same, merged⟩
        · exact absurd ((apart session named _ _ _).mpr ⟨rfl, rfl⟩) different
        · obtain ⟨-, -, rfl, rfl, -⟩ := sessionRow_inj same
          rfl
        · obtain ⟨session', name', text', updatedAt', version', there, known, rfl⟩ :=
            holds.shape own old
          rw [merge_sessionRow] at merged
          obtain ⟨-, -, rfl, rfl, -⟩ := sessionRow_inj merged
          rfl
    · rw [if_neg here, holds.stored]
      have different : ¬ (other = sessionId ∧ name = entry.key) := fun same =>
        here (Prod.ext same.1 same.2)
      constructor
      · rintro ⟨version, old⟩
        obtain ⟨_, _, _, _, _, there, known, same⟩ := holds.shape _ old
        obtain ⟨rfl, rfl, -⟩ := sessionRow_inj same
        exact ⟨version, (member _).mpr (.inl ⟨old, mt (apart there known _ _ _).mp different⟩)⟩
      · rintro ⟨version, inside⟩
        rcases (member _).mp inside with ⟨old, -⟩ | ⟨same, -⟩ | ⟨own, old, same, merged⟩
        · exact ⟨version, old⟩
        · obtain ⟨rfl, rfl, -⟩ := sessionRow_inj same
          exact absurd ⟨rfl, rfl⟩ different
        · obtain ⟨session', name', text', updatedAt', version', there, known, rfl⟩ :=
            holds.shape own old
          obtain ⟨rfl, rfl⟩ := (apart there known _ _ _).mp same
          rw [merge_sessionRow] at merged
          obtain ⟨rfl, rfl, -⟩ := sessionRow_inj merged
          exact absurd ⟨rfl, rfl⟩ different

theorem Holds.upsertAll (primaryKey : engine.primaryKey = [.session_id, .key])
    (distinguishes : Distinguishes engine sessions keys)
    (holds : Holds engine sessions keys table rows) {sessionId : String} {entries : List Entry}
    (session : sessions sessionId) (named : ∀ entry ∈ entries, keys entry.key) (now : Int) :
    Holds engine sessions keys
      (engine.upsertAll upsertUpdates table (entries.map (newest now sessionId)))
      (putAll rows (entries.map (stamp now sessionId))) := by
  unfold Engine.upsertAll
  induction entries generalizing table rows with
  | nil => exact holds
  | cons entry rest ih =>
    exact ih (holds.upsert primaryKey distinguishes session (named entry List.mem_cons_self) now)
      fun other inside => named other (List.mem_cons_of_mem entry inside)

theorem Holds.filter (holds : Holds engine sessions keys table rows) (keep : Row Column → Bool)
    {left : Rows} (kept : ∀ sessionId key value updatedAt version, sessions sessionId → keys key →
      (left (sessionId, key) = some ⟨value, updatedAt⟩ ↔
        keep (sessionRow sessionId key value updatedAt version) = true ∧
          rows (sessionId, key) = some ⟨value, updatedAt⟩))
    (fewer : ∀ pair stored, left pair = some stored → rows pair = some stored) :
    Holds engine sessions keys (table.filter keep) left := by
  constructor
  · exact holds.keyed.filter keep
  · exact fun row inside => holds.shape row (List.mem_filter.mp inside).1
  · intro sessionId key value updatedAt
    constructor
    · intro stored
      obtain ⟨version, inside⟩ := (holds.stored _ _ _ _).mp (fewer _ _ stored)
      obtain ⟨_, _, _, _, _, session, named, same⟩ := holds.shape _ inside
      obtain ⟨rfl, rfl, -⟩ := sessionRow_inj same
      exact ⟨version, List.mem_filter.mpr
        ⟨inside, ((kept _ _ _ _ version session named).mp stored).1⟩⟩
    · rintro ⟨version, inside⟩
      obtain ⟨old, passes⟩ := List.mem_filter.mp inside
      obtain ⟨_, _, _, _, _, session, named, same⟩ := holds.shape _ old
      obtain ⟨rfl, rfl, -⟩ := sessionRow_inj same
      exact (kept _ _ _ _ version session named).mpr
        ⟨passes, (holds.stored _ _ _ _).mpr ⟨version, old⟩⟩

end Rows

section Reading

variable {engine : Engine Column} {sessions keys : String → Prop} {table : Table} {rows : Rows}

theorem meets_session (distinguishes : Distinguishes engine sessions keys) {sessionId other : String}
    (asked : sessions sessionId) (session : sessions other) (key value : String)
    (updatedAt version : Int) :
    meets engine [ofSession sessionId] (sessionRow other key value updatedAt version) = true ↔
      other = sessionId := by
  have folded : meets engine [ofSession sessionId] (sessionRow other key value updatedAt version) =
      true ↔ engine.fold (.text other) = engine.fold (.text sessionId) := by
    simp [meets, Check.holds, ofSession, sessionRow, eq_comm]
  rw [folded]
  exact ⟨distinguishes.sessions _ _ session asked, fun same => by rw [same]⟩

theorem meets_keys (distinguishes : Distinguishes engine sessions keys) {sessionId other : String}
    {names : List String} (asked : sessions sessionId) (listed : ∀ name ∈ names, keys name)
    (session : sessions other) {key : String} (named : keys key) (value : String)
    (updatedAt version : Int) :
    meets engine [ofSession sessionId, ofKeys names]
        (sessionRow other key value updatedAt version) = true ↔
      other = sessionId ∧ key ∈ names := by
  have split : meets engine [ofSession sessionId, ofKeys names]
      (sessionRow other key value updatedAt version) = true ↔
        meets engine [ofSession sessionId] (sessionRow other key value updatedAt version) = true ∧
          ∃ name ∈ names, engine.fold (.text name) = engine.fold (.text key) := by
    simp [meets, Check.holds, ofKeys, sessionRow]
  rw [split, meets_session distinguishes asked session]
  refine and_congr_right fun _ => ⟨?_, fun inside => ⟨key, inside, rfl⟩⟩
  rintro ⟨name, inside, same⟩
  exact distinguishes.keys _ _ (listed name inside) named same ▸ inside

theorem Holds.finds {queries : Queries} (faithful : Faithful queries engine)
    (holds : Holds engine sessions keys table rows) (order : Arrangement (Row Column))
    {sessionId : String} {asked : String → Prop} {checks : List (Check Column)}
    (meet : ∀ other key value updatedAt version, sessions other → keys key →
      (meets engine checks (sessionRow other key value updatedAt version) = true ↔
        other = sessionId ∧ asked key)) :
    Finds queries.toRecord sessionId asked rows
      (order.arrange (table.filter (meets engine checks))) := by
  have perm := order.perm (table.filter (meets engine checks))
  have keyed := (holds.keyed.filter (meets engine checks)).perm perm
  have sound : ∀ row ∈ order.arrange (table.filter (meets engine checks)),
      ∃ key value updatedAt version, asked key ∧
        row = sessionRow sessionId key value updatedAt version ∧
          rows (sessionId, key) = some ⟨value, updatedAt⟩ := by
    intro row inside
    obtain ⟨old, passes⟩ := List.mem_filter.mp (perm.mem_iff.mp inside)
    obtain ⟨other, key, value, updatedAt, version, session, named, rfl⟩ := holds.shape row old
    obtain ⟨rfl, wanted⟩ := (meet _ _ _ _ _ session named).mp passes
    exact ⟨key, value, updatedAt, version, wanted, rfl, (holds.stored _ _ _ _).mpr ⟨version, old⟩⟩
  constructor
  · intro row inside
    obtain ⟨key, value, updatedAt, version, wanted, rfl, stored⟩ := sound row inside
    rw [faithful.toRecord, content, stored]
    exact ⟨wanted, rfl⟩
  · intro key wanted present
    obtain ⟨⟨value, updatedAt⟩, stored⟩ := Option.ne_none_iff_exists'.mp present
    obtain ⟨version, inside⟩ := (holds.stored _ _ _ _).mp stored
    obtain ⟨_, _, _, _, _, session, named, same⟩ := holds.shape _ inside
    obtain ⟨rfl, rfl, -⟩ := sessionRow_inj same
    refine List.mem_map.mpr ⟨_, perm.mem_iff.mpr (List.mem_filter.mpr
      ⟨inside, (meet _ _ _ _ _ session named).mpr ⟨rfl, wanted⟩⟩), ?_⟩
    rw [faithful.toRecord]
  · refine List.Nodup.map_on ?_ (List.Nodup.of_map _ keyed)
    intro first inside second there same
    refine keyed.eq inside there ?_
    obtain ⟨_, _, _, _, -, rfl, -⟩ := sound first inside
    obtain ⟨_, _, _, _, -, rfl, -⟩ := sound second there
    rw [faithful.toRecord, faithful.toRecord] at same
    rw [Engine.keyOf, Engine.keyOf, faithful.primaryKey]
    exact congrArg (fun key => [engine.fold (.text sessionId), engine.fold (.text key)]) same

theorem Holds.keys_read {queries : Queries} (faithful : Faithful queries engine)
    (holds : Holds engine sessions keys table rows) (order : Arrangement (Row Column))
    (checks : List (Check Column)) :
    (order.arrange (table.filter (meets engine checks))).map (fun row => textOf (row .key)) =
      (order.arrange (table.filter (meets engine checks))).map fun row =>
        (queries.toRecord row).key := by
  refine List.map_congr_left fun row inside => ?_
  have old := (List.mem_filter.mp ((order.perm _).mem_iff.mp inside)).1
  obtain ⟨_, _, _, _, _, -, -, rfl⟩ := holds.shape row old
  rw [faithful.toRecord]
  rfl

theorem Holds.sessions_listed (distinguishes : Distinguishes engine sessions keys)
    (holds : Holds engine sessions keys table rows) (order : Arrangement (Row Column)) :
    Lists (((order.arrange table).pwFilter fun row other =>
        engine.fold (row .session_id) ≠ engine.fold (other .session_id)).map fun row =>
      textOf (row .session_id)) fun sessionId => ∃ key, rows (sessionId, key) ≠ none := by
  have shape : ∀ row ∈ order.arrange table, ∃ sessionId key value updatedAt version,
      sessions sessionId ∧ keys key ∧ row = sessionRow sessionId key value updatedAt version :=
    fun row inside => holds.shape row ((order.perm table).mem_iff.mp inside)
  have listed := List.pwFilter_subset (R := fun row other : Row Column =>
    engine.fold (row .session_id) ≠ engine.fold (other .session_id)) (order.arrange table)
  constructor
  · rw [List.Nodup, List.pairwise_map]
    refine (List.pairwise_pwFilter _).imp_of_mem ?_
    intro first second inside there apart same
    obtain ⟨_, _, _, _, _, _, _, rfl⟩ := shape first (listed inside)
    obtain ⟨_, _, _, _, _, _, _, rfl⟩ := shape second (listed there)
    exact apart (congrArg (fun text => engine.fold (.text text)) same)
  · intro sessionId
    constructor
    · intro present
      obtain ⟨row, inside, rfl⟩ := List.mem_map.mp present
      have old := (order.perm table).mem_iff.mp (listed inside)
      obtain ⟨_, key, _, _, version, _, _, rfl⟩ := holds.shape row old
      exact ⟨key, fun missing => by
        simp [(holds.stored _ _ _ _).mpr ⟨version, old⟩, sessionRow, textOf] at missing⟩
    · rintro ⟨key, present⟩
      obtain ⟨⟨value, updatedAt⟩, stored⟩ := Option.ne_none_iff_exists'.mp present
      obtain ⟨version, old⟩ := (holds.stored _ _ _ _).mp stored
      have inside := (order.perm table).mem_iff.mpr old
      have met : ¬ ∀ other ∈ (order.arrange table).pwFilter fun row other : Row Column =>
          engine.fold (row .session_id) ≠ engine.fold (other .session_id),
          engine.fold (sessionRow sessionId key value updatedAt version .session_id) ≠
            engine.fold (other .session_id) := by
        rw [List.forall_mem_pwFilter (R := fun row other : Row Column =>
          engine.fold (row .session_id) ≠ engine.fold (other .session_id))
          (fun {one two three} apart => by
            by_cases same : engine.fold (one .session_id) = engine.fold (two .session_id)
            · exact .inr (same ▸ apart)
            · exact .inl same)
          (sessionRow sessionId key value updatedAt version)]
        exact fun apart => apart _ inside rfl
      simp only [not_forall, not_not] at met
      obtain ⟨other, kept, same⟩ := met
      obtain ⟨_, _, _, _, _, session, _, rfl⟩ := shape other (listed kept)
      obtain ⟨_, _, _, _, _, asked, _, shaped⟩ := holds.shape _ old
      obtain ⟨rfl, -⟩ := sessionRow_inj shaped
      exact List.mem_map.mpr ⟨_, kept, (distinguishes.sessions _ _ asked session same).symm⟩

end Reading

section Steps

variable {queries : Queries} {engine : Engine Column} {sessions keys : String → Prop} {table : Table}
  {rows : Rows}

theorem reads_select (order : Arrangement (Row Column)) {query : Query Column}
    {checks : List (Check Column)} {limit : Option Nat} (accepts : Accepts engine query)
    (binds : query.bound = some (.select checks limit)) (answer : List (Row Column) → Answer) :
    reads engine order table query answer =
      (answer (limit.elim (order.arrange (table.filter (meets engine checks)))
        (order.arrange (table.filter (meets engine checks))).take), table) := by
  rw [reads, query_run accepts binds]
  rfl

theorem writes_delete (order : Arrangement (Row Column)) {query : Query Column}
    {checks : List (Check Column)} (accepts : Accepts engine query)
    (binds : query.bound = some (.delete checks)) :
    writes engine order table [query] =
      (.done, table.filter fun row => !meets engine checks row) := by
  rw [writes, Engine.batch, query_run accepts binds]
  rfl

theorem Holds.without (distinguishes : Distinguishes engine sessions keys)
    (holds : Holds engine sessions keys table rows) {sessionId : String} {names : List String}
    (session : sessions sessionId) (listed : ∀ name ∈ names, keys name) :
    Holds engine sessions keys
      (table.filter fun row => !meets engine [ofSession sessionId, ofKeys names] row)
      (without sessionId names rows) := by
  refine holds.filter _ ?_ ?_
  · intro other key value updatedAt version otherSession named
    have meet := meets_keys distinguishes session listed otherSession named value updatedAt version
    rw [DatabaseAdapter.without]
    by_cases here : other = sessionId ∧ key ∈ names
    · rw [if_pos here, meet.mpr here]
      simp
    · rw [if_neg here, Bool.eq_false_iff.mpr (mt meet.mp here)]
      simp
  · intro pair stored kept
    rw [DatabaseAdapter.without] at kept
    split at kept
    · cases kept
    · exact kept

theorem Holds.withoutSession (distinguishes : Distinguishes engine sessions keys)
    (holds : Holds engine sessions keys table rows) {sessionId : String}
    (session : sessions sessionId) :
    Holds engine sessions keys (table.filter fun row => !meets engine [ofSession sessionId] row)
      fun row => if row.1 = sessionId then none else rows row := by
  refine holds.filter _ ?_ ?_
  · intro other key value updatedAt version otherSession named
    have meet := meets_session distinguishes session otherSession key value updatedAt version
    by_cases here : other = sessionId
    · rw [if_pos here, meet.mpr here]
      simp
    · rw [if_neg here, Bool.eq_false_iff.mpr (mt meet.mp here)]
      simp
  · intro pair stored kept
    split at kept
    · cases kept
    · exact kept

theorem writes_setMany (faithful : Faithful queries engine)
    (distinguishes : Distinguishes engine sessions keys)
    (holds : Holds engine sessions keys table rows) {sessionId : String} {entries : List Entry}
    (some : entries ≠ []) (session : sessions sessionId)
    (named : ∀ entry ∈ entries, keys entry.key) {now : Int} (order : Arrangement (Row Column))
    (storable : Storable engine (queries.setMany now sessionId entries) now sessionId entries) :
    (writes engine order table (queries.setMany now sessionId entries)).1 = .done ∧
      Holds engine sessions keys (writes engine order table (queries.setMany now sessionId entries)).2
        (putAll rows (entries.map (stamp now sessionId))) := by
  rw [writes, faithful.setMany now sessionId entries some storable order table]
  exact ⟨rfl, holds.upsertAll faithful.primaryKey distinguishes session named now⟩

theorem length_ne_zero {Item : Type} {items : List Item} (filled : items ≠ []) :
    ¬ items.length = 0 := mt List.length_eq_zero_iff.mp filled

theorem step_right (faithful : Faithful queries engine)
    (distinguishes : Distinguishes engine sessions keys)
    (holds : Holds engine sessions keys table rows) (order : Arrangement (Row Column)) {call : Call}
    (within : call.operation.Within sessions keys) (accepted : Accepted queries engine call) :
    right call rows (step queries engine order call table).1 ∧
      Holds engine sessions keys (step queries engine order call table).2 (asked call rows) := by
  have finds := fun (sessionId : String) (wanted : String → Prop) {checks : List (Check Column)} =>
    @Holds.finds engine sessions keys table rows queries faithful holds order sessionId wanted checks
  obtain ⟨operation, now⟩ := call
  unfold right asked step
  unfold Accepted at accepted
  cases operation with
  | get sessionId key =>
    dsimp only at accepted ⊢
    rw [reads_select order accepted (faithful.get sessionId key)]
    refine ⟨⟨_, rfl, (finds sessionId (· = key) fun _ _ _ _ _ session named => ?_).head⟩, holds⟩
    rw [meets_keys distinguishes within.1 (by simpa using within.2) session named,
      List.mem_singleton]
  | getMany sessionId names =>
    dsimp only at accepted ⊢
    by_cases none : names = []
    · subst none
      exact ⟨⟨_, rfl, fun key => by simp⟩, holds⟩
    · rw [if_neg (length_ne_zero none), reads_select order (accepted none)
        (faithful.getMany sessionId names)]
      refine ⟨⟨_, rfl, (finds sessionId (· ∈ names) fun _ _ _ _ _ session named =>
        ?_).collected⟩, holds⟩
      exact meets_keys distinguishes within.1 within.2 session named _ _ _
  | set sessionId key value =>
    exact writes_setMany faithful distinguishes holds (List.cons_ne_nil _ _) within.1
      (by simpa using within.2) order accepted
  | setMany sessionId entries =>
    dsimp only at accepted ⊢
    by_cases none : entries = []
    · subst none
      exact ⟨rfl, holds⟩
    · rw [if_neg (length_ne_zero none)]
      exact writes_setMany faithful distinguishes holds none within.1 within.2 order (accepted none)
  | delete sessionId key =>
    dsimp only at accepted ⊢
    rw [writes_delete order accepted (faithful.deleteMany sessionId [key])]
    exact ⟨rfl, holds.without distinguishes within.1 (by simpa using within.2)⟩
  | deleteMany sessionId names =>
    dsimp only at accepted ⊢
    by_cases none : names = []
    · subst none
      exact ⟨rfl, by rw [without_nil]; exact holds⟩
    · rw [if_neg (length_ne_zero none),
        writes_delete order (accepted none) (faithful.deleteMany sessionId names)]
      exact ⟨rfl, holds.without distinguishes within.1 within.2⟩
  | getAllKeys sessionId =>
    dsimp only at accepted ⊢
    rw [reads_select order accepted (faithful.getAllKeys sessionId)]
    dsimp only [Option.elim_none]
    rw [holds.keys_read faithful]
    refine ⟨⟨_, rfl, (finds sessionId (fun _ => True) fun _ _ _ _ _ session _ => ?_).lists⟩, holds⟩
    rw [meets_session distinguishes within session, and_true]
  | deleteSession sessionId =>
    dsimp only at accepted ⊢
    rw [writes_delete order accepted (faithful.deleteSession sessionId)]
    exact ⟨rfl, holds.withoutSession distinguishes within⟩
  | listSessions =>
    dsimp only at accepted ⊢
    rw [reads, query_run accepted faithful.listSessions]
    exact ⟨⟨_, rfl, holds.sessions_listed distinguishes order⟩, holds⟩
  | sessionExists sessionId =>
    dsimp only at accepted ⊢
    rw [reads_select order accepted (faithful.sessionExists sessionId)]
    have found := finds sessionId (fun _ => True) fun other key value updatedAt version session _ => by
      rw [meets_session distinguishes within session key value updatedAt version, and_true]
    refine ⟨⟨_, rfl, ?_⟩, holds⟩
    rw [← found.some_iff, decide_eq_true_eq, Option.elim_some]
    -- `LIMIT 1` leaves a row exactly when there was one
    cases order.arrange (table.filter _) <;> simp

theorem sql_conforms (faithful : Faithful queries engine)
    (distinguishes : Distinguishes engine sessions keys) :
    Conformance.Conforms contract (step queries engine) (Holds engine sessions keys) fun _ _ call =>
      call.operation.Within sessions keys ∧ Accepted queries engine call :=
  ⟨fun order _ _ _ holds admitted =>
      (step_right faithful distinguishes holds order admitted.1 admitted.2).1,
    fun order _ _ _ holds admitted =>
      (step_right faithful distinguishes holds order admitted.1 admitted.2).2⟩

theorem empty_holds (engine : Engine Column) (sessions keys : String → Prop) :
    Holds engine sessions keys [] nothing :=
  ⟨List.nodup_nil, nofun, fun _ _ _ _ => ⟨nofun, nofun⟩⟩

end Steps

end BaileysSession.SqlAdapter
