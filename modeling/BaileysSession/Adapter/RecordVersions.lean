import BaileysSession.Adapter.FirebaseTree
import BaileysSession.Adapter.FirestoreBatches
import BaileysSession.Adapter.SqliteWorker
import BaileysSession.Shared.Rising
import Mathlib.Order.Basic

set_option autoImplicit false

namespace BaileysSession.RecordVersions

open Rising (Raises Keeps)

-- One call of `setMany`, with the clock it stores.
structure Call where
  sessionId : String
  entries : List Entry
  dateNow : Int
  deriving DecidableEq, Repr

def Call.Contains (sessionId key : String) (call : Call) : Prop :=
  call.sessionId = sessionId ∧ key ∈ call.entries.map Entry.key

/-- Whenever calls that contain the pair lie between two reads of it, the later read has the higher
version. -/
def MovesOnWrites {Version : Type} (less : Version → Version → Prop)
    (version : List Call → Option Version) (sessionId key : String) (calls : List Call) : Prop :=
  ∀ earlier later rest, calls = earlier ++ later ++ rest →
    (∃ call ∈ later, call.Contains sessionId key) →
      Raises less (version earlier) (version (earlier ++ later))

theorem moves_of_steps {State Version : Type} (less : Version → Version → Prop)
    (ordered : ∀ low middle high, less low middle → less middle high → less low high)
    (step : State → Call → State) (read : State → Option Version) (Good : State → Prop)
    {start : State} (good : Good start) {sessionId key : String} {calls : List Call}
    (moves : ∀ state, ∀ call ∈ calls, Good state → Good (step state call) ∧
      Keeps less (read state) (read (step state call)) ∧
        (call.Contains sessionId key → Raises less (read state) (read (step state call)))) :
    MovesOnWrites less (fun calls => read (calls.foldl step start)) sessionId key calls := by
  rintro earlier later rest rfl some
  have reached := (Rising.run_raises less ordered step read (Call.Contains sessionId key) Good earlier
    (fun state call inside => moves state call (by simp [inside])) good).1
  have raised := (Rising.run_raises less ordered step read (Call.Contains sessionId key) Good later
    (fun state call inside => moves state call (by simp [inside])) reached).2.2 some
  simpa only [List.foldl_append] using raised

section Sqlite

open SqliteWorker (execute versioning)

def sqliteStep (file : SqliteWorker.File) (call : Call) : SqliteWorker.File :=
  (execute true ⟨call.dateNow, none, .stored _⟩ (.setMany call.sessionId call.entries) file).2

def sqliteRead (sessionId key : String) (file : SqliteWorker.File) : Option Int :=
  match (execute true ⟨0, none, .stored _⟩ (.get sessionId key) file).1 with
  | .ok (.row row) => some row.record.version
  | _ => none

def sqliteVersion (sessionId key : String) (calls : List Call) : Option Int :=
  sqliteRead sessionId key (calls.foldl sqliteStep ⟨some .empty⟩)

theorem upsertRows_ok (now : Int) (order : KeyedTable.Arrangement ((String × String) × SessionRecord))
    (sessionId : String) (index : Nat) (entries : List Entry) (db : Database) : ∃ written,
      SqliteWorker.upsertRows ⟨now, none, order⟩ sessionId index entries db = .ok written := by
  induction entries generalizing index db with
  | nil => exact ⟨db, rfl⟩
  | cons entry rest ih => exact ih (index + 1) (db.set versioning now sessionId entry)

theorem sqliteStep_table (db : Database) (call : Call) :
    sqliteStep ⟨some db⟩ call =
      ⟨some (db.setMany versioning call.dateNow call.sessionId call.entries)⟩ := by
  obtain ⟨written, stored⟩ := upsertRows_ok call.dateNow (.stored _) call.sessionId 0 call.entries db
  have answered : (execute true ⟨call.dateNow, none, .stored _⟩
      (.setMany call.sessionId call.entries) ⟨some db⟩).1 = .ok .null := by
    simp [execute, SqliteWorker.run, SqliteWorker.prepare, stored, bind, Except.bind, pure,
      Except.pure]
  obtain ⟨table, same, file⟩ := SqliteWorker.setMany_file answered
  cases same
  exact file

theorem sqliteRead_table (sessionId key : String) (db : Database) :
    sqliteRead sessionId key ⟨some db⟩ = (db.get sessionId key).map SessionRecord.version := by
  cases found : db.get sessionId key <;>
    simp [sqliteRead, execute, SqliteWorker.run, SqliteWorker.prepare, SqliteWorker.Attempt.statement,
      found, bind, Except.bind, pure, Except.pure]

theorem set_moves (db : Database) (now : Int) (sessionId key other : String) (entry : Entry) :
    Keeps (· < ·) ((db.get sessionId key).map SessionRecord.version)
        (((db.set versioning now other entry).get sessionId key).map SessionRecord.version) ∧
      (other = sessionId ∧ entry.key = key →
        Raises (· < ·) ((db.get sessionId key).map SessionRecord.version)
          (((db.set versioning now other entry).get sessionId key).map SessionRecord.version)) := by
  rw [Database.get_set]
  by_cases same : other = sessionId ∧ entry.key = key
  · obtain ⟨rfl, rfl⟩ := same
    have raised : Raises (· < ·) ((db.get other entry.key).map SessionRecord.version)
        (some (versioning ((db.get other entry.key).map SessionRecord.version))) := by
      refine ⟨_, rfl, fun earlier held => ?_⟩
      rw [held]
      exact Int.lt_succ earlier
    simp only [and_self, if_true, Option.map_some]
    exact ⟨raised.keeps, fun _ => raised⟩
  · rw [if_neg fun here => same ⟨here.1.symm, here.2.symm⟩]
    exact ⟨.same _ _, fun here => absurd here same⟩

theorem setMany_moves (db : Database) (sessionId key : String) (call : Call) :
    Keeps (· < ·) ((db.get sessionId key).map SessionRecord.version)
        (((db.setMany versioning call.dateNow call.sessionId call.entries).get sessionId key).map
          SessionRecord.version) ∧
      (call.Contains sessionId key →
        Raises (· < ·) ((db.get sessionId key).map SessionRecord.version)
          (((db.setMany versioning call.dateNow call.sessionId call.entries).get sessionId key).map
            SessionRecord.version)) := by
  obtain ⟨_, kept, raised⟩ := Rising.run_raises (· < ·) (fun _ _ _ => Int.lt_trans)
    (fun (db : Database) entry => db.set versioning call.dateNow call.sessionId entry)
    (fun db => (db.get sessionId key).map SessionRecord.version)
    (fun entry => call.sessionId = sessionId ∧ entry.key = key) (fun _ => True) call.entries
    (fun db entry _ _ => ⟨trivial, set_moves db call.dateNow sessionId key call.sessionId entry⟩)
    trivial
  refine ⟨kept, ?_⟩
  rintro ⟨session, listed⟩
  obtain ⟨entry, inside, name⟩ := List.mem_map.mp listed
  exact raised ⟨entry, inside, session, name⟩

theorem sqlite_moves (sessionId key : String) (calls : List Call) :
    MovesOnWrites (· < ·) (sqliteVersion sessionId key) sessionId key calls := by
  apply moves_of_steps (· < ·) (fun _ _ _ => Int.lt_trans) sqliteStep (sqliteRead sessionId key)
    (fun file => ∃ db, file = ⟨some db⟩) ⟨_, rfl⟩
  rintro _ call _ ⟨db, rfl⟩
  rw [sqliteStep_table, sqliteRead_table, sqliteRead_table]
  exact ⟨⟨_, rfl⟩, setMany_moves db sessionId key call⟩

end Sqlite

section Firestore

open Firestore (Collection FirestoreDoc docId)

def firestoreStep (docs : Collection) (call : Call) : Collection :=
  Firestore.setMany docs call.dateNow call.sessionId call.entries

def firestoreVersion (sessionId key : String) (calls : List Call) : Option Int :=
  (Firestore.get (calls.foldl firestoreStep .empty) sessionId key).map FirestoreDoc.version

def Call.Writes (id : String) (call : Call) : Prop :=
  ∃ entry ∈ call.entries, docId call.sessionId entry.key = id

/-- When a call contains the pair, no call before it has written a document with the pair's id. -/
def WrittenFirst (sessionId key : String) (calls : List Call) : Prop :=
  ∀ earlier call rest, calls = earlier ++ call :: rest → call.Contains sessionId key →
    ∀ other ∈ earlier, ¬ other.Writes (docId sessionId key)

theorem Call.Contains.writes {sessionId key : String} {call : Call}
    (contains : call.Contains sessionId key) : call.Writes (docId sessionId key) := by
  obtain ⟨session, listed⟩ := contains
  obtain ⟨entry, inside, name⟩ := List.mem_map.mp listed
  exact ⟨entry, inside, by rw [session, name]⟩

theorem firestoreStep_version (docs : Collection) (call : Call) (id : String) :
    (call.Writes id → ((firestoreStep docs call).get? id).map FirestoreDoc.version = some 1) ∧
      (¬ call.Writes id → (firestoreStep docs call).get? id = docs.get? id) := by
  rcases Firestore.Batches.setMany_last docs call.dateNow call.sessionId call.entries id with
    ⟨entry, inside, same, -, stored⟩ | ⟨others, kept⟩
  · exact ⟨fun _ => congrArg (Option.map FirestoreDoc.version) stored,
      fun none => absurd ⟨entry, inside, same⟩ none⟩
  · refine ⟨?_, fun _ => kept⟩
    rintro ⟨entry, inside, same⟩
    exact absurd same (others entry inside)

theorem firestoreStep_run (calls : List Call) (docs : Collection) (id : String) :
    ((∃ call ∈ calls, call.Writes id) →
      ((calls.foldl firestoreStep docs).get? id).map FirestoreDoc.version = some 1) ∧
    ((∀ call ∈ calls, ¬ call.Writes id) →
      (calls.foldl firestoreStep docs).get? id = docs.get? id) := by
  induction calls generalizing docs with
  | nil => exact ⟨fun some => by simp at some, fun _ => rfl⟩
  | cons call rest ih =>
    obtain ⟨written, kept⟩ := firestoreStep_version docs call id
    obtain ⟨later, untouched⟩ := ih (firestoreStep docs call)
    rw [List.foldl_cons]
    constructor
    · rintro ⟨writer, listed, writes⟩
      by_cases again : ∃ other ∈ rest, other.Writes id
      · exact later again
      · have first : writer = call := by
          rcases List.mem_cons.mp listed with same | inside
          · exact same
          · exact absurd ⟨writer, inside, writes⟩ again
        rw [untouched fun other inside wrote => again ⟨other, inside, wrote⟩]
        exact written (first ▸ writes)
    · intro none
      rw [untouched fun other inside => none other (List.mem_cons_of_mem _ inside),
        kept (none call List.mem_cons_self)]

theorem firestoreVersion_written {sessionId key : String} {calls : List Call}
    (written : ∃ call ∈ calls, call.Writes (docId sessionId key)) :
    firestoreVersion sessionId key calls = some 1 :=
  (firestoreStep_run calls .empty _).1 written

theorem firestoreVersion_unwritten {sessionId key : String} {calls : List Call}
    (unwritten : ∀ call ∈ calls, ¬ call.Writes (docId sessionId key)) :
    firestoreVersion sessionId key calls = none :=
  congrArg (Option.map FirestoreDoc.version) ((firestoreStep_run calls .empty _).2 unwritten)

theorem firestore_moves_iff (sessionId key : String) (calls : List Call) :
    MovesOnWrites (· < ·) (firestoreVersion sessionId key) sessionId key calls ↔
      WrittenFirst sessionId key calls := by
  constructor
  · rintro moves earlier call rest rfl contains other inside writes
    obtain ⟨version, after, above⟩ := moves earlier [call] rest (by simp)
      ⟨call, List.mem_cons_self, contains⟩
    have before := firestoreVersion_written ⟨other, inside, writes⟩
    rw [firestoreVersion_written ⟨call, by simp, contains.writes⟩, Option.some.injEq] at after
    have higher : (1 : Int) < version := above 1 before
    omega
  · rintro first earlier later rest rfl ⟨call, inside, contains⟩
    obtain ⟨front, back, rfl⟩ := List.append_of_mem inside
    have fresh := first (earlier ++ front) call (back ++ rest) (by simp) contains
    have before := firestoreVersion_unwritten fun other listed =>
      fresh other (List.mem_append_left front listed)
    refine ⟨1, firestoreVersion_written ⟨call, by simp, contains.writes⟩, fun version held => ?_⟩
    rw [before] at held
    cases held

end Firestore

section Firebase

open FirebaseTree (JsonNode Tree StoredValue Leaf rowPath nextVersion)
open FirebaseRealtime (path segments)
open PathTree (Independent snapshot)

variable (toText : JsonNode → String)

def firebaseStep (tree : Tree) (call : Call) : Tree :=
  FirebaseTree.setMany toText tree call.dateNow call.sessionId call.entries

def firebaseRead (sessionId key : String) (tree : Tree) : Option JsonNode :=
  (FirebaseTree.get tree sessionId key).map FirebaseTree.Record.version

def firebaseVersion (sessionId key : String) (calls : List Call) : Option JsonNode :=
  firebaseRead sessionId key (calls.foldl (firebaseStep toText) .empty)

def numberLess (low high : JsonNode) : Prop :=
  ∃ first second : Int, low = [([], .number first)] ∧ high = [([], .number second)] ∧
    first < second

theorem numberLess_trans (low middle high : JsonNode) (left : numberLess low middle)
    (right : numberLess middle high) : numberLess low high := by
  obtain ⟨first, second, rfl, rfl, below⟩ := left
  obtain ⟨third, fourth, same, rfl, above⟩ := right
  simp only [List.cons.injEq, Prod.mk.injEq, Leaf.number.injEq, true_and, and_true] at same
  exact ⟨first, fourth, rfl, rfl, by omega⟩

/-- No entry of the call is stored above or below the pair's record. -/
def Call.KeepsClear (sessionId key : String) (call : Call) : Prop :=
  ∀ entry ∈ call.entries, rowPath call.sessionId entry.key = rowPath sessionId key ∨
    Independent (rowPath call.sessionId entry.key) (rowPath sessionId key)

theorem get?_getMany (tree : Tree) (sessionId key : String) (keys : List String) :
    (FirebaseTree.getMany tree sessionId keys).get? key =
      if key ∈ keys then FirebaseTree.get tree sessionId key else none := by
  rw [FirebaseTree.getMany, InsertionMap.get?_gathered (FirebaseTree.get tree sessionId)]
  · simp
  · intro found key
    cases FirebaseTree.get tree sessionId key <;> rfl

theorem update_held (sessionId : String) (value : Entry → StoredValue) (entries : List Entry)
    (update : InsertionMap String StoredValue) (address : String) :
    (∀ stored, (entries.foldl (fun update entry =>
        update.set (path sessionId (some entry.key)) (value entry)) update).get? address =
          some stored →
      update.get? address = some stored ∨
        ∃ entry ∈ entries, address = path sessionId (some entry.key) ∧ stored = value entry) ∧
    ((update.get? address).isSome ∨
        (∃ entry ∈ entries, address = path sessionId (some entry.key)) →
      ((entries.foldl (fun update entry =>
        update.set (path sessionId (some entry.key)) (value entry)) update).get? address).isSome) := by
  induction entries generalizing update with
  | nil => simp
  | cons entry rest ih =>
    obtain ⟨held, present⟩ := ih (update.set (path sessionId (some entry.key)) (value entry))
    rw [List.foldl_cons]
    rw [InsertionMap.get?_set] at held present
    constructor
    · intro stored found
      rcases held stored found with here | ⟨other, inside, same⟩
      · split at here
        · rename_i first
          exact .inr ⟨entry, List.mem_cons_self, first, (Option.some.inj here).symm⟩
        · exact .inl here
      · exact .inr ⟨other, List.mem_cons_of_mem _ inside, same⟩
    · intro some
      apply present
      by_cases first : address = path sessionId (Option.some entry.key)
      · simp [first]
      · rw [if_neg first]
        refine some.imp_right ?_
        rintro ⟨other, inside, same⟩
        rcases List.mem_cons.mp inside with rfl | later
        · exact absurd same first
        · exact ⟨other, later, same⟩

theorem snapshot_updates (place : List String) (version : Leaf)
    (update : List (String × StoredValue)) (tree : Tree)
    (clear : ∀ write ∈ update, (segments write.1 = place ∧ write.2.version = version) ∨
      Independent (segments write.1) place) :
    let after := update.foldl (fun tree write =>
      PathTree.write tree (segments write.1) write.2.node) tree
    ((∀ write ∈ update, segments write.1 ≠ place) ∧ snapshot after place = snapshot tree place) ∨
      ∃ stored : StoredValue, stored.version = version ∧ snapshot after place = stored.node := by
  induction update generalizing tree with
  | nil => exact .inl ⟨by simp, rfl⟩
  | cons write rest ih =>
    have later := ih (PathTree.write tree (segments write.1) write.2.node)
      fun other inside => clear other (List.mem_cons_of_mem _ inside)
    rw [List.foldl_cons]
    rcases later with ⟨none, kept⟩ | written
    · rcases clear write List.mem_cons_self with ⟨same, version⟩ | independent
      · refine .inr ⟨write.2, version, kept.trans ?_⟩
        rw [same]
        exact PathTree.snapshot_write_self tree place (FirebaseTree.node_unique write.2)
      · refine .inl ⟨List.forall_mem_cons.mpr ⟨?_, none⟩, kept.trans ?_⟩
        · rintro rfl
          exact independent.1 List.prefix_rfl
        · exact PathTree.snapshot_write_other (FirebaseTree.node_unique write.2) independent
    · exact .inr written

theorem get_of_rowPath {tree : Tree} {sessionId key other name : String}
    (same : rowPath other name = rowPath sessionId key) :
    FirebaseTree.get tree other name = FirebaseTree.get tree sessionId key := by
  simp only [FirebaseTree.get, same]

theorem firebaseStep_version (tree : Tree) {sessionId key : String} {call : Call}
    (clear : call.KeepsClear sessionId key) :
    (¬ call.Contains sessionId key ∧
        FirebaseTree.get (firebaseStep toText tree call) sessionId key =
          FirebaseTree.get tree sessionId key) ∨
      ∃ stored : StoredValue,
        stored.version = nextVersion toText (FirebaseTree.get tree sessionId key) ∧
        firebaseRead sessionId key (firebaseStep toText tree call) =
          some [([], stored.version)] := by
  unfold firebaseStep FirebaseTree.setMany
  by_cases empty : call.entries.length = 0
  · have nothing := List.eq_nil_of_length_eq_zero empty
    rw [if_pos empty]
    refine .inl ⟨?_, rfl⟩
    rintro ⟨_, listed⟩
    simp [nothing] at listed
  · rw [if_neg empty]
    dsimp only
    have held := update_held call.sessionId (fun entry => ⟨entry.value, call.dateNow,
      nextVersion toText ((FirebaseTree.getMany tree call.sessionId
        (call.entries.map Entry.key)).get? entry.key)⟩) call.entries .empty
    generalize call.entries.foldl _ InsertionMap.empty = update at held ⊢
    have places : ∀ write ∈ update.entries,
        (segments write.1 = rowPath sessionId key ∧
          write.2.version = nextVersion toText (FirebaseTree.get tree sessionId key)) ∨
        Independent (segments write.1) (rowPath sessionId key) := by
      rintro ⟨address, stored⟩ inside
      rcases (held address).1 stored ((InsertionMap.get?_eq_some_iff _ _ _).mpr inside) with
        none | ⟨entry, listed, rfl, rfl⟩
      · cases none
      · rcases clear entry listed with same | independent
        · refine .inl ⟨same, ?_⟩
          dsimp only
          rw [get?_getMany, if_pos (List.mem_map_of_mem listed), get_of_rowPath same]
        · exact .inr independent
    rcases snapshot_updates _ _ update.entries tree places with ⟨none, kept⟩ | ⟨stored, version, node⟩
    · refine .inl ⟨?_, FirebaseTree.get_of_snapshot kept⟩
      rintro ⟨rfl, listed⟩
      obtain ⟨entry, inside, rfl⟩ := List.mem_map.mp listed
      obtain ⟨stored, found⟩ := Option.isSome_iff_exists.mp
        ((held (path call.sessionId (some entry.key))).2 (.inr ⟨entry, inside, rfl⟩))
      exact none _ ((InsertionMap.get?_eq_some_iff _ _ _).mp found) rfl
    · refine .inr ⟨stored, version, ?_⟩
      rw [firebaseRead, FirebaseTree.get_stored node]
      rfl

def Numbered (sessionId key : String) (tree : Tree) : Prop :=
  ∀ version, firebaseRead sessionId key tree = some version →
    ∃ number : Int, version = [([], .number number)]

theorem nextVersion_number {tree : Tree} {sessionId key : String}
    (numbered : Numbered sessionId key tree) :
    ∃ number : Int, nextVersion toText (FirebaseTree.get tree sessionId key) = .number number ∧
      ∀ version, firebaseRead sessionId key tree = some version →
        numberLess version [([], .number number)] := by
  cases read : FirebaseTree.get tree sessionId key with
  | none => exact ⟨1, rfl, fun version held => by simp [firebaseRead, read] at held⟩
  | some record =>
    have held : firebaseRead sessionId key tree = some record.version := by
      rw [firebaseRead, read]
      rfl
    obtain ⟨number, same⟩ := numbered record.version held
    refine ⟨number + 1, ?_, fun version again => ?_⟩
    · simp only [nextVersion, Option.map_some, same]
    · rw [held, Option.some.injEq] at again
      exact ⟨number, number + 1, again ▸ same, rfl, Int.lt_succ number⟩

theorem firebase_moves (sessionId key : String) (calls : List Call)
    (clear : ∀ call ∈ calls, call.KeepsClear sessionId key) :
    MovesOnWrites numberLess (firebaseVersion toText sessionId key) sessionId key calls := by
  apply moves_of_steps numberLess numberLess_trans (firebaseStep toText)
    (firebaseRead sessionId key) (Numbered sessionId key)
  · intro version held
    cases held
  · intro tree call inside numbered
    rcases firebaseStep_version toText tree (clear call inside) with
      ⟨other, kept⟩ | ⟨stored, version, read⟩
    · have same : firebaseRead sessionId key (firebaseStep toText tree call) =
          firebaseRead sessionId key tree := congrArg (Option.map FirebaseTree.Record.version) kept
      rw [Numbered, same]
      exact ⟨numbered, .same _ _, fun contains => absurd contains other⟩
    · obtain ⟨number, next, above⟩ := nextVersion_number toText numbered
      rw [version, next] at read
      have raised : Raises numberLess (firebaseRead sessionId key tree)
          (firebaseRead sessionId key (firebaseStep toText tree call)) := ⟨_, read, above⟩
      refine ⟨fun version held => ?_, raised.keeps, fun _ => raised⟩
      rw [read, Option.some.injEq] at held
      exact ⟨number, held.symm⟩

end Firebase

/-- SQLite moves the version in every run and Firebase in every run that writes nothing above or
below the record; Firestore does so exactly where there is nothing to move. -/
theorem versions_move (toText : FirebaseTree.JsonNode → String) (sessionId key : String)
    (calls : List Call) :
    MovesOnWrites (· < ·) (sqliteVersion sessionId key) sessionId key calls ∧
      (MovesOnWrites (· < ·) (firestoreVersion sessionId key) sessionId key calls ↔
        WrittenFirst sessionId key calls) ∧
      ((∀ call ∈ calls, call.KeepsClear sessionId key) →
        MovesOnWrites numberLess (firebaseVersion toText sessionId key) sessionId key calls) :=
  ⟨sqlite_moves sessionId key calls, firestore_moves_iff sessionId key calls,
    firebase_moves toText sessionId key calls⟩

theorem versions_move_twice :
    let calls : List Call := [⟨"bot", [⟨"creds", "1"⟩], 0⟩, ⟨"bot", [⟨"creds", "2"⟩], 1⟩]
    MovesOnWrites numberLess (firebaseVersion (fun _ => "") "bot" "creds") "bot" "creds" calls := by
  intro calls
  refine (versions_move (fun _ => "") "bot" "creds" calls).2.2 fun call inside entry listed => .inl ?_
  simp only [calls, List.mem_cons, List.not_mem_nil, or_false] at inside
  rcases inside with rfl | rfl <;> cases List.mem_singleton.mp listed <;> rfl

theorem firestore_version_repeats :
    let calls : List Call := [⟨"bot", [⟨"creds", "1"⟩], 0⟩, ⟨"bot", [⟨"creds", "2"⟩], 1⟩]
    firestoreVersion "bot" "creds" (calls.take 1) = some 1 ∧
      firestoreVersion "bot" "creds" calls = some 1 ∧
      ¬ MovesOnWrites (· < ·) (firestoreVersion "bot" "creds") "bot" "creds" calls := by
  intro calls
  refine ⟨by decide, by decide, fun moves => ?_⟩
  obtain ⟨version, after, above⟩ := moves (calls.take 1) (calls.drop 1) [] rfl
    ⟨⟨"bot", [⟨"creds", "2"⟩], 1⟩, List.mem_cons_self, rfl, List.mem_cons_self⟩
  have second : firestoreVersion "bot" "creds" calls = some 1 := by decide
  rw [show calls.take 1 ++ calls.drop 1 = calls from rfl, second, Option.some.injEq] at after
  have higher : (1 : Int) < version := above 1 (by decide)
  omega

end BaileysSession.RecordVersions
