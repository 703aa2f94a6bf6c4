import BaileysSession.Adapter.DatabaseAdapter
import BaileysSession.Adapter.FirestoreBatches
import Mathlib.Data.List.Dedup

set_option autoImplicit false

namespace BaileysSession.Firestore

open DatabaseAdapter KeyedTable Overlay

section Source

def toRecord (doc : FirestoreDoc) : Record where
  sessionId := doc.sessionId
  key := doc.key
  value := doc.value
  updatedAt := doc.updatedAt
  version := doc.version

variable (tooLarge : String) (retryOptions : Option RetryOptions)

def fetching {Value : Type} (read : Collection → Value) (docs : Collection) :
    Except String Value × Collection := (.ok (read docs), docs)

def fetch {Value : Type} (label : String) (read : Collection → Value) (docs : Collection) :
    Except (Option String) Value :=
  (Batches.withRetry retryOptions (fetching read) label docs).1

def getRecord (docs : Collection) (sessionId key : String) :
    Except (Option String) (Option Record) :=
  fetch retryOptions "get" (fun docs => (get docs sessionId key).map toRecord) docs

def getMany (docs : Collection) (sessionId : String) (keys : List String) :
    Except (Option String) (InsertionMap String Record) := do
  let records ← keys.mapM fun key => do
    let record ← getRecord retryOptions docs sessionId key
    pure (key, record)
  pure (records.foldl (fun map found =>
    match found.2 with
    | some record => map.set found.1 record
    | none => map) .empty)

def deleteDoc (id : String) (docs : Collection) : Except String Unit × Collection :=
  (.ok (), docs.erase id)

def delete (docs : Collection) (sessionId key : String) :
    Except (Option String) Unit × Collection :=
  Batches.withRetry retryOptions (deleteDoc (docId sessionId key)) "delete" docs

def getAllKeys (docs : Collection) (sessionId : String) : List String :=
  (ofSession docs sessionId).map fun doc => doc.2.key

-- A `Set` keeps each id where it first came.
def listSessions (docs : Collection) : List String :=
  (docs.entries.map fun doc => doc.2.sessionId).reverse.dedup.reverse

def met (order : Arrangement (String × FirestoreDoc)) (docs : Collection) : Collection :=
  ⟨order.arrange docs.entries, ((order.perm _).map Prod.fst).nodup_iff.mpr docs.unique⟩

def fetched {Value : Type} (result : Except (Option String) Value) (answer : Value → Answer) :
    Answer :=
  match result with
  | .ok value => answer value
  | .error _ => .rejected

def step : Conformance.Component Collection (Arrangement (String × FirestoreDoc)) Call Answer :=
  fun order call stored =>
    let docs := met order stored
    let reads := fun {Value : Type} (result : Except (Option String) Value) answer =>
      (fetched result answer, docs)
    let writes := fun (written : Except (Option String) Unit × Collection) =>
      (fetched written.1 fun _ => .done, written.2)
    match call.operation with
    | .get sessionId key => reads (getRecord retryOptions docs sessionId key) .record
    | .getMany sessionId keys => reads (getMany retryOptions docs sessionId keys) .records
    | .set sessionId key value =>
      writes (Batches.setMany tooLarge retryOptions docs call.dateNow sessionId [⟨key, value⟩])
    | .setMany sessionId entries =>
      writes (Batches.setMany tooLarge retryOptions docs call.dateNow sessionId entries)
    | .delete sessionId key => writes (delete retryOptions docs sessionId key)
    | .deleteMany sessionId keys =>
      writes (Batches.deleteMany tooLarge retryOptions docs sessionId keys)
    | .getAllKeys sessionId =>
      reads (fetch retryOptions "getAllKeys" (getAllKeys · sessionId) docs) .texts
    | .deleteSession sessionId => writes (Batches.deleteSession tooLarge retryOptions docs sessionId)
    | .listSessions => reads (fetch retryOptions "listSessions" listSessions docs) .texts
    | .sessionExists sessionId =>
      reads (fetch retryOptions "sessionExists" (ofSession · sessionId) docs) fun found =>
        .bool !found.isEmpty

end Source

def Holds (pairs : String → String → Prop) (docs : Collection) (rows : Rows) : Prop :=
  ∃ db, Mirrors pairs docs db ∧ (∀ sessionId key, db.get sessionId key ≠ none → pairs sessionId key) ∧
    rowsOf db = rows

def AtMost (limit : Nat) (rows : Rows) (sessionId : String) : Prop :=
  ∃ keys : List String, keys.length ≤ limit ∧ ∀ key, rows (sessionId, key) ≠ none → key ∈ keys

-- The pair has a document id that Firestore takes.
structure Addressable (sessionId key : String) : Prop where
  short : (docId sessionId key).utf8ByteSize ≤ 1500
  unreserved : ∀ name, docId sessionId key ≠ "__" ++ name ++ "__"

def documents (now : Int) (sessionId : String) (entries : List Entry) : List FirestoreDoc :=
  entries.map fun entry => ⟨sessionId, entry.key, entry.value, now, 1⟩

-- One batch carries the call, and its documents are not too large.
def Accepted (refused : List FirestoreDoc → Bool) (rows : Rows) (call : Call) : Prop :=
  match call.operation with
  | .set sessionId key value => refused (documents call.dateNow sessionId [⟨key, value⟩]) = false
  | .setMany sessionId entries =>
    entries.length ≤ BATCH_LIMIT ∧ refused (documents call.dateNow sessionId entries) = false
  | .deleteMany _ keys => keys.length ≤ BATCH_LIMIT
  | .deleteSession sessionId => AtMost BATCH_LIMIT rows sessionId
  | _ => True

section Documents

variable {pairs : String → String → Prop} {docs : Collection} {db : Database}

theorem get?_met (order : Arrangement (String × FirestoreDoc)) (docs : Collection) (id : String) :
    (met order docs).get? id = docs.get? id :=
  InsertionMap.get?_of_perm (order.perm docs.entries) id

theorem Mirrors.met (mirrors : Mirrors pairs docs db)
    (order : Arrangement (String × FirestoreDoc)) : Mirrors pairs (met order docs) db :=
  fun id doc => by rw [get?_met]; exact mirrors id doc

theorem Mirrors.represented (mirrors : Mirrors pairs docs db)
    (within : ∀ sessionId key, db.get sessionId key ≠ none → pairs sessionId key) :
    Represented toRecord (docs.entries.map Prod.snd) (rowsOf db) := by
  have filed : ∀ entry ∈ docs.entries, entry.1 = docId entry.2.sessionId entry.2.key ∧
      db.get entry.2.sessionId entry.2.key =
        some ⟨entry.2.value, entry.2.updatedAt, entry.2.version⟩ := fun entry inside =>
    ((mirrors entry.1 entry.2).mp ((InsertionMap.get?_eq_some_iff _ _ _).mpr inside)).2
  constructor
  · rw [Keyed, List.map_map]
    -- the id is a function of the pair, and no id comes twice
    have ids : docs.entries.map Prod.fst =
        (docs.entries.map fun entry => (entry.2.sessionId, entry.2.key)).map fun pair =>
          docId pair.1 pair.2 := by
      rw [List.map_map]
      exact List.map_congr_left fun entry inside => (filed entry inside).1
    have unique := docs.unique
    rw [ids] at unique
    exact List.Nodup.of_map _ unique
  · rintro ⟨sessionId, key⟩ stored
    rw [rowsOf_eq, Option.map_eq_some_iff]
    constructor
    · rintro ⟨record, found, rfl⟩
      have present := (mirrors (docId sessionId key)
        ⟨sessionId, key, record.value, record.updatedAt, record.version⟩).mpr
          ⟨within sessionId key (by rw [found]; exact Option.some_ne_none _), rfl, found⟩
      exact ⟨_, List.mem_map_of_mem ((InsertionMap.get?_eq_some_iff _ _ _).mp present), rfl, rfl⟩
    · rintro ⟨doc, inside, pair, rfl⟩
      obtain ⟨entry, there, rfl⟩ := List.mem_map.mp inside
      obtain ⟨rfl, rfl⟩ := Prod.mk.inj pair
      exact ⟨_, (filed entry there).2, rfl⟩

theorem Mirrors.finds (mirrors : Mirrors pairs docs db)
    (within : ∀ sessionId key, db.get sessionId key ≠ none → pairs sessionId key)
    (sessionId : String) : Finds toRecord sessionId (fun _ => True) (rowsOf db)
      ((ofSession docs sessionId).map Prod.snd) := by
  have represented := mirrors.represented within
  have chosen : ((ofSession docs sessionId).map Prod.snd).Sublist (docs.entries.map Prod.snd) :=
    List.filter_sublist.map _
  refine represented.finds (represented.nodup.sublist chosen) fun doc => ?_
  rw [and_true, ofSession, List.mem_map, List.mem_map]
  constructor
  · rintro ⟨entry, inside, rfl⟩
    obtain ⟨there, session⟩ := List.mem_filter.mp inside
    exact ⟨⟨entry, there, rfl⟩, of_decide_eq_true session⟩
  · rintro ⟨⟨entry, there, rfl⟩, session⟩
    exact ⟨entry, List.mem_filter.mpr ⟨there, decide_eq_true session⟩, rfl⟩

end Documents

section Calls

variable {tooLarge : String} {retryOptions : Option RetryOptions} {docs : Collection} {now : Int}
  {sessionId : String}

theorem fetch_ok (trying : 0 ≤ Retry.retries retryOptions) {Value : Type} (label : String)
    (read : Collection → Value) (docs : Collection) :
    fetch retryOptions label read docs = .ok (read docs) := by
  have answered : fetching read docs = (.ok (read docs), docs) := rfl
  rw [fetch, Batches.withRetry, Retry.withRetry_ok _ trying answered]

theorem getMany_ok (trying : 0 ≤ Retry.retries retryOptions) (docs : Collection) (sessionId : String)
    (keys : List String) : ∃ records, getMany retryOptions docs sessionId keys = .ok records ∧
      ∀ key, records.get? key =
        if key ∈ keys then (get docs sessionId key).map toRecord else none := by
  have each : (fun key => do
      let record ← getRecord retryOptions docs sessionId key
      pure (key, record) : String → Except (Option String) (String × Option Record)) =
        fun key => pure (key, (get docs sessionId key).map toRecord) := by
    funext key
    rw [getRecord, fetch_ok trying]
    rfl
  rw [getMany, each, List.mapM_pure]
  refine ⟨_, rfl, fun key => ?_⟩
  rw [List.foldl_map, InsertionMap.get?_gathered fun key => (get docs sessionId key).map toRecord]
  · simp
  · intro found key
    cases get docs sessionId key <;> rfl

theorem commit_ok (trying : 0 ≤ Retry.retries retryOptions) {batch : WriteBatch} (label : String)
    (few : batch.length ≤ BATCH_LIMIT) (docs : Collection) :
    Batches.withRetry retryOptions (Batches.commit tooLarge batch) label docs =
      (.ok (), batch.foldl BatchWrite.apply docs) := by
  obtain ⟨resolves, effect⟩ := Batches.withRetry_commit tooLarge retryOptions label batch docs
  exact Prod.ext (resolves.mpr ⟨trying, few⟩) (effect trying few)

theorem batches_setMany (trying : 0 ≤ Retry.retries retryOptions) {entries : List Entry}
    (few : entries.length ≤ BATCH_LIMIT) :
    Batches.setMany tooLarge retryOptions docs now sessionId entries =
      (.ok (), setMany docs now sessionId entries) := by
  unfold Batches.setMany
  split
  · rename_i empty
    rw [List.length_eq_zero_iff.mp empty]
    rfl
  · rw [commit_ok trying "setMany" (by rw [List.length_map]; exact few), Batches.set_batch]

theorem batches_deleteMany (trying : 0 ≤ Retry.retries retryOptions) {keys : List String}
    (few : keys.length ≤ BATCH_LIMIT) :
    Batches.deleteMany tooLarge retryOptions docs sessionId keys =
      (.ok (), deleteMany docs sessionId keys) := by
  unfold Batches.deleteMany
  split
  · rename_i empty
    rw [List.length_eq_zero_iff.mp empty]
    rfl
  · rw [commit_ok trying "deleteMany" (by rw [List.length_map]; exact few)]
    have deleted := Batches.delete_batch docs (keys.map (docId sessionId))
    rw [List.map_map] at deleted
    exact congrArg (Prod.mk _) deleted

theorem batches_deleteSession (trying : 0 ≤ Retry.retries retryOptions)
    (few : (ofSession docs sessionId).length ≤ BATCH_LIMIT) :
    Batches.deleteSession tooLarge retryOptions docs sessionId =
      (.ok (), deleteSession docs sessionId) := by
  have answered : Batches.querySession sessionId docs = (.ok (ofSession docs sessionId), docs) := rfl
  have queried : Batches.withRetry retryOptions (Batches.querySession sessionId) "deleteSession" docs =
      (.ok (ofSession docs sessionId), docs) := by
    rw [Batches.withRetry, Retry.withRetry_ok _ trying answered]
  rw [Batches.deleteSession, queried, deleteSession]
  dsimp only
  split
  · rename_i empty
    rw [List.isEmpty_iff.mp empty]
    rfl
  · rw [commit_ok trying "deleteSession" (by rw [List.length_map]; exact few)]
    have deleted := Batches.delete_batch docs ((ofSession docs sessionId).map Prod.fst)
    rw [List.map_map] at deleted
    exact congrArg (Prod.mk _) deleted

theorem delete_ok (trying : 0 ≤ Retry.retries retryOptions) (key : String) :
    delete retryOptions docs sessionId key = (.ok (), deleteMany docs sessionId [key]) := by
  have answered : deleteDoc (docId sessionId key) docs =
      (.ok (), deleteMany docs sessionId [key]) := rfl
  rw [delete, Batches.withRetry, Retry.withRetry_ok _ trying answered]

end Calls

section Steps

variable {tooLarge : String} {retryOptions : Option RetryOptions} {pairs : String → String → Prop}
  {refused : List FirestoreDoc → Bool} {docs : Collection} {rows : Rows}

theorem AtMost.length {limit : Nat} {sessionId : String} {found : List FirestoreDoc}
    (few : AtMost limit rows sessionId)
    (finds : Finds toRecord sessionId (fun _ => True) rows found) : found.length ≤ limit := by
  obtain ⟨keys, size, listed⟩ := few
  have inside : (found.map fun doc => (toRecord doc).key) ⊆ keys := fun key there => by
    obtain ⟨doc, present, rfl⟩ := List.mem_map.mp there
    exact listed _ (finds.present present)
  have fewer := (List.subperm_of_subset finds.unique inside).length_le
  rw [List.length_map] at fewer
  exact fewer.trans size

theorem listSessions_lists (represented : Represented toRecord (docs.entries.map Prod.snd) rows) :
    Lists (listSessions docs) fun sessionId => ∃ key, rows (sessionId, key) ≠ none := by
  refine represented.sessions (List.nodup_reverse.mpr (List.nodup_dedup _)) fun sessionId => ?_
  simp only [listSessions, List.mem_reverse, List.mem_dedup, List.mem_map, toRecord]
  exact ⟨fun ⟨entry, inside, same⟩ => ⟨entry.2, ⟨entry, inside, rfl⟩, same⟩,
    fun ⟨_, ⟨entry, inside, rfl⟩, same⟩ => ⟨entry, inside, same⟩⟩

theorem Holds.met (holds : Holds pairs docs rows) (order : Arrangement (String × FirestoreDoc)) :
    Holds pairs (Firestore.met order docs) rows := by
  obtain ⟨db, mirrors, within, same⟩ := holds
  exact ⟨db, mirrors.met order, within, same⟩

theorem Holds.setMany (holds : Holds pairs docs rows) (apart : Apart pairs) {now : Int}
    {sessionId : String} {entries : List Entry} (inside : ∀ entry ∈ entries, pairs sessionId entry.key) :
    Holds pairs (setMany docs now sessionId entries)
      (putAll rows (entries.map (stamp now sessionId))) := by
  obtain ⟨db, mirrors, within, rfl⟩ := holds
  refine ⟨_, mirrors.setMany apart inside now, fun other key present => ?_,
    rowsOf_setMany _ _ _ _ _⟩
  by_cases here : other = sessionId ∧ key ∈ entries.map Entry.key
  · obtain ⟨rfl, listed⟩ := here
    obtain ⟨entry, there, rfl⟩ := List.mem_map.mp listed
    exact inside entry there
  · refine within other key fun missing => present ?_
    rw [← missing]
    by_cases session : other = sessionId
    · subst session
      exact Database.get_setMany_of_not_mem _ _ _ _ _ _ fun listed => here ⟨rfl, listed⟩
    · exact Database.get_setMany_other _ _ _ session _ _

theorem Holds.deleteMany (holds : Holds pairs docs rows) (apart : Apart pairs) {sessionId : String}
    {keys : List String} (inside : ∀ key ∈ keys, pairs sessionId key) :
    Holds pairs (deleteMany docs sessionId keys) (without sessionId keys rows) := by
  obtain ⟨db, mirrors, within, rfl⟩ := holds
  refine ⟨_, mirrors.deleteMany apart inside, fun other key present => ?_, rowsOf_deleteMany _ _ _⟩
  rw [Database.get_deleteMany] at present
  split at present
  · exact absurd rfl present
  · exact within other key present

theorem Holds.deleteSession (holds : Holds pairs docs rows) (sessionId : String) :
    Holds pairs (deleteSession docs sessionId)
      fun pair => if pair.1 = sessionId then none else rows pair := by
  obtain ⟨db, mirrors, within, rfl⟩ := holds
  refine ⟨_, mirrors.deleteSession sessionId, fun other key present => ?_,
    rowsOf_deleteSession _ _⟩
  rw [Database.get_deleteSession] at present
  split at present
  · exact absurd rfl present
  · exact within other key present

theorem Holds.represented (holds : Holds pairs docs rows) :
    Represented toRecord (docs.entries.map Prod.snd) rows := by
  obtain ⟨db, mirrors, within, rfl⟩ := holds
  exact mirrors.represented within

theorem Holds.finds (holds : Holds pairs docs rows) (sessionId : String) :
    Finds toRecord sessionId (fun _ => True) rows ((ofSession docs sessionId).map Prod.snd) := by
  obtain ⟨db, mirrors, within, rfl⟩ := holds
  exact mirrors.finds within sessionId

theorem Holds.get (holds : Holds pairs docs rows) (apart : Apart pairs) {sessionId key : String}
    (inside : pairs sessionId key) :
    ((get docs sessionId key).map toRecord).map Record.content = content rows sessionId key := by
  obtain ⟨db, mirrors, within, rfl⟩ := holds
  rw [mirrors.exact apart sessionId key inside, content, rowsOf_eq]
  cases db.get sessionId key <;> rfl

theorem step_right {sessions keys : String → Prop} (trying : 0 ≤ Retry.retries retryOptions)
    (apart : Apart fun sessionId key => sessions sessionId ∧ keys key)
    (initial : Holds (fun sessionId key => sessions sessionId ∧ keys key) docs rows)
    (order : Arrangement (String × FirestoreDoc)) {call : Call}
    (within : call.operation.Within sessions keys) (accepted : Accepted refused rows call) :
    right call rows (step tooLarge retryOptions order call docs).1 ∧
      Holds (fun sessionId key => sessions sessionId ∧ keys key)
        (step tooLarge retryOptions order call docs).2 (asked call rows) := by
  have holds := initial.met order
  obtain ⟨operation, now⟩ := call
  unfold right asked step
  unfold Accepted at accepted
  cases operation with
  | get sessionId key =>
    dsimp only
    rw [getRecord, fetch_ok trying]
    exact ⟨⟨_, rfl, holds.get apart within⟩, holds⟩
  | getMany sessionId names =>
    obtain ⟨records, found, read⟩ := getMany_ok trying (met order docs) sessionId names
    dsimp only
    rw [found]
    refine ⟨⟨_, rfl, fun key => ?_⟩, holds⟩
    rw [read key]
    split
    · rename_i listed
      exact holds.get apart ⟨within.1, within.2 key listed⟩
    · rfl
  | set sessionId key value =>
    dsimp only
    have one : [Entry.mk key value].length ≤ BATCH_LIMIT := show 1 ≤ BATCH_LIMIT by decide
    rw [batches_setMany trying one]
    refine ⟨rfl, holds.setMany apart fun entry inside => ?_⟩
    rw [List.mem_singleton.mp inside]
    exact within
  | setMany sessionId entries =>
    dsimp only
    rw [batches_setMany trying accepted.1]
    exact ⟨rfl, holds.setMany apart fun entry inside => ⟨within.1, within.2 entry inside⟩⟩
  | delete sessionId key =>
    dsimp only
    rw [delete_ok trying]
    refine ⟨rfl, holds.deleteMany apart fun name inside => ?_⟩
    rw [List.mem_singleton.mp inside]
    exact within
  | deleteMany sessionId names =>
    dsimp only
    rw [batches_deleteMany trying accepted]
    exact ⟨rfl, holds.deleteMany apart fun key inside => ⟨within.1, within.2 key inside⟩⟩
  | getAllKeys sessionId =>
    dsimp only
    rw [fetch_ok trying]
    refine ⟨⟨_, rfl, ?_⟩, holds⟩
    have lists := (holds.finds sessionId).lists
    rw [List.map_map] at lists
    exact lists
  | deleteSession sessionId =>
    dsimp only
    have few := accepted.length (holds.finds sessionId)
    rw [List.length_map] at few
    rw [batches_deleteSession trying few]
    exact ⟨rfl, holds.deleteSession sessionId⟩
  | listSessions =>
    dsimp only
    rw [fetch_ok trying]
    exact ⟨⟨_, rfl, listSessions_lists holds.represented⟩, holds⟩
  | sessionExists sessionId =>
    dsimp only
    rw [fetch_ok trying]
    refine ⟨⟨_, rfl, ?_⟩, holds⟩
    rw [← (holds.finds sessionId).some_iff, Ne, List.map_eq_nil_iff]
    cases ofSession (met order docs) sessionId <;> simp

theorem firestore_conforms (tooLarge : String) {sessions keys : String → Prop}
    (trying : 0 ≤ Retry.retries retryOptions)
    (apart : Apart fun sessionId key => sessions sessionId ∧ keys key) :
    Conformance.Conforms contract (step tooLarge retryOptions)
      (Holds fun sessionId key => sessions sessionId ∧ keys key) fun rows _ call =>
        call.operation.Within sessions keys ∧ Accepted refused rows call :=
  ⟨fun order _ _ _ holds admitted =>
      (step_right trying apart holds order admitted.1 admitted.2).1,
    fun order _ _ _ holds admitted =>
      (step_right trying apart holds order admitted.1 admitted.2).2⟩

theorem empty_holds (pairs : String → String → Prop) : Holds pairs .empty nothing :=
  ⟨.empty, fun _ _ => ⟨nofun, nofun⟩, fun _ _ => absurd rfl, rowsOf_empty⟩

end Steps

end BaileysSession.Firestore
