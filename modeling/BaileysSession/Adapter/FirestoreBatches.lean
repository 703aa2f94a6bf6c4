import BaileysSession.Adapter.Firestore
import BaileysSession.Utils.Retry

set_option autoImplicit false

namespace BaileysSession.Firestore

open Database (written)

inductive BatchWrite
  | set (id : String) (doc : FirestoreDoc)
  | delete (id : String)
  deriving DecidableEq, Repr

def BatchWrite.apply (docs : Collection) : BatchWrite → Collection
  | set id doc => docs.set id doc
  | delete id => docs.erase id

abbrev WriteBatch := List BatchWrite

def BATCH_LIMIT : Nat := 500

namespace Batches

section Calls

-- The message of the commit that is refused, and how the adapter retries.
variable (tooLarge : String) (retryOptions : Option RetryOptions)

/-- All operations of the batch in order, or none of them. -/
def commit (batch : WriteBatch) (docs : Collection) : Except String Unit × Collection :=
  if batch.length ≤ BATCH_LIMIT then (.ok (), batch.foldl BatchWrite.apply docs)
  else (.error tooLarge, docs)

def withRetry {Value : Type} (fn : Collection → Except String Value × Collection) (label : String)
    (docs : Collection) : Except (Option String) Value × Collection :=
  let retried := Retry.withRetry fn retryOptions ("firestore adapter: " ++ label) docs
  (retried.result, retried.world)

def querySession (sessionId : String) (docs : Collection) :
    Except String (List (String × FirestoreDoc)) × Collection :=
  (.ok (ofSession docs sessionId), docs)

def setMany (docs : Collection) (now : Int) (sessionId : String) (entries : List Entry) :
    Except (Option String) Unit × Collection :=
  if entries.length = 0 then (.ok (), docs)
  else
    let batch := entries.map fun entry =>
      BatchWrite.set (docId sessionId entry.key) ⟨sessionId, entry.key, entry.value, now, 1⟩
    withRetry retryOptions (commit tooLarge batch) "setMany" docs

def deleteMany (docs : Collection) (sessionId : String) (keys : List String) :
    Except (Option String) Unit × Collection :=
  if keys.length = 0 then (.ok (), docs)
  else
    let batch := keys.map fun key => BatchWrite.delete (docId sessionId key)
    withRetry retryOptions (commit tooLarge batch) "deleteMany" docs

def deleteSession (docs : Collection) (sessionId : String) :
    Except (Option String) Unit × Collection :=
  match withRetry retryOptions (querySession sessionId) "deleteSession" docs with
  | (.error error, docs) => (.error error, docs)
  | (.ok snap, docs) =>
    if snap.isEmpty then (.ok (), docs)
    else
      let batch := snap.map fun doc => BatchWrite.delete doc.1
      withRetry retryOptions (commit tooLarge batch) "deleteSession" docs

end Calls

variable {tooLarge : String} {retryOptions : Option RetryOptions}

theorem withRetry_commit (tooLarge : String) (retryOptions : Option RetryOptions) (label : String)
    (batch : WriteBatch) (docs : Collection) :
    ((withRetry retryOptions (commit tooLarge batch) label docs).1 = .ok () ↔
      0 ≤ Retry.retries retryOptions ∧ batch.length ≤ BATCH_LIMIT) ∧
    (0 ≤ Retry.retries retryOptions → batch.length ≤ BATCH_LIMIT →
      (withRetry retryOptions (commit tooLarge batch) label docs).2 =
        batch.foldl BatchWrite.apply docs) := by
  by_cases trying : 0 ≤ Retry.retries retryOptions
  · by_cases within : batch.length ≤ BATCH_LIMIT
    · have answered : commit tooLarge batch docs = (.ok (), batch.foldl BatchWrite.apply docs) :=
        if_pos within
      simp [withRetry, Retry.withRetry_ok _ trying answered, trying, within]
    · have refused : commit tooLarge batch docs = (.error tooLarge, docs) := if_neg within
      obtain ⟨thrown, result, _⟩ :=
        Retry.withRetry_refused retryOptions ("firestore adapter: " ++ label) refused
      simp [withRetry, result, within]
  · have idle := Retry.withRetry_idle (commit tooLarge batch) ("firestore adapter: " ++ label) docs
      (Int.lt_of_not_ge trying)
    simp [withRetry, idle, trying]

theorem set_batch (docs : Collection) (now : Int) (sessionId : String) (entries : List Entry) :
    (entries.map fun entry => BatchWrite.set (docId sessionId entry.key)
      ⟨sessionId, entry.key, entry.value, now, 1⟩).foldl BatchWrite.apply docs =
        Firestore.setMany docs now sessionId entries := by
  rw [List.foldl_map]
  rfl

theorem delete_batch (docs : Collection) (ids : List String) :
    (ids.map BatchWrite.delete).foldl BatchWrite.apply docs = deleteDocs docs ids := by
  rw [List.foldl_map]
  rfl

/-- Every key of the entries has a document of its own with the value that is listed for it, the
last one if there are several. -/
def Stored (docs : Collection) (sessionId : String) (entries : List Entry) : Prop :=
  ∀ entry ∈ entries, ∃ doc, get docs sessionId entry.key = some doc ∧
    doc.sessionId = sessionId ∧ doc.key = entry.key ∧ written entries entry.key = some doc.value

def OwnDocuments (sessionId : String) (entries : List Entry) : Prop :=
  ∀ first ∈ entries, ∀ second ∈ entries,
    docId sessionId first.key = docId sessionId second.key → first.key = second.key

theorem setMany_last (docs : Collection) (now : Int) (sessionId : String) (entries : List Entry)
    (id : String) :
    (∃ entry ∈ entries, docId sessionId entry.key = id ∧
      written entries entry.key = some entry.value ∧
      (Firestore.setMany docs now sessionId entries).get? id =
        some ⟨sessionId, entry.key, entry.value, now, 1⟩) ∨
    ((∀ entry ∈ entries, docId sessionId entry.key ≠ id) ∧
      (Firestore.setMany docs now sessionId entries).get? id = docs.get? id) := by
  induction entries generalizing docs with
  | nil => exact .inr ⟨by simp, rfl⟩
  | cons first rest ih =>
    rcases ih (docs.set (docId sessionId first.key) ⟨sessionId, first.key, first.value, now, 1⟩) with
      ⟨entry, inside, same, last, stored⟩ | ⟨others, kept⟩
    · refine .inl ⟨entry, List.mem_cons_of_mem first inside, same, ?_, stored⟩
      rw [Database.written_later (List.mem_map_of_mem inside)]
      exact last
    · rw [InsertionMap.get?_set] at kept
      by_cases here : id = docId sessionId first.key
      · rw [if_pos here] at kept
        refine .inl ⟨first, List.mem_cons_self, here.symm, Database.written_last ?_, kept⟩
        intro again
        obtain ⟨entry, inside, key⟩ := List.mem_map.mp again
        exact others entry inside (by rw [key, here])
      · rw [if_neg here] at kept
        exact .inr ⟨List.forall_mem_cons.mpr ⟨Ne.symm here, others⟩, kept⟩

theorem setMany_stored_iff (docs : Collection) (now : Int) (sessionId : String)
    (entries : List Entry) :
    Stored (Firestore.setMany docs now sessionId entries) sessionId entries ↔
      OwnDocuments sessionId entries := by
  constructor
  · intro stored first left second right same
    obtain ⟨one, found, -, name, -⟩ := stored first left
    obtain ⟨two, again, -, other, -⟩ := stored second right
    rw [get, same] at found
    rw [get, found, Option.some.injEq] at again
    rw [← name, ← other, again]
  · intro own entry inside
    rcases setMany_last docs now sessionId entries (docId sessionId entry.key) with
      ⟨last, listed, same, value, found⟩ | ⟨others, _⟩
    · have key := own last listed entry inside same
      rw [key] at value found
      exact ⟨_, found, rfl, rfl, value⟩
    · exact absurd rfl (others entry inside)

theorem setMany_works_iff (docs : Collection) (now : Int) (sessionId : String)
    (entries : List Entry) :
    ((setMany tooLarge retryOptions docs now sessionId entries).1 = .ok () ∧
      Stored (setMany tooLarge retryOptions docs now sessionId entries).2 sessionId entries) ↔
    (entries = [] ∨ 0 ≤ Retry.retries retryOptions) ∧ entries.length ≤ BATCH_LIMIT ∧
      OwnDocuments sessionId entries := by
  unfold setMany
  split
  · rename_i none
    have nothing := List.eq_nil_of_length_eq_zero none
    subst nothing
    simp [Stored, OwnDocuments]
  · rename_i some
    have listed : entries ≠ [] := fun nothing => some (congrArg List.length nothing)
    obtain ⟨resolves, effect⟩ := withRetry_commit tooLarge retryOptions "setMany" (entries.map fun entry =>
        BatchWrite.set (docId sessionId entry.key) ⟨sessionId, entry.key, entry.value, now, 1⟩) docs
    rw [List.length_map] at resolves effect
    rw [set_batch] at effect
    simp only [listed, false_or]
    rw [resolves, and_assoc]
    apply and_congr_right
    intro trying
    apply and_congr_right
    intro within
    rw [effect trying within]
    exact setMany_stored_iff docs now sessionId entries

theorem deleteMany_works_iff (docs : Collection) (sessionId : String) (keys : List String) :
    ((deleteMany tooLarge retryOptions docs sessionId keys).1 = .ok () ∧
      ∀ key ∈ keys,
        get (deleteMany tooLarge retryOptions docs sessionId keys).2 sessionId key = none) ↔
    (keys = [] ∨ 0 ≤ Retry.retries retryOptions) ∧ keys.length ≤ BATCH_LIMIT := by
  unfold deleteMany
  split
  · rename_i none
    have nothing := List.eq_nil_of_length_eq_zero none
    subst nothing
    simp
  · rename_i some
    have listed : keys ≠ [] := fun nothing => some (congrArg List.length nothing)
    obtain ⟨resolves, effect⟩ := withRetry_commit tooLarge retryOptions "deleteMany"
      (keys.map fun key => BatchWrite.delete (docId sessionId key)) docs
    rw [List.length_map] at resolves effect
    have deleted := delete_batch docs (keys.map (docId sessionId))
    rw [List.map_map] at deleted
    simp only [listed, false_or]
    rw [resolves]
    refine and_iff_left_of_imp ?_
    rintro ⟨trying, within⟩ key inside
    rw [effect trying within]
    refine Eq.trans (congrArg (get · sessionId key) deleted) ?_
    rw [get, get?_deleteDocs, if_pos (List.mem_map_of_mem inside)]

theorem ofSession_deleteDocs (docs : Collection) (sessionId : String) :
    ofSession (deleteDocs docs ((ofSession docs sessionId).map Prod.fst)) sessionId = [] := by
  apply List.filter_eq_nil_iff.mpr
  rintro ⟨id, doc⟩ present session
  have found := (InsertionMap.get?_eq_some_iff _ _ _).mpr present
  rw [get?_deleteDocs] at found
  split at found
  · cases found
  · rename_i kept
    have before := (InsertionMap.get?_eq_some_iff docs id doc).mp found
    exact kept (List.mem_map.mpr ⟨(id, doc), List.mem_filter.mpr ⟨before, session⟩, rfl⟩)

theorem deleteSession_works_iff (docs : Collection) (sessionId : String) :
    ((deleteSession tooLarge retryOptions docs sessionId).1 = .ok () ∧
      ofSession (deleteSession tooLarge retryOptions docs sessionId).2 sessionId = []) ↔
    0 ≤ Retry.retries retryOptions ∧ (ofSession docs sessionId).length ≤ BATCH_LIMIT := by
  unfold deleteSession
  by_cases trying : 0 ≤ Retry.retries retryOptions
  · have queried : withRetry retryOptions (querySession sessionId) "deleteSession" docs =
        (.ok (ofSession docs sessionId), docs) := by
      have answered : querySession sessionId docs = (.ok (ofSession docs sessionId), docs) := rfl
      rw [withRetry, Retry.withRetry_ok _ trying answered]
    rw [queried]
    dsimp only
    split
    · rename_i nothing
      rw [List.isEmpty_iff] at nothing
      simp [nothing, trying]
    · obtain ⟨resolves, effect⟩ := withRetry_commit tooLarge retryOptions "deleteSession"
        ((ofSession docs sessionId).map fun doc => BatchWrite.delete doc.1) docs
      rw [List.length_map] at resolves effect
      have deleted := delete_batch docs ((ofSession docs sessionId).map Prod.fst)
      rw [List.map_map] at deleted
      rw [resolves]
      refine and_iff_left_of_imp ?_
      rintro ⟨_, within⟩
      rw [effect trying within]
      exact Eq.trans (congrArg (ofSession · sessionId) deleted) (ofSession_deleteDocs docs sessionId)
  · have idle : withRetry retryOptions (querySession sessionId) "deleteSession" docs =
        (.error none, docs) := by
      rw [withRetry, Retry.withRetry_idle _ _ _ (Int.lt_of_not_ge trying)]
    simp [idle, trying]

/-- A call does its work exactly as far as one batch carries it. -/
theorem batches_work_iff (tooLarge : String) (retryOptions : Option RetryOptions)
    (docs : Collection) (now : Int) (sessionId : String) :
    (∀ entries : List Entry,
      ((setMany tooLarge retryOptions docs now sessionId entries).1 = .ok () ∧
        Stored (setMany tooLarge retryOptions docs now sessionId entries).2 sessionId entries) ↔
      (entries = [] ∨ 0 ≤ Retry.retries retryOptions) ∧ entries.length ≤ BATCH_LIMIT ∧
        OwnDocuments sessionId entries) ∧
    (∀ keys : List String,
      ((deleteMany tooLarge retryOptions docs sessionId keys).1 = .ok () ∧
        ∀ key ∈ keys,
          get (deleteMany tooLarge retryOptions docs sessionId keys).2 sessionId key = none) ↔
      (keys = [] ∨ 0 ≤ Retry.retries retryOptions) ∧ keys.length ≤ BATCH_LIMIT) ∧
    (((deleteSession tooLarge retryOptions docs sessionId).1 = .ok () ∧
        ofSession (deleteSession tooLarge retryOptions docs sessionId).2 sessionId = []) ↔
      0 ≤ Retry.retries retryOptions ∧ (ofSession docs sessionId).length ≤ BATCH_LIMIT) :=
  ⟨setMany_works_iff docs now sessionId, deleteMany_works_iff docs sessionId,
    deleteSession_works_iff docs sessionId⟩

-- One pre-key more than a batch holds.
def preKeys : List Entry := (List.range 501).map fun index => ⟨"pre-key-" ++ toString index, "v"⟩

theorem pre_keys_rejected :
    (setMany "too many writes" none .empty 0 "bot" preKeys).1 ≠ .ok () ∧
      (setMany "too many writes" none .empty 0 "bot" preKeys).2 = .empty := by
  have length : preKeys.length = 501 := by simp [preKeys]
  have refused : commit "too many writes" (preKeys.map fun entry =>
      BatchWrite.set (docId "bot" entry.key) ⟨"bot", entry.key, entry.value, 0, 1⟩) .empty =
        (.error "too many writes", .empty) := by
    apply if_neg
    rw [List.length_map, length]
    decide
  obtain ⟨thrown, result, world⟩ :=
    Retry.withRetry_refused none ("firestore adapter: " ++ "setMany") refused
  have some : preKeys.length ≠ 0 := by omega
  simp only [setMany, if_neg some, withRetry]
  rw [result, world]
  exact ⟨by simp, rfl⟩

end Batches

end BaileysSession.Firestore
