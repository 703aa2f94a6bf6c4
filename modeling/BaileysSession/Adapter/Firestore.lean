import BaileysSession.Adapter.Database
import BaileysSession.Shared.Text

set_option autoImplicit false

namespace BaileysSession.Firestore

-- `toRecord` copies every field.
structure FirestoreDoc where
  sessionId : String
  key : String
  value : String
  updatedAt : Int
  version : Int
  deriving DecidableEq, Repr

abbrev Collection := InsertionMap String FirestoreDoc

def withoutSlashes (text : String) : String :=
  String.ofList (text.toList.map fun char => if char = '/' then '_' else char)

def docId (sessionId key : String) : String :=
  withoutSlashes sessionId ++ "__" ++ withoutSlashes key

def get (docs : Collection) (sessionId key : String) : Option FirestoreDoc :=
  docs.get? (docId sessionId key)

-- One `WriteBatch`, whose operations take effect in order.
def setMany (docs : Collection) (now : Int) (sessionId : String) (entries : List Entry) :
    Collection :=
  entries.foldl (fun docs entry =>
    docs.set (docId sessionId entry.key) ⟨sessionId, entry.key, entry.value, now, 1⟩) docs

def deleteDocs (docs : Collection) (ids : List String) : Collection := ids.foldl .erase docs

def deleteMany (docs : Collection) (sessionId : String) (keys : List String) : Collection :=
  deleteDocs docs (keys.map (docId sessionId))

-- `collection.where('sessionId', '==', sessionId)`
def ofSession (docs : Collection) (sessionId : String) : List (String × FirestoreDoc) :=
  docs.entries.filter fun doc => decide (doc.2.sessionId = sessionId)

def deleteSession (docs : Collection) (sessionId : String) : Collection :=
  deleteDocs docs ((ofSession docs sessionId).map Prod.fst)

inductive Operation where
  | get (sessionId key : String)
  | setMany (sessionId : String) (entries : List Entry) (dateNow : Int)
  | deleteMany (sessionId : String) (keys : List String)
  | deleteSession (sessionId : String)
  deriving DecidableEq, Repr

def run (docs : Collection) (operations : List Operation) : Collection :=
  operations.foldl (fun docs operation =>
    match operation with
    | .get _ _ => docs
    | .setMany sessionId entries dateNow => setMany docs dateNow sessionId entries
    | .deleteMany sessionId keys => deleteMany docs sessionId keys
    | .deleteSession sessionId => deleteSession docs sessionId) docs

def runRows (db : Database) (operations : List Operation) : Database :=
  operations.foldl (fun db operation =>
    match operation with
    | .get _ _ => db
    | .setMany sessionId entries dateNow => db.setMany (fun _ => 1) dateNow sessionId entries
    | .deleteMany sessionId keys => db.deleteMany sessionId keys
    | .deleteSession sessionId => db.deleteSession sessionId) db

def Operation.Within (pairs : String → String → Prop) : Operation → Prop
  | .get sessionId key => pairs sessionId key
  | .setMany sessionId entries _ => ∀ entry ∈ entries, pairs sessionId entry.key
  | .deleteMany sessionId keys => ∀ key ∈ keys, pairs sessionId key
  | .deleteSession _ => True

def Apart (pairs : String → String → Prop) : Prop :=
  ∀ sessionId key other name, pairs sessionId key → pairs other name →
    docId sessionId key = docId other name → sessionId = other ∧ key = name

def Exact (pairs : String → String → Prop) (docs : Collection) (db : Database) : Prop :=
  ∀ sessionId key, pairs sessionId key → get docs sessionId key =
    (db.get sessionId key).map fun row =>
      ⟨sessionId, key, row.value, row.updatedAt, row.version⟩

def Mirrors (pairs : String → String → Prop) (docs : Collection) (db : Database) : Prop :=
  ∀ id doc, docs.get? id = some doc ↔ pairs doc.sessionId doc.key ∧
    id = docId doc.sessionId doc.key ∧
      db.get doc.sessionId doc.key = some ⟨doc.value, doc.updatedAt, doc.version⟩

theorem get?_deleteDocs (docs : Collection) (ids : List String) (id : String) :
    (deleteDocs docs ids).get? id = if id ∈ ids then none else docs.get? id := by
  induction ids generalizing docs with
  | nil => simp [deleteDocs]
  | cons first rest ih =>
    have later := ih (docs.erase first)
    rw [deleteDocs] at later
    rw [deleteDocs, List.foldl_cons, later, InsertionMap.get?_erase]
    by_cases here : id = first <;> by_cases there : id ∈ rest <;> simp [here, there]

section Mirrors

variable {pairs : String → String → Prop} {docs : Collection} {db : Database}

theorem Mirrors.exact (mirrors : Mirrors pairs docs db) (apart : Apart pairs) :
    Exact pairs docs db := by
  intro sessionId key inside
  ext doc
  rw [get, mirrors, Option.map_eq_some_iff]
  constructor
  · rintro ⟨there, same, stored⟩
    obtain ⟨rfl, rfl⟩ := apart _ _ _ _ inside there same
    exact ⟨_, stored, rfl⟩
  · rintro ⟨row, stored, rfl⟩
    exact ⟨inside, rfl, stored⟩

theorem Mirrors.set (mirrors : Mirrors pairs docs db) (apart : Apart pairs) {sessionId : String}
    {entry : Entry} (inside : pairs sessionId entry.key) (now : Int) :
    Mirrors pairs
      (docs.set (docId sessionId entry.key) ⟨sessionId, entry.key, entry.value, now, 1⟩)
      (db.set (fun _ => 1) now sessionId entry) := by
  rintro id ⟨session, key, value, updatedAt, version⟩
  rw [InsertionMap.get?_set, Database.get_set]
  dsimp only
  by_cases here : session = sessionId ∧ key = entry.key
  · obtain ⟨rfl, rfl⟩ := here
    have written : session = session ∧ entry.key = entry.key := ⟨rfl, rfl⟩
    rw [if_pos written]
    by_cases same : id = docId session entry.key
    · simp [same, inside]
    · rw [if_neg same, mirrors]
      simp [same]
  · rw [if_neg here]
    by_cases same : id = docId sessionId entry.key
    · rw [if_pos same, same]
      constructor
      · rintro ⟨⟩
        exact absurd ⟨rfl, rfl⟩ here
      · rintro ⟨there, name, -⟩
        obtain ⟨rfl, rfl⟩ := apart _ _ _ _ inside there name
        exact absurd ⟨rfl, rfl⟩ here
    · rw [if_neg same, mirrors]

theorem Mirrors.setMany (mirrors : Mirrors pairs docs db) (apart : Apart pairs) {sessionId : String}
    {entries : List Entry} (inside : ∀ entry ∈ entries, pairs sessionId entry.key) (now : Int) :
    Mirrors pairs (setMany docs now sessionId entries)
      (db.setMany (fun _ => 1) now sessionId entries) := by
  induction entries generalizing docs db with
  | nil => exact mirrors
  | cons entry rest ih =>
    exact ih (mirrors.set apart (inside entry List.mem_cons_self) now)
      fun other later => inside other (List.mem_cons_of_mem entry later)

theorem Mirrors.deleteMany (mirrors : Mirrors pairs docs db) (apart : Apart pairs)
    {sessionId : String} {keys : List String} (inside : ∀ key ∈ keys, pairs sessionId key) :
    Mirrors pairs (deleteMany docs sessionId keys) (db.deleteMany sessionId keys) := by
  intro id doc
  rw [Firestore.deleteMany, get?_deleteDocs, Database.get_deleteMany]
  by_cases here : doc.sessionId = sessionId ∧ doc.key ∈ keys
  · rw [if_pos here]
    constructor
    · intro found
      split at found
      · cases found
      · rename_i kept
        have name := ((mirrors id doc).mp found).2.1
        rw [here.1] at name
        exact absurd (List.mem_map.mpr ⟨doc.key, here.2, name.symm⟩) kept
    · rintro ⟨-, -, gone⟩
      cases gone
  · rw [if_neg here]
    split
    · rename_i listed
      constructor
      · intro gone
        cases gone
      · rintro ⟨there, rfl, -⟩
        obtain ⟨key, deleted, same⟩ := List.mem_map.mp listed
        obtain ⟨session, rfl⟩ := apart _ _ _ _ (inside key deleted) there same
        exact absurd ⟨session.symm, deleted⟩ here
    · exact mirrors id doc

theorem Mirrors.deleteSession (mirrors : Mirrors pairs docs db) (sessionId : String) :
    Mirrors pairs (deleteSession docs sessionId) (db.deleteSession sessionId) := by
  intro id doc
  have listed : ∀ {found : FirestoreDoc}, docs.get? id = some found →
      (id ∈ (ofSession docs sessionId).map Prod.fst ↔ found.sessionId = sessionId) := by
    intro found present
    constructor
    · intro inside
      obtain ⟨⟨_, other⟩, kept, rfl⟩ := List.mem_map.mp inside
      obtain ⟨entry, session⟩ := List.mem_filter.mp kept
      rw [(InsertionMap.get?_eq_some_iff _ _ _).mpr entry, Option.some.injEq] at present
      exact present ▸ of_decide_eq_true session
    · intro session
      exact List.mem_map.mpr ⟨(id, found), List.mem_filter.mpr
        ⟨(InsertionMap.get?_eq_some_iff _ _ _).mp present, decide_eq_true session⟩, rfl⟩
  rw [Firestore.deleteSession, get?_deleteDocs, Database.get_deleteSession]
  constructor
  · intro found
    split at found
    · cases found
    · rename_i kept
      rw [if_neg (mt (listed found).mpr kept)]
      exact (mirrors id doc).mp found
  · intro stored
    split at stored
    · cases stored.2.2
    · rename_i other
      have present := (mirrors id doc).mpr stored
      rw [if_neg (mt (listed present).mp other), present]

end Mirrors

theorem run_mirrors {pairs : String → String → Prop} (apart : Apart pairs)
    {operations : List Operation} (within : ∀ operation ∈ operations, operation.Within pairs)
    {docs : Collection} {db : Database} (mirrors : Mirrors pairs docs db) :
    Mirrors pairs (run docs operations) (runRows db operations) := by
  induction operations generalizing docs db with
  | nil => exact mirrors
  | cons operation rest ih =>
    have first := within operation List.mem_cons_self
    refine ih (fun other later => within other (List.mem_cons_of_mem operation later)) ?_
    cases operation with
    | get sessionId key => exact mirrors
    | setMany sessionId entries dateNow => exact mirrors.setMany apart first dateNow
    | deleteMany sessionId keys => exact mirrors.deleteMany apart first
    | deleteSession sessionId => exact mirrors.deleteSession sessionId

/-- Whatever is done to some pairs, each of them keeps its own record exactly when no two of them
have one document. -/
theorem rows_kept_apart_iff (pairs : String → String → Prop) :
    (∀ operations : List Operation, (∀ operation ∈ operations, operation.Within pairs) →
      Exact pairs (run .empty operations) (runRows .empty operations)) ↔ Apart pairs := by
  constructor
  · intro right sessionId key other name inside there same
    have within : ∀ operation ∈ [Operation.setMany sessionId [⟨key, ""⟩] 0],
        operation.Within pairs := by
      intro operation only
      rw [List.mem_singleton.mp only]
      intro entry single
      rw [List.mem_singleton.mp single]
      exact inside
    have read := right _ within other name there
    have written : get (run .empty [Operation.setMany sessionId [⟨key, ""⟩] 0]) other name =
        some ⟨sessionId, key, "", 0, 1⟩ := by
      rw [get, ← same]
      simp [run, setMany]
    rw [written] at read
    obtain ⟨_, -, record⟩ := Option.map_eq_some_iff.mp read.symm
    rw [FirestoreDoc.mk.injEq] at record
    exact ⟨record.1.symm, record.2.1.symm⟩
  · intro apart operations within
    refine (run_mirrors apart within ?_).exact apart
    intro id doc
    constructor
    · intro found
      cases found
    · rintro ⟨-, -, stored⟩
      cases stored

theorem withoutSlashes_plain {text : String} (plain : '/' ∉ text.toList) :
    withoutSlashes text = text := by
  have kept : text.toList.map (fun char => if char = '/' then '_' else char) = text.toList := by
    conv_rhs => rw [← List.map_id text.toList]
    exact List.map_congr_left fun char inside => if_neg fun (slash : char = '/') => plain (slash ▸ inside)
  rw [withoutSlashes, kept, String.ofList_toList]

theorem plain_pairs_apart :
    Apart fun sessionId key => '/' ∉ sessionId.toList ∧ '_' ∉ sessionId.toList ∧
      '/' ∉ key.toList := by
  rintro sessionId key other name ⟨noSlash, noDash, keySlash⟩ ⟨otherSlash, otherDash, nameSlash⟩ same
  rw [docId, docId, withoutSlashes_plain noSlash, withoutSlashes_plain keySlash,
    withoutSlashes_plain otherSlash, withoutSlashes_plain nameSlash] at same
  have lists := congrArg String.toList same
  simp only [String.toList_append, List.append_assoc] at lists
  obtain ⟨session, rest⟩ := Text.split_unique noDash otherDash lists
  exact ⟨String.toList_inj.mp session, String.toList_inj.mp (List.cons.inj rest).2⟩

def clashingRun : List Operation :=
  [.setMany "team/bot" [⟨"creds", "1"⟩] 0, .setMany "team_bot" [⟨"creds", "2"⟩] 0]

theorem other_session_document_read :
    get (run .empty clashingRun) "team/bot" "creds" = some ⟨"team_bot", "creds", "2", 0, 1⟩ ∧
      (runRows .empty clashingRun).get "team/bot" "creds" = some ⟨"1", 0, 1⟩ := by
  decide

end BaileysSession.Firestore
