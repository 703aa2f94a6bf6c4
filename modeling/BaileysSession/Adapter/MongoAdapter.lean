import BaileysSession.Adapter.DatabaseAdapter
import Mathlib.Data.List.Dedup

set_option autoImplicit false

namespace BaileysSession.MongoAdapter

open DatabaseAdapter KeyedTable Overlay

section Source

structure MongoDoc where
  sessionId : String
  key : String
  value : String
  updatedAt : Int
  version : Int
  deriving DecidableEq, Repr

def toRecord (doc : MongoDoc) : Record where
  sessionId := doc.sessionId
  key := doc.key
  value := doc.value
  updatedAt := doc.updatedAt
  version := doc.version

inductive Filter where
  | pair (sessionId key : String)
  | among (sessionId : String) (keys : List String)
  | session (sessionId : String)

def Filter.matches : Filter → MongoDoc → Bool
  | .pair sessionId key, doc => doc.sessionId = sessionId && doc.key = key
  | .among sessionId keys, doc => doc.sessionId = sessionId && doc.key ∈ keys
  | .session sessionId, doc => doc.sessionId = sessionId

-- An `updateOne` with `upsert: true`: `$set` of the value and the date, `$inc` of the version, and
-- the pair of the filter `$setOnInsert`.
structure UpdateOne where
  filter : String × String
  set : String × Int
  setOnInsert : String × String
  inc : Int

def updateOne (now : Int) (sessionId : String) (entry : Entry) : UpdateOne where
  filter := (sessionId, entry.key)
  set := (entry.value, now)
  setOnInsert := (sessionId, entry.key)
  inc := 1

def UpdateOne.inserted (op : UpdateOne) : MongoDoc :=
  ⟨op.setOnInsert.1, op.setOnInsert.2, op.set.1, op.set.2, op.inc⟩

def UpdateOne.updated (op : UpdateOne) (doc : MongoDoc) : MongoDoc :=
  { doc with value := op.set.1, updatedAt := op.set.2, version := doc.version + op.inc }

def UpdateOne.selects (op : UpdateOne) (doc : MongoDoc) : Bool :=
  (doc.sessionId, doc.key) = op.filter

def UpdateOne.apply (op : UpdateOne) : List MongoDoc → List MongoDoc
  | [] => [op.inserted]
  | doc :: rest => if op.selects doc then op.updated doc :: rest else doc :: op.apply rest

def UpdateOne.written (op : UpdateOne) (docs : List MongoDoc) : MongoDoc :=
  (docs.find? op.selects).elim op.inserted op.updated

/-- The operations are made in order, up to the first one whose document the server refuses. -/
def bulkWrite (tooLarge : MongoDoc → Bool) : List UpdateOne → List MongoDoc → Bool × List MongoDoc
  | [], docs => (true, docs)
  | op :: rest, docs =>
    if tooLarge (op.written docs) then (false, docs) else bulkWrite tooLarge rest (op.apply docs)

variable (order : Arrangement MongoDoc)

def find (filter : Filter) (docs : List MongoDoc) : List MongoDoc :=
  order.arrange (docs.filter filter.matches)

def findOne (filter : Filter) (docs : List MongoDoc) : Option MongoDoc :=
  (find order filter docs).head?

def deleteOne (filter : Filter) (docs : List MongoDoc) : List MongoDoc :=
  match findOne order filter docs with
  | none => docs
  | some doc => docs.erase doc

def deleteMany (filter : Filter) (docs : List MongoDoc) : List MongoDoc :=
  docs.filter fun doc => !filter.matches doc

def distinct (docs : List MongoDoc) : List String :=
  ((order.arrange docs).map MongoDoc.sessionId).dedup

def setMany (tooLarge : MongoDoc → Bool) (now : Int) (sessionId : String) (entries : List Entry)
    (docs : List MongoDoc) : Answer × List MongoDoc :=
  if entries.length = 0 then (.done, docs)
  else
    let written := bulkWrite tooLarge (entries.map (updateOne now sessionId)) docs
    (if written.1 then .done else .rejected, written.2)

def step (tooLarge : MongoDoc → Bool) :
    Conformance.Component (List MongoDoc) (Arrangement MongoDoc) Call Answer := fun order call docs =>
  match call.operation with
  | .get sessionId key => (.record ((findOne order (.pair sessionId key) docs).map toRecord), docs)
  | .getMany sessionId keys =>
    if keys.length = 0 then (.records .empty, docs)
    else
      (.records ((find order (.among sessionId keys) docs).foldl
        (fun map doc => map.set doc.key (toRecord doc)) .empty), docs)
  | .set sessionId key value => setMany tooLarge call.dateNow sessionId [⟨key, value⟩] docs
  | .setMany sessionId entries => setMany tooLarge call.dateNow sessionId entries docs
  | .delete sessionId key => (.done, deleteOne order (.pair sessionId key) docs)
  | .deleteMany sessionId keys =>
    if keys.length = 0 then (.done, docs) else (.done, deleteMany (.among sessionId keys) docs)
  | .getAllKeys sessionId => (.texts ((find order (.session sessionId) docs).map MongoDoc.key), docs)
  | .deleteSession sessionId => (.done, deleteMany (.session sessionId) docs)
  | .listSessions => (.texts (distinct order docs), docs)
  | .sessionExists sessionId => (.bool (findOne order (.session sessionId) docs).isSome, docs)

end Source

def Fits (tooLarge : MongoDoc → Bool) (now : Int) (sessionId : String) (entry : Entry) : Prop :=
  ∀ version, tooLarge ⟨sessionId, entry.key, entry.value, now, version⟩ = false

def Accepted (tooLarge : MongoDoc → Bool) (call : Call) : Prop :=
  match call.operation with
  | .set sessionId key value => Fits tooLarge call.dateNow sessionId ⟨key, value⟩
  | .setMany sessionId entries => ∀ entry ∈ entries, Fits tooLarge call.dateNow sessionId entry
  | _ => True

section Documents

variable {tooLarge : MongoDoc → Bool} {docs : List MongoDoc} {rows : Rows} {now : Int}
  {sessionId : String}

theorem selects_updateOne (entry : Entry) (doc : MongoDoc) :
    (updateOne now sessionId entry).selects doc = true ↔
      doc.sessionId = sessionId ∧ doc.key = entry.key := by
  simp [UpdateOne.selects, updateOne]

-- What an operation does to a document, from the document it would insert.
def merge (fresh doc : MongoDoc) : MongoDoc :=
  { doc with value := fresh.value, updatedAt := fresh.updatedAt, version := doc.version + fresh.version }

theorem apply_updateOne (entry : Entry) (docs : List MongoDoc) :
    (updateOne now sessionId entry).apply docs =
      upsert (fun doc => (toRecord doc).content.1) merge (updateOne now sessionId entry).inserted
        docs := by
  induction docs with
  | nil => rfl
  | cons doc rest ih =>
    rw [UpdateOne.apply, upsert, ih]
    exact if_congr (by simp [UpdateOne.selects, updateOne, UpdateOne.inserted, toRecord,
      Record.content]) rfl rfl

theorem Fits.written {entry : Entry} (fits : Fits tooLarge now sessionId entry)
    (docs : List MongoDoc) : tooLarge ((updateOne now sessionId entry).written docs) = false := by
  unfold UpdateOne.written
  cases found : docs.find? (updateOne now sessionId entry).selects with
  | none => exact fits 1
  | some doc =>
    obtain ⟨session, named⟩ := (selects_updateOne entry doc).mp (List.find?_some found)
    have after : (updateOne now sessionId entry).updated doc =
        ⟨sessionId, entry.key, entry.value, now, doc.version + 1⟩ := by
      rw [← session, ← named]
      rfl
    rw [Option.elim_some, after]
    exact fits _

theorem represented_apply (represented : Represented toRecord docs rows) (entry : Entry) :
    Represented toRecord ((updateOne now sessionId entry).apply docs)
      (put rows (stamp now sessionId entry)) := by
  rw [apply_updateOne]
  exact @Represents.upsert _ _ _ _ merge _ _ _ _ represented (fun _ _ same => same)
    (fun _ _ => rfl) (updateOne now sessionId entry).inserted

theorem represented_bulkWrite (represented : Represented toRecord docs rows) {entries : List Entry}
    (fit : ∀ entry ∈ entries, Fits tooLarge now sessionId entry) :
    (bulkWrite tooLarge (entries.map (updateOne now sessionId)) docs).1 = true ∧
      Represented toRecord (bulkWrite tooLarge (entries.map (updateOne now sessionId)) docs).2
        (putAll rows (entries.map (stamp now sessionId))) := by
  induction entries generalizing docs rows with
  | nil => exact ⟨rfl, represented⟩
  | cons entry rest ih =>
    rw [List.map_cons, bulkWrite, (fit entry List.mem_cons_self).written docs]
    exact ih (represented_apply represented entry) fun other inside =>
      fit other (List.mem_cons_of_mem entry inside)

theorem represented_setMany (represented : Represented toRecord docs rows) {entries : List Entry}
    (fit : ∀ entry ∈ entries, Fits tooLarge now sessionId entry) :
    (setMany tooLarge now sessionId entries docs).1 = .done ∧
      Represented toRecord (setMany tooLarge now sessionId entries docs).2
        (putAll rows (entries.map (stamp now sessionId))) := by
  have written := represented_bulkWrite represented fit
  unfold setMany
  split
  · rename_i none
    rw [List.length_eq_zero_iff.mp none]
    exact ⟨rfl, represented⟩
  · exact ⟨if_pos written.1, written.2⟩

theorem represented_deleteMany (represented : Represented toRecord docs rows) (filter : Filter)
    {removed : String × String → Prop} [DecidablePred removed]
    (selected : ∀ doc, filter.matches doc = true ↔ removed (doc.sessionId, doc.key)) :
    Represented toRecord (deleteMany filter docs)
      fun pair => if removed pair then none else rows pair := by
  have kept := Represents.filter represented fun pair => !decide (removed pair)
  have same : docs.filter (fun doc => !filter.matches doc) =
      docs.filter fun doc => !decide (removed (doc.sessionId, doc.key)) :=
    List.filter_congr fun doc _ => by
      rw [Bool.eq_iff_iff.mpr ((selected doc).trans decide_eq_true_iff.symm)]
  rw [deleteMany, same]
  refine Eq.mp (congrArg (Represented toRecord _) (funext fun pair => ?_)) kept
  by_cases gone : removed pair <;> simp [gone]

theorem represented_deleteOne (represented : Represented toRecord docs rows)
    (order : Arrangement MongoDoc) (sessionId key : String) :
    deleteOne order (.pair sessionId key) docs = deleteMany (.pair sessionId key) docs := by
  unfold deleteOne findOne find
  have perm := order.perm (docs.filter (Filter.pair sessionId key).matches)
  cases arranged : order.arrange (docs.filter (Filter.pair sessionId key).matches) with
  | nil =>
    rw [arranged] at perm
    symm
    refine List.filter_eq_self.mpr fun doc inside => ?_
    rw [Bool.not_eq_true', Bool.eq_false_iff]
    intro found
    exact List.not_mem_nil (perm.mem_iff.mpr (List.mem_filter.mpr ⟨inside, found⟩))
  | cons doc rest =>
    rw [arranged] at perm
    obtain ⟨inside, found⟩ := List.mem_filter.mp (perm.mem_iff.mp List.mem_cons_self)
    simp only [Filter.matches, Bool.and_eq_true, decide_eq_true_eq] at found
    refine (List.Nodup.erase_eq_filter represented.nodup doc).trans ?_
    refine List.filter_congr fun other there => ?_
    have one : other = doc ↔ (Filter.pair sessionId key).matches other = true := by
      rw [Filter.matches, Bool.and_eq_true, decide_eq_true_eq, decide_eq_true_eq]
      constructor
      · rintro rfl
        exact found
      · intro same
        exact represented.unique there inside
          (Prod.ext (same.1.trans found.1.symm) (same.2.trans found.2.symm))
    by_cases same : other = doc
    · rw [one.mp same, same, bne_self_eq_false]
      rfl
    · rw [Bool.eq_false_iff.mpr (mt one.mpr same), bne_iff_ne.mpr same]
      rfl

theorem find_finds (represented : Represented toRecord docs rows) (order : Arrangement MongoDoc)
    {filter : Filter} {asked : String → Prop}
    (selected : ∀ doc, filter.matches doc = true ↔ doc.sessionId = sessionId ∧ asked doc.key) :
    Finds toRecord sessionId asked rows (find order filter docs) := by
  have perm := order.perm (docs.filter filter.matches)
  refine represented.finds (perm.nodup_iff.mpr (represented.nodup.filter _)) fun doc => ?_
  rw [find, perm.mem_iff, List.mem_filter, selected]
  rfl

end Documents

section Steps

variable {tooLarge : MongoDoc → Bool} {docs : List MongoDoc} {rows : Rows}

theorem step_right (represented : Represented toRecord docs rows) (order : Arrangement MongoDoc)
    {call : Call} (accepted : Accepted tooLarge call) :
    right call rows (step tooLarge order call docs).1 ∧
      Represented toRecord (step tooLarge order call docs).2 (asked call rows) := by
  obtain ⟨operation, now⟩ := call
  unfold right asked step
  unfold Accepted at accepted
  have among := fun (sessionId : String) (keys : List String) (doc : MongoDoc) =>
    show (Filter.among sessionId keys).matches doc = true ↔ doc.sessionId = sessionId ∧ doc.key ∈ keys
      by simp [Filter.matches]
  have session := fun (sessionId : String) (doc : MongoDoc) =>
    show (Filter.session sessionId).matches doc = true ↔ doc.sessionId = sessionId ∧ True
      by simp [Filter.matches]
  cases operation with
  | get sessionId key =>
    exact ⟨⟨_, rfl, (find_finds represented order fun doc => by simp [Filter.matches]).head⟩,
      represented⟩
  | getMany sessionId keys =>
    dsimp only
    split
    · rename_i none
      refine ⟨⟨_, rfl, fun key => ?_⟩, represented⟩
      simp [List.length_eq_zero_iff.mp none]
    · exact ⟨⟨_, rfl, (find_finds represented order (among sessionId keys)).collected⟩, represented⟩
  | set sessionId key value =>
    exact represented_setMany represented fun entry inside => by
      rw [List.mem_singleton.mp inside]
      exact accepted
  | setMany sessionId entries => exact represented_setMany represented accepted
  | delete sessionId key =>
    refine ⟨rfl, ?_⟩
    dsimp only
    rw [represented_deleteOne represented]
    exact represented_deleteMany represented (.pair sessionId key) fun doc => by
      simp [Filter.matches]
  | deleteMany sessionId keys =>
    dsimp only
    split
    · rename_i none
      refine ⟨rfl, Eq.mp (congrArg (Represented toRecord _) (funext fun pair => ?_)) represented⟩
      simp [without, List.length_eq_zero_iff.mp none]
    · exact ⟨rfl, represented_deleteMany represented _ fun doc => among sessionId keys doc⟩
  | getAllKeys sessionId =>
    exact ⟨⟨_, rfl, (find_finds represented order (session sessionId)).lists⟩, represented⟩
  | deleteSession sessionId =>
    exact ⟨rfl, represented_deleteMany represented _ fun doc => by simp [Filter.matches]⟩
  | listSessions =>
    refine ⟨⟨_, rfl, represented.sessions (List.nodup_dedup _) fun sessionId => ?_⟩, represented⟩
    simp [distinct, (order.perm docs).mem_iff, toRecord]
  | sessionExists sessionId =>
    refine ⟨⟨_, rfl, ?_⟩, represented⟩
    rw [← (find_finds represented order (session sessionId)).some_iff, findOne,
      List.isSome_head?]

theorem mongo_conforms (tooLarge : MongoDoc → Bool) :
    Conformance.Conforms contract (step tooLarge) (Represented toRecord) fun _ _ =>
      Accepted tooLarge :=
  ⟨fun order _ _ _ represented accepted => (step_right represented order accepted).1,
    fun order _ _ _ represented accepted => (step_right represented order accepted).2⟩

end Steps

end BaileysSession.MongoAdapter
