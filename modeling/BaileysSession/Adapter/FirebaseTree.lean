import BaileysSession.Adapter.FirebaseRealtime
import BaileysSession.Shared.PathTree

set_option autoImplicit false

namespace BaileysSession.FirebaseTree

open FirebaseRealtime (path segments Legal)
open PathTree (Node below snapshot Independent)

inductive Leaf where
  | text (text : String)
  | number (number : Int)
  deriving DecidableEq, Repr

abbrev Tree := PathTree.Tree String Leaf

abbrev JsonNode := Node String Leaf

structure StoredValue where
  value : String
  updatedAt : Int
  -- The version before and 1, added as JavaScript adds.
  version : Leaf
  deriving DecidableEq, Repr

def StoredValue.node (stored : StoredValue) : JsonNode :=
  [(["value"], .text stored.value), (["updatedAt"], .number stored.updatedAt),
    (["version"], stored.version)]

/-- What `get` makes of a snapshot: its properties as they are there, `[]` for `undefined`. -/
structure Record where
  value : JsonNode
  updatedAt : JsonNode
  version : JsonNode
  deriving DecidableEq, Repr

section Source

def rowPath (sessionId key : String) : List String := segments (path sessionId (some key))

def get (tree : Tree) (sessionId key : String) : Option Record :=
  let stored := snapshot tree (rowPath sessionId key)
  if stored = [] then none
  else some ⟨below ["value"] stored, below ["updatedAt"] stored, below ["version"] stored⟩

def getMany (tree : Tree) (sessionId : String) (keys : List String) : InsertionMap String Record :=
  keys.foldl (fun found key =>
    match get tree sessionId key with
    | some record => found.set key record
    | none => found) .empty

-- JavaScript's text for an object.
variable (toText : JsonNode → String)

def nextVersion (existing : Option Record) : Leaf :=
  match existing.map Record.version with
  | none | some [] => .number 1
  | some [([], .number version)] => .number (version + 1)
  | some [([], .text version)] => .text (version ++ "1")
  | some version => .text (toText version ++ "1")

def setMany (tree : Tree) (now : Int) (sessionId : String) (entries : List Entry) : Tree :=
  if entries.length = 0 then tree
  else
    let existingVersions := getMany tree sessionId (entries.map Entry.key)
    let update : InsertionMap String StoredValue := entries.foldl (fun update entry =>
      update.set (path sessionId (some entry.key))
        ⟨entry.value, now, nextVersion toText (existingVersions.get? entry.key)⟩) .empty
    update.entries.foldl (fun tree write =>
      PathTree.write tree (segments write.1) write.2.node) tree

def set (tree : Tree) (now : Int) (sessionId key value : String) : Tree :=
  setMany toText tree now sessionId [⟨key, value⟩]

def delete (tree : Tree) (sessionId key : String) : Tree :=
  PathTree.remove tree (rowPath sessionId key)

def deleteMany (tree : Tree) (sessionId : String) (keys : List String) : Tree :=
  keys.foldl (fun tree key => PathTree.remove tree (rowPath sessionId key)) tree

end Source

inductive Operation where
  | get (sessionId key : String)
  | set (sessionId key value : String) (dateNow : Int)
  | setMany (sessionId : String) (entries : List Entry) (dateNow : Int)
  | delete (sessionId key : String)
  | deleteMany (sessionId : String) (keys : List String)
  deriving DecidableEq, Repr

namespace Operation

def apply (toText : JsonNode → String) (tree : Tree) : Operation → Tree
  | get _ _ => tree
  | set sessionId key value dateNow => FirebaseTree.set toText tree dateNow sessionId key value
  | setMany sessionId entries dateNow => FirebaseTree.setMany toText tree dateNow sessionId entries
  | delete sessionId key => FirebaseTree.delete tree sessionId key
  | deleteMany sessionId keys => FirebaseTree.deleteMany tree sessionId keys

def About (sessionId key : String) : Operation → Prop
  | get _ _ => False
  | set other name _ _ | delete other name => other = sessionId ∧ name = key
  | setMany other entries _ => other = sessionId ∧ key ∈ entries.map Entry.key
  | deleteMany other keys => other = sessionId ∧ key ∈ keys

def Within (pairs : String → String → Prop) : Operation → Prop
  | get sessionId key | set sessionId key _ _ | delete sessionId key => pairs sessionId key
  | setMany sessionId entries _ => ∀ entry ∈ entries, pairs sessionId entry.key
  | deleteMany sessionId keys => ∀ key ∈ keys, pairs sessionId key

end Operation

abbrev Values := String → String → Option String

def Operation.asked (values : Values) : Operation → Values
  | .get _ _ => values
  | .set sessionId key value _ => fun other name =>
    if other = sessionId ∧ name = key then some value else values other name
  | .setMany sessionId entries _ => fun other name =>
    if other = sessionId then (Database.written entries name).or (values other name)
    else values other name
  | .delete sessionId key => fun other name =>
    if other = sessionId ∧ name = key then none else values other name
  | .deleteMany sessionId keys => fun other name =>
    if other = sessionId ∧ name ∈ keys then none else values other name

def run (toText : JsonNode → String) (operations : List Operation) : Tree :=
  operations.foldl (Operation.apply toText) .empty

def runValues (operations : List Operation) : Values :=
  operations.foldl Operation.asked fun _ _ => none

/-- No path of one of the pairs is on the way to that of another. -/
def Apart (pairs : String → String → Prop) : Prop :=
  ∀ sessionId key other name, pairs sessionId key → pairs other name →
    rowPath sessionId key <+: rowPath other name → sessionId = other ∧ key = name

def Exact (pairs : String → String → Prop) (tree : Tree) (values : Values) : Prop :=
  ∀ sessionId key, pairs sessionId key → (get tree sessionId key).map Record.value =
    (values sessionId key).map fun value => [([], Leaf.text value)]

def Untouched (pairs : String → String → Prop) (operation : Operation) (before after : Tree) :
    Prop :=
  ∀ sessionId key, pairs sessionId key → ¬ operation.About sessionId key →
    get after sessionId key = get before sessionId key

section Writes

variable {pairs : String → String → Prop} (apart : Apart pairs) {toText : JsonNode → String}
  {tree : Tree}

theorem get_of_snapshot {first second : Tree} {sessionId key : String}
    (same : snapshot first (rowPath sessionId key) = snapshot second (rowPath sessionId key)) :
    get first sessionId key = get second sessionId key := by
  simp only [get, same]

theorem get_stored {stored : StoredValue} {sessionId key : String}
    (found : snapshot tree (rowPath sessionId key) = stored.node) :
    get tree sessionId key = some ⟨[([], .text stored.value)], [([], .number stored.updatedAt)],
      [([], stored.version)]⟩ := by
  simp only [get, found]
  rfl

theorem node_unique (stored : StoredValue) : (stored.node.map Prod.fst).Nodup := by
  simp [StoredValue.node]

include apart

theorem Apart.independent {sessionId key other name : String} (here : pairs sessionId key)
    (there : pairs other name) (different : ¬ (sessionId = other ∧ key = name)) :
    Independent (rowPath sessionId key) (rowPath other name) := by
  constructor
  · exact fun nested => different (apart _ _ _ _ here there nested)
  · intro nested
    obtain ⟨rfl, rfl⟩ := apart _ _ _ _ there here nested
    exact different ⟨rfl, rfl⟩

theorem Apart.path_injective {sessionId key other name : String} (here : pairs sessionId key)
    (there : pairs other name) (same : path sessionId (some key) = path other (some name)) :
    sessionId = other ∧ key = name :=
  apart _ _ _ _ here there (by rw [rowPath, rowPath, same])

theorem snapshot_update (update : List (String × StoredValue))
    (unique : (update.map Prod.fst).Nodup)
    (addressed : ∀ write ∈ update, ∃ sessionId key, pairs sessionId key ∧
      write.1 = path sessionId (some key))
    {other name : String} (there : pairs other name) :
    snapshot (update.foldl (fun tree write =>
        PathTree.write tree (segments write.1) write.2.node) tree) (rowPath other name) =
      match update.lookup (path other (some name)) with
      | some stored => stored.node
      | none => snapshot tree (rowPath other name) := by
  induction update generalizing tree with
  | nil => rfl
  | cons write rest ih =>
    simp only [List.map_cons, List.nodup_cons] at unique
    have later := @ih (PathTree.write tree (segments write.1) write.2.node) unique.2
      fun next inside => addressed next (List.mem_cons_of_mem write inside)
    rw [List.foldl_cons, later, InsertionMap.lookup_cons]
    by_cases same : path other (some name) = write.1
    · have absent : rest.lookup (path other (some name)) = none := by
        cases found : rest.lookup (path other (some name)) with
        | none => rfl
        | some stored =>
          have inside := (InsertionMap.lookup_eq_some_iff rest unique.2 _ _).mp found
          exact absurd (same ▸ List.mem_map_of_mem inside) unique.1
      rw [absent, if_pos same, rowPath, same]
      exact PathTree.snapshot_write_self tree _ (node_unique write.2)
    · obtain ⟨sessionId, key, here, address⟩ := addressed write List.mem_cons_self
      have different : ¬ (sessionId = other ∧ key = name) := by
        rintro ⟨rfl, rfl⟩
        exact same address.symm
      have kept : snapshot (PathTree.write tree (segments write.1) write.2.node)
          (rowPath other name) = snapshot tree (rowPath other name) := by
        rw [address]
        exact PathTree.snapshot_write_other (node_unique write.2)
          (apart.independent here there different)
      rw [if_neg same, kept]

def batched (sessionId : String) (entries : List Entry) (other name : String) : Option String :=
  if other = sessionId then Database.written entries name else none

theorem update_get? (sessionId : String) (now : Int) (version : String → Leaf)
    (entries : List Entry) (update : InsertionMap String StoredValue)
    (inside : ∀ entry ∈ entries, pairs sessionId entry.key) {other name : String}
    (there : pairs other name) :
    (entries.foldl (fun update entry => update.set (path sessionId (some entry.key))
        ⟨entry.value, now, version entry.key⟩) update).get? (path other (some name)) =
      ((batched sessionId entries other name).map fun value => ⟨value, now, version name⟩).or
        (update.get? (path other (some name))) := by
  induction entries generalizing update with
  | nil => simp [batched, Database.written]
  | cons entry rest ih =>
    have here := inside entry List.mem_cons_self
    have later := ih (update.set (path sessionId (some entry.key))
      ⟨entry.value, now, version entry.key⟩) fun next present =>
        inside next (List.mem_cons_of_mem entry present)
    rw [List.foldl_cons, later, InsertionMap.get?_set]
    by_cases same : sessionId = other ∧ entry.key = name
    · obtain ⟨rfl, rfl⟩ := same
      cases found : Database.written rest entry.key <;> simp [batched, Database.written, found]
    · have different : path other (some name) ≠ path sessionId (some entry.key) := fun address =>
        same (apart.path_injective here there address.symm)
      rw [if_neg different]
      by_cases session : other = sessionId
      · have otherKey : entry.key ≠ name := fun key => same ⟨session.symm, key⟩
        simp [batched, session, Database.written, otherKey]
      · simp [batched, session]

omit apart in
theorem update_keys (sessionId : String) (stored : Entry → StoredValue) (entries : List Entry)
    (update : InsertionMap String StoredValue) :
    ∀ address ∈ (entries.foldl (fun update entry =>
        update.set (path sessionId (some entry.key)) (stored entry)) update).keys,
      address ∈ update.keys ∨ ∃ entry ∈ entries, address = path sessionId (some entry.key) := by
  induction entries generalizing update with
  | nil => exact fun _ inside => .inl inside
  | cons entry rest ih =>
    intro address inside
    rcases ih _ address inside with earlier | ⟨next, later, same⟩
    · have keys := InsertionMap.setEntry_keys (path sessionId (some entry.key)) (stored entry)
        update.entries
      simp only [InsertionMap.keys, InsertionMap.set] at earlier
      rw [keys] at earlier
      split at earlier
      · exact .inl earlier
      · rcases List.mem_append.mp earlier with before | single
        · exact .inl before
        · exact .inr ⟨entry, List.mem_cons_self, List.mem_singleton.mp single⟩
    · exact .inr ⟨next, List.mem_cons_of_mem entry later, same⟩

theorem setMany_snapshot {sessionId : String} {entries : List Entry}
    (inside : ∀ entry ∈ entries, pairs sessionId entry.key) (now : Int) {other name : String}
    (there : pairs other name) :
    ∃ version, snapshot (setMany toText tree now sessionId entries) (rowPath other name) =
      match batched sessionId entries other name with
      | some value => (StoredValue.mk value now version).node
      | none => snapshot tree (rowPath other name) := by
  unfold setMany
  by_cases empty : entries.length = 0
  · obtain rfl := List.length_eq_zero_iff.mp empty
    exact ⟨.number 0, by simp [batched, Database.written]⟩
  · let version := fun key => nextVersion toText
      ((getMany tree sessionId (entries.map Entry.key)).get? key)
    refine ⟨version name, ?_⟩
    rw [if_neg empty]
    dsimp only
    have addressed := update_keys sessionId
      (fun entry => ⟨entry.value, now, version entry.key⟩) entries .empty
    have stored := update_get? apart sessionId now version entries .empty inside there
    rw [InsertionMap.get?_empty, Option.or_none, InsertionMap.get?] at stored
    rw [snapshot_update apart _ (InsertionMap.unique _) _ there, stored]
    · cases batched sessionId entries other name <;> rfl
    · intro write present
      rcases addressed write.1 (List.mem_map_of_mem present) with none | ⟨entry, listed, same⟩
      · cases none
      · exact ⟨sessionId, entry.key, inside entry listed, same⟩

theorem snapshot_remove {sessionId key other name : String} (here : pairs sessionId key)
    (there : pairs other name) :
    snapshot (PathTree.remove tree (rowPath sessionId key)) (rowPath other name) =
      if other = sessionId ∧ name = key then [] else snapshot tree (rowPath other name) := by
  split
  · rename_i same
    obtain ⟨rfl, rfl⟩ := same
    exact PathTree.snapshot_remove_self tree _
  · rename_i different
    apply PathTree.snapshot_remove_other
    exact apart.independent here there fun same => different ⟨same.1.symm, same.2.symm⟩

theorem deleteMany_snapshot {sessionId : String} {keys : List String}
    (inside : ∀ key ∈ keys, pairs sessionId key) {other name : String} (there : pairs other name) :
    snapshot (deleteMany tree sessionId keys) (rowPath other name) =
      if other = sessionId ∧ name ∈ keys then [] else snapshot tree (rowPath other name) := by
  unfold deleteMany
  induction keys generalizing tree with
  | nil => simp
  | cons key rest ih =>
    have later := @ih (PathTree.remove tree (rowPath sessionId key)) fun next present =>
      inside next (List.mem_cons_of_mem key present)
    rw [List.foldl_cons, later, snapshot_remove apart (inside key List.mem_cons_self) there]
    by_cases session : other = sessionId <;> by_cases first : name = key <;>
      by_cases listed : name ∈ rest <;> simp [session, first, listed]

end Writes

section Runs

variable {pairs : String → String → Prop} {toText : JsonNode → String} {tree : Tree}
  {values : Values}

def Mirrors (pairs : String → String → Prop) (tree : Tree) (values : Values) : Prop :=
  ∀ sessionId key, pairs sessionId key →
    match values sessionId key with
    | none => snapshot tree (rowPath sessionId key) = []
    | some value => ∃ now version,
        snapshot tree (rowPath sessionId key) = (StoredValue.mk value now version).node

theorem Mirrors.exact (mirrors : Mirrors pairs tree values) : Exact pairs tree values := by
  intro sessionId key inside
  have stored := mirrors sessionId key inside
  cases value : values sessionId key with
  | none =>
    rw [value] at stored
    simp [get, show snapshot tree (rowPath sessionId key) = [] from stored]
  | some value' =>
    rw [value] at stored
    obtain ⟨now, version, found⟩ := stored
    rw [get_stored found]
    rfl

/-- What an operation can do at the path of a pair: nothing, if it is not about the pair, or leave
there the value that is then to be read. -/
inductive Does (toText : JsonNode → String) (tree : Tree) (operation : Operation)
    (sessionId key : String) : Prop where
  | nothing (other : ¬ operation.About sessionId key)
      (kept : snapshot (operation.apply toText tree) (rowPath sessionId key) =
        snapshot tree (rowPath sessionId key))
      (asked : ∀ values : Values, operation.asked values sessionId key = values sessionId key)
  | sets (about : operation.About sessionId key) (value : String) (now : Int) (version : Leaf)
      (written : snapshot (operation.apply toText tree) (rowPath sessionId key) =
        (StoredValue.mk value now version).node)
      (asked : ∀ values : Values, operation.asked values sessionId key = some value)
  | deletes (about : operation.About sessionId key)
      (gone : snapshot (operation.apply toText tree) (rowPath sessionId key) = [])
      (asked : ∀ values : Values, operation.asked values sessionId key = none)

theorem setMany_does (apart : Apart pairs) {sessionId : String} {entries : List Entry} {now : Int}
    (within : ∀ entry ∈ entries, pairs sessionId entry.key) {other name : String}
    (there : pairs other name) :
    Does toText tree (.setMany sessionId entries now) other name := by
  obtain ⟨version, found⟩ := @setMany_snapshot pairs apart toText tree sessionId entries within now
    other name there
  cases stored : batched sessionId entries other name with
  | some value =>
    rw [stored] at found
    unfold batched at stored
    split at stored
    · rename_i session
      have listed : name ∈ entries.map Entry.key := by
        by_contra absent
        rw [(Database.written_eq_none_iff entries name).mpr absent] at stored
        cases stored
      refine .sets ⟨session.symm, listed⟩ value now version found fun values => ?_
      simp [Operation.asked, session, stored]
    · cases stored
  | none =>
    rw [stored] at found
    unfold batched at stored
    split at stored
    · rename_i session
      have absent := (Database.written_eq_none_iff entries name).mp stored
      refine .nothing (fun about => absent about.2) found fun values => ?_
      simp [Operation.asked, session, stored]
    · rename_i session
      refine .nothing (fun about => session about.1.symm) found fun values => ?_
      simp [Operation.asked, session]

theorem operation_does (apart : Apart pairs) {operation : Operation}
    (within : operation.Within pairs) {other name : String} (there : pairs other name) :
    Does toText tree operation other name := by
  cases operation with
  | get sessionId key => exact .nothing id rfl fun _ => rfl
  | set sessionId key value now =>
    have inside : ∀ entry ∈ [Entry.mk key value], pairs sessionId entry.key := by
      intro entry single
      rw [List.mem_singleton.mp single]
      exact within
    -- `set` is a `setMany` of one entry.
    have one : ∀ values : Values, Operation.asked values (.set sessionId key value now) other name =
        Operation.asked values (.setMany sessionId [⟨key, value⟩] now) other name := by
      intro values
      by_cases session : other = sessionId <;> by_cases same : key = name
      · simp [Operation.asked, Database.written, session, same]
      · simp [Operation.asked, Database.written, session, same, Ne.symm same]
      · simp [Operation.asked, session]
      · simp [Operation.asked, session]
    have about : Operation.About other name (.set sessionId key value now) ↔
        Operation.About other name (.setMany sessionId [⟨key, value⟩] now) := by
      simp [Operation.About, eq_comm]
    have batch : Does toText tree (.setMany sessionId [⟨key, value⟩] now) other name :=
      setMany_does apart inside there
    cases batch with
    | nothing other kept asked =>
      exact .nothing (mt about.mp other) kept fun values => (one values).trans (asked values)
    | sets about' stored now' version written asked =>
      exact .sets (about.mpr about') stored now' version written fun values =>
        (one values).trans (asked values)
    | deletes about' gone asked =>
      exact .deletes (about.mpr about') gone fun values => (one values).trans (asked values)
  | setMany sessionId entries now => exact setMany_does apart within there
  | delete sessionId key =>
    have found := @snapshot_remove pairs apart tree sessionId key other name within there
    by_cases same : other = sessionId ∧ name = key
    · rw [if_pos same] at found
      refine .deletes ⟨same.1.symm, same.2.symm⟩ found fun values => if_pos same
    · rw [if_neg same] at found
      refine .nothing (fun about => same ⟨about.1.symm, about.2.symm⟩) found fun values =>
        if_neg same
  | deleteMany sessionId keys =>
    have found := @deleteMany_snapshot pairs apart tree sessionId keys within other name there
    by_cases same : other = sessionId ∧ name ∈ keys
    · rw [if_pos same] at found
      refine .deletes ⟨same.1.symm, same.2⟩ found fun values => if_pos same
    · rw [if_neg same] at found
      refine .nothing (fun about => same ⟨about.1.symm, about.2⟩) found fun values => if_neg same

theorem Mirrors.apply (mirrors : Mirrors pairs tree values) (apart : Apart pairs)
    {operation : Operation} (within : operation.Within pairs) :
    Mirrors pairs (operation.apply toText tree) (operation.asked values) := by
  intro sessionId key inside
  cases @operation_does pairs toText tree apart operation within sessionId key inside with
  | nothing other kept asked =>
    rw [asked values, kept]
    exact mirrors sessionId key inside
  | sets about value now version written asked =>
    rw [asked values]
    exact ⟨now, version, written⟩
  | deletes about gone asked =>
    rw [asked values]
    exact gone

theorem run_mirrors (apart : Apart pairs) {operations : List Operation}
    (within : ∀ operation ∈ operations, operation.Within pairs) :
    Mirrors pairs (run toText operations) (runValues operations) := by
  have kept : ∀ {tree : Tree} {values : Values}, Mirrors pairs tree values →
      Mirrors pairs (operations.foldl (Operation.apply toText) tree)
        (operations.foldl Operation.asked values) := by
    induction operations with
    | nil => exact fun mirrors => mirrors
    | cons operation rest ih =>
      intro tree values mirrors
      exact ih (fun next later => within next (List.mem_cons_of_mem operation later))
        (mirrors.apply apart (within operation List.mem_cons_self))
  exact kept fun _ _ _ => rfl

theorem untouched (apart : Apart pairs) {operation : Operation} (within : operation.Within pairs) :
    Untouched pairs operation tree (operation.apply toText tree) := by
  intro sessionId key inside other
  cases @operation_does pairs toText tree apart operation within sessionId key inside with
  | nothing _ kept _ => exact get_of_snapshot kept
  | sets about => exact absurd about other
  | deletes about => exact absurd about other

end Runs

/-- Whatever is done to some pairs, each of them reads as what was last set for it and is changed
by no operation on another, exactly when none of their paths is on the way to another. -/
theorem pairs_kept_apart_iff (toText : JsonNode → String) (pairs : String → String → Prop) :
    (∀ operations : List Operation, (∀ operation ∈ operations, operation.Within pairs) →
      Exact pairs (run toText operations) (runValues operations) ∧
        ∀ operation : Operation, operation.Within pairs → Untouched pairs operation
          (run toText operations) (operation.apply toText (run toText operations))) ↔
      Apart pairs := by
  constructor
  · intro right sessionId key other name here there nested
    by_contra different
    have within : ∀ operation ∈ [Operation.set other name "" 0, .delete sessionId key],
        operation.Within pairs := by
      intro operation listed
      rcases List.mem_cons.mp listed with rfl | rest
      · exact there
      · rw [List.mem_singleton.mp rest]
        exact here
    have read := (right _ within).1 other name there
    have gone : get (run toText [Operation.set other name "" 0, .delete sessionId key]) other name =
        none := by
      have cleared : snapshot (run toText [Operation.set other name "" 0, .delete sessionId key])
          (rowPath other name) = [] := PathTree.snapshot_remove_below nested
      simp only [get, cleared, if_true]
    have kept : runValues [Operation.set other name "" 0, .delete sessionId key] other name =
        some "" := by
      have apart : ¬ (other = sessionId ∧ name = key) := fun same =>
        different ⟨same.1.symm, same.2.symm⟩
      simp [runValues, Operation.asked, apart]
    rw [gone, kept] at read
    cases read
  · intro apart operations within
    exact ⟨(run_mirrors apart within).exact, fun operation inside => untouched apart inside⟩

theorem legal_pairs_apart : Apart fun sessionId key => Legal sessionId ∧ Legal key := by
  rintro sessionId key other name ⟨session, legal⟩ ⟨otherSession, otherLegal⟩ nested
  rw [rowPath, rowPath, FirebaseRealtime.segments_path session.1 legal.1,
    FirebaseRealtime.segments_path otherSession.1 otherLegal.1] at nested
  have lengths : (FirebaseRealtime.place sessionId key).length =
      (FirebaseRealtime.place other name).length := by simp [FirebaseRealtime.place]
  exact FirebaseRealtime.place_injective session legal otherSession otherLegal
    (nested.eq_of_length lengths)

section Records

open FirebaseRealtime (Rows)

def ofRecords : FirebaseRealtime.Operation → Option Operation
  | .setMany sessionId entries dateNow => some (.setMany sessionId entries dateNow)
  | .deleteMany sessionId keys => some (.deleteMany sessionId keys)
  | .deleteSession _ => none

theorem putAll_written (rows : Rows) (sessionId : String) (entries : List Entry)
    (other name : String) :
    Overlay.putAll rows (entries.map fun entry => ((sessionId, entry.key), entry.value))
        (other, name) =
      if other = sessionId then (Database.written entries name).or (rows (other, name))
      else rows (other, name) := by
  induction entries generalizing rows with
  | nil => simp [Overlay.putAll, Database.written]
  | cons entry rest ih =>
    have later := ih (Overlay.put rows ((sessionId, entry.key), entry.value))
    rw [Overlay.putAll] at later
    rw [Overlay.putAll, List.map_cons, List.foldl_cons, later]
    by_cases session : other = sessionId <;> by_cases same : name = entry.key
    · simp [session, same, Overlay.put, Database.written]
    · simp [session, same, Ne.symm same, Overlay.put, Database.written]
    · simp [session, Overlay.put]
    · simp [session, Overlay.put]

theorem asked_ofRecords {rows : Rows} {values : Values} {operation : FirebaseRealtime.Operation}
    {same : Operation} (translated : ofRecords operation = some same)
    (agree : ∀ sessionId key, rows (sessionId, key) = values sessionId key)
    (sessionId key : String) :
    operation.asked rows (sessionId, key) = same.asked values sessionId key := by
  cases operation with
  | setMany other entries dateNow =>
    cases translated
    simp only [FirebaseRealtime.Operation.asked, Operation.asked, putAll_written, agree]
  | deleteMany other keys =>
    cases translated
    simp only [FirebaseRealtime.Operation.asked, Operation.asked, agree]
  | deleteSession other => cases translated

theorem supported_within {operation : FirebaseRealtime.Operation} {same : Operation}
    (translated : ofRecords operation = some same) (supported : operation.Supported) :
    same.Within fun sessionId key => Legal sessionId ∧ Legal key := by
  cases operation with
  | setMany other entries dateNow =>
    cases translated
    exact fun entry inside => ⟨supported.1, supported.2 entry inside⟩
  | deleteMany other keys =>
    cases translated
    exact fun key inside => ⟨supported.1, supported.2 key inside⟩
  | deleteSession other => cases translated

/-- Over legal names the tree of records is this tree, seen from above the properties. -/
theorem leaves_hold_records (toText : JsonNode → String)
    (operations : List FirebaseRealtime.Operation) (same : List Operation)
    (translated : List.Forall₂ (fun operation other => ofRecords operation = some other)
      operations same)
    (supported : ∀ operation ∈ operations, operation.Supported) {sessionId key : String}
    (session : Legal sessionId) (legal : Legal key) :
    (get (run toText same) sessionId key).map Record.value =
      ((FirebaseRealtime.get (FirebaseRealtime.run operations) sessionId key).map
        SessionRecord.value).map fun value => [([], Leaf.text value)] := by
  have agree : ∀ {rows : Rows} {values : Values},
      (∀ sessionId key, rows (sessionId, key) = values sessionId key) → ∀ sessionId key,
        operations.foldl FirebaseRealtime.Operation.asked rows (sessionId, key) =
          same.foldl Operation.asked values sessionId key := by
    clear supported
    induction translated with
    | nil => exact fun agree => agree
    | cons first _ ih => exact fun agree => ih (asked_ofRecords first agree)
  have within : ∀ operation ∈ same,
      operation.Within fun sessionId key => Legal sessionId ∧ Legal key := by
    clear agree
    induction translated with
    | nil => exact fun _ inside => by cases inside
    | cons first _ ih =>
      intro operation inside
      rcases List.mem_cons.mp inside with rfl | later
      · exact supported_within first (supported _ List.mem_cons_self)
      · exact ih (fun other present => supported other (List.mem_cons_of_mem _ present)) operation
          later
  have values := (FirebaseRealtime.run_mirrors supported).values sessionId key session legal
  have rows : FirebaseRealtime.runRows operations (sessionId, key) = runValues same sessionId key :=
    @agree (fun _ => none) (fun _ _ => none) (fun _ _ => rfl) sessionId key
  rw [(run_mirrors legal_pairs_apart within).exact sessionId key ⟨session, legal⟩,
    FirebaseRealtime.get, FirebaseRealtime.segments_path session.1 legal.1, values,
    rows]

end Records

-- Two keys of one session, of which the second is spelled like the escaped first.
def clashingRun : List Operation :=
  [.set "bot" "pre-key.1" "1" 0, .set "bot" "pre-key~46~1" "2" 0]

theorem escaped_spelling_read :
    (get (run (fun _ => "") clashingRun) "bot" "pre-key.1").map Record.value =
        some [([], .text "2")] ∧
      runValues clashingRun "bot" "pre-key.1" = some "1" := by
  decide +kernel

theorem empty_key_deletes_session :
    get (run (fun _ => "") [.set "bot" "creds" "1" 0, .delete "bot" ""]) "bot" "creds" = none ∧
      runValues [.set "bot" "creds" "1" 0, .delete "bot" ""] "bot" "creds" = some "1" := by
  decide

end BaileysSession.FirebaseTree
