import BaileysSession.Adapter.DatabaseAdapter
import BaileysSession.Adapter.FirebaseRealtime
import BaileysSession.Shared.KeyedTable

set_option autoImplicit false

namespace BaileysSession.FirebaseRealtime

open DatabaseAdapter (Answer Call Stamped Record Lists without stamp content right asked contract
  nothing)
open KeyedTable (Arrangement)
open Overlay

section Source

def set (tree : Tree) (now : Int) (sessionId key value : String) : Tree :=
  setMany tree now sessionId [⟨key, value⟩]

def delete (tree : Tree) (sessionId key : String) : Tree :=
  remove tree (segments (path sessionId (some key)))

-- `snapshot.exists()` at the place of the session.
def sessionExists (tree : Tree) (sessionId : String) : Bool :=
  tree.keys.any (under (segments (path sessionId none)))

def recordAt (sessionId key : String) (stored : SessionRecord) : Record :=
  ⟨sessionId, key, stored.value, stored.updatedAt, stored.version⟩

def records (tree : Tree) (sessionId : String) (keys : List String) : InsertionMap String Record :=
  keys.foldl (fun map key =>
    match get tree sessionId key with
    | some stored => map.set key (recordAt sessionId key stored)
    | none => map) .empty

def met (order : Arrangement (List String × SessionRecord)) (tree : Tree) : Tree :=
  ⟨order.arrange tree.entries, ((order.perm _).map Prod.fst).nodup_iff.mpr tree.unique⟩

def step : Conformance.Component Tree (Arrangement (List String × SessionRecord)) Call Answer :=
  fun order call stored =>
  let tree := met order stored
  match call.operation with
  | .get sessionId key => (.record ((get tree sessionId key).map (recordAt sessionId key)), tree)
  | .getMany sessionId keys => (.records (records tree sessionId keys), tree)
  | .set sessionId key value => (.done, set tree call.dateNow sessionId key value)
  | .setMany sessionId entries => (.done, setMany tree call.dateNow sessionId entries)
  | .delete sessionId key => (.done, delete tree sessionId key)
  | .deleteMany sessionId keys => (.done, deleteMany tree sessionId keys)
  | .getAllKeys sessionId => (.texts (getAllKeys tree sessionId), tree)
  | .deleteSession sessionId => (.done, deleteSession tree sessionId)
  | .listSessions => (.texts (listSessions tree), tree)
  | .sessionExists sessionId => (.bool (sessionExists tree sessionId), tree)

end Source

def Printable (text : String) : Prop := ∀ char ∈ text.toList, 32 ≤ char.toNat ∧ char.toNat ≠ 127

instance : DecidablePred Printable := fun text => List.decidableBAll _ text.toList

-- A name that the database takes in a path, and that `Object.keys` finds in what it reads.
structure Addressable (name : String) : Prop where
  filled : name ≠ ""
  own : name ≠ "__proto__"
  printable : Printable name

-- What the client takes for a path.
def Short (path : String) : Prop := ("/" ++ path).utf8ByteSize ≤ 768

-- The pair has a path, down to the longest name in a record, and room for an empty value.
structure Roomy (refused : String → List Entry → Bool) (sessionId key : String) : Prop where
  short : Short (path sessionId (some key) ++ "/updatedAt")
  small : refused sessionId [⟨key, ""⟩] = false

-- The update is not too large.
def Accepted (refused : String → List Entry → Bool) (call : Call) : Prop :=
  match call.operation with
  | .set sessionId key value => refused sessionId [⟨key, value⟩] = false
  | .setMany sessionId entries => refused sessionId entries = false
  | _ => True

-- Names that a path holds as they are.
def Unescaped (text : String) : Prop := text ≠ "" ∧ Plain text

instance : DecidablePred Unescaped := fun text =>
  inferInstanceAs (Decidable (text ≠ "" ∧ Plain text))

theorem place_unescaped {sessionId key : String} (session : Unescaped sessionId)
    (named : Unescaped key) : place sessionId key = ["baileys_sessions", sessionId, key] := by
  rw [place, escapeSegment_plain session.2, escapeSegment_plain named.2]

theorem under_unescaped {sessionId key other name : String} (session : Unescaped sessionId)
    (named : Unescaped key) (otherSession : Unescaped other) (otherNamed : Unescaped name) :
    under (place sessionId key) (place other name) = true ↔ sessionId = other ∧ key = name := by
  rw [place_unescaped session named, place_unescaped otherSession otherNamed]
  simp [under]

theorem under_session {sessionId other name : String} (session : Unescaped sessionId)
    (otherSession : Unescaped other) (otherNamed : Unescaped name) :
    under (sessionPlace sessionId) (place other name) = true ↔ sessionId = other := by
  rw [sessionPlace, escapeSegment_plain session.2, place_unescaped otherSession otherNamed]
  simp [under]

def stamped (record : SessionRecord) : Stamped := ⟨record.value, record.updatedAt⟩

/-- The tree has the rows at their places, and nothing else. -/
structure Holds (tree : Tree) (rows : DatabaseAdapter.Rows) : Prop where
  leaves : ∀ leaf, tree.get? leaf ≠ none → ∃ sessionId key, Unescaped sessionId ∧ Unescaped key ∧
    leaf = place sessionId key
  stamps : ∀ sessionId key, Unescaped sessionId → Unescaped key →
    (tree.get? (place sessionId key)).map stamped = rows (sessionId, key)
  named : ∀ sessionId key, rows (sessionId, key) ≠ none → Unescaped sessionId ∧ Unescaped key

section Writing

variable {tree : Tree} {rows : DatabaseAdapter.Rows} {sessionId : String}

theorem Holds.write (holds : Holds tree rows) {key : String} (session : Unescaped sessionId)
    (named : Unescaped key) (record : SessionRecord) :
    Holds (write tree (place sessionId key) record)
      (put rows ((sessionId, key), stamped record)) := by
  constructor
  · intro leaf present
    rw [get?_write] at present
    split at present
    · rename_i here
      exact ⟨sessionId, key, session, named, here⟩
    · split at present
      · exact absurd rfl present
      · exact holds.leaves leaf present
  · intro other name otherSession otherNamed
    rw [get?_write, put, Function.update_apply]
    by_cases here : (other, name) = (sessionId, key)
    · obtain ⟨rfl, rfl⟩ := Prod.mk.inj here
      rw [if_pos rfl, if_pos rfl]
      rfl
    · have apart : ¬ (sessionId = other ∧ key = name) := fun same =>
        here (Prod.ext same.1.symm same.2.symm)
      have below := under_unescaped session named otherSession otherNamed
      have away : place other name ≠ place sessionId key := fun same =>
        apart (below.mp (by rw [same]; exact List.isPrefixOf_iff_prefix.mpr (List.prefix_refl _)))
      rw [if_neg away, if_neg here, if_neg (mt below.mp apart)]
      exact holds.stamps other name otherSession otherNamed
  · intro other name present
    rw [put, Function.update_apply] at present
    split at present
    · rename_i here
      obtain ⟨rfl, rfl⟩ := Prod.mk.inj here
      exact ⟨session, named⟩
    · exact holds.named other name present

theorem Holds.remove (holds : Holds tree rows) {target : List String}
    {gone : String × String → Prop} [DecidablePred gone]
    (below : ∀ sessionId key, Unescaped sessionId → Unescaped key →
      (under target (place sessionId key) = true ↔ gone (sessionId, key))) :
    Holds (FirebaseRealtime.remove tree target) fun row => if gone row then none else rows row := by
  constructor
  · intro leaf present
    rw [get?_remove] at present
    split at present
    · exact absurd rfl present
    · exact holds.leaves leaf present
  · intro sessionId key session named
    have stored := holds.stamps sessionId key session named
    rw [get?_remove]
    by_cases deleted : gone (sessionId, key)
    · rw [if_pos ((below sessionId key session named).mpr deleted), if_pos deleted]
      rfl
    · rw [if_neg (mt (below sessionId key session named).mp deleted), if_neg deleted, stored]
  · intro sessionId key present
    split at present
    · exact absurd rfl present
    · exact holds.named sessionId key present

theorem Holds.setMany (holds : Holds tree rows) (session : Unescaped sessionId)
    {entries : List Entry} (named : ∀ entry ∈ entries, Unescaped entry.key) (now : Int) :
    Holds (setMany tree now sessionId entries)
      (putAll rows (entries.map (stamp now sessionId))) := by
  unfold FirebaseRealtime.setMany
  -- the versions were read before; no stamp depends on them
  generalize getMany tree sessionId (entries.map Entry.key) = existingVersions
  dsimp only
  induction entries generalizing tree rows with
  | nil => exact holds
  | cons entry rest ih =>
    have legal := named entry List.mem_cons_self
    rw [List.foldl_cons, segments_path session.1 legal.1]
    exact ih (holds.write session legal _) fun other later =>
      named other (List.mem_cons_of_mem entry later)

theorem Holds.delete (holds : Holds tree rows) (session : Unescaped sessionId) {key : String}
    (named : Unescaped key) : Holds (delete tree sessionId key) (without sessionId [key] rows) := by
  rw [FirebaseRealtime.delete, segments_path session.1 named.1]
  refine holds.remove fun other name otherSession otherNamed => ?_
  rw [under_unescaped session named otherSession otherNamed, List.mem_singleton, eq_comm,
    and_congr_right_iff]
  exact fun _ => eq_comm

theorem Holds.deleteMany (holds : Holds tree rows) (session : Unescaped sessionId)
    {keys : List String} (named : ∀ key ∈ keys, Unescaped key) :
    Holds (deleteMany tree sessionId keys) (without sessionId keys rows) := by
  induction keys generalizing tree rows with
  | nil => exact (DatabaseAdapter.without_nil sessionId rows).symm ▸ holds
  | cons key rest ih =>
    have first := holds.delete session (named key List.mem_cons_self)
    have later := ih first fun other inside => named other (List.mem_cons_of_mem key inside)
    have both : without sessionId rest (without sessionId [key] rows) =
        without sessionId (key :: rest) rows := by
      funext row
      by_cases here : row.1 = sessionId <;> by_cases first : row.2 = key <;>
        by_cases later : row.2 ∈ rest <;> simp [without, here, first, later]
    exact both ▸ later

theorem Holds.deleteSession (holds : Holds tree rows) (session : Unescaped sessionId) :
    Holds (deleteSession tree sessionId) fun row =>
      if row.1 = sessionId then none else rows row := by
  rw [FirebaseRealtime.deleteSession, segments_base session.1]
  refine holds.remove fun other name otherSession otherNamed => ?_
  rw [under_session session otherSession otherNamed, eq_comm]

end Writing

section Reading

variable {tree : Tree} {rows : DatabaseAdapter.Rows} {sessionId : String}

theorem Holds.present_iff (holds : Holds tree rows) {key : String} (session : Unescaped sessionId)
    (named : Unescaped key) :
    tree.get? (place sessionId key) ≠ none ↔ rows (sessionId, key) ≠ none := by
  rw [← holds.stamps sessionId key session named, Ne, Ne, Option.map_eq_none_iff]

theorem Holds.get (holds : Holds tree rows) (session : Unescaped sessionId) {key : String}
    (named : Unescaped key) : ((get tree sessionId key).map (recordAt sessionId key)).map
      Record.content = content rows sessionId key := by
  rw [FirebaseRealtime.get, segments_path session.1 named.1, content,
    ← holds.stamps sessionId key session named]
  cases tree.get? (place sessionId key) <;> rfl

theorem get?_records (tree : Tree) (sessionId : String) (keys : List String) (key : String) :
    (records tree sessionId keys).get? key =
      if key ∈ keys then (get tree sessionId key).map (recordAt sessionId key) else none := by
  rw [records, InsertionMap.get?_gathered fun key =>
    (get tree sessionId key).map (recordAt sessionId key)]
  · simp
  · intro found key
    cases get tree sessionId key <;> rfl

theorem Holds.keys_listed (holds : Holds tree rows) (session : Unescaped sessionId) :
    Lists (getAllKeys tree sessionId) fun key => rows (sessionId, key) ≠ none := by
  refine ⟨List.nodup_dedup _, fun name => ?_⟩
  rw [getAllKeys, segments_base session.1, mem_childNames]
  constructor
  · rintro ⟨leaf, present, below, child⟩
    obtain ⟨other, key, otherSession, named, rfl⟩ := holds.leaves leaf present
    obtain rfl := (under_session session otherSession named).mp below
    have same : escapeSegment key = name := Option.some.inj child
    rw [escapeSegment_plain named.2] at same
    exact same ▸ (holds.present_iff session named).mp present
  · intro present
    obtain ⟨-, named⟩ := holds.named sessionId name present
    refine ⟨place sessionId name, (holds.present_iff session named).mpr present,
      (under_session session session named).mpr rfl, ?_⟩
    exact congrArg some (escapeSegment_plain named.2)

theorem Holds.sessions_listed (holds : Holds tree rows) :
    Lists (listSessions tree) fun sessionId => ∃ key, rows (sessionId, key) ≠ none := by
  have top : segments "baileys_sessions" = ["baileys_sessions"] := by
    rw [segments, List.splitOn_eq_singleton (by decide)]
    rfl
  refine ⟨List.nodup_dedup _, fun name => ?_⟩
  rw [listSessions, top, mem_childNames]
  constructor
  · rintro ⟨leaf, present, -, child⟩
    obtain ⟨sessionId, key, session, named, rfl⟩ := holds.leaves leaf present
    have same : escapeSegment sessionId = name := Option.some.inj child
    rw [escapeSegment_plain session.2] at same
    exact ⟨key, same ▸ (holds.present_iff session named).mp present⟩
  · rintro ⟨key, present⟩
    obtain ⟨session, named⟩ := holds.named name key present
    exact ⟨place name key, (holds.present_iff session named).mpr present, rfl,
      congrArg some (escapeSegment_plain session.2)⟩

theorem Holds.session_exists (holds : Holds tree rows) (session : Unescaped sessionId) :
    sessionExists tree sessionId = true ↔ ∃ key, rows (sessionId, key) ≠ none := by
  rw [sessionExists, segments_base session.1, List.any_eq_true]
  constructor
  · rintro ⟨leaf, inside, below⟩
    have present : tree.get? leaf ≠ none := by
      rw [Ne, InsertionMap.get?_eq_none_iff, not_not]
      exact inside
    obtain ⟨other, key, otherSession, named, rfl⟩ := holds.leaves leaf present
    obtain rfl := (under_session session otherSession named).mp below
    exact ⟨key, (holds.present_iff session named).mp present⟩
  · rintro ⟨key, present⟩
    obtain ⟨-, named⟩ := holds.named sessionId key present
    have stored := (holds.present_iff session named).mpr present
    rw [Ne, InsertionMap.get?_eq_none_iff, not_not] at stored
    exact ⟨_, stored, (under_session session session named).mpr rfl⟩

end Reading

theorem get?_met (order : Arrangement (List String × SessionRecord)) (tree : Tree)
    (leaf : List String) : (met order tree).get? leaf = tree.get? leaf :=
  InsertionMap.get?_of_perm (order.perm tree.entries) leaf

theorem Holds.met {tree : Tree} {rows : DatabaseAdapter.Rows} (holds : Holds tree rows)
    (order : Arrangement (List String × SessionRecord)) : Holds (met order tree) rows := by
  refine ⟨fun leaf present => ?_, fun sessionId key session named => ?_, holds.named⟩
  · rw [get?_met] at present
    exact holds.leaves leaf present
  · rw [get?_met]
    exact holds.stamps sessionId key session named

theorem step_right {tree : Tree} {rows : DatabaseAdapter.Rows} (stored : Holds tree rows)
    (order : Arrangement (List String × SessionRecord)) {call : Call}
    (within : call.operation.Within Unescaped Unescaped) :
    right call rows (step order call tree).1 ∧ Holds (step order call tree).2 (asked call rows) := by
  have holds := stored.met order
  obtain ⟨operation, now⟩ := call
  unfold right asked step
  cases operation with
  | get sessionId key => exact ⟨⟨_, rfl, holds.get within.1 within.2⟩, holds⟩
  | getMany sessionId keys =>
    refine ⟨⟨_, rfl, fun key => ?_⟩, holds⟩
    rw [get?_records]
    split
    · rename_i listed
      exact holds.get within.1 (within.2 key listed)
    · rfl
  | set sessionId key value =>
    refine ⟨rfl, holds.setMany within.1 (fun entry inside => ?_) now⟩
    rw [List.mem_singleton.mp inside]
    exact within.2
  | setMany sessionId entries => exact ⟨rfl, holds.setMany within.1 within.2 now⟩
  | delete sessionId key => exact ⟨rfl, holds.delete within.1 within.2⟩
  | deleteMany sessionId keys => exact ⟨rfl, holds.deleteMany within.1 within.2⟩
  | getAllKeys sessionId => exact ⟨⟨_, rfl, holds.keys_listed within⟩, holds⟩
  | deleteSession sessionId => exact ⟨rfl, holds.deleteSession within⟩
  | listSessions => exact ⟨⟨_, rfl, holds.sessions_listed⟩, holds⟩
  | sessionExists sessionId => exact ⟨⟨_, rfl, holds.session_exists within⟩, holds⟩

theorem firebase_conforms : Conformance.Conforms contract step Holds fun _ _ call =>
    call.operation.Within Unescaped Unescaped :=
  ⟨fun order _ _ _ holds within => (step_right holds order within).1,
    fun order _ _ _ holds within => (step_right holds order within).2⟩

theorem empty_holds : Holds .empty nothing :=
  ⟨fun _ => absurd rfl, fun _ _ _ _ => rfl, fun _ _ => absurd rfl⟩

section Names

variable {refused : String → List Entry → Bool} {sessions keys : String → Prop}

def Conforms (refused : String → List Entry → Bool) (sessions keys : String → Prop) : Prop :=
  ∀ turns : List (Arrangement (List String × SessionRecord) × Call),
    (∀ turn ∈ turns, turn.2.operation.Within sessions keys ∧ Accepted refused turn.2) →
    contract.Answers nothing (turns.map Prod.snd) (Conformance.answers step .empty turns)

theorem within_mono {more most : String → Prop} {operation : DatabaseAdapter.Operation}
    (within : operation.Within sessions keys) (fewer : ∀ text, sessions text → more text)
    (less : ∀ text, keys text → most text) : operation.Within more most := by
  cases operation with
  | get _ _ | set _ _ _ | delete _ _ => exact ⟨fewer _ within.1, less _ within.2⟩
  | getMany _ _ | setMany _ _ | deleteMany _ _ =>
    exact ⟨fewer _ within.1, fun name inside => less _ (within.2 name inside)⟩
  | getAllKeys _ | deleteSession _ | sessionExists _ => exact fewer _ within
  | listSessions => trivial

theorem names_plain (conforms : Conforms refused sessions keys) {sessionId key : String}
    (session : sessions sessionId) (named : keys key) (filled : sessionId ≠ "") (some : key ≠ "")
    (small : refused sessionId [⟨key, ""⟩] = false) : Plain sessionId ∧ Plain key := by
  have answered := conforms
    [(.stored _, ⟨.set sessionId key "", 0⟩), (.stored _, ⟨.listSessions, 0⟩),
      (.stored _, ⟨.getAllKeys sessionId, 0⟩)] (by
      simp [DatabaseAdapter.Operation.Within, Accepted, session, named, small])
  obtain ⟨_, _, stores, -, _, _, lists, ⟨found, sessionsFound, listed⟩, _, _, names,
    ⟨others, keysFound, keysListed⟩, -⟩ := answered
  obtain ⟨-, rfl⟩ := List.cons.inj stores
  obtain ⟨rfl, rfl⟩ := List.cons.inj lists
  obtain ⟨rfl, -⟩ := List.cons.inj names
  have tree : (step (.stored _) ⟨.set sessionId key "", 0⟩ .empty).2 =
      write .empty (place sessionId key) ⟨"", 0, 1⟩ := by
    have nothingRead : FirebaseRealtime.get .empty sessionId key = none := rfl
    show setMany .empty 0 sessionId [⟨key, ""⟩] = _
    simp only [setMany, List.map_cons, List.map_nil, List.foldl_cons, List.foldl_nil, getMany,
      nothingRead, InsertionMap.get?_empty, segments_path filled some]
    rfl
  have stored : (write .empty (place sessionId key) ⟨"", 0, 1⟩ : Tree).get? (place sessionId key) ≠
      none := by
    rw [get?_write, if_pos rfl]
    exact Option.some_ne_none _
  have rows : ∀ other name, asked ⟨.set sessionId key "", 0⟩ nothing (other, name) ≠ none →
      other = sessionId ∧ name = key := fun other name present => by
    by_contra apart
    have away : (other, name) ≠ (stamp 0 sessionId ⟨key, ""⟩).1 := fun same =>
      apart (Prod.mk.inj same)
    exact present (Function.update_of_ne away _ _)
  have top : segments "baileys_sessions" = ["baileys_sessions"] := by
    rw [segments, List.splitOn_eq_singleton (by decide)]
    rfl
  rw [tree] at sessionsFound keysFound
  have first : escapeSegment sessionId ∈ found := by
    have same : listSessions _ = found := Answer.texts.inj sessionsFound
    rw [← same, listSessions, top, mem_childNames]
    exact ⟨_, stored, rfl, rfl⟩
  have second : escapeSegment key ∈ others := by
    have same : getAllKeys _ sessionId = others := Answer.texts.inj keysFound
    rw [← same, getAllKeys, segments_base filled, mem_childNames]
    exact ⟨_, stored, List.isPrefixOf_iff_prefix.mpr ⟨[escapeSegment key], rfl⟩, rfl⟩
  obtain ⟨name, present⟩ := (listed.2 _).mp first
  have sameSession := (rows _ name present).1
  have sameKey := (rows sessionId _ ((keysListed.2 _).mp second)).2
  exact ⟨sameSession ▸ escapeSegment_clean sessionId, sameKey ▸ escapeSegment_clean key⟩

/-- The adapter serves names that the database takes as the contract has it exactly when no path
escapes anything of them. -/
theorem unescaped_conforms_iff (refused : String → List Entry → Bool) (sessions keys : String → Prop)
    (session : ∃ sessionId, sessions sessionId) (key : ∃ key, keys key)
    (addressable : ∀ sessionId, sessions sessionId → Addressable sessionId)
    (named : ∀ key, keys key → Addressable key)
    (roomy : ∀ sessionId key, sessions sessionId → keys key → Roomy refused sessionId key) :
    Conforms refused sessions keys ↔
      (∀ sessionId, sessions sessionId → Plain sessionId) ∧ ∀ key, keys key → Plain key := by
  constructor
  · intro conforms
    have plain : ∀ sessionId key, sessions sessionId → keys key → Plain sessionId ∧ Plain key :=
      fun sessionId key inside listed => names_plain conforms inside listed
        (addressable sessionId inside).filled (named key listed).filled
        (roomy sessionId key inside listed).small
    obtain ⟨one, inside⟩ := session
    obtain ⟨name, listed⟩ := key
    exact ⟨fun sessionId other => (plain sessionId name other listed).1,
      fun key other => (plain one key inside other).2⟩
  · rintro ⟨plain, ordinary⟩ turns within
    have admitted : ∀ turn ∈ turns, ∀ rows : DatabaseAdapter.Rows,
        turn.2.operation.Within Unescaped Unescaped := fun turn inside _ =>
      within_mono (within turn inside).1
        (fun text there => ⟨(addressable text there).filled, plain text there⟩)
        fun text there => ⟨(named text there).filled, ordinary text there⟩
    exact (firebase_conforms.run empty_holds (.of_each admitted nothing)).1

theorem group_keys_renamed :
    ¬ Conforms (fun _ _ => false) (· = "bot") (· = "sender-key-120363@g.us") := by
  have bot : ∀ name, name = "bot" → Addressable name := by
    rintro _ rfl
    exact ⟨by decide, by decide, by decide⟩
  have group : ∀ name, name = "sender-key-120363@g.us" → Addressable name := by
    rintro _ rfl
    exact ⟨by decide, by decide, by decide⟩
  have roomy : ∀ sessionId key, sessionId = "bot" → key = "sender-key-120363@g.us" →
      Roomy (fun _ _ => false) sessionId key := by
    rintro _ _ rfl rfl
    exact ⟨by unfold Short; decide +kernel, rfl⟩
  intro conforms
  have plain := (unescaped_conforms_iff (fun _ _ => false) (· = "bot") (· = "sender-key-120363@g.us")
    ⟨_, rfl⟩ ⟨_, rfl⟩ bot group roomy).mp conforms
  exact absurd (plain.2 _ rfl) (by decide)

end Names

end BaileysSession.FirebaseRealtime
