import BaileysSession.Adapter.FirebaseRealtime
import BaileysSession.Cache.SessionOperations

set_option autoImplicit false

namespace BaileysSession.FirebaseRealtime

open Async CacheManager

variable {tree : Tree} {rows : Rows} {sessionId : String}

section Listing

def ListsKeys (tree : Tree) (rows : Rows) (sessionId : String) : Prop :=
  ∀ key, key ∈ getAllKeys tree sessionId ↔ rows (sessionId, key) ≠ none

def ListsSessions (tree : Tree) (rows : Rows) : Prop :=
  ∀ sessionId, sessionId ∈ listSessions tree ↔ ∃ key, rows (sessionId, key) ≠ none

theorem plain_of_legal_escaped {text : String} (legal : Legal (escapeSegment text)) : Plain text := by
  by_contra special
  exact legal.2 (tilde_of_escaped special)

theorem lists_keys_iff (mirrors : Mirrors tree rows) (session : Legal sessionId) :
    ListsKeys tree rows sessionId ↔ ∀ key, rows (sessionId, key) ≠ none → Plain key := by
  constructor
  · intro lists key present
    have listed := (mirrors.mem_getAllKeys session _).mpr ⟨key, present, rfl⟩
    exact plain_of_legal_escaped (mirrors.legal sessionId _ ((lists _).mp listed)).2
  · intro plain name
    rw [mirrors.mem_getAllKeys session]
    constructor
    · rintro ⟨key, present, rfl⟩
      rwa [escapeSegment_plain (plain key present)]
    · intro present
      exact ⟨name, present, (escapeSegment_plain (plain name present)).symm⟩

theorem lists_sessions_iff (mirrors : Mirrors tree rows) :
    ListsSessions tree rows ↔ ∀ sessionId key, rows (sessionId, key) ≠ none → Plain sessionId := by
  constructor
  · intro lists sessionId key present
    have listed := (mirrors.mem_listSessions _).mpr ⟨sessionId, key, present, rfl⟩
    obtain ⟨name, found⟩ := (lists _).mp listed
    exact plain_of_legal_escaped (mirrors.legal _ name found).1
  · intro plain name
    rw [mirrors.mem_listSessions]
    constructor
    · rintro ⟨sessionId, key, present, rfl⟩
      exact ⟨key, by rwa [escapeSegment_plain (plain sessionId key present)]⟩
    · rintro ⟨key, present⟩
      exact ⟨name, key, present, (escapeSegment_plain (plain name key present)).symm⟩

end Listing

section Export

-- `result[key] = value`; a text does not become a prototype.
def assign (object : InsertionMap String String) (entry : String × String) :
    InsertionMap String String :=
  if entry.1 = "__proto__" then object else object.set entry.1 entry.2

def exportSession (tree : Tree) (sessionId : String) : List (String × String) :=
  (getAllKeys tree sessionId).filterMap fun key =>
    (get tree sessionId key).map fun record => (key, record.value)

def exportSessionToObject (tree : Tree) (sessionId : String) : InsertionMap String String :=
  (exportSession tree sessionId).foldl assign .empty

/-- After the import of an export every key that was stored is there with its value. -/
def Restores (tree : Tree) (rows : Rows) (sessionId : String) : Prop :=
  ∀ (settings : Settings) (target : Cluster Unit) (oracle : Oracle Choice) (other : String),
    (∀ index, (oracle index).rejection = none) → ∀ key value, rows (sessionId, key) = some value →
      (evaluate (effect settings ()) (importSession other (exportSessionToObject tree sessionId))
        oracle target).world.db.value? other key = some value

theorem get_escaped (session : sessionId ≠ "") {key : String} (named : key ≠ "") :
    get tree sessionId (escapeSegment key) = tree.get? (place sessionId key) := by
  rw [get, segments_path session (escapeSegment_nonempty named), place, place, escapeSegment_twice]

theorem get?_assign (object : InsertionMap String String) (entry : String × String) (name : String) :
    (assign object entry).get? name =
      if entry.1 ≠ "__proto__" ∧ name = entry.1 then some entry.2 else object.get? name := by
  unfold assign
  by_cases special : entry.1 = "__proto__" <;> simp [special]

theorem get?_assignAll (read : String → Option String) (keys : List String)
    (object : InsertionMap String String) (name : String) :
    ((keys.filterMap fun key => (read key).map fun value => (key, value)).foldl assign object).get?
        name =
      if name ≠ "__proto__" ∧ name ∈ keys then (read name).or (object.get? name)
      else object.get? name := by
  induction keys generalizing object with
  | nil => simp
  | cons key rest ih =>
    cases found : read key with
    | none =>
      rw [List.filterMap_cons, found, Option.map_none, ih]
      by_cases here : name = key <;> simp [here, found]
    | some value =>
      rw [List.filterMap_cons, found, Option.map_some, List.foldl_cons, ih, get?_assign]
      by_cases here : name = key
      · by_cases special : key = "__proto__" <;> simp [here, special, found]
      · simp [here]

theorem export_get (tree : Tree) (sessionId name : String) :
    (exportSessionToObject tree sessionId).get? name =
      if name ≠ "__proto__" ∧ name ∈ getAllKeys tree sessionId then
        (get tree sessionId name).map SessionRecord.value
      else none := by
  have exported : exportSession tree sessionId = (getAllKeys tree sessionId).filterMap fun key =>
      ((get tree sessionId key).map SessionRecord.value).map fun value => (key, value) := by
    rw [exportSession]
    congr 1
    funext key
    cases get tree sessionId key <;> rfl
  rw [exportSessionToObject, exported,
    get?_assignAll fun key => (get tree sessionId key).map SessionRecord.value]
  simp

theorem import_value (settings : Settings) (target : Cluster Unit) {oracle : Oracle Choice}
    (accepted : ∀ index, (oracle index).rejection = none) (other key : String)
    (data : InsertionMap String String) :
    (evaluate (effect settings ()) (importSession other data) oracle target).world.db.value? other
      key = (data.get? key).or (target.db.value? other key) := by
  obtain ⟨_, -, now, imported⟩ := triple_returns (importSession_spec target other data) rfl
    (along_accepted _ target accepted)
  rw [imported]
  exact (Database.value?_setMany _ _ _ _ _ _ _).trans
    (by rw [if_pos rfl, written_importEntries])

theorem restores_iff (mirrors : Mirrors tree rows) (session : Legal sessionId) :
    Restores tree rows sessionId ↔
      ∀ key, rows (sessionId, key) ≠ none → Plain key ∧ key ≠ "__proto__" := by
  constructor
  · intro restores key present
    obtain ⟨value, stored⟩ := Option.ne_none_iff_exists'.mp present
    have calm : ∀ index : Nat, ((fun _ => ⟨0, none⟩ : Oracle Choice) index).rejection = none :=
      fun _ => rfl
    have settings : Settings := ⟨⟨none, none, none⟩, none, fun _ => 0⟩
    have restored := restores settings (.initial settings .empty) _ sessionId calm key value stored
    rw [import_value settings _ calm, export_get] at restored
    split at restored
    · rename_i listed
      obtain ⟨other, -, rfl⟩ := (mirrors.mem_getAllKeys session key).mp listed.2
      have plain := plain_of_legal_escaped (mirrors.legal sessionId _ present).2
      rw [escapeSegment_plain plain] at listed ⊢
      exact ⟨plain, listed.1⟩
    · cases restored
  · intro plain settings target oracle other accepted key value stored
    have present : rows (sessionId, key) ≠ none := by
      rw [stored]
      exact Option.some_ne_none value
    obtain ⟨ordinary, named⟩ := plain key present
    have same := escapeSegment_plain ordinary
    have listed := (mirrors.mem_getAllKeys session key).mpr ⟨key, present, same.symm⟩
    have legal := (mirrors.legal sessionId key present).2
    have read := @get_escaped tree sessionId session.1 key legal.1
    rw [same] at read
    rw [import_value settings target accepted, export_get, if_pos ⟨named, listed⟩, read,
      mirrors.values sessionId key session legal, stored]
    rfl

end Export

end BaileysSession.FirebaseRealtime
