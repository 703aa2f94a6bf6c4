import BaileysSession.Adapter.Interchange
import BaileysSession.Session.SessionManager

set_option autoImplicit false

namespace BaileysSession.SessionManager

open Async Conformance DatabaseAdapter
open Interchange (Backend Deployment oneBot)
open KeyedTable (Arrangement)

section Exporting

variable {State Choice : Type} {component : Component State Choice Call Answer}
  {holds : State → Rows → Prop} {admitted : Rows → Choice → Call → Prop}
  {sessionId : String} {throughout : String → Option Stamped → Prop}
  (conforms : Conforms contract component holds admitted)

include conforms

/-- What is exported of some keys: each pair was stored, and each key that is missing was not. -/
structure Exported (throughout : String → Option Stamped → Prop) (keys : List String)
    (pairs : List (String × String)) : Prop where
  ordered : (pairs.map Prod.fst).Sublist keys
  stored : ∀ pair ∈ pairs, ∃ stamped : Stamped, throughout pair.1 (some stamped) ∧
    stamped.value = pair.2
  missing : ∀ key ∈ keys, key ∉ pairs.map Prod.fst → throughout key none

theorem exportKeys_spec (keys : List String) :
    Triple (effect component) (Taken admitted (Meets sessionId throughout))
      (Sound holds) (exportKeys sessionId keys)
      (Returns fun pairs w => Sound holds w ∧ Exported throughout keys pairs) := by
  induction keys with
  | nil =>
    apply triple_done
    exact fun w after => ⟨after, .slnil, fun _ inside => absurd inside List.not_mem_nil,
      fun _ inside => absurd inside List.not_mem_nil⟩
  | cons key rest ih =>
    rw [exportKeys]
    apply triple_then (get_spec conforms key)
    intro record
    apply triple_from
    rintro w ⟨after, found⟩
    apply triple_at after
    apply triple_then ih
    intro more
    cases record with
    | none =>
      apply triple_done
      rintro next ⟨later, exported⟩
      refine ⟨later, exported.ordered.cons _, exported.stored, fun other inside absent => ?_⟩
      rcases List.mem_cons.mp inside with rfl | further
      · exact found
      · exact exported.missing other further absent
    | some record =>
      apply triple_done
      rintro next ⟨later, exported⟩
      refine ⟨later, exported.ordered.cons_cons _, fun pair inside => ?_, fun other inside absent => ?_⟩
      · rcases List.mem_cons.mp inside with rfl | further
        · exact ⟨_, found, rfl⟩
        · exact exported.stored pair further
      · rw [List.map_cons, List.mem_cons, not_or] at absent
        rcases List.mem_cons.mp inside with rfl | further
        · exact absurd rfl absent.1
        · exact exported.missing other further absent.2

theorem exportSession_spec :
    Triple (effect component) (Taken admitted (Meets sessionId throughout))
      (Sound holds) (exportSession sessionId)
      (Returns fun pairs w => Sound holds w ∧ (pairs.map Prod.fst).Nodup ∧
        (∀ pair ∈ pairs, ∃ stamped : Stamped, throughout pair.1 (some stamped) ∧
          stamped.value = pair.2) ∧
        ∀ key, key ∉ pairs.map Prod.fst → throughout key none) := by
  apply triple_then (getAllKeys_spec conforms)
  intro keys
  apply triple_from
  rintro w ⟨after, rows, meets, unique, listed⟩
  apply triple_at after
  apply triple_consequence (exportKeys_spec conforms keys) (fun _ same => same)
  rintro pairs next ⟨later, exported⟩
  refine ⟨later, unique.sublist exported.ordered, exported.stored, fun key absent => ?_⟩
  by_cases inside : key ∈ keys
  · exact exported.missing key inside absent
  · have unlisted := mt (listed key).mpr inside
    rw [← not_not.mp unlisted]
    exact meets key

end Exporting

section Object

variable {pairs : List (String × String)}

theorem assign_ordinary (ordinary : "__proto__" ∉ pairs.map Prod.fst)
    (object : InsertionMap String String) : pairs.foldl assign object =
      pairs.foldl (fun object pair => object.set pair.1 pair.2) object := by
  induction pairs generalizing object with
  | nil => rfl
  | cons pair rest ih =>
    rw [List.map_cons, List.mem_cons, not_or] at ordinary
    rw [List.foldl_cons, List.foldl_cons, assign, if_neg (Ne.symm ordinary.1), ih ordinary.2]

theorem get?_object (unique : (pairs.map Prod.fst).Nodup) (ordinary : "__proto__" ∉ pairs.map Prod.fst)
    (key value : String) :
    (pairs.foldl assign .empty).get? key = some value ↔ (key, value) ∈ pairs := by
  rw [assign_ordinary ordinary]
  refine (InsertionMap.get?_collected Prod.fst Prod.snd unique .empty key value).trans ?_
  constructor
  · rintro (⟨pair, inside, rfl, rfl⟩ | ⟨-, impossible⟩)
    · exact inside
    · cases impossible
  · exact fun inside => .inl ⟨_, inside, rfl, rfl⟩

theorem putAll_stamped (now : Int) (sessionId : String) (entries : List (String × String))
    (unique : (entries.map Prod.fst).Nodup) (rows : Rows) (pair : String × String) :
    Overlay.putAll rows (entries.map fun entry => stamp now sessionId ⟨entry.1, entry.2⟩) pair =
      if pair.1 = sessionId then
        ((entries.lookup pair.2).map fun value => ⟨value, now⟩).or (rows pair)
      else rows pair := by
  induction entries generalizing rows with
  | nil => simp [Overlay.putAll]
  | cons entry rest ih =>
    rw [List.map_cons, List.nodup_cons] at unique
    rw [List.map_cons, Overlay.putAll, List.foldl_cons, ← Overlay.putAll, ih unique.2,
      InsertionMap.lookup_cons]
    have first : Overlay.put rows (stamp now sessionId ⟨entry.1, entry.2⟩) pair =
        if pair.1 = sessionId ∧ pair.2 = entry.1 then some ⟨entry.2, now⟩ else rows pair := by
      have same : pair = (sessionId, entry.1) ↔ pair.1 = sessionId ∧ pair.2 = entry.1 := Prod.ext_iff
      simp only [Overlay.put, stamp, Function.update_apply, same]
    rw [first]
    by_cases session : pair.1 = sessionId
    · by_cases here : pair.2 = entry.1
      · have absent : rest.lookup pair.2 = none := by
          rw [List.lookup_eq_none_iff]
          intro other inside
          exact bne_iff_ne.mpr fun same => unique.1 (here ▸ same ▸ List.mem_map_of_mem inside)
        simp [session, here, here ▸ absent]
      · simp [session, here]
    · simp [session]

end Object

section Programs

variable {State Choice : Type} {component : Component State Choice Call Answer}
  {holds : State → Rows → Prop} {admitted : Rows → Choice → Call → Prop} {sessionId : String}
  (conforms : Conforms contract component holds admitted)

include conforms

theorem exportSessionToObject_spec (rows : Rows) (ordinary : rows (sessionId, "__proto__") = none) :
    Triple (effect component)
      (Taken admitted (Meets sessionId fun key stored => stored = rows (sessionId, key)))
      (Sound holds) (exportSessionToObject sessionId)
      (Returns fun object _ => ∀ key,
        object.get? key = (rows (sessionId, key)).map Stamped.value) := by
  apply triple_then (exportSession_spec conforms)
  intro pairs
  apply triple_done
  rintro w ⟨-, unique, stored, missing⟩ key
  have plain : "__proto__" ∉ pairs.map Prod.fst := by
    intro inside
    obtain ⟨pair, listed, name⟩ := List.mem_map.mp inside
    obtain ⟨stamped, there, -⟩ := stored pair listed
    rw [name, ordinary] at there
    cases there
  refine Option.ext fun value => ?_
  rw [get?_object unique plain]
  constructor
  · intro inside
    obtain ⟨stamped, there, rfl⟩ := stored (key, value) inside
    dsimp only at there
    rw [← there, Option.map_some]
  · intro there
    by_cases inside : key ∈ pairs.map Prod.fst
    · obtain ⟨⟨_, own⟩, listed, rfl⟩ := List.mem_map.mp inside
      obtain ⟨stamped, held, rfl⟩ := stored _ listed
      dsimp only at held there
      rw [← held, Option.map_some, Option.some.injEq] at there
      exact there ▸ listed
    · rw [← missing key inside] at there
      cases there

theorem importSession_spec (importedId : String) (data : InsertionMap String String)
    (found : Rows) :
    Triple (effect component) (Taken admitted (· = found)) (Sound holds)
      (importSession importedId data)
      (Returns fun _ w => Sound holds w ∧ ∃ now, w.rows = Overlay.putAll found
        (data.entries.map fun entry => stamp now importedId ⟨entry.1, entry.2⟩)) := by
  apply triple_then (perform_spec conforms (.setMany importedId _))
  intro answer
  apply triple_from
  rintro w ⟨after, rows, now, rfl, answered, left⟩
  have done : answer = .done := answered
  subst done
  apply triple_done
  rintro _ rfl
  refine ⟨after, now, ?_⟩
  simp only [left, asked, List.map_map]
  rfl

end Programs

section Bot

def botWorld : World Backend.sqlite.State where
  state := (SqliteWorker.step (Arrangement.stored _) ⟨.set "bot" "creds" "one", 1⟩ .empty).2
  rows := asked ⟨.set "bot" "creds" "one", 1⟩ nothing

theorem botWorld_sound : Backend.sqlite.Holds oneBot botWorld.state botWorld.rows := by
  have served : Conforms contract (Backend.sqlite.step oneBot) (Backend.sqlite.Holds oneBot) _ :=
    Backend.sqlite.conforms
  exact served.kept (Arrangement.stored _) _ _ _ (Backend.initial_holds Backend.sqlite)
    ⟨trivial, ⟨rfl, rfl⟩, trivial⟩

theorem botWorld_row (key : String) : botWorld.rows ("bot", key) =
    if key = "creds" then some ⟨"one", 1⟩ else none := by
  by_cases here : key = "creds" <;>
    simp [botWorld, asked, Overlay.put, stamp, nothing, here]

-- The creds are saved again once the keys have been listed.
def savedAgain : Oracle (Turn Backend.sqlite.Choice) := fun index =>
  ⟨if index = 1 then [(Arrangement.stored _, ⟨.set "bot" "creds" "two", 2⟩)] else [],
    Arrangement.stored _, 3⟩

def oneOrTwo (key : String) (stored : Option Stamped) : Prop :=
  if key = "creds" then stored = some ⟨"one", 1⟩ ∨ stored = some ⟨"two", 2⟩ else stored = none

theorem botWorld_oneOrTwo : Meets "bot" oneOrTwo botWorld.rows := by
  intro key
  rw [botWorld_row, oneOrTwo]
  split
  · exact .inl rfl
  · rfl

theorem savedAgain_oneOrTwo :
    Meets "bot" oneOrTwo (asked ⟨.set "bot" "creds" "two", 2⟩ botWorld.rows) := by
  intro key
  by_cases here : key = "creds"
  · simp [oneOrTwo, here, asked, Overlay.put, stamp]
  · simp [oneOrTwo, here, asked, Overlay.put, stamp, botWorld_row]

end Bot

section Results

variable (deployment : Deployment)

abbrev Admitted (backend : Backend) (rows : Rows) (_ : backend.Choice) (call : Call) : Prop :=
  backend.Admitted deployment rows call

/-- Other writers of the session may overlap an export: while no call of the database fails, each pair
was stored at some moment of it, and each key that is missing was absent at some moment. Whatever
holds of every row throughout holds of what is exported. -/
theorem export_under_writes (backend : Backend) (sessionId : String)
    (throughout : String → Option Stamped → Prop) (w : World backend.State)
    (sound : backend.Holds deployment w.state w.rows) (oracle : Oracle (Turn backend.Choice))
    (along : Along (effect (backend.step deployment))
      (Taken (Admitted deployment backend) (Meets sessionId throughout)) (exportSession sessionId)
      oracle w) :
    ∃ pairs, (evaluate (effect (backend.step deployment)) (exportSession sessionId) oracle w).result =
        .ok pairs ∧ (pairs.map Prod.fst).Nodup ∧
      (∀ pair ∈ pairs, ∃ stamped : Stamped, throughout pair.1 (some stamped) ∧
        stamped.value = pair.2) ∧
      ∀ key, key ∉ pairs.map Prod.fst → throughout key none := by
  obtain ⟨pairs, returned, -, exported⟩ :=
    triple_returns (exportSession_spec backend.conforms) sound along
  exact ⟨pairs, returned, exported⟩

theorem export_while_saving :
    ∃ pairs, (evaluate (effect (Backend.sqlite.step oneBot)) (exportSession "bot") savedAgain
        botWorld).result = .ok pairs ∧ (("creds", "one") ∈ pairs ∨ ("creds", "two") ∈ pairs) := by
  obtain ⟨pairs, returned, -, stored, missing⟩ := export_under_writes oneBot .sqlite "bot" oneOrTwo
    botWorld botWorld_sound savedAgain
    ⟨⟨trivial, ⟨trivial, rfl, trivial⟩, botWorld_oneOrTwo⟩,
      ⟨⟨⟨trivial, ⟨rfl, rfl⟩, trivial⟩, trivial⟩, ⟨trivial, ⟨rfl, rfl⟩, trivial⟩,
        savedAgain_oneOrTwo⟩, trivial⟩
  refine ⟨pairs, returned, ?_⟩
  have listed : "creds" ∈ pairs.map Prod.fst := by
    by_contra absent
    rcases missing "creds" absent with impossible | impossible <;> cases impossible
  obtain ⟨⟨_, value⟩, inside, rfl⟩ := List.mem_map.mp listed
  obtain ⟨stamped, there, rfl⟩ := stored _ inside
  rcases there with one | two
  · cases one
    exact .inl inside
  · cases two
    exact .inr inside

/-- A session that is exported from one database and imported into another, or into the same one
under another id, has there exactly the values it had, and nothing else changes. -/
theorem session_moves (source target : Backend) (sessionId importedId : String)
    (w : World source.State) (sound : source.Holds deployment w.state w.rows)
    (ordinary : w.rows (sessionId, "__proto__") = none) (oracle : Oracle (Turn source.Choice))
    (along : Along (effect (source.step deployment)) (Taken (Admitted deployment source)
      (Meets sessionId fun key stored => stored = w.rows (sessionId, key)))
      (exportSessionToObject sessionId) oracle w)
    (other : World target.State) (soundToo : target.Holds deployment other.state other.rows) :
    ∃ object, (evaluate (effect (source.step deployment)) (exportSessionToObject sessionId) oracle
        w).result = .ok object ∧
      ∀ (imports : Oracle (Turn target.Choice)) (found : Rows),
        Along (effect (target.step deployment)) (Taken (Admitted deployment target) (· = found))
          (importSession importedId object) imports other →
        let ended := evaluate (effect (target.step deployment)) (importSession importedId object)
          imports other
        ended.result = .ok () ∧ target.Holds deployment ended.world.state ended.world.rows ∧
          ∃ now, ∀ row, ended.world.rows row = if row.1 = importedId then
              ((w.rows (sessionId, row.2)).map fun stamped => ⟨stamped.value, now⟩).or (found row)
            else found row := by
  obtain ⟨object, returned, stored⟩ := triple_returns
    (exportSessionToObject_spec source.conforms w.rows ordinary) sound along
  refine ⟨object, returned, fun imports found taken => ?_⟩
  obtain ⟨_, done, kept, now, rows⟩ := triple_returns
    (importSession_spec target.conforms importedId object found) soundToo taken
  refine ⟨done, kept, now, fun row => ?_⟩
  rw [rows, putAll_stamped now importedId _ object.unique]
  have value : object.entries.lookup row.2 = (w.rows (sessionId, row.2)).map Stamped.value :=
    stored row.2
  rw [value, Option.map_map]
  rfl

theorem bot_moves_to_mongodb :
    ∃ object, (evaluate (effect (Backend.sqlite.step oneBot)) (exportSessionToObject "bot")
        (fun _ => ⟨[], Arrangement.stored _, 2⟩) botWorld).result = .ok object ∧
      ∃ now, (evaluate (effect (Backend.mongodb.step oneBot)) (importSession "bot" object)
          (fun _ => ⟨[], Arrangement.stored _, 3⟩) ⟨Backend.mongodb.initial, nothing⟩).world.rows
            ("bot", "creds") = some ⟨"one", now⟩ := by
  have computed : (evaluate (effect (Backend.sqlite.step oneBot)) (exportSessionToObject "bot")
      (fun _ => ⟨[], Arrangement.stored _, 2⟩) botWorld).result =
        .ok (InsertionMap.empty.set "creds" "one") := rfl
  obtain ⟨object, returned, moves⟩ := session_moves oneBot .sqlite .mongodb "bot" "bot" botWorld
    botWorld_sound rfl (fun _ => ⟨[], Arrangement.stored _, 2⟩)
    ⟨⟨trivial, ⟨trivial, rfl, trivial⟩, fun _ => rfl⟩,
      ⟨trivial, ⟨trivial, ⟨rfl, rfl⟩, trivial⟩, fun _ => rfl⟩, trivial⟩
    ⟨Backend.mongodb.initial, nothing⟩ (Backend.initial_holds .mongodb)
  refine ⟨object, returned, ?_⟩
  rw [computed, Except.ok.injEq] at returned
  subst returned
  have admitted : Admitted oneBot .mongodb nothing (Arrangement.stored _)
      ⟨.setMany "bot" [⟨"creds", "one"⟩], 3⟩ := by
    refine ⟨trivial, ⟨rfl, fun entry inside => ?_⟩, fun _ _ _ => rfl⟩
    rw [List.mem_singleton.mp inside]
    rfl
  obtain ⟨-, -, now, rows⟩ := moves (fun _ => ⟨[], Arrangement.stored _, 3⟩) nothing
    ⟨⟨trivial, admitted, rfl⟩, trivial⟩
  exact ⟨now, rows ("bot", "creds")⟩

end Results

end BaileysSession.SessionManager
