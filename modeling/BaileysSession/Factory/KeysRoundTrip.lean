import BaileysSession.Cache.SessionOperations
import BaileysSession.Factory.KeyNames
import BaileysSession.Factory.KeysCollect
import BaileysSession.Factory.KeysGet

set_option autoImplicit false

namespace BaileysSession.KeysRoundTrip

open Async CacheManager KeysGet
open KeysSet (request mem_entries mem_deletions)

variable {Value : Type}

section Rows

variable {settings : Settings} {sessionId : String}

def leftBy (sections : List KeysSet.Section) (key : String) (before : Option String) :
    Option String :=
  sections.foldl (fun value change => if key ∈ change.keys then change.leaves key else value) before

theorem leftBy_sections (changes : KeysSet.Changes) (key : String) (before : Option String) :
    leftBy changes.sections key before = if key ∈ changes.deletions then none
      else (Database.written changes.entries key).or before := by
  have stored : leftBy (if changes.entries.length > 0 then [.upsert changes.entries] else []) key
      before = (Database.written changes.entries key).or before := by
    split
    · simp only [leftBy, List.foldl_cons, List.foldl_nil]
      by_cases inside : key ∈ (KeysSet.Section.upsert changes.entries).keys
      · have written := mt (Database.written_eq_none_iff changes.entries key).mp
          (not_not.mpr inside)
        obtain ⟨value, found⟩ := Option.ne_none_iff_exists'.mp written
        rw [if_pos inside, KeysSet.Section.leaves, found]
        rfl
      · rw [if_neg inside, (Database.written_eq_none_iff changes.entries key).mpr inside,
          Option.none_or]
    · rename_i empty
      have nothing : changes.entries = [] := List.length_eq_zero_iff.mp (by omega)
      rw [nothing]
      rfl
  unfold KeysSet.Changes.sections
  rw [leftBy, List.foldl_append]
  unfold leftBy at stored
  rw [stored]
  split
  · rfl
  · rename_i empty
    have nothing : changes.deletions = [] := List.length_eq_zero_iff.mp (by omega)
    simp [nothing]

theorem runSections_rows (sections : List KeysSet.Section) (start : String → Option String) :
    Triple (effect settings ()) (Tolerable False)
      (fun w => Settled settings (sessions (· = sessionId)) False w ∧
        ∀ key, w.db.value? sessionId key = start key)
      (runSections settings.redis sessionId sections)
      (Returns fun _ next => Settled settings (sessions (· = sessionId)) False next ∧
        ∀ key, next.db.value? sessionId key = leftBy sections key (start key)) := by
  induction sections generalizing start with
  | nil => exact triple_done fun _ holds => holds
  | cons change rest ih =>
    rw [runSections]
    apply triple_from
    rintro w ⟨settled, rows⟩
    apply triple_then (runSection_spec (single_connected settings) w settled sessionId change
      fun key _ => only_owns sessionId key)
    intro _
    apply triple_consequence (ih fun key => if key ∈ change.keys then change.leaves key else start key)
    · rintro next ⟨after, now, written⟩
      refine ⟨after, fun key => ?_⟩
      rw [written, KeysSet.value?_write, rows]
      simp
    · exact fun _ _ after => after

theorem keysSet_rows {w : Cluster Unit}
    (settled : Settled settings (sessions (· = sessionId)) False w) (changes : KeysSet.Changes)
    {oracle : Oracle Choice} (accepted : ∀ index, (oracle index).rejection = none) :
    Settled settings (sessions (· = sessionId)) False
        (evaluate (effect settings ()) (keysSet settings.redis sessionId changes) oracle w).world ∧
      ∀ key, (evaluate (effect settings ()) (keysSet settings.redis sessionId changes) oracle
          w).world.db.value? sessionId key =
        if key ∈ changes.deletions then none
        else (Database.written changes.entries key).or (w.db.value? sessionId key) := by
  obtain ⟨_, -, after, rows⟩ := triple_returns
    (runSections_rows changes.sections fun key => w.db.value? sessionId key)
    ⟨settled, fun _ => rfl⟩ (along_accepted _ w accepted)
  exact ⟨after, fun key => (rows key).trans (leftBy_sections changes key _)⟩

end Rows

section Reading

variable (settings : Settings) (sessionId : String) (codec : Codec Value) (w : Cluster Unit)
  (category : Category) (id : String)

abbrev read (asked : Oracle Choice) (ids : List String) :
    Except String (InsertionMap String Value) :=
  (evaluate (effect settings ()) (keysGet settings.redis sessionId codec category ids) asked w).result

/-- `keys.get` gives this for the id: asked for it alone, and as well among others, unless it
fails for one of those. -/
def Gives (entry : Except String (Option Value)) : Prop :=
  ∀ asked : Oracle Choice, (∀ index, (asked index).rejection = none) →
    (read settings sessionId codec w category asked [id]).map (·.get? id) = entry ∧
      ∀ ids, id ∈ ids → match read settings sessionId codec w category asked ids with
        | .ok found => .ok (found.get? id) = entry
        | .error error =>
          ∃ other ∈ ids, read settings sessionId codec w category asked [other] = .error error

variable {settings sessionId codec w category id}

theorem gives_iff (settled : Settled settings (sessions (· = sessionId)) False w)
    {entry : Except String (Option Value)} :
    Gives settings sessionId codec w category id entry ↔
      entryOf codec sessionId w.db category id = entry := by
  have result : ∀ {asked : Oracle Choice}, (∀ index, (asked index).rejection = none) → ∀ ids,
      read settings sessionId codec w category asked ids =
        gather (entryOf codec sessionId w.db category) ids .empty :=
    fun accepted ids => keysGet_result settled ids accepted
  constructor
  · intro gives
    have calm : ∀ index : Nat, ((fun _ => ⟨0, none⟩ : Oracle Choice) index).rejection = none :=
      fun _ => rfl
    have alone := (gives _ calm).1
    rw [result calm, gather_single] at alone
    exact alone
  · rintro rfl asked accepted
    constructor
    · rw [result accepted, gather_single]
    · intro ids inside
      rw [result accepted]
      split
      · rename_i found gathered
        rcases gather_found ids .empty nofun gathered with right | ⟨absent, -⟩
        · exact right.symm
        · exact absurd inside absent
      · rename_i error gathered
        obtain ⟨other, present, failed⟩ := gather_failed ids .empty gathered
        refine ⟨other, present, ?_⟩
        rw [result accepted, gather, failed]

end Reading

structure Faithful (call : KeysSet.Call Value) (codec : Codec Value) : Prop where
  text : ∀ category id value, request call.data category id = some value →
    call.truthy value = true → call.encode category id value ≠ ""
  decode : ∀ category id value, request call.data category id = some value →
    call.truthy value = true → codec.decode (call.encode category id value) = .ok value
  fromObject : ∀ id value, request call.data .appStateSyncKey id = some value →
    call.truthy value = true → codec.fromObject value = .ok value

section RoundTrip

variable (settings : Settings) (sessionId : String) (call : KeysSet.Call Value)
  (codec : Codec Value) (w : Cluster Unit)

def wish (value : Value) : Except String (Option Value) :=
  .ok (if call.truthy value then some value else none)

def changed (oracle : Oracle Choice) : Cluster Unit :=
  (evaluate (effect settings ()) (keysSet settings.redis sessionId (KeysSet.collect call)) oracle
    w).world

def RoundTrips (oracle : Oracle Choice) : Prop :=
  ∀ category id,
    match request call.data category id with
    | some value =>
      Gives settings sessionId codec (changed settings sessionId call w oracle) category id
        (wish call value)
    | none => ∀ entry, Gives settings sessionId codec w category id entry →
        Gives settings sessionId codec (changed settings sessionId call w oracle) category id entry

/-- The two entries that share a row are to be the same, or the one that is not mentioned reads
that way already. -/
def Agree (id : String) : Prop :=
  match request call.data .senderKey ("memory-" ++ id), request call.data .senderKeyMemory id with
  | some first, some second => wish call first = wish call second
  | some value, none => Gives settings sessionId codec w .senderKeyMemory id (wish call value)
  | none, some value =>
    Gives settings sessionId codec w .senderKey ("memory-" ++ id) (wish call value)
  | none, none => True

variable {settings sessionId call codec w}

theorem decodeEntry_other {first second : Category} (raw : Option String)
    (firstOther : first ≠ .appStateSyncKey) (secondOther : second ≠ .appStateSyncKey) :
    decodeEntry codec first raw = decodeEntry codec second raw := by
  simp [decodeEntry, firstOther, secondOther]

theorem entryOf_row {db : Database} {first second : Category × String}
    (same : cacheKeyName first.1 first.2 = cacheKeyName second.1 second.2) :
    entryOf codec sessionId db first.1 first.2 = entryOf codec sessionId db second.1 second.2 := by
  unfold entryOf
  rw [same]
  rcases (cacheKeyName_eq_iff first second).mp same with rfl | ⟨one, other, -⟩ | ⟨one, other, -⟩
  · rfl
  · exact decodeEntry_other _ (one ▸ by decide) (other ▸ by decide)
  · exact decodeEntry_other _ (other ▸ by decide) (one ▸ by decide)

theorem entryOf_shadowed (db : Database) (id : String) :
    entryOf codec sessionId db .senderKey ("memory-" ++ id) =
      entryOf codec sessionId db .senderKeyMemory id :=
  @entryOf_row _ sessionId codec db (.senderKey, "memory-" ++ id) (.senderKeyMemory, id)
    (cacheKeyName_shadowed id)

theorem decodeEntry_encode (faithful : Faithful call codec) {category : Category} {id : String}
    {value : Value} (requested : request call.data category id = some value)
    (stored : call.truthy value = true) :
    decodeEntry codec category (some (call.encode category id value)) = wish call value := by
  have text := faithful.text category id value requested stored
  have decoded := faithful.decode category id value requested stored
  unfold decodeEntry wish
  simp only [if_neg text, decoded, if_pos stored]
  split
  · rename_i special
    obtain ⟨rfl, -⟩ := special
    rw [faithful.fromObject id value requested stored]
    rfl
  · rfl

theorem agree_row (agree : ∀ id, Agree settings sessionId call codec w id)
    {first second : Category × String}
    (same : cacheKeyName first.1 first.2 = cacheKeyName second.1 second.2) {value : Value}
    (requested : request call.data second.1 second.2 = some value) :
    match request call.data first.1 first.2 with
    | some other => wish call other = wish call value
    | none => Gives settings sessionId codec w first.1 first.2 (wish call value) := by
  rcases (cacheKeyName_eq_iff first second).mp same with rfl | ⟨one, other, id⟩ | ⟨one, other, id⟩
  · rw [requested]
  · have agreed := agree second.2
    rw [Agree, ← id, ← one, ← other, requested] at agreed
    cases mine : request call.data first.1 first.2 with
    | none =>
      rw [mine] at agreed
      exact agreed
    | some value =>
      rw [mine] at agreed
      exact agreed
  · have agreed := agree first.2
    rw [Agree, ← id, ← one, ← other, requested] at agreed
    cases mine : request call.data first.1 first.2 with
    | none =>
      rw [mine] at agreed
      exact agreed
    | some value =>
      rw [mine] at agreed
      exact agreed.symm

variable {oracle : Oracle Choice}

/-- An entry reads afterwards as some mentioned entry of its row is to, or none is mentioned and
it reads as before. -/
theorem changed_entry (settled : Settled settings (sessions (· = sessionId)) False w)
    (faithful : Faithful call codec) (accepted : ∀ index, (oracle index).rejection = none)
    (entry : Category × String) :
    (∃ (other : Category × String) (value : Value),
      cacheKeyName entry.1 entry.2 = cacheKeyName other.1 other.2 ∧
      request call.data other.1 other.2 = some value ∧
        entryOf codec sessionId (changed settings sessionId call w oracle).db entry.1 entry.2 =
          wish call value) ∨
    (request call.data entry.1 entry.2 = none ∧
      entryOf codec sessionId (changed settings sessionId call w oracle).db entry.1 entry.2 =
        entryOf codec sessionId w.db entry.1 entry.2) := by
  have rows := (keysSet_rows settled (KeysSet.collect call) accepted).2
  have row : (changed settings sessionId call w oracle).db.value? sessionId
      (cacheKeyName entry.1 entry.2) =
        if cacheKeyName entry.1 entry.2 ∈ (KeysSet.collect call).deletions then none
        else (Database.written (KeysSet.collect call).entries (cacheKeyName entry.1 entry.2)).or
          (w.db.value? sessionId (cacheKeyName entry.1 entry.2)) := rows _
  by_cases deleted : cacheKeyName entry.1 entry.2 ∈ (KeysSet.collect call).deletions
  · rw [if_pos deleted] at row
    obtain ⟨category, id, value, requested, falsy, same⟩ := (mem_deletions call _).mp deleted
    refine .inl ⟨(category, id), value, same, requested, ?_⟩
    rw [entryOf, row, wish, falsy]
    rfl
  · rw [if_neg deleted] at row
    cases written : Database.written (KeysSet.collect call).entries
        (cacheKeyName entry.1 entry.2) with
    | some text =>
      obtain ⟨category, id, value, requested, stored, same⟩ :=
        (mem_entries call _).mp (Database.written_mem written)
      rw [Entry.mk.injEq] at same
      obtain ⟨name, rfl⟩ := same
      rw [written, Option.some_or] at row
      have twin : cacheKeyName entry.1 entry.2 =
          cacheKeyName (category, id).1 (category, id).2 := name
      refine .inl ⟨(category, id), value, twin, requested, ?_⟩
      rw [entryOf_row twin, entryOf, ← twin, row]
      exact decodeEntry_encode faithful requested stored
    | none =>
      rw [written, Option.none_or] at row
      refine .inr ⟨?_, by rw [entryOf, row, entryOf]⟩
      cases requested : request call.data entry.1 entry.2 with
      | none => rfl
      | some value =>
        cases stored : call.truthy value with
        | false =>
          exact absurd ((mem_deletions call _).mpr ⟨_, _, value, requested, stored, rfl⟩) deleted
        | true =>
          have inside := (mem_entries call _).mpr ⟨_, _, value, requested, stored, rfl⟩
          exact absurd (List.mem_map_of_mem inside)
            ((Database.written_eq_none_iff _ _).mp written)

end RoundTrip

/-- After `keys.set` everything reads as the data has it or as before exactly when the entries
that share a row agree. -/
theorem keys_round_trip {Value : Type} (settings : Settings) (sessionId : String)
    (call : KeysSet.Call Value) (codec : Codec Value) (faithful : Faithful call codec)
    (w : Cluster Unit) (settled : Settled settings (sessions (· = sessionId)) False w)
    (oracle : Oracle Choice) (accepted : ∀ index, (oracle index).rejection = none) :
    RoundTrips settings sessionId call codec w oracle ↔
      ∀ id, Agree settings sessionId call codec w id := by
  have after : Settled settings (sessions (· = sessionId)) False
      (changed settings sessionId call w oracle) :=
    (keysSet_rows settled (KeysSet.collect call) accepted).1
  constructor
  · intro right id
    have row := @entryOf_shadowed _ sessionId codec
      (changed settings sessionId call w oracle).db id
    have first := right .senderKey ("memory-" ++ id)
    have second := right .senderKeyMemory id
    unfold Agree
    cases one : request call.data .senderKey ("memory-" ++ id) <;>
      cases other : request call.data .senderKeyMemory id <;>
      simp only [one, other, gives_iff settled, gives_iff after, forall_eq'] at first second ⊢
    · rw [← first, row, second]
    · rw [← second, ← row, first]
    · rw [← first, row, second]
  · intro agree category id
    rcases changed_entry settled faithful accepted (category, id) with
      ⟨other, value, same, requested, reads⟩ | ⟨unmentioned, reads⟩
    · have agreed := agree_row agree same requested
      dsimp only at reads agreed
      cases mine : request call.data category id with
      | some asked =>
        rw [mine] at agreed
        exact (gives_iff after).mpr (reads.trans agreed.symm)
      | none =>
        rw [mine, gives_iff settled] at agreed
        intro entry gives
        rw [gives_iff settled, agreed] at gives
        exact (gives_iff after).mpr (reads.trans gives)
    · dsimp only at unmentioned reads
      rw [unmentioned]
      intro entry gives
      exact (gives_iff after).mpr (reads.trans ((gives_iff settled).mp gives))

section Runs

def plainSettings : Settings where
  memory := ⟨none, none, none⟩
  redis := none
  versioning := fun version => version.getD 0 + 1

def unfailing : Oracle Choice := fun _ => ⟨0, none⟩

def quoted (data : SignalDataSet String) : KeysSet.Call String where
  data := data
  truthy := (· != "")
  encode := fun _ _ value => "\"" ++ value ++ "\""

def unquoted : Codec String where
  decode := fun text => .ok (String.ofList text.toList.tail.dropLast)
  truthy := (· != "")
  fromObject := .ok

theorem quoted_faithful (data : SignalDataSet String) : Faithful (quoted data) unquoted := by
  constructor
  · intro _ _ value _ _ same
    have lists := congrArg String.toList same
    simp [quoted, String.toList_append] at lists
  · intro _ _ value _ _
    simp [quoted, unquoted, String.toList_append]
  · exact fun _ _ _ _ => rfl

def apartData : SignalDataSet String :=
  (InsertionMap.empty.set .session (some (.set .empty "1.0" "record"))).set .preKey
    (some (.set .empty "1" ""))

theorem keys_round_trip_apart :
    RoundTrips plainSettings "bot" (quoted apartData) unquoted
      (Cluster.initial plainSettings .empty) unfailing :=
  (keys_round_trip plainSettings "bot" (quoted apartData) unquoted (quoted_faithful _) _
    (initial_coherent .empty) unfailing fun _ => rfl).mpr fun _ => trivial

def shadowingData : SignalDataSet String :=
  InsertionMap.empty.set .senderKey (some (.set .empty "memory-x" "record"))

theorem unmentioned_entry_appears :
    request shadowingData .senderKeyMemory "x" = none ∧
      (read plainSettings "bot" unquoted (Cluster.initial plainSettings .empty) .senderKeyMemory
        unfailing ["x"]).map (·.entries) = .ok [] ∧
      (read plainSettings "bot" unquoted (changed plainSettings "bot" (quoted shadowingData)
        (Cluster.initial plainSettings .empty) unfailing) .senderKeyMemory
        unfailing ["x"]).map (·.entries) = .ok [("x", "record")] :=
  ⟨rfl, rfl, rfl⟩

end Runs

end BaileysSession.KeysRoundTrip
