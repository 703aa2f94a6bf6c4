import BaileysSession.Factory.KeysSet
import BaileysSession.Shared.Text
import BaileysSession.Shared.Transition
import Mathlib.Data.List.Sort

set_option autoImplicit false

namespace BaileysSession.Retention

open KeysSet Transition

def unsortedCategories : List Category :=
  [.appStateSyncVersion, .senderKeyMemory, .appStateSyncKey, .identityKey, .deviceList,
    .lidMapping, .senderKey, .preKey, .session, .tctoken]

def CATEGORIES : List Category :=
  unsortedCategories.insertionSort fun a b => b.name.length ≤ a.name.length

def resolveCategory (key : String) : Option Category :=
  if key = credsKey then none
  else CATEGORIES.find? fun category =>
    decide (key = category.name) || Text.startsWith key (category.name ++ "-")

structure KeyRetentionOptions where
  enabled : Bool
  maxAgeMsByCategory : Category → Option Int

def candidates (options : KeyRetentionOptions) (allKeys : List String) : List String :=
  allKeys.filter fun key =>
    if key = credsKey then false
    else match resolveCategory key with
      | none => false
      | some category => (options.maxAgeMsByCategory category).isSome

def maxAgeMs (options : KeyRetentionOptions) (key : String) : Option Int :=
  (resolveCategory key).bind options.maxAgeMsByCategory

def isStale (options : KeyRetentionOptions) (now : Int)
    (records : InsertionMap String SessionRecord) (key : String) : Bool :=
  match records.get? key with
  | none => false
  | some record =>
    match resolveCategory key with
    | none => false
    | some category =>
      match options.maxAgeMsByCategory category with
      | none => false
      | some maxAgeMs => decide (now - record.updatedAt ≥ maxAgeMs)

def staleKeys (options : KeyRetentionOptions) (now : Int) (candidates : List String)
    (records : InsertionMap String SessionRecord) : List String :=
  candidates.filter (isStale options now records)

/-- Where a `pruneExpiredKeys` call stands. `readAt` counts the values stored before its
`getMany` took effect. -/
inductive Phase where
  | idle
  -- `adapter.getAllKeys` is under way.
  | listing
  -- `adapter.getMany` is under way.
  | fetching (candidates : List String)
  -- `getMany` took effect and its answer is under way.
  | fetched (candidates : List String) (records : InsertionMap String SessionRecord) (readAt : Nat)
  -- `adapter.deleteMany` is under way.
  | deleting (staleKeys : List String) (now : Int) (readAt : Nat)
  -- The `cache.onDeleted` calls are under way.
  | invalidating (staleKeys : List String)
  | done (prunedKeys : List String)

structure Removal where
  key : String
  record : SessionRecord
  now : Int
  writtenSinceRead : Bool
  deriving DecidableEq, Repr

structure State (Pass : Type) where
  db : Database
  phase : Pass → Phase
  stored : List String
  removed : List Removal

inductive Event (Pass : Type) where
  | pruneExpiredKeys (pass : Pass)
  | getAllKeys (pass : Pass)
  | getMany (pass : Pass)
  | decide (pass : Pass) (dateNow : Int)
  | deleteMany (pass : Pass)
  | onDeleted (pass : Pass)
  -- A critical section of a `keys.set` call or of the batcher.
  | write (change : Section) (dateNow : Int)

def initial (Pass : Type) (db : Database) : State Pass where
  db := db
  phase := fun _ => .idle
  stored := []
  removed := []

variable {Pass : Type} [DecidableEq Pass]

def State.enter (s : State Pass) (pass : Pass) (phase : Phase) : State Pass :=
  { s with phase := Function.update s.phase pass phase }

theorem enter_self (s : State Pass) (pass : Pass) (phase : Phase) :
    (s.enter pass phase).phase pass = phase := by
  simp [State.enter]

theorem enter_other (s : State Pass) {pass other : Pass} (phase : Phase) (different : other ≠ pass) :
    (s.enter pass phase).phase other = s.phase other := by
  simp [State.enter, different]

def Section.stores : Section → List String
  | .upsert entries => entries.map Entry.key
  | .remove _ => []

def removals (s : State Pass) (sessionId : String) (staleKeys : List String) (now : Int)
    (readAt : Nat) : List Removal :=
  staleKeys.filterMap fun key =>
    (s.db.get sessionId key).map fun record =>
      ⟨key, record, now, decide (key ∈ s.stored.drop readAt)⟩

def step (options : KeyRetentionOptions) (versioning : Versioning) (sessionId : String) :
    Step (State Pass) (Event Pass) := fun s event =>
  match event with
  | .pruneExpiredKeys pass =>
    match s.phase pass with
    | .idle => some (s.enter pass (if options.enabled then .listing else .done []))
    | _ => none
  | .getAllKeys pass =>
    match s.phase pass with
    | .listing =>
      let candidates := candidates options (s.db.getAllKeys sessionId)
      some (s.enter pass (if candidates.length = 0 then .done [] else .fetching candidates))
    | _ => none
  | .getMany pass =>
    match s.phase pass with
    | .fetching candidates =>
      some (s.enter pass
        (.fetched candidates (s.db.getMany sessionId candidates) s.stored.length))
    | _ => none
  | .decide pass dateNow =>
    match s.phase pass with
    | .fetched candidates records readAt =>
      let stale := staleKeys options dateNow candidates records
      some (s.enter pass (if stale.length = 0 then .done [] else .deleting stale dateNow readAt))
    | _ => none
  | .deleteMany pass =>
    match s.phase pass with
    | .deleting staleKeys now readAt => some ({ s with
        db := s.db.deleteMany sessionId staleKeys
        removed := s.removed ++ removals s sessionId staleKeys now readAt }.enter pass
          (.invalidating staleKeys))
    | _ => none
  | .onDeleted pass =>
    match s.phase pass with
    | .invalidating staleKeys => some (s.enter pass (.done staleKeys))
    | _ => none
  | .write change dateNow => some { s with
      db := change.write versioning dateNow sessionId s.db
      stored := s.stored ++ Section.stores change }

end BaileysSession.Retention
