import BaileysSession.Adapter.Interchange
import BaileysSession.Cache.CoherentPrograms
import BaileysSession.Cache.Footprints
import BaileysSession.Shared.AsyncRefinement

set_option autoImplicit false

-- Cache managers over one of the databases.
namespace BaileysSession.Stack

open Async CacheManager
open DatabaseAdapter (Answer Record asked right rowsOf)
open Interchange (Backend Deployment)

variable {Instance : Type} [DecidableEq Instance] {backend : Backend}

section Source

/-- A cluster over a database. The rows of `cluster` are a history variable: what the calls that
were made leave. -/
structure World (backend : Backend) (Instance : Type) where
  cluster : Cluster Instance
  state : backend.State

-- What is left open in a call, by the database too.
structure Draw (backend : Backend) where
  choice : Choice
  own : backend.Choice

def World.initial (settings : Settings) (backend : Backend) : World backend Instance :=
  ⟨.initial settings .empty, backend.initial⟩

def toSessionRecord (record : Record) : SessionRecord :=
  ⟨record.value, record.updatedAt, record.version⟩

def rejected {Value : Type} : Except String Value := .error "rejected"

def recordIn : Answer → Except String (Option SessionRecord)
  | .record found => .ok (found.map toSessionRecord)
  | _ => rejected

def recordsIn : Answer → Except String (InsertionMap String SessionRecord)
  | .records found => .ok (found.map fun _ => toSessionRecord)
  | _ => rejected

def textsIn : Answer → Except String (List String)
  | .texts found => .ok found
  | _ => rejected

def doneIn : Answer → Except String Unit
  | .done => .ok ()
  | _ => rejected

variable (settings : Settings) (deployment : Deployment) (self : Instance)

def ask (operation : DatabaseAdapter.Operation) (draw : Draw backend) (w : World backend Instance) :
    Answer × backend.State :=
  backend.step deployment draw.own ⟨operation, draw.choice.dateNow⟩ w.state

def effect : Effect Reply (Draw backend) (World backend Instance)
  | .dbGet sessionId key, draw, w =>
    let answered := ask deployment (.get sessionId key) draw w
    (recordIn answered.1, { w with state := answered.2 })
  | .dbGetMany sessionId keys, draw, w =>
    let answered := ask deployment (.getMany sessionId keys) draw w
    (recordsIn answered.1, { w with state := answered.2 })
  | .dbGetAllKeys sessionId, draw, w =>
    let answered := ask deployment (.getAllKeys sessionId) draw w
    (textsIn answered.1, { w with state := answered.2 })
  | .dbSetMany sessionId entries, draw, w =>
    let answered := ask deployment (.setMany sessionId entries) draw w
    (doneIn answered.1, ⟨{ w.cluster with
      db := w.cluster.db.setMany settings.versioning draw.choice.dateNow sessionId entries },
      answered.2⟩)
  | .dbDeleteMany sessionId keys, draw, w =>
    let answered := ask deployment (.deleteMany sessionId keys) draw w
    (doneIn answered.1, ⟨{ w.cluster with db := w.cluster.db.deleteMany sessionId keys },
      answered.2⟩)
  | .dbDeleteSession sessionId, draw, w =>
    let answered := ask deployment (.deleteSession sessionId) draw w
    (doneIn answered.1, ⟨{ w.cluster with db := w.cluster.db.deleteSession sessionId },
      answered.2⟩)
  | call, draw, w =>
    let answered := CacheManager.effect settings self call draw.choice w.cluster
    (answered.1, { w with cluster := answered.2 })

end Source

section Conditions

variable (deployment : Deployment)

def Sound (w : World backend Instance) : Prop :=
  backend.Holds deployment w.state (rowsOf w.cluster.db)

def request : Call → Option DatabaseAdapter.Operation
  | .dbGet sessionId key => some (.get sessionId key)
  | .dbGetMany sessionId keys => some (.getMany sessionId keys)
  | .dbGetAllKeys sessionId => some (.getAllKeys sessionId)
  | .dbSetMany sessionId entries => some (.setMany sessionId entries)
  | .dbDeleteMany sessionId keys => some (.deleteMany sessionId keys)
  | .dbDeleteSession sessionId => some (.deleteSession sessionId)
  | _ => none

/-- The call is tolerable, and the database takes it. -/
def Taken (shared : Prop) (w : World backend Instance) (call : Call) (draw : Draw backend) : Prop :=
  Tolerable shared w.cluster call draw.choice ∧ ∀ operation ∈ request call,
    backend.Admitted deployment (rowsOf w.cluster.db) ⟨operation, draw.choice.dateNow⟩

def Unread : Call → Prop
  | .dbGet _ _ | .dbGetMany _ _ | .dbGetAllKeys _ => False
  | _ => True

def Cached (call : Call) : Prop := request call = none

end Conditions

theorem cached_unread (call : Call) (cached : Cached call) : Unread call := by
  cases call with
  | dbGet | dbGetMany | dbGetAllKeys => cases cached
  | _ => trivial

section Versions

abbrev Versions := String × String → Int

def withVersions (versions : Versions) (w : Cluster Instance) : Cluster Instance :=
  { w with db := ⟨w.db.rows.map fun row record => { record with version := versions row }⟩ }

variable {versions : Versions} {w : Cluster Instance}

omit [DecidableEq Instance] in
theorem withVersions_get (sessionId key : String) :
    (withVersions versions w).db.get sessionId key =
      (w.db.get sessionId key).map fun record =>
        { record with version := versions (sessionId, key) } :=
  InsertionMap.get?_map w.db.rows _ (sessionId, key)

omit [DecidableEq Instance] in
theorem withVersions_value (sessionId key : String) :
    (withVersions versions w).db.value? sessionId key = w.db.value? sessionId key := by
  rw [Database.value?, withVersions_get, Option.map_map]
  rfl

omit [DecidableEq Instance] in
theorem withVersions_settled {settings : Settings} {scope : Scope} {shared : Prop} :
    Settled settings scope shared (withVersions versions w) ↔ Settled settings scope shared w := by
  constructor
  · intro settled
    refine ⟨fun self sessionId key held inScope present => ?_,
      fun redis sessionId key held inScope present => ?_⟩
    · have here := settled.l1 self sessionId key held inScope present
      rwa [withVersions_value] at here
    · have here := settled.l2 redis sessionId key held inScope present
      rwa [withVersions_value] at here
  · intro settled
    refine ⟨fun self sessionId key held inScope present => ?_,
      fun redis sessionId key held inScope present => ?_⟩
    · rw [withVersions_value]
      exact settled.l1 self sessionId key held inScope present
    · rw [withVersions_value]
      exact settled.l2 redis sessionId key held inScope present

end Versions

section Levels

variable {settings : Settings} {deployment : Deployment} {shared : Prop} {self : Instance}

theorem blind : Blind (CacheManager.effect settings self) (Tolerable shared) withVersions Cached := by
  constructor
  · intro call choice versions w cached fine
    cases call with
    | dbGet | dbGetMany | dbGetAllKeys | dbSetMany | dbDeleteMany | dbDeleteSession => cases cached
    | _ => exact fine
  · intro call choice versions w cached
    cases call with
    | dbGet | dbGetMany | dbGetAllKeys | dbSetMany | dbDeleteMany | dbDeleteSession => cases cached
    | _ => rfl

section Asked

omit [DecidableEq Instance]

variable {operation : DatabaseAdapter.Operation} {draw : Draw backend} {w : World backend Instance}
  (sound : Sound deployment w)
  (admitted : backend.Admitted deployment (rowsOf w.cluster.db) ⟨operation, draw.choice.dateNow⟩)

include sound admitted

theorem ask_right : right ⟨operation, draw.choice.dateNow⟩ (rowsOf w.cluster.db)
    (ask deployment operation draw w).1 :=
  backend.conforms.answered draw.own _ _ _ sound admitted

theorem ask_holds : backend.Holds deployment (ask deployment operation draw w).2
    (asked ⟨operation, draw.choice.dateNow⟩ (rowsOf w.cluster.db)) :=
  backend.conforms.kept draw.own _ _ _ sound admitted

end Asked

/-- But for what it answers to reads, the database does what the model of it does. -/
theorem mirrors : Mirrors (CacheManager.effect settings self) (Tolerable shared)
    (effect settings deployment self) (Taken deployment shared) (Sound deployment) Draw.choice
    (fun w : World backend Instance => w.cluster) Unread := by
  constructor
  · exact fun _ _ _ _ _ taken => taken.1
  · rintro call draw w unread sound ⟨fine, admitted⟩
    cases call with
    | dbGet | dbGetMany | dbGetAllKeys => exact False.elim unread
    | dbSetMany | dbDeleteMany =>
      have accepted : draw.choice.rejection = none := fine
      have done : (ask deployment _ draw w).1 = .done := ask_right sound (admitted _ rfl)
      simp only [CacheManager.effect, effect, done, doneIn, Choice.answer, accepted,
        applies_accepted accepted, List.filter_true]
    | dbDeleteSession =>
      have accepted : draw.choice.rejection = none := fine
      have done : (ask deployment _ draw w).1 = .done := ask_right sound (admitted _ rfl)
      simp only [CacheManager.effect, effect, done, doneIn, Choice.answer, accepted]
    | _ => rfl
  · rintro call draw w unread sound ⟨-, admitted⟩
    cases call with
    | dbGet | dbGetMany | dbGetAllKeys => exact False.elim unread
    | dbSetMany sessionId entries =>
      have rows := DatabaseAdapter.rowsOf_setMany w.cluster.db settings.versioning
        draw.choice.dateNow sessionId entries
      exact (congrArg (backend.Holds deployment _) rows).mpr (ask_holds sound (admitted _ rfl))
    | dbDeleteMany sessionId keys =>
      have rows := DatabaseAdapter.rowsOf_deleteMany w.cluster.db sessionId keys
      exact (congrArg (backend.Holds deployment _) rows).mpr (ask_holds sound (admitted _ rfl))
    | dbDeleteSession sessionId =>
      have rows := DatabaseAdapter.rowsOf_deleteSession w.cluster.db sessionId
      exact (congrArg (backend.Holds deployment _) rows).mpr (ask_holds sound (admitted _ rfl))
    | _ => exact sound

theorem foreseen (sessionId key : String) :
    Foreseen (CacheManager.effect settings self) (Tolerable shared)
      (effect settings deployment self) (Taken deployment shared) (Sound deployment) Draw.choice
      (fun w : World backend Instance => w.cluster) withVersions (.dbGet sessionId key) := by
  rintro draw w sound ⟨accepted, admitted⟩
  refine ⟨ask_holds sound (admitted _ rfl), ?_⟩
  obtain ⟨found, answered, stored⟩ := ask_right sound (admitted _ rfl)
  refine ⟨fun _ => found.elim 0 Record.version, accepted, ?_⟩
  have record : (withVersions (fun _ => found.elim 0 Record.version) w.cluster).db.get sessionId
      key = found.map toSessionRecord := by
    rw [DatabaseAdapter.content, DatabaseAdapter.rowsOf_eq, Option.map_map] at stored
    rw [withVersions_get]
    cases there : w.cluster.db.get sessionId key with
    | none =>
      rw [there] at stored
      rw [Option.map_eq_none_iff.mp stored]
      rfl
    | some record =>
      rw [there] at stored
      obtain ⟨own, rfl, same⟩ := Option.map_eq_some_iff.mp stored
      cases own
      cases same
      rfl
  have accepted : draw.choice.rejection = none := accepted
  simp only [CacheManager.effect, effect, answered, recordIn, Choice.answer, accepted, record]

end Levels

section Reads

theorem readDatabase_once (redis : Option RedisMode) (sessionId key : String) :
    (readDatabase redis sessionId key).Once (.dbGet sessionId key) Cached := by
  refine .inr ⟨rfl, fun reply => ?_⟩
  apply only_bind (settle_only reply)
  intro record
  cases record with
  | none => trivial
  | some record =>
    have set : Cached (.l2Set (cacheKey sessionId key) record.value record.version) := rfl
    refine ⟨rfl, fun _ => ?_⟩
    apply only_bind (safeL2Set_only set)
    exact fun _ => trivial

theorem readL2_once (redis : Option RedisMode) (sessionId key : String) :
    (readL2 redis sessionId key).Once (.dbGet sessionId key) Cached := by
  have asks : Cached (.l2Get (cacheKey sessionId key)) := rfl
  apply once_after (safeL2Get_only asks)
  intro l2Hit
  cases l2Hit with
  | none => exact readDatabase_once redis sessionId key
  | some hit => exact .inl ⟨rfl, fun _ => trivial⟩

theorem get_once (redis : Option RedisMode) (sessionId key : String) :
    (CacheManager.get redis sessionId key).Once (.dbGet sessionId key) Cached := by
  refine .inl ⟨rfl, fun l1Hit => ?_⟩
  cases l1Hit with
  | none => exact readL2_once redis sessionId key
  | some hit =>
    dsimp only [Async.bind]
    split
    · have asks : Cached (.l2Get (cacheKey sessionId key)) := rfl
      apply once_after (safeL2Get_only asks)
      intro l2Check
      cases l2Check with
      | none => trivial
      | some check =>
        dsimp only
        split
        · exact .inl ⟨rfl, fun _ => readL2_once redis sessionId key⟩
        · trivial
    · trivial

structure Steady (settings : Settings) (scope : Scope) (shared : Prop)
    (values : String → String → Option String) (inbox : Instance → List String)
    (w : Cluster Instance) : Prop where
  settled : Settled settings scope shared w
  values : ∀ sessionId key, w.db.value? sessionId key = values sessionId key
  inbox : w.inbox = inbox

variable {settings : Settings} {scope : Scope} {shared : Prop} {self : Instance}
  {values : String → String → Option String} {inbox : Instance → List String}
  {deployment : Deployment} {sessionId key : String}

omit [DecidableEq Instance] in
theorem withVersions_steady {versions : Versions} {w : Cluster Instance} :
    Steady settings scope shared values inbox (withVersions versions w) ↔
      Steady settings scope shared values inbox w := by
  constructor
  · intro steady
    refine ⟨withVersions_settled.mp steady.settled, fun sessionId key => ?_, steady.inbox⟩
    rw [← steady.values, withVersions_value]
  · intro steady
    refine ⟨withVersions_settled.mpr steady.settled, fun sessionId key => ?_, steady.inbox⟩
    rw [withVersions_value, steady.values]

def Reading (settings : Settings) (deployment : Deployment) (scope : Scope) (shared : Prop)
    (values : String → String → Option String) (inbox : Instance → List String)
    (w : World backend Instance) : Prop :=
  Steady settings scope shared values inbox w.cluster ∧ Sound deployment w

/-- Whatever the database is, a read finds the value that is stored. -/
theorem get_spec (owns : Owns scope sessionId key)
    (undisturbed : Undisturbed scope shared self inbox sessionId key) :
    Triple (effect settings deployment self) (Taken deployment shared)
      (Reading settings deployment scope shared values inbox : World backend Instance → Prop)
      (CacheManager.get settings.redis sessionId key)
      (Returns fun raw w => Reading settings deployment scope shared values inbox w ∧
        raw = values sessionId key) := by
  have upper : Triple (CacheManager.effect settings self) (Tolerable shared)
      (Steady settings scope shared values inbox) (CacheManager.get settings.redis sessionId key)
      (Returns fun raw w =>
        Steady settings scope shared values inbox w ∧ raw = values sessionId key) := by
    apply triple_from
    rintro w ⟨settled, stored, rfl⟩
    apply triple_consequence (triple_at settled.reading (CacheManager.get_spec owns))
      (fun _ same => same)
    rintro raw next ⟨⟨after, unchanged, same⟩, current⟩
    refine ⟨⟨after, fun other name => ?_, same⟩, ?_⟩
    · rw [unchanged, stored]
    · rw [current undisturbed, stored]
  have unmoved : ∀ versions result w,
      Returns (fun raw w => Steady settings scope shared values inbox w ∧
        raw = values sessionId key) result (withVersions versions w) →
      Returns (fun raw w => Steady settings scope shared values inbox w ∧
        raw = values sessionId key) (result : Except String (Option String)) w := by
    rintro versions (error | raw) w after
    · exact after
    · exact ⟨withVersions_steady.mp after.1, after.2⟩
  constructor
  intro oracle w holds along
  have settled := (upper.guessed blind (mirrors.mono cached_unread) (foreseen sessionId key)
    (get_once settings.redis sessionId key) (fun _ _ steady => withVersions_steady.mpr steady)
    unmoved).run oracle w holds along
  revert settled
  cases (evaluate (effect settings deployment self) (CacheManager.get settings.redis sessionId key)
    oracle w).result with
  | ok raw => exact fun settled => ⟨⟨settled.1.1, settled.2⟩, settled.1.2⟩
  | error error => exact fun settled => settled.1

end Reads

end BaileysSession.Stack
