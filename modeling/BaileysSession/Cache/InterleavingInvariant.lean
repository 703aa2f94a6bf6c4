import BaileysSession.Cache.Coherence
import BaileysSession.Cache.Interleaving

set_option autoImplicit false

namespace BaileysSession.Interleaving

open Async CacheManager KeysSet

def success : (call : CacheManager.Call) → Reply call
  | .dateNow => (0 : Int)
  | .l1Get _ => (none : Option Versioned)
  | .l1Set _ _ _ | .l1Delete _ | .l1DeleteByPrefix _ | .l1Clear => ()
  | .l2Get _ => (.ok none : Except String (Option Versioned))
  | .dbGet _ _ => (.ok none : Except String (Option SessionRecord))
  | .dbGetMany _ _ => (.ok .empty : Except String (InsertionMap String SessionRecord))
  | .dbGetAllKeys _ => (.ok [] : Except String (List String))
  | .l2Set _ _ _ | .l2Del _ | .publishInvalidation _ | .dbSetMany _ _ | .dbDeleteMany _ _
  | .dbDeleteSession _ => (.ok () : Except String Unit)

def publishes : CacheManager.Call → Bool
  | .publishInvalidation _ => true
  | _ => false

def updatesL2 : CacheManager.Call → Bool
  | .l2Set _ _ _ | .l2Del _ => true
  | _ => false

def Branch.Owes (due : CacheManager.Call → Bool) (branch : Branch) : Prop :=
  ∃ call ∈ branch.program.ahead success, due call = true

/-- A section whose change the rows show already has such a call for the key still to make. -/
def Stage.Owes (due : CacheManager.Call → Bool) (key : String) : Stage → Prop
  | .issued _ => False
  | .stored change => key ∈ change.keys
  | .announcing _ branches => ∃ branch ∈ branches, branch.key = key ∧ branch.Owes due

variable {Instance : Type} [DecidableEq Instance]

def Pool.Owes (p : Pool Instance) (due : CacheManager.Call → Bool) (sessionId key : String) :
    Prop :=
  ∃ held ∈ p.sections sessionId, held.stage.Owes due key

def Pool.Telling (p : Pool Instance) (self : Instance) (sessionId key : String) : Prop :=
  cacheKey sessionId key ∈ p.cluster.inbox self ∨ p.Owes publishes sessionId key

instance (due : CacheManager.Call → Bool) (branch : Branch) : Decidable (branch.Owes due) :=
  inferInstanceAs (Decidable (∃ call ∈ branch.program.ahead success, due call = true))

instance (due : CacheManager.Call → Bool) (key : String) :
    (stage : Stage) → Decidable (stage.Owes due key)
  | .issued _ => .isFalse id
  | .stored change => inferInstanceAs (Decidable (key ∈ change.keys))
  | .announcing _ branches =>
    inferInstanceAs (Decidable (∃ branch ∈ branches, branch.key = key ∧ branch.Owes due))

instance (p : Pool Instance) (due : CacheManager.Call → Bool) (sessionId key : String) :
    Decidable (p.Owes due sessionId key) :=
  inferInstanceAs (Decidable (∃ held ∈ p.sections sessionId, held.stage.Owes due key))

instance (p : Pool Instance) (self : Instance) (sessionId key : String) :
    Decidable (p.Telling self sessionId key) :=
  inferInstanceAs (Decidable (_ ∨ _))

def stored : CacheManager.Call → Option String
  | .l1Set _ value _ | .l2Set _ value _ => some value
  | _ => none

def nextCall {Result : Type} : Program Result → Option CacheManager.Call
  | .await call _ => some call
  | .done _ | .failed _ => none

/-- What the call stores is what the database holds, or the level is still to be updated. -/
def Pool.Backs (p : Pool Instance) (owed : Prop) (sessionId key : String)
    (call : CacheManager.Call) : Prop :=
  ∀ value ∈ stored call, p.cluster.db.value? sessionId key = some value ∨ owed

instance (p : Pool Instance) (owed : Prop) [Decidable owed] (sessionId key : String)
    (call : CacheManager.Call) : Decidable (p.Backs owed sessionId key call) :=
  inferInstanceAs (Decidable (∀ value ∈ stored call, _))

def Repeated (branches : List Branch) (index : Nat) (key : String) : Prop :=
  ∃ other ∈ branches.eraseIdx index, other.key = key ∧ other.Owes updatesL2

instance (branches : List Branch) (index : Nat) (key : String) :
    Decidable (Repeated branches index key) :=
  inferInstanceAs (Decidable (∃ other ∈ branches.eraseIdx index, _))

/-- Of two updates of one key the branches leave the later one in L2. -/
def Stage.Ordered (p : Pool Instance) (sessionId : String) (index : Nat) : Stage → Prop
  | .announcing change branches => ∀ branch ∈ branches[index]?, ∀ call ∈ nextCall branch.program,
      change.keys.Nodup ∨ p.Backs (Repeated branches index branch.key) sessionId branch.key call
  | .issued _ | .stored _ => True

instance (p : Pool Instance) (sessionId : String) (index : Nat) :
    (stage : Stage) → Decidable (stage.Ordered p sessionId index)
  | .announcing change branches => inferInstanceAs (Decidable (∀ branch ∈ branches[index]?,
      ∀ call ∈ nextCall branch.program, change.keys.Nodup ∨
        p.Backs (Repeated branches index branch.key) sessionId branch.key call))
  | .issued _ | .stored _ => .isTrue trivial

/-- A read stores nothing outdated in a level that is not updated afterwards, and neither does
a section that names a key twice. -/
def Timely (settings : Settings) (p : Pool Instance) : Event Instance → Prop
  | .call _ _ sessionId _ _ | .grant _ sessionId _ => Plain sessionId
  | .performRead thread _ => ∀ read ∈ p.reads thread, ∀ call ∈ nextCall read.program,
      p.Backs (p.Owes updatesL2 read.sessionId read.key) read.sessionId read.key call
  | .resumeRead thread clock => ∀ read ∈ p.reads thread,
      Drains (effect settings read.self) CacheManager.Call.synchronous
        (p.Backs (p.Telling read.self read.sessionId read.key) read.sessionId read.key)
        read.program (ticking clock) p.cluster
  | .performBranch sessionId index _ =>
    ∀ held ∈ p.sections sessionId, held.stage.Ordered p sessionId index
  | .store _ _ | .announce _ _ | .release _ | .deliver _ _ | .sweepExpired _ _ => True

instance (settings : Settings) (p : Pool Instance) :
    (event : Event Instance) → Decidable (Timely settings p event)
  | .call _ _ sessionId _ _ | .grant _ sessionId _ => inferInstanceAs (Decidable (Plain sessionId))
  | .performRead thread _ => inferInstanceAs (Decidable (∀ read ∈ p.reads thread,
      ∀ call ∈ nextCall read.program,
        p.Backs (p.Owes updatesL2 read.sessionId read.key) read.sessionId read.key call))
  | .resumeRead thread clock => inferInstanceAs (Decidable (∀ read ∈ p.reads thread,
      Drains (effect settings read.self) CacheManager.Call.synchronous
        (p.Backs (p.Telling read.self read.sessionId read.key) read.sessionId read.key)
        read.program (ticking clock) p.cluster))
  | .performBranch sessionId index _ => inferInstanceAs (Decidable (∀ held ∈ p.sections sessionId,
      held.stage.Ordered p sessionId index))
  | .store _ _ | .announce _ _ | .release _ | .deliver _ _ | .sweepExpired _ _ => .isTrue trivial

def Fetches (compositeKey : String) : CacheManager.Call → Prop
  | .l1Get key | .l1Set key _ _ | .l1Delete key | .l2Get key | .l2Set key _ _ =>
    key = compositeKey
  | .dbGet _ _ => True
  | _ => False

def Announces (db : Database) (sessionId : String) (change : Section) (key : String) :
    CacheManager.Call → Prop
  | .l2Set name value _ => name = cacheKey sessionId key ∧
      (change.keys.Nodup → db.value? sessionId key = some value)
  | .l2Del name | .publishInvalidation name => name = cacheKey sessionId key
  | _ => False

def Stage.Right (db : Database) (sessionId : String) : Stage → Prop
  | .issued _ => True
  | .stored change => ∀ key ∈ change.keys, db.value? sessionId key = change.leaves key
  | .announcing change branches => ∀ branch ∈ branches, ∀ call ∈ branch.program.ahead success,
      Announces db sessionId change branch.key call

/-- What a level holds for a plain session the database holds too, or there is an excuse. -/
def Accurate (level : String → Option Versioned) (db : Database)
    (excused : String → String → Prop) : Prop :=
  ∀ sessionId key held, Plain sessionId → level (cacheKey sessionId key) = some held →
    db.value? sessionId key = some held.value ∨ excused sessionId key

def Pool.L1Right (p : Pool Instance) (self : Instance) (cache : MemoryCache) : Prop :=
  Accurate cache.peek p.cluster.db (p.Telling self)

def Pool.L2Right (p : Pool Instance) (l2 : InsertionMap String Versioned) : Prop :=
  Accurate l2.get? p.cluster.db (p.Owes updatesL2)

/-- Whatever a level holds that the database does not is still to be updated. -/
structure Sound (settings : Settings) (p : Pool Instance) : Prop where
  l1 : ∀ self, p.L1Right self (p.cluster.l1 self)
  l2 : settings.redis ≠ none → p.L2Right p.cluster.l2
  stages : ∀ sessionId held, p.sections sessionId = some held →
    Plain sessionId ∧ held.stage.Right p.cluster.db sessionId
  reads : ∀ thread read, p.reads thread = some read →
    Plain read.sessionId ∧ read.program.Only (Fetches (cacheKey read.sessionId read.key))

variable {settings : Settings} {p : Pool Instance}

omit [DecidableEq Instance] in
theorem initial_sound (db : Database) : Sound settings (Pool.initial settings db : Pool Instance) := by
  constructor
  · intro _ _ _ _ _ held
    cases held
  · intro _ _ _ _ _ held
    cases held
  · intro _ _ held
    cases held
  · intro _ _ held
    cases held

theorem Accurate.gains {before after : String → Option Versioned} {sessionId key : String}
    {call : CacheManager.Call} {db : Database} {excused : String → String → Prop}
    (accurate : Accurate before db excused) (plain : Plain sessionId)
    (backed : ∀ value ∈ stored call,
      db.value? sessionId key = some value ∨ excused sessionId key)
    (gains : ∀ name held, after name = some held →
      (name = cacheKey sessionId key ∧ stored call = some held.value) ∨ before name = some held) :
    Accurate after db excused := by
  intro other name held otherPlain present
  rcases gains _ held present with ⟨same, stores⟩ | kept
  · obtain ⟨rfl, rfl⟩ := plain_owns plain key other name otherPlain same
    exact backed held.value stores
  · exact accurate other name held otherPlain kept

theorem Accurate.moved {level : String → Option Versioned} {sessionId : String}
    {db changed : Database} {excused later : String → String → Prop}
    (accurate : Accurate level db excused)
    (rows : ∀ other key, other ≠ sessionId → changed.value? other key = db.value? other key)
    (elsewhere : ∀ other key, other ≠ sessionId → excused other key → later other key)
    (here : ∀ key value, db.value? sessionId key = some value ∨ excused sessionId key →
      changed.value? sessionId key = some value ∨ later sessionId key) :
    Accurate level changed later := by
  intro other key held plain present
  have known := accurate other key held plain present
  by_cases mine : other = sessionId
  · subst mine
    exact here key held.value known
  · exact known.imp (rows other key mine).trans (elsewhere other key mine)

end BaileysSession.Interleaving
