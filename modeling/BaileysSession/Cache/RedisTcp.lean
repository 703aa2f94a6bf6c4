import BaileysSession.Cache.Coherence
import BaileysSession.Cache.RedisHttp
import BaileysSession.Factory.KeyNames
import BaileysSession.Lock.RedisLock
import BaileysSession.Shared.Conformance

set_option autoImplicit false

-- One Redis that instances share as their cache and for their locks.
namespace BaileysSession.RedisTcp

open CacheManager Conformance
open RedisHttp (envelope envelope_wellFormed)
open RedisLock (lockKey)

section Server

structure Stored where
  text : String
  expiresAt : Option Nat
  deriving DecidableEq, Repr

def Stored.live (now : Nat) (stored : Stored) : Bool :=
  stored.expiresAt.all fun expiresAt => decide (now < expiresAt)

structure Server where
  now : Nat
  keys : String → Option Stored

def Server.empty : Server := ⟨0, fun _ => none⟩

-- `GET`
def Server.get (server : Server) (key : String) : Option String :=
  ((server.keys key).filter (Stored.live server.now)).map Stored.text

-- `SET`, with `EX` or `PX` or without either
def Server.set (server : Server) (key text : String) (expiresAt : Option Nat) : Server :=
  { server with keys := Function.update server.keys key (some ⟨text, expiresAt⟩) }

-- `DEL`
def Server.del (server : Server) (key : String) : Server :=
  { server with keys := Function.update server.keys key none }

-- `SET key text PX ttlMs NX`; `none` stands for the error that it is without time.
def Server.setAbsent (server : Server) (key text : String) (ttlMs : Nat) : Option Bool × Server :=
  if ttlMs = 0 then (none, server)
  else match server.get key with
    | some _ => (some false, server)
    | none => (some true, server.set key text (some (server.now + ttlMs)))

-- `RELEASE_SCRIPT`
def Server.release (server : Server) (key token : String) : Server :=
  if server.get key = some token then server.del key else server

end Server

section Adapter

def get (server : Server) (key : String) : Except String (Option Json) :=
  match server.get key with
  | none => .ok none
  | some raw =>
    if raw = "" then .ok none
    else match Json.parse raw with
      | none => .error "SyntaxError"
      | some value => .ok (some value)

def set (server : Server) (key value : String) (version : Int) (ttlSeconds : Option Nat) : Server :=
  let payload := Json.stringify (envelope value version)
  match ttlSeconds with
  | some ttlSeconds =>
    if ttlSeconds ≠ 0 then server.set key payload (some (server.now + 1000 * ttlSeconds))
    else server.set key payload none
  | none => server.set key payload none

def del (server : Server) (key : String) : Server := server.del key

end Adapter

section Requests

inductive Request where
  | l2Get (key : String)
  | l2Set (key value : String) (version : Int)
  | l2Del (key : String)
  | acquire (name token : String) (ttlMs : Nat)
  | release (name token : String)
  | elapse (ms : Nat)
  deriving DecidableEq, Repr

inductive Answer where
  | done
  | found (answer : Except String (Option Json))
  -- `none` where the command is an error.
  | granted (answer : Option Bool)

-- The cache sets no time.
def step : Component Server Unit Request Answer := fun _ request server =>
  match request with
  | .l2Get key => (.found (get server key), server)
  | .l2Set key value version => (.done, set server key value version none)
  | .l2Del key => (.done, del server key)
  | .acquire name token ttlMs =>
    let tried := server.setAbsent (lockKey name) token ttlMs
    (.granted tried.1, tried.2)
  | .release name token => (.done, server.release (lockKey name) token)
  | .elapse ms => (.done, { server with now := server.now + ms })

structure Levels where
  l2 : InsertionMap String Versioned
  now : Nat
  locks : ExpiringStore String String

def Levels.empty : Levels := ⟨.empty, 0, .empty⟩

def tries (levels : Levels) (name token : String) (ttlMs : Nat) :
    Option (ExpiringStore String String) :=
  levels.locks.setIfAbsent levels.now (lockKey name) token ttlMs

def asked (request : Request) (levels : Levels) : Levels :=
  match request with
  | .l2Get _ => levels
  | .l2Set key value version => { levels with l2 := levels.l2.set key ⟨value, version⟩ }
  | .l2Del key => { levels with l2 := levels.l2.erase key }
  | .acquire name token ttlMs =>
    if ttlMs = 0 then levels
    else { levels with locks := (tries levels name token ttlMs).getD levels.locks }
  | .release name token =>
    { levels with locks := levels.locks.deleteIfEqual levels.now (lockKey name) token }
  | .elapse ms => { levels with now := levels.now + ms }

def right (request : Request) (levels : Levels) (answer : Answer) : Prop :=
  match request with
  | .l2Get key => answer =
      .found (.ok ((levels.l2.get? key).map fun held => envelope held.value held.version))
  | .acquire name token ttlMs => answer =
      .granted (if ttlMs = 0 then none else some (tries levels name token ttlMs).isSome)
  | .l2Set _ _ _ | .l2Del _ | .release _ _ | .elapse _ => answer = .done

abbrev contract : Interface Levels Request Answer := ⟨asked, right⟩

end Requests

section Names

variable (sessions rows : String → Prop)

def Cached (key : String) : Prop :=
  ∃ sessionId row, sessions sessionId ∧ rows row ∧ key = cacheKey sessionId row

def Admitted (_ : Levels) (_ : Unit) : Request → Prop
  | .l2Get key | .l2Set key _ _ | .l2Del key => Cached sessions rows key
  | .acquire name _ _ | .release name _ => sessions name
  | .elapse _ => True

def Apart : Prop :=
  ∀ key name, Cached sessions rows key → sessions name → key ≠ lockKey name

structure Holds (server : Server) (levels : Levels) : Prop where
  now : server.now = levels.now
  cached : ∀ key, Cached sessions rows key → server.keys key =
    (levels.l2.get? key).map fun held => ⟨Json.stringify (envelope held.value held.version), none⟩
  locked : ∀ name, sessions name → server.keys (lockKey name) =
    (levels.locks (lockKey name)).map fun held => ⟨held.value, some held.expiresAt⟩

end Names

section Serving

variable {sessions rows : String → Prop} {server : Server} {levels : Levels}

theorem empty_holds : Holds sessions rows Server.empty Levels.empty :=
  ⟨rfl, fun _ _ => rfl, fun _ _ => rfl⟩

theorem Holds.get_lock (holds : Holds sessions rows server levels) {name : String}
    (known : sessions name) :
    server.get (lockKey name) = levels.locks.get levels.now (lockKey name) := by
  rw [Server.get, holds.locked name known, holds.now, ExpiringStore.get]
  cases levels.locks (lockKey name) with
  | none => rfl
  | some held =>
    by_cases live : levels.now < held.expiresAt <;> simp [Option.filter, Stored.live, live]

theorem Holds.get_cached (holds : Holds sessions rows server levels) {key : String}
    (cached : Cached sessions rows key) :
    get server key =
      .ok ((levels.l2.get? key).map fun held => envelope held.value held.version) := by
  have read : server.get key = (levels.l2.get? key).map fun held =>
      Json.stringify (envelope held.value held.version) := by
    rw [Server.get, holds.cached key cached]
    cases levels.l2.get? key <;> rfl
  unfold get
  cases found : levels.l2.get? key with
  | none =>
    rw [found] at read
    simp only [read, Option.map_none]
  | some held =>
    rw [found] at read
    have filled : Json.stringify (envelope held.value held.version) ≠ "" := by
      intro empty
      have lists := congrArg String.toList empty
      rw [Json.stringify, String.toList_ofList] at lists
      cases lists
    have parsed := Json.parse_stringify (envelope_wellFormed held.value held.version)
    simp only [read, Option.map_some, if_neg filled, parsed]

variable (apart : Apart sessions rows)

include apart

theorem Holds.cache_command (holds : Holds sessions rows server levels) {key : String}
    (cached : Cached sessions rows key) (stored : Option Stored) (l2 : InsertionMap String Versioned)
    (changes : ∀ other, (l2.get? other).map (fun held =>
        (⟨Json.stringify (envelope held.value held.version), none⟩ : Stored)) =
      if other = key then stored else (levels.l2.get? other).map fun held =>
        ⟨Json.stringify (envelope held.value held.version), none⟩) :
    Holds sessions rows ⟨server.now, Function.update server.keys key stored⟩
      { levels with l2 := l2 } := by
  refine ⟨holds.now, fun other there => ?_, fun name known => ?_⟩
  · simp only [changes, Function.update_apply, holds.cached other there]
  · simp only [Function.update_of_ne (apart key name cached known).symm, holds.locked name known]

theorem Holds.lock_command (holds : Holds sessions rows server levels) {name : String}
    (known : sessions name) (stored : Option (Expiring String)) :
    Holds sessions rows
      ⟨server.now, Function.update server.keys (lockKey name)
        (stored.map fun held => ⟨held.value, some held.expiresAt⟩)⟩
      { levels with locks := Function.update levels.locks (lockKey name) stored } := by
  refine ⟨holds.now, fun other there => ?_, fun another alsoKnown => ?_⟩
  · simp only [Function.update_of_ne (apart other name there known), holds.cached other there]
  · by_cases here : lockKey another = lockKey name
    · simp only [here, Function.update_self]
    · simp only [Function.update_of_ne here, holds.locked another alsoKnown]

theorem acquire_conforms (holds : Holds sessions rows server levels) {name : String}
    (known : sessions name) (token : String) (ttlMs : Nat) :
    right (.acquire name token ttlMs) levels (step () (.acquire name token ttlMs) server).1 ∧
      Holds sessions rows (step () (.acquire name token ttlMs) server).2
        (asked (.acquire name token ttlMs) levels) := by
  simp only [step, right, asked, Server.setAbsent]
  by_cases timeless : ttlMs = 0
  · simp only [if_pos timeless]
    exact ⟨trivial, holds⟩
  · simp only [if_neg timeless, holds.get_lock known, tries, ExpiringStore.setIfAbsent]
    cases levels.locks.get levels.now (lockKey name) with
    | some token => exact ⟨rfl, holds⟩
    | none =>
      refine ⟨rfl, ?_⟩
      have taken := holds.lock_command apart known (some ⟨token, levels.now + ttlMs⟩)
      rw [← holds.now] at taken ⊢
      exact taken

theorem release_conforms (holds : Holds sessions rows server levels) {name : String}
    (known : sessions name) (token : String) :
    Holds sessions rows (step () (.release name token) server).2
      (asked (.release name token) levels) := by
  simp only [step, asked, Server.release, ExpiringStore.deleteIfEqual, holds.get_lock known]
  split
  · exact holds.lock_command apart known none
  · exact holds

theorem conforms : Conforms contract step (Holds sessions rows) (Admitted sessions rows) := by
  constructor
  · intro _ request server levels holds admitted
    cases request with
    | l2Get key => exact congrArg Answer.found (holds.get_cached admitted)
    | acquire name token ttlMs => exact (acquire_conforms apart holds admitted token ttlMs).1
    | l2Set | l2Del | release | elapse => rfl
  · intro _ request server levels holds admitted
    cases request with
    | l2Get key => exact holds
    | l2Set key value version =>
      refine holds.cache_command apart admitted _ _ fun other => ?_
      rw [InsertionMap.get?_set]
      split <;> rfl
    | l2Del key =>
      refine holds.cache_command apart admitted none _ fun other => ?_
      rw [InsertionMap.get?_erase]
      split <;> rfl
    | acquire name token ttlMs => exact (acquire_conforms apart holds admitted token ttlMs).2
    | release name token => exact release_conforms apart holds admitted token
    | elapse ms => exact ⟨congrArg (· + ms) holds.now, holds.cached, holds.locked⟩

end Serving

/-- One Redis serves as the cache and for the locks, as if each had its own, exactly where no cache
key is the key of a lock. -/
theorem one_redis_serves_both_iff (sessions rows : String → Prop) :
    (∀ requests : List Request, (∀ request ∈ requests, Admitted sessions rows Levels.empty () request) →
      contract.Answers Levels.empty requests
        (answers step Server.empty (requests.map fun request => ((), request)))) ↔
    Apart sessions rows := by
  constructor
  · intro serves key name cached known same
    subst same
    have answered := serves [.l2Set (lockKey name) "" 0, .acquire name "" 1] (by
      intro request inside
      rcases List.mem_cons.mp inside with rfl | inside
      · exact cached
      · rw [List.mem_singleton.mp inside]
        exact known)
    obtain ⟨_, _, same, -, later⟩ := answered
    obtain ⟨_, _, more, granted, -⟩ := later
    cases same
    cases more
    have taken : (Server.setAbsent (set .empty (lockKey name) "" 0 none) (lockKey name) "" 1).1 =
        some true := Answer.granted.inj granted
    have refused : (Server.setAbsent (set .empty (lockKey name) "" 0 none) (lockKey name) "" 1).1 =
        some false := by
      simp [set, Server.set, Server.setAbsent, Server.get, Option.filter, Stored.live]
    rw [refused] at taken
    cases taken
  · intro apart requests admitted
    have allowed : contract.Admits (Admitted sessions rows) Levels.empty
        (requests.map fun request => ((), request)) := by
      apply Interface.Admits.of_each
      intro turn inside spec
      obtain ⟨request, listed, rfl⟩ := List.mem_map.mp inside
      exact admitted request listed
    have ran := ((conforms apart).run empty_holds allowed).1
    rwa [List.map_map, Function.comp_def, List.map_id'] at ran

section Plain

def InUse (row : String) : Prop := row = credsKey ∨ ∃ category id, row = cacheKeyName category id

theorem category_starts (category : Category) :
    2 ≤ category.name.toList.length ∧ category.name.toList.take 2 ≠ ['l', 'o'] := by
  cases category <;> decide

theorem inUse_starts {row rest : String} (inUse : InUse row) : row ≠ "lock:" ++ rest := by
  rintro same
  have lists := congrArg String.toList same
  rw [String.toList_append] at lists
  rcases inUse with rfl | ⟨category, id, rfl⟩
  · cases lists
  · obtain ⟨long, different⟩ := category_starts category
    rw [cacheKeyName, String.toList_append, String.toList_append] at lists
    have front := congrArg (List.take 2) lists
    rw [List.append_assoc, List.take_append_of_le_length long] at front
    exact different front

theorem cacheKey_lock (name : String) :
    cacheKey "baileys-auth" ("lock:" ++ name) = lockKey name := by
  have joined : "baileys-auth" ++ ":" ++ "lock:" = "baileys-auth:lock:" := by simp
  calc cacheKey "baileys-auth" ("lock:" ++ name)
      = "baileys-auth" ++ ":" ++ "lock:" ++ name := String.append_assoc.symm
    _ = "baileys-auth:lock:" ++ name := congrArg (· ++ name) joined
    _ = lockKey name := rfl

/-- Session ids without a colon never lead a cache key to the key of a lock. -/
theorem plain_apart {sessions : String → Prop}
    (plain : ∀ sessionId, sessions sessionId → Plain sessionId) : Apart sessions InUse := by
  rintro _ name ⟨sessionId, row, known, inUse, rfl⟩ - same
  rw [← cacheKey_lock] at same
  obtain ⟨-, row⟩ := plain_owns (by decide : Plain "baileys-auth") ("lock:" ++ name) sessionId row
    (plain sessionId known) same
  exact inUse_starts inUse row

end Plain

end BaileysSession.RedisTcp
