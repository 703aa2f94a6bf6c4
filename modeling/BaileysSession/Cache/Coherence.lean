import BaileysSession.Cache.Operations

set_option autoImplicit false

namespace BaileysSession.CacheManager

open Async MemoryCache

abbrev Scope := String → String → Prop

def sessions (ids : String → Prop) : Scope := fun sessionId _ => ids sessionId

/-- No other pair of the scope has the cache key of this one. -/
def Owns (scope : Scope) (sessionId key : String) : Prop :=
  ∀ other name, scope other name → cacheKey other name = cacheKey sessionId key →
    other = sessionId ∧ name = key

def Plain (sessionId : String) : Prop := ':' ∉ sessionId.toList

instance : DecidablePred Plain := fun sessionId =>
  inferInstanceAs (Decidable (':' ∉ sessionId.toList))

theorem cacheKey_toList (sessionId key : String) :
    (cacheKey sessionId key).toList = sessionId.toList ++ ':' :: key.toList := by
  simp [cacheKey, String.toList_append]

theorem plain_owns {sessionId : String} (plain : Plain sessionId) (key : String) :
    Owns (sessions Plain) sessionId key := by
  intro other name otherPlain same
  have lists := congrArg String.toList same
  rw [cacheKey_toList, cacheKey_toList] at lists
  have parts := Text.split_unique otherPlain plain lists
  exact ⟨String.toList_inj.mp parts.1, String.toList_inj.mp parts.2⟩

theorem only_owns (sessionId key : String) : Owns (sessions (· = sessionId)) sessionId key := by
  intro other name inScope same
  have session : other = sessionId := inScope
  subst session
  have lists := congrArg String.toList same
  rw [cacheKey_toList, cacheKey_toList] at lists
  have tails := List.append_cancel_left lists
  exact ⟨rfl, String.toList_inj.mp (List.cons.inj tails).2⟩

variable {Instance : Type} [DecidableEq Instance]

section Definitions

variable (settings : Settings) (scope : Scope) (shared : Prop)

/-- Every level agrees with the database, but for the pending keys and, when the cluster is
shared, for what an invalidation message is still under way for. -/
structure Coherent (pending : String → String → Prop) (w : Cluster Instance) : Prop where
  l1 : ∀ self sessionId key held, scope sessionId key →
    (w.l1 self).peek (cacheKey sessionId key) = some held →
      pending sessionId key ∨ w.db.value? sessionId key = some held.value ∨
        (shared ∧ cacheKey sessionId key ∈ w.inbox self)
  l2 : settings.redis ≠ none → ∀ sessionId key held, scope sessionId key →
    w.l2.get? (cacheKey sessionId key) = some held →
      pending sessionId key ∨ w.db.value? sessionId key = some held.value

def nothing (_ _ : String) : Prop := False

def pendingKeys (sessionId : String) (keys : List String) (other key : String) : Prop :=
  other = sessionId ∧ key ∈ keys

/-- A Redis command that fails without taking effect leaves nothing wrong in L2, and no database
call fails. -/
def Tolerable (w : Cluster Instance) : Call → Choice → Prop
  | .l2Set key value _, choice =>
    choice.applies key = true ∨ ∀ held, w.l2.get? key = some held → held.value = value
  | .l2Del key, choice => choice.applies key = true ∨ w.l2.get? key = none
  | .publishInvalidation key, choice => shared → choice.applies key = true
  | .dbGet _ _, choice | .dbGetMany _ _, choice | .dbSetMany _ _, choice
  | .dbDeleteMany _ _, choice | .dbDeleteSession _, choice | .dbGetAllKeys _, choice =>
    choice.rejection = none
  | _, _ => True

/-- Instances that share a database tell each other through Redis, or there is only one. -/
structure Connected (Instance : Type) : Prop where
  published : shared → settings.redis = some .tcp
  alone : ¬ shared → Subsingleton Instance

end Definitions

variable {settings : Settings} {scope : Scope} {shared : Prop}
  {pending : String → String → Prop} {w : Cluster Instance}

omit [DecidableEq Instance] in
theorem initial_coherent (db : Database) :
    Coherent settings scope shared pending (Cluster.initial settings db : Cluster Instance) := by
  constructor
  · intro _ _ _ _ _ held
    cases held
  · intro _ _ _ _ _ held
    cases held

omit [DecidableEq Instance] in
theorem Coherent.fewer {next : Cluster Instance}
    (coherent : Coherent settings scope shared pending w)
    (l1 : ∀ self, Shrinks (w.l1 self) (next.l1 self))
    (l2 : ∀ key held, next.l2.get? key = some held → w.l2.get? key = some held)
    (db : next.db = w.db) (inbox : ∀ self key, key ∈ w.inbox self → key ∈ next.inbox self) :
    Coherent settings scope shared pending next := by
  constructor
  · intro self sessionId key held inScope present
    rw [db]
    rcases coherent.l1 self sessionId key held inScope (l1 self _ held present) with
      waiting | same | ⟨connected, message⟩
    · exact .inl waiting
    · exact .inr (.inl same)
    · exact .inr (.inr ⟨connected, inbox self _ message⟩)
  · intro redis sessionId key held inScope present
    rw [db]
    exact coherent.l2 redis sessionId key held inScope (l2 _ held present)

omit [DecidableEq Instance] in
theorem Coherent.mono {more : String → String → Prop}
    (coherent : Coherent settings scope shared pending w)
    (weaker : ∀ sessionId key, pending sessionId key → more sessionId key) :
    Coherent settings scope shared more w :=
  ⟨fun self sessionId key held inScope present =>
      (coherent.l1 self sessionId key held inScope present).imp_left (weaker sessionId key),
    fun redis sessionId key held inScope present =>
      (coherent.l2 redis sessionId key held inScope present).imp_left (weaker sessionId key)⟩

theorem withL1_l1 (w : Cluster Instance) (self other : Instance) (cache : MemoryCache) :
    (w.withL1 self cache).l1 other = if other = self then cache else w.l1 other := by
  simp only [Cluster.withL1, Function.update_apply]

theorem withL1_withL1 (w : Cluster Instance) (self : Instance) (first second : MemoryCache) :
    (w.withL1 self first).withL1 self second = w.withL1 self second := by
  simp [Cluster.withL1]

theorem withL1_self (w : Cluster Instance) (self : Instance) : w.withL1 self (w.l1 self) = w := by
  simp [Cluster.withL1]

/-- Under the key nothing but the value is left, or nothing at all, and no other key gained. -/
def Replaces (compositeKey : String) (value : Option String)
    (before after : String → Option Versioned) : Prop :=
  ∀ key held, after key = some held →
    (key = compositeKey ∧ value = some held.value) ∨ (key ≠ compositeKey ∧ before key = some held)

def Gains (compositeKey value : String) (before after : String → Option Versioned) : Prop :=
  ∀ key held, after key = some held →
    (key = compositeKey ∧ value = held.value) ∨ before key = some held

theorem Gains.refl (compositeKey value : String) (level : String → Option Versioned) :
    Gains compositeKey value level level :=
  fun _ _ present => .inr present

theorem Replaces.gains {compositeKey value : String} {before after : String → Option Versioned}
    (replaces : Replaces compositeKey (some value) before after) :
    Gains compositeKey value before after := by
  intro key held present
  rcases replaces key held present with ⟨same, fits⟩ | ⟨-, kept⟩
  · exact .inl ⟨same, Option.some.inj fits⟩
  · exact .inr kept

theorem replaces_l1Set (cache : MemoryCache) (now : Int) (compositeKey value : String)
    (version : Int) :
    Replaces compositeKey (some value) cache.peek (cache.set now compositeKey value version).peek := by
  intro key held present
  rcases set_held present with ⟨same, rfl⟩ | other
  · exact .inl ⟨same, rfl⟩
  · exact .inr other

theorem replaces_l1Delete (cache : MemoryCache) (compositeKey : String) :
    Replaces compositeKey none cache.peek (cache.delete compositeKey).peek := by
  intro key held present
  rw [peek_delete] at present
  split at present
  · cases present
  · rename_i apart
    exact .inr ⟨apart, present⟩

theorem replaces_l2Set (l2 : InsertionMap String Versioned) (compositeKey value : String)
    (version : Int) :
    Replaces compositeKey (some value) l2.get? (l2.set compositeKey ⟨value, version⟩).get? := by
  intro key held present
  rw [InsertionMap.get?_set] at present
  split at present
  · rename_i same
    cases present
    exact .inl ⟨same, rfl⟩
  · rename_i apart
    exact .inr ⟨apart, present⟩

theorem replaces_l2Del (l2 : InsertionMap String Versioned) (compositeKey : String) :
    Replaces compositeKey none l2.get? (l2.erase compositeKey).get? := by
  intro key held present
  rw [InsertionMap.get?_erase] at present
  split at present
  · cases present
  · rename_i apart
    exact .inr ⟨apart, present⟩

theorem replaces_unchanged {compositeKey : String} {value : Option String}
    {level : String → Option Versioned}
    (fits : ∀ held, level compositeKey = some held → value = some held.value) :
    Replaces compositeKey value level level := by
  intro key held present
  by_cases same : key = compositeKey
  · exact .inl ⟨same, fits held (same ▸ present)⟩
  · exact .inr ⟨same, present⟩

/-- What `onWritten` and `onDeleted` make of a cluster: nothing but the value, or nothing at all,
is left for the key, and whoever else may hold it has been told. -/
structure Refreshed (settings : Settings) (shared : Prop) (writer : Instance) (compositeKey : String)
    (value : Option String) (w next : Cluster Instance) : Prop where
  l1 : Replaces compositeKey value (w.l1 writer).peek (next.l1 writer).peek
  others : ∀ other, other ≠ writer → next.l1 other = w.l1 other
  l2 : settings.redis ≠ none → Replaces compositeKey value w.l2.get? next.l2.get?
  db : next.db = w.db
  inbox : ∀ other key, key ∈ w.inbox other → key ∈ next.inbox other
  told : shared → ∀ other, compositeKey ∈ next.inbox other

theorem Refreshed.coherent {self : Instance} {sessionId key : String} {rest : List String}
    {value : Option String} {next : Cluster Instance} (owns : Owns scope sessionId key)
    (connected : Connected settings shared Instance)
    (refreshed : Refreshed settings shared self (cacheKey sessionId key) value w next)
    (coherent : Coherent settings scope shared (pendingKeys sessionId (key :: rest)) w)
    (current : key ∉ rest → w.db.value? sessionId key = value) :
    Coherent settings scope shared (pendingKeys sessionId rest) next := by
  have mine : ∀ other name, scope other name → cacheKey other name = cacheKey sessionId key →
      ∀ held : Versioned, value = some held.value →
        pendingKeys sessionId rest other name ∨ next.db.value? other name = some held.value := by
    intro other name otherInScope same held fits
    obtain ⟨rfl, rfl⟩ := owns other name otherInScope same
    by_cases later : name ∈ rest
    · exact .inl ⟨rfl, later⟩
    · right
      rw [refreshed.db, current later, fits]
  have unchanged : ∀ other name, cacheKey other name ≠ cacheKey sessionId key →
      pendingKeys sessionId (key :: rest) other name → pendingKeys sessionId rest other name := by
    rintro _ name apart ⟨rfl, inside⟩
    rcases List.mem_cons.mp inside with rfl | later
    · exact absurd rfl apart
    · exact ⟨rfl, later⟩
  constructor
  · intro other session name held otherInScope present
    by_cases here : other = self
    · subst here
      rcases refreshed.l1 _ held present with ⟨same, fits⟩ | ⟨apart, before⟩
      · exact (mine session name otherInScope same held fits).imp_right Or.inl
      · rw [refreshed.db]
        rcases coherent.l1 other session name held otherInScope before with
          waiting | same | ⟨isShared, message⟩
        · exact .inl (unchanged session name apart waiting)
        · exact .inr (.inl same)
        · exact .inr (.inr ⟨isShared, refreshed.inbox other _ message⟩)
    · have isShared : shared := by
        by_contra single
        have := connected.alone single
        exact here (Subsingleton.elim other self)
      by_cases same : cacheKey session name = cacheKey sessionId key
      · right; right
        rw [same]
        exact ⟨isShared, refreshed.told isShared other⟩
      · rw [refreshed.others other here] at present
        rw [refreshed.db]
        rcases coherent.l1 other session name held otherInScope present with
          waiting | same' | ⟨_, message⟩
        · exact .inl (unchanged session name same waiting)
        · exact .inr (.inl same')
        · exact .inr (.inr ⟨isShared, refreshed.inbox other _ message⟩)
  · intro redis session name held otherInScope present
    rcases refreshed.l2 redis _ held present with ⟨same, fits⟩ | ⟨apart, before⟩
    · exact mine session name otherInScope same held fits
    · rw [refreshed.db]
      exact (coherent.l2 redis session name held otherInScope before).imp_left
        (unchanged session name apart)

def Fits (scope : Scope) (db : Database) (compositeKey value : String) : Prop :=
  ∀ sessionId key, scope sessionId key → cacheKey sessionId key = compositeKey →
    db.value? sessionId key = some value

theorem Owns.fits {sessionId key value : String} {db : Database} (owns : Owns scope sessionId key)
    (current : db.value? sessionId key = some value) :
    Fits scope db (cacheKey sessionId key) value := by
  intro other name inScope same
  obtain ⟨rfl, rfl⟩ := owns other name inScope same
  exact current

theorem Coherent.filled {next : Cluster Instance}
    (coherent : Coherent settings scope shared pending w) (reader : Instance)
    {compositeKey value : String} (fits : Fits scope w.db compositeKey value)
    (l1 : Gains compositeKey value (w.l1 reader).peek (next.l1 reader).peek)
    (others : ∀ other, other ≠ reader → next.l1 other = w.l1 other)
    (l2 : settings.redis ≠ none → Gains compositeKey value w.l2.get? next.l2.get?)
    (db : next.db = w.db) (inbox : next.inbox = w.inbox) :
    Coherent settings scope shared pending next := by
  constructor
  · intro other sessionId key held inScope present
    rw [db, inbox]
    by_cases here : other = reader
    · subst here
      rcases l1 _ held present with ⟨same, rfl⟩ | before
      · exact .inr (.inl (fits sessionId key inScope same))
      · exact coherent.l1 other sessionId key held inScope before
    · rw [others other here] at present
      exact coherent.l1 other sessionId key held inScope present
  · intro redis sessionId key held inScope present
    rw [db]
    rcases l2 redis _ held present with ⟨same, rfl⟩ | before
    · exact .inr (fits sessionId key inScope same)
    · exact coherent.l2 redis sessionId key held inScope before

end BaileysSession.CacheManager
