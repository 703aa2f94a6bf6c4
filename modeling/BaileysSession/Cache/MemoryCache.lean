import BaileysSession.Shared.InsertionMap
import BaileysSession.Shared.Text

set_option autoImplicit false

namespace BaileysSession

structure Versioned where
  value : String
  version : Int
  deriving DecidableEq, Repr

structure CacheEntry where
  value : String
  version : Int
  expiresAt : Int
  byteSize : Nat
  deriving DecidableEq, Repr

structure MemoryCacheOptions where
  ttlMs : Option Int
  maxEntries : Option Nat
  maxBytes : Option Nat

structure MemoryCache where
  ttlMs : Int
  maxEntries : Nat
  maxBytes : Nat
  store : InsertionMap String CacheEntry
  currentBytes : Int

namespace MemoryCache

def DEFAULT_TTL_MS : Int := 30000
def DEFAULT_MAX_ENTRIES : Nat := 5000
def DEFAULT_MAX_BYTES : Nat := 25 * 1024 * 1024

def new (options : MemoryCacheOptions) : MemoryCache where
  ttlMs := options.ttlMs.getD DEFAULT_TTL_MS
  maxEntries := options.maxEntries.getD DEFAULT_MAX_ENTRIES
  maxBytes := options.maxBytes.getD DEFAULT_MAX_BYTES
  store := .empty
  currentBytes := 0

def delete (cache : MemoryCache) (key : String) : MemoryCache :=
  match cache.store.get? key with
  | none => cache
  | some entry => { cache with
      currentBytes := cache.currentBytes - entry.byteSize
      store := cache.store.erase key }

def get (cache : MemoryCache) (now : Int) (key : String) : Option Versioned × MemoryCache :=
  match cache.store.get? key with
  | none => (none, cache)
  | some entry =>
    if entry.expiresAt ≤ now then
      (none, { cache with
        store := cache.store.erase key
        currentBytes := cache.currentBytes - entry.byteSize })
    else
      -- Touch: the entry moves to the end.
      (some ⟨entry.value, entry.version⟩,
        { cache with store := (cache.store.erase key).set key entry })

def overBudget (cache : MemoryCache) : Bool :=
  (decide (cache.store.size > cache.maxEntries) ||
    decide (cache.currentBytes > (cache.maxBytes : Int))) && decide (cache.store.size > 0)

-- Each round drops one entry, so as many rounds as there are entries are enough.
def evictRounds : Nat → MemoryCache → MemoryCache
  | 0, cache => cache
  | rounds + 1, cache =>
    if cache.overBudget then
      match cache.store.keys.head? with
      | none => cache
      | some oldestKey => if oldestKey = "" then cache else evictRounds rounds (cache.delete oldestKey)
    else cache

def evictIfNeeded (cache : MemoryCache) : MemoryCache := evictRounds cache.store.size cache

def set (cache : MemoryCache) (now : Int) (key value : String) (version : Int) : MemoryCache :=
  let cleared := cache.delete key
  let byteSize := value.utf8ByteSize
  evictIfNeeded { cleared with
    store := cleared.store.set key ⟨value, version, now + cleared.ttlMs, byteSize⟩
    currentBytes := cleared.currentBytes + byteSize }

def deleteByPrefix (cache : MemoryCache) (start : String) : MemoryCache :=
  cache.store.keys.foldl
    (fun cache key => if Text.startsWith key start then cache.delete key else cache) cache

def clear (cache : MemoryCache) : MemoryCache :=
  { cache with store := .empty, currentBytes := 0 }

def sweepExpired (cache : MemoryCache) (now : Int) : MemoryCache :=
  cache.store.entries.foldl
    (fun cache entry => if entry.2.expiresAt ≤ now then cache.delete entry.1 else cache) cache

def peek (cache : MemoryCache) (key : String) : Option Versioned :=
  (cache.store.get? key).map fun entry => ⟨entry.value, entry.version⟩

def Shrinks (before after : MemoryCache) : Prop :=
  ∀ key held, after.peek key = some held → before.peek key = some held

theorem Shrinks.refl (cache : MemoryCache) : Shrinks cache cache := fun _ _ held => held

theorem Shrinks.trans {first second third : MemoryCache} (left : Shrinks first second)
    (right : Shrinks second third) : Shrinks first third :=
  fun key held later => left key held (right key held later)

@[simp] theorem peek_new (options : MemoryCacheOptions) (key : String) :
    (new options).peek key = none := rfl

theorem peek_stored {cache : MemoryCache} {key : String} {entry : CacheEntry}
    (present : cache.store.get? key = some entry) :
    cache.peek key = some ⟨entry.value, entry.version⟩ := by
  rw [peek, present]
  rfl

@[simp] theorem peek_clear (cache : MemoryCache) (key : String) : cache.clear.peek key = none := rfl

@[simp] theorem peek_delete (cache : MemoryCache) (key other : String) :
    (cache.delete key).peek other = if other = key then none else cache.peek other := by
  unfold delete
  split
  · rename_i absent
    by_cases same : other = key
    · simp [peek, same, absent]
    · simp [same]
  · by_cases same : other = key <;> simp [peek, same]

theorem delete_shrinks (cache : MemoryCache) (key : String) : Shrinks cache (cache.delete key) := by
  intro other held later
  rw [peek_delete] at later
  split at later
  · cases later
  · exact later

theorem get_shrinks (cache : MemoryCache) (now : Int) (key : String) :
    Shrinks cache (cache.get now key).2 := by
  intro other held later
  unfold get at later
  split at later
  · exact later
  · rename_i entry found
    split at later
    · by_cases same : other = key
      · simp [peek, same] at later
      · simpa [peek, same] using later
    · by_cases same : other = key
      · simpa [peek, same, found] using later
      · simpa [peek, same] using later

theorem get_hit {cache : MemoryCache} {now : Int} {key : String} {held : Versioned}
    (hit : (cache.get now key).1 = some held) : cache.peek key = some held := by
  unfold get at hit
  split at hit
  · cases hit
  · rename_i entry found
    split at hit
    · cases hit
    · simpa [peek, found] using hit

def Live (cache : MemoryCache) (now : Int) (key : String) : Prop :=
  ∃ entry, cache.store.get? key = some entry ∧ now < entry.expiresAt

theorem get_eq_none_iff (cache : MemoryCache) (now : Int) (key : String) :
    (cache.get now key).1 = none ↔ ¬ Live cache now key := by
  unfold get Live
  cases found : cache.store.get? key with
  | none => simp
  | some entry =>
    by_cases expired : entry.expiresAt ≤ now
    · simp [expired]
    · simp [expired, Int.lt_of_not_ge expired]

theorem get_absent {cache : MemoryCache} {now : Int} {key : String}
    (absent : cache.peek key = none) : cache.get now key = (none, cache) := by
  have missing : cache.store.get? key = none := by simpa [peek] using absent
  simp [get, missing]

theorem evictRounds_shrinks (rounds : Nat) (cache : MemoryCache) :
    Shrinks cache (evictRounds rounds cache) := by
  induction rounds generalizing cache with
  | zero => exact .refl cache
  | succ rounds ih =>
    unfold evictRounds
    split
    · split
      · exact .refl cache
      · rename_i oldestKey _
        split
        · exact .refl cache
        · exact (delete_shrinks cache oldestKey).trans (ih _)
    · exact .refl cache

theorem delete_oldest (cache : MemoryCache) (oldestKey : String)
    (oldest : cache.store.keys.head? = some oldestKey) :
    (cache.delete oldestKey).store.size < cache.store.size := by
  cases stored : cache.store.entries with
  | nil => simp [stored, InsertionMap.keys] at oldest
  | cons entry rest =>
    have first : entry.1 = oldestKey := by simpa [stored, InsertionMap.keys] using oldest
    have found : cache.store.get? oldestKey = some entry.2 := by
      simp [stored, InsertionMap.get?, InsertionMap.lookup_cons, first]
    have fewer := List.length_filter_le (fun other => !decide (other.1 = oldestKey)) rest
    simp only [delete, found, stored, InsertionMap.size, InsertionMap.erase, InsertionMap.filter,
      List.filter_cons, first, decide_true, Bool.not_true, List.length_cons]
    simp only [Bool.false_eq_true, if_false]
    omega

theorem evictRounds_settled (rounds : Nat) (cache : MemoryCache)
    (enough : cache.store.size ≤ rounds) :
    (evictRounds rounds cache).overBudget = false ∨
      (evictRounds rounds cache).store.keys.head? = some "" := by
  induction rounds generalizing cache with
  | zero =>
    left
    have none : cache.store.size = 0 := by omega
    simp [evictRounds, overBudget, none]
  | succ rounds ih =>
    unfold evictRounds
    split
    · rename_i exceeding
      split
      · rename_i absent
        left
        have none : cache.store.size = 0 := by
          simpa [InsertionMap.keys, InsertionMap.size, List.length_eq_zero_iff] using absent
        simp [overBudget, none] at exceeding
      · rename_i oldestKey oldest
        split
        · rename_i blank
          exact .inr (blank ▸ oldest)
        · apply ih
          have fewer := delete_oldest cache oldestKey oldest
          omega
    · rename_i within
      exact .inl (by simpa using within)

/-- The eviction loop runs to its end: within both budgets, or stopped by an empty key. -/
theorem evictIfNeeded_settled (cache : MemoryCache) :
    (evictIfNeeded cache).overBudget = false ∨
      (evictIfNeeded cache).store.keys.head? = some "" :=
  evictRounds_settled _ cache (Nat.le_refl _)

theorem set_held {cache : MemoryCache} {now : Int} {key other value : String} {version : Int}
    {held : Versioned} (later : (cache.set now key value version).peek other = some held) :
    (other = key ∧ held = ⟨value, version⟩) ∨ (other ≠ key ∧ cache.peek other = some held) := by
  have stored := evictRounds_shrinks _ _ other held later
  by_cases same : other = key
  · left
    simp only [peek, same, InsertionMap.get?_set, if_true, Option.map_some,
      Option.some.injEq] at stored
    exact ⟨same, stored.symm⟩
  · right
    have kept : (cache.delete key).peek other = some held := by simpa [peek, same] using stored
    rw [peek_delete, if_neg same] at kept
    exact ⟨same, kept⟩

theorem deletions_peek (keys : List String) (drop : String → Bool) (cache : MemoryCache)
    (other : String) :
    (keys.foldl (fun cache key => if drop key then cache.delete key else cache) cache).peek other =
      if other ∈ keys ∧ drop other = true then none else cache.peek other := by
  induction keys generalizing cache with
  | nil => simp
  | cons key rest ih =>
    rw [List.foldl_cons, ih]
    by_cases dropped : drop key = true
    · by_cases same : other = key
      · simp [dropped, same]
      · simp [dropped, same]
    · by_cases same : other = key
      · simp [dropped, same]
      · simp [dropped, same]

theorem peek_deleteByPrefix (cache : MemoryCache) (start key : String) :
    (cache.deleteByPrefix start).peek key =
      if Text.startsWith key start = true then none else cache.peek key := by
  rw [deleteByPrefix, deletions_peek]
  by_cases held : key ∈ cache.store.keys
  · simp [held]
  · have absent : cache.peek key = none := by
      simp [peek, (InsertionMap.get?_eq_none_iff cache.store key).mpr held]
    simp [absent]

theorem sweepExpired_shrinks (cache : MemoryCache) (now : Int) :
    Shrinks cache (cache.sweepExpired now) := by
  have swept : ∀ (entries : List (String × CacheEntry)) (current : MemoryCache),
      Shrinks current (entries.foldl
        (fun cache entry => if entry.2.expiresAt ≤ now then cache.delete entry.1 else cache)
        current) := by
    intro entries
    induction entries with
    | nil => exact Shrinks.refl
    | cons entry rest ih =>
      intro current
      rw [List.foldl_cons]
      apply Shrinks.trans _ (ih _)
      split
      · exact delete_shrinks current entry.1
      · exact .refl current
  exact swept cache.store.entries cache

def KeptOrGone (before after : MemoryCache) (key : String) : Prop :=
  after.store.get? key = before.store.get? key ∨ after.store.get? key = none

theorem KeptOrGone.trans {first second third : MemoryCache} {key : String}
    (left : KeptOrGone first second key) (right : KeptOrGone second third key) :
    KeptOrGone first third key := by
  rcases right with kept | gone
  · exact left.imp (kept.trans ·) (kept.trans ·)
  · exact .inr gone

theorem delete_keptOrGone (cache : MemoryCache) (key other : String) :
    KeptOrGone cache (cache.delete key) other := by
  unfold delete
  split
  · exact .inl rfl
  · by_cases same : other = key
    · exact .inr (by simp [same])
    · exact .inl (by simp [same])

theorem store_delete_other {key other : String} (cache : MemoryCache) (different : other ≠ key) :
    (cache.delete key).store.get? other = cache.store.get? other := by
  unfold delete
  split
  · rfl
  · simp [different]

theorem store_delete_self (cache : MemoryCache) (key : String) :
    (cache.delete key).store.get? key = none := by
  unfold delete
  split
  · assumption
  · simp

theorem store_get_other {key other : String} (cache : MemoryCache) (now : Int)
    (different : other ≠ key) : (cache.get now key).2.store.get? other = cache.store.get? other := by
  unfold get
  split
  · rfl
  · split <;> simp [different]

theorem evictRounds_keptOrGone (rounds : Nat) (cache : MemoryCache) (key : String) :
    KeptOrGone cache (evictRounds rounds cache) key := by
  induction rounds generalizing cache with
  | zero => exact .inl rfl
  | succ rounds ih =>
    unfold evictRounds
    split
    · split
      · exact .inl rfl
      · split
        · exact .inl rfl
        · exact (delete_keptOrGone cache _ key).trans (ih _)
    · exact .inl rfl

theorem set_keptOrGone {key other : String} (cache : MemoryCache) (now : Int) (value : String)
    (version : Int) (different : other ≠ key) :
    KeptOrGone cache (cache.set now key value version) other := by
  have kept := store_delete_other cache different
  unfold set evictIfNeeded
  apply KeptOrGone.trans _ (evictRounds_keptOrGone _ _ other)
  left
  simp [different, kept]

theorem get_eq_of_store {first second : MemoryCache} {key : String} (now : Int)
    (same : first.store.get? key = second.store.get? key) :
    (first.get now key).1 = (second.get now key).1 := by
  unfold get
  rw [same]
  split
  · rfl
  · split <;> rfl

end MemoryCache

end BaileysSession
