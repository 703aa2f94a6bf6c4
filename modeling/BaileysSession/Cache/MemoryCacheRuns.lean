import BaileysSession.Cache.MemoryCache

set_option autoImplicit false

namespace BaileysSession

namespace MemoryCache

inductive Access
  | get (now : Int) (key : String)
  | set (now : Int) (key value : String) (version : Int)
  | delete (key : String)
  | deleteByPrefix (start : String)
  | clear
  | sweepExpired (now : Int)
  deriving DecidableEq, Repr

namespace Access

def apply : Access → MemoryCache → Option Versioned × MemoryCache
  | get now key, cache => cache.get now key
  | set now key value version, cache => (none, cache.set now key value version)
  | delete key, cache => (none, cache.delete key)
  | deleteByPrefix start, cache => (none, cache.deleteByPrefix start)
  | clear, cache => (none, cache.clear)
  | sweepExpired now, cache => (none, cache.sweepExpired now)

/-- The operations after which nothing that was held for the key before may be read. -/
def Replaces (key : String) : Access → Prop
  | set _ written _ _ => written = key
  | delete deleted => deleted = key
  | deleteByPrefix start => Text.startsWith key start = true
  | clear => True
  | get _ _ | sweepExpired _ => False

end Access

def run (cache : MemoryCache) (operations : List Access) : MemoryCache :=
  operations.foldl (fun cache operation => (operation.apply cache).2) cache

def EntriesFrom (before after : MemoryCache) : Prop :=
  ∀ key entry, after.store.get? key = some entry → before.store.get? key = some entry

theorem EntriesFrom.refl (cache : MemoryCache) : EntriesFrom cache cache := fun _ _ held => held

theorem EntriesFrom.trans {first second third : MemoryCache} (left : EntriesFrom first second)
    (right : EntriesFrom second third) : EntriesFrom first third :=
  fun key entry held => left key entry (right key entry held)

theorem KeptOrGone.held {before after : MemoryCache} {key : String} {entry : CacheEntry}
    (kept : KeptOrGone before after key) (held : after.store.get? key = some entry) :
    before.store.get? key = some entry := by
  rcases kept with same | gone
  · exact same ▸ held
  · rw [gone] at held
    cases held

theorem delete_from (cache : MemoryCache) (key : String) : EntriesFrom cache (cache.delete key) :=
  fun other _ held => (delete_keptOrGone cache key other).held held

theorem get_from (cache : MemoryCache) (now : Int) (key : String) :
    EntriesFrom cache (cache.get now key).2 := by
  intro other entry held
  by_cases same : other = key
  · subst same
    unfold get at held
    split at held
    · exact held
    · rename_i found
      split at held
      · simp at held
      · rw [found]
        simpa using held
  · rwa [store_get_other cache now same] at held

theorem deletions_from {Item : Type} (items : List Item) (drop : Item → Prop) [DecidablePred drop]
    (keyOf : Item → String) (cache : MemoryCache) :
    EntriesFrom cache (items.foldl
      (fun cache item => if drop item then cache.delete (keyOf item) else cache) cache) := by
  induction items generalizing cache with
  | nil => exact .refl cache
  | cons item rest ih =>
    rw [List.foldl_cons]
    apply EntriesFrom.trans _ (ih _)
    split
    · exact delete_from cache (keyOf item)
    · exact .refl cache

theorem sweepExpired_from (cache : MemoryCache) (now : Int) :
    EntriesFrom cache (cache.sweepExpired now) :=
  deletions_from cache.store.entries (fun entry => entry.2.expiresAt ≤ now) Prod.fst cache

theorem deleteByPrefix_held {cache : MemoryCache} {start key : String} {entry : CacheEntry}
    (held : (cache.deleteByPrefix start).store.get? key = some entry) :
    cache.store.get? key = some entry ∧ ¬ Text.startsWith key start = true := by
  constructor
  · exact deletions_from cache.store.keys (Text.startsWith · start = true) id cache key entry held
  · intro starts
    have gone := peek_deleteByPrefix cache start key
    rw [if_pos starts] at gone
    simp [peek, held] at gone

@[simp] theorem ttlMs_delete (cache : MemoryCache) (key : String) :
    (cache.delete key).ttlMs = cache.ttlMs := by
  unfold delete
  split <;> rfl

theorem set_entry {cache : MemoryCache} {now : Int} {key other value : String} {version : Int}
    {entry : CacheEntry}
    (held : (cache.set now key value version).store.get? other = some entry) :
    (other = key ∧ entry = ⟨value, version, now + cache.ttlMs, value.utf8ByteSize⟩) ∨
      (other ≠ key ∧ cache.store.get? other = some entry) := by
  by_cases same : other = key
  · left
    have stored := (evictRounds_keptOrGone _ _ other).held held
    rw [InsertionMap.get?_set, if_pos same, ttlMs_delete, Option.some.injEq] at stored
    exact ⟨same, stored.symm⟩
  · exact .inr ⟨same, (set_keptOrGone cache now value version same).held held⟩

theorem apply_held {cache : MemoryCache} {operation : Access} {key : String}
    {entry : CacheEntry} (held : (operation.apply cache).2.store.get? key = some entry) :
    (∃ now, operation = .set now key entry.value entry.version ∧
        entry.expiresAt = now + cache.ttlMs) ∨
      (cache.store.get? key = some entry ∧ ¬ operation.Replaces key) := by
  cases operation with
  | get now asked => exact .inr ⟨get_from cache now asked key entry held, not_false⟩
  | set now written value version =>
    rcases set_entry held with ⟨rfl, rfl⟩ | ⟨different, before⟩
    · exact .inl ⟨now, rfl, rfl⟩
    · exact .inr ⟨before, fun same => different same.symm⟩
  | delete deleted =>
    right
    refine ⟨delete_from cache deleted key entry held, ?_⟩
    rintro rfl
    rw [Access.apply, store_delete_self] at held
    cases held
  | deleteByPrefix start => exact .inr (deleteByPrefix_held held)
  | clear => cases held
  | sweepExpired now => exact .inr ⟨sweepExpired_from cache now key entry held, not_false⟩

@[simp] theorem ttlMs_evictRounds (rounds : Nat) (cache : MemoryCache) :
    (evictRounds rounds cache).ttlMs = cache.ttlMs := by
  induction rounds generalizing cache with
  | zero => rfl
  | succ rounds ih =>
    unfold evictRounds
    split
    · split
      · rfl
      · split
        · rfl
        · rw [ih, ttlMs_delete]
    · rfl

theorem ttlMs_deletions {Item : Type} (items : List Item) (drop : Item → Prop) [DecidablePred drop]
    (keyOf : Item → String) (cache : MemoryCache) :
    (items.foldl (fun cache item => if drop item then cache.delete (keyOf item) else cache)
      cache).ttlMs = cache.ttlMs := by
  induction items generalizing cache with
  | nil => rfl
  | cons item rest ih =>
    rw [List.foldl_cons, ih]
    split
    · exact ttlMs_delete cache (keyOf item)
    · rfl

@[simp] theorem ttlMs_apply (cache : MemoryCache) (operation : Access) :
    (operation.apply cache).2.ttlMs = cache.ttlMs := by
  cases operation with
  | get now key =>
    simp only [Access.apply, get]
    split
    · rfl
    · split <;> rfl
  | set now key value version => simp [Access.apply, set, evictIfNeeded]
  | delete key => exact ttlMs_delete cache key
  | deleteByPrefix start =>
    exact ttlMs_deletions cache.store.keys (Text.startsWith · start = true) id cache
  | clear => rfl
  | sweepExpired now =>
    exact ttlMs_deletions cache.store.entries (fun entry => entry.2.expiresAt ≤ now) Prod.fst cache

/-- The last thing done to the key was to set this entry. -/
def LastSet (ttlMs : Int) (history : List Access) (key : String) (entry : CacheEntry) : Prop :=
  ∃ earlier later now,
    history = earlier ++ .set now key entry.value entry.version :: later ∧
    (∀ operation ∈ later, ¬ operation.Replaces key) ∧
    entry.expiresAt = now + ttlMs

theorem LastSet.snoc {ttlMs : Int} {history : List Access} {key : String} {entry : CacheEntry}
    {operation : Access} (last : LastSet ttlMs history key entry)
    (quiet : ¬ operation.Replaces key) : LastSet ttlMs (history ++ [operation]) key entry := by
  obtain ⟨earlier, later, now, rfl, unchanged, expiry⟩ := last
  refine ⟨earlier, later ++ [operation], now, by simp, ?_, expiry⟩
  intro other inside
  rcases List.mem_append.mp inside with before | single
  · exact unchanged other before
  · rwa [List.mem_singleton.mp single]

structure Accounted (ttlMs : Int) (history : List Access) (cache : MemoryCache) : Prop where
  ttl : cache.ttlMs = ttlMs
  held : ∀ key entry, cache.store.get? key = some entry → LastSet ttlMs history key entry

theorem new_accounted (options : MemoryCacheOptions) :
    Accounted (options.ttlMs.getD DEFAULT_TTL_MS) [] (new options) where
  ttl := rfl
  held := by
    intro key entry held
    cases held

theorem apply_accounted {ttlMs : Int} {history : List Access} {cache : MemoryCache}
    (accounted : Accounted ttlMs history cache) (operation : Access) :
    Accounted ttlMs (history ++ [operation]) (operation.apply cache).2 where
  ttl := (ttlMs_apply cache operation).trans accounted.ttl
  held := by
    intro key entry held
    rcases apply_held held with ⟨now, rfl, expiry⟩ | ⟨before, quiet⟩
    · exact ⟨history, [], now, rfl, by simp, accounted.ttl ▸ expiry⟩
    · exact (accounted.held key entry before).snoc quiet

theorem run_accounted {ttlMs : Int} {history : List Access} {cache : MemoryCache}
    (accounted : Accounted ttlMs history cache) (operations : List Access) :
    Accounted ttlMs (history ++ operations) (cache.run operations) := by
  induction operations generalizing cache history with
  | nil => simpa [run] using accounted
  | cons operation rest ih =>
    have next := ih (apply_accounted accounted operation)
    simpa [run] using next

theorem get_live {cache : MemoryCache} {now : Int} {key : String} {held : Versioned}
    (hit : (cache.get now key).1 = some held) :
    ∃ entry, cache.store.get? key = some entry ∧ now < entry.expiresAt ∧
      held = ⟨entry.value, entry.version⟩ := by
  unfold get at hit
  split at hit
  · cases hit
  · rename_i entry found
    split at hit
    · cases hit
    · rename_i live
      exact ⟨entry, found, Int.lt_of_not_ge live, (Option.some.inj hit).symm⟩

/-- A read returns what was set last, if nothing has removed it since and the time to live,
counted from the set, has not passed. -/
theorem reads_are_fresh (options : MemoryCacheOptions) (operations : List Access)
    (now : Int) (key : String) (held : Versioned)
    (hit : (((new options).run operations).get now key).1 = some held) :
    ∃ earlier later setAt,
      operations = earlier ++ .set setAt key held.value held.version :: later ∧
      (∀ operation ∈ later, ¬ operation.Replaces key) ∧
      now < setAt + options.ttlMs.getD DEFAULT_TTL_MS := by
  obtain ⟨entry, found, live, rfl⟩ := get_live hit
  have accounted := run_accounted (new_accounted options) operations
  obtain ⟨earlier, later, setAt, history, quiet, expiry⟩ := accounted.held key entry found
  exact ⟨earlier, later, setAt, history, quiet, expiry ▸ live⟩

-- A read in between and a clock that goes back do not change when the entry expires.
theorem read_twice_is_fresh :
    (((new ⟨some 10, none, none⟩).run [.set 5 "a" "x" 1, .get 3 "a"]).get 14 "a").1 =
        some ⟨"x", 1⟩ ∧
      ∃ earlier later setAt,
        [Access.set 5 "a" "x" 1, .get 3 "a"] = earlier ++ .set setAt "a" "x" 1 :: later ∧
        (∀ operation ∈ later, ¬ operation.Replaces "a") ∧ 14 < setAt + 10 :=
  ⟨by decide, reads_are_fresh ⟨some 10, none, none⟩ [.set 5 "a" "x" 1, .get 3 "a"] 14 "a" ⟨"x", 1⟩
    (by decide)⟩

end MemoryCache

end BaileysSession
