import BaileysSession.Cache.MemoryCacheRecency

set_option autoImplicit false

namespace BaileysSession

open Recency (drop pushRecent cut weight)

namespace MemoryCache

def valueBytes (entry : String × CacheEntry) : Nat := entry.2.value.utf8ByteSize

def storedBytes (cache : MemoryCache) : Nat := weight valueBytes cache.store.entries

def withinBudgets (budgets : Budgets) (entries : List (String × CacheEntry)) : Bool :=
  decide (entries.length ≤ budgets.maxEntries) &&
    decide (weight valueBytes entries ≤ budgets.maxBytes)

def Bounded (budgets : Budgets) (cache : MemoryCache) : Prop :=
  cache.size ≤ budgets.maxEntries ∧ cache.storedBytes ≤ budgets.maxBytes

theorem bounded_iff (budgets : Budgets) (cache : MemoryCache) :
    cache.Bounded budgets ↔ withinBudgets budgets cache.store.entries = true := by
  simp [Bounded, withinBudgets, MemoryCache.size, InsertionMap.size, storedBytes]

theorem withinBudgets_suffix (budgets : Budgets) (entries ending : List (String × CacheEntry))
    (suffix : ending <:+ entries) (within : withinBudgets budgets entries = true) :
    withinBudgets budgets ending = true := by
  have shorter := suffix.length_le
  have lighter := Recency.weight_sublist valueBytes suffix.sublist
  simp only [withinBudgets, Bool.and_eq_true, decide_eq_true_eq] at within ⊢
  omega

structure Counts (budgets : Budgets) (cache : MemoryCache) : Prop where
  limits : cache.maxEntries = budgets.maxEntries ∧ cache.maxBytes = budgets.maxBytes
  sizes : ∀ entry ∈ cache.store.entries, entry.2.byteSize = valueBytes entry
  total : cache.currentBytes = cache.storedBytes

theorem new_counts (options : MemoryCacheOptions) : (new options).Counts options.budgets where
  limits := ⟨rfl, rfl⟩
  sizes := by
    intro entry inside
    cases inside
  total := rfl

theorem delete_entries (cache : MemoryCache) (key : String) :
    (cache.delete key).store.entries = drop key cache.store.entries := store_delete cache key

theorem delete_counts {budgets : Budgets} {cache : MemoryCache} (counts : cache.Counts budgets)
    (key : String) : (cache.delete key).Counts budgets where
  limits := by
    unfold delete
    split <;> exact counts.limits
  sizes := by
    intro entry inside
    rw [delete_entries] at inside
    exact counts.sizes entry (List.mem_of_mem_filter inside)
  total := by
    rw [storedBytes, delete_entries]
    unfold delete
    cases found : cache.store.get? key with
    | none =>
      have absent := (InsertionMap.get?_eq_none_iff cache.store key).mp found
      rw [Recency.drop_absent absent]
      exact counts.total
    | some entry =>
      have lighter := (Recency.drop_found valueBytes cache.store.unique found).2
      have size : entry.byteSize = valueBytes (key, entry) :=
        counts.sizes (key, entry) ((InsertionMap.get?_eq_some_iff _ _ _).mp found)
      have total : cache.currentBytes = weight valueBytes cache.store.entries := counts.total
      simp only [size, total]
      omega

theorem overBudget_eq {budgets : Budgets} {cache : MemoryCache} (counts : cache.Counts budgets) :
    cache.overBudget = !withinBudgets budgets cache.store.entries := by
  have total : cache.currentBytes = weight valueBytes cache.store.entries := counts.total
  rw [overBudget, withinBudgets, counts.limits.1, counts.limits.2, total, InsertionMap.size]
  cases cache.store.entries with
  | nil => simp
  | cons entry rest =>
    rw [Bool.eq_iff_iff]
    simp only [Bool.and_eq_true, Bool.or_eq_true, Bool.not_eq_true', Bool.and_eq_false_iff,
      decide_eq_true_eq, decide_eq_false_iff_not, List.length_cons]
    omega

def isBlank (entry : String × CacheEntry) : Bool := decide (entry.1 = "")

/-- The loop removes entries from the front of the map and stops at the empty key. -/
theorem evictRounds_cuts {budgets : Budgets} (rounds : Nat) {cache : MemoryCache}
    (counts : cache.Counts budgets) (enough : cache.store.size ≤ rounds) :
    (evictRounds rounds cache).store.entries =
      cut (withinBudgets budgets) isBlank cache.store.entries := by
  induction rounds generalizing cache with
  | zero =>
    have none : cache.store.entries = [] := List.eq_nil_of_length_eq_zero (Nat.le_zero.mp enough)
    rw [evictRounds, none]
    rfl
  | succ rounds ih =>
    unfold evictRounds
    rw [overBudget_eq counts]
    cases stored : cache.store.entries with
    | nil => simpa [withinBudgets, cut] using stored
    | cons entry rest =>
      unfold cut
      by_cases within : withinBudgets budgets (entry :: rest) = true
      · simpa [within] using stored
      · have oldest : cache.store.keys.head? = some entry.1 := by
          rw [InsertionMap.keys, stored]
          rfl
        by_cases blank : entry.1 = ""
        · simpa [within, oldest, isBlank, blank] using stored
        · have fresh : entry.1 ∉ rest.map Prod.fst := by
            have unique := cache.store.unique
            rw [stored, List.map_cons, List.nodup_cons] at unique
            exact unique.1
          have remaining : (cache.delete entry.1).store.entries = rest := by
            have others := Recency.drop_absent fresh
            rw [delete_entries, stored]
            simpa [drop] using others
          have fewer : (cache.delete entry.1).store.size ≤ rounds := by
            have dropped := delete_oldest cache entry.1 oldest
            omega
          have next := ih (delete_counts counts entry.1) fewer
          rw [remaining] at next
          simpa [within, oldest, isBlank, blank] using next

/-- The sizes of the values from the empty key on, in the order of use that the set leaves. -/
def fromBlank (cache : MemoryCache) (key value : String) : List (String × Nat) :=
  (pushRecent key value.utf8ByteSize
    (cache.store.entries.map fun entry => (entry.1, valueBytes entry))).dropWhile
      fun entry => !decide (entry.1 = "")

def RoomFromBlank (budgets : Budgets) (cache : MemoryCache) (key value : String) : Prop :=
  (cache.fromBlank key value).length ≤ budgets.maxEntries ∧
    ((cache.fromBlank key value).map Prod.snd).sum ≤ budgets.maxBytes

def placed (cache : MemoryCache) (now : Int) (key value : String) (version : Int) : MemoryCache :=
  { cache.delete key with
    store := (cache.delete key).store.set key
      ⟨value, version, now + (cache.delete key).ttlMs, value.utf8ByteSize⟩
    currentBytes := (cache.delete key).currentBytes + value.utf8ByteSize }

theorem placed_entries (cache : MemoryCache) (now : Int) (key value : String) (version : Int) :
    (cache.placed now key value version).store.entries =
      pushRecent key ⟨value, version, now + (cache.delete key).ttlMs, value.utf8ByteSize⟩
        cache.store.entries := by
  have fresh : key ∉ (cache.delete key).store.entries.map Prod.fst := by
    rw [delete_entries]
    exact Recency.drop_fresh key cache.store.entries
  rw [pushRecent, ← delete_entries]
  exact InsertionMap.setEntry_fresh _ fresh

theorem placed_counts {budgets : Budgets} {cache : MemoryCache} (counts : cache.Counts budgets)
    (now : Int) (key value : String) (version : Int) :
    (cache.placed now key value version).Counts budgets where
  limits := (delete_counts counts key).limits
  sizes := by
    intro entry inside
    rw [placed_entries, pushRecent, List.mem_append] at inside
    rcases inside with before | single
    · exact counts.sizes entry (List.mem_of_mem_filter before)
    · rw [List.mem_singleton.mp single, valueBytes]
  total := by
    have cleared : (cache.delete key).currentBytes = weight valueBytes (drop key cache.store.entries) := by
      rw [(delete_counts counts key).total, storedBytes, delete_entries]
    rw [storedBytes, placed_entries, pushRecent, Recency.weight_append]
    simp [placed, cleared, valueBytes]

theorem roomFromBlank_iff (budgets : Budgets) (cache : MemoryCache) (now : Int)
    (key value : String) (version : Int) :
    RoomFromBlank budgets cache key value ↔
      withinBudgets budgets ((cache.placed now key value version).store.entries.dropWhile
        fun entry => !isBlank entry) = true := by
  have sized : cache.fromBlank key value =
      ((cache.placed now key value version).store.entries.dropWhile
        fun entry => !isBlank entry).map fun entry => (entry.1, valueBytes entry) := by
    have used : pushRecent key value.utf8ByteSize
          (cache.store.entries.map fun entry => (entry.1, valueBytes entry)) =
        (cache.placed now key value version).store.entries.map
          fun entry => (entry.1, valueBytes entry) := by
      rw [placed_entries, pushRecent, pushRecent, drop, drop, List.filter_map, List.map_append]
      rfl
    rw [fromBlank, used, List.dropWhile_map]
    rfl
  have sizes : (cache.fromBlank key value).map Prod.snd =
      ((cache.placed now key value version).store.entries.dropWhile
        fun entry => !isBlank entry).map valueBytes := by
    rw [sized, List.map_map]
    rfl
  rw [RoomFromBlank, sizes, sized, List.length_map, withinBudgets, Bool.and_eq_true,
    decide_eq_true_eq, decide_eq_true_eq]
  rfl

theorem set_bounded_iff {budgets : Budgets} {cache : MemoryCache} (counts : cache.Counts budgets)
    (now : Int) (key value : String) (version : Int) :
    (cache.set now key value version).Bounded budgets ↔ RoomFromBlank budgets cache key value := by
  have placed := placed_counts counts now key value version
  have cuts := evictRounds_cuts _ placed (Nat.le_refl _)
  have stops := Recency.cut_fits_iff (withinBudgets budgets) isBlank (withinBudgets_suffix budgets)
    (cache.placed now key value version).store.entries
  rw [bounded_iff, roomFromBlank_iff budgets cache now key value version, ← stops]
  exact Eq.congr_left (congrArg _ cuts)

theorem evictRounds_counts {budgets : Budgets} (rounds : Nat) {cache : MemoryCache}
    (counts : cache.Counts budgets) : (evictRounds rounds cache).Counts budgets := by
  induction rounds generalizing cache with
  | zero => exact counts
  | succ rounds ih =>
    unfold evictRounds
    split
    · split
      · exact counts
      · split
        · exact counts
        · exact ih (delete_counts counts _)
    · exact counts

theorem get_counts {budgets : Budgets} {cache : MemoryCache} (counts : cache.Counts budgets)
    (now : Int) (key : String) : (cache.get now key).2.Counts budgets := by
  have deleted := delete_counts counts key
  unfold get
  split
  · exact counts
  · rename_i entry found
    have present := (InsertionMap.get?_eq_some_iff _ _ _).mp found
    split
    · simpa only [delete, found] using deleted
    · have lighter := (Recency.drop_found valueBytes cache.store.unique found).2
      have touched := Recency.entries_set_erase cache.store key entry
      refine ⟨counts.limits, ?_, ?_⟩
      · intro other inside
        rw [touched, pushRecent, List.mem_append] at inside
        rcases inside with before | single
        · exact counts.sizes other (List.mem_of_mem_filter before)
        · rw [List.mem_singleton.mp single]
          exact counts.sizes _ present
      · have total : cache.currentBytes = weight valueBytes cache.store.entries := counts.total
        show cache.currentBytes = _
        rw [storedBytes, touched, pushRecent, Recency.weight_append, total, Recency.weight_cons,
          Recency.weight_nil, Nat.add_zero, lighter]

theorem deletions_counts {Item : Type} (drops : Item → Prop) [DecidablePred drops]
    (keyOf : Item → String) (items : List Item) {budgets : Budgets} {cache : MemoryCache}
    (counts : cache.Counts budgets) :
    (items.foldl (fun cache item => if drops item then cache.delete (keyOf item) else cache)
      cache).Counts budgets := by
  induction items generalizing cache with
  | nil => exact counts
  | cons item rest ih =>
    rw [List.foldl_cons]
    apply ih
    split
    · exact delete_counts counts (keyOf item)
    · exact counts

theorem apply_counts {budgets : Budgets} {cache : MemoryCache} (counts : cache.Counts budgets)
    (operation : Access) : (operation.apply cache).2.Counts budgets := by
  cases operation with
  | get now key => exact get_counts counts now key
  | set now key value version =>
    exact evictRounds_counts _ (placed_counts counts now key value version)
  | delete key => exact delete_counts counts key
  | deleteByPrefix start => exact deletions_counts _ id _ counts
  | clear =>
    refine ⟨counts.limits, ?_, rfl⟩
    intro entry inside
    cases inside
  | sweepExpired now => exact deletions_counts _ Prod.fst _ counts

theorem run_counts {budgets : Budgets} {cache : MemoryCache} (counts : cache.Counts budgets)
    (operations : List Access) : (cache.run operations).Counts budgets := by
  induction operations generalizing cache with
  | nil => exact counts
  | cons operation rest ih => exact ih (apply_counts counts operation)

/-- Every set of a run leaves the cache within its budgets exactly if, at every set, the entries
from the empty key on have room in them. -/
theorem bounded_after_every_set (options : MemoryCacheOptions) (operations : List Access) :
    (∀ earlier now key value version later,
      operations = earlier ++ .set now key value version :: later →
      (((new options).run earlier).set now key value version).Bounded options.budgets) ↔
    ∀ earlier now key value version later,
      operations = earlier ++ .set now key value version :: later →
      RoomFromBlank options.budgets ((new options).run earlier) key value := by
  have step : ∀ (earlier : List Access) (now : Int) (key value : String) (version : Int),
      (((new options).run earlier).set now key value version).Bounded options.budgets ↔
        RoomFromBlank options.budgets ((new options).run earlier) key value :=
    fun earlier => set_bounded_iff (run_counts (new_counts options) earlier)
  simp only [step]

instance (budgets : Budgets) (cache : MemoryCache) : Decidable (cache.Bounded budgets) :=
  inferInstanceAs (Decidable (_ ∧ _))

-- At most one entry is allowed, and the empty key, which is the oldest, holds the loop up.
theorem empty_key_exceeds_entries :
    ¬ (((new ⟨none, some 1, none⟩).run [.set 0 "" "x" 1]).set 0 "a" "y" 1).Bounded
      (MemoryCacheOptions.budgets ⟨none, some 1, none⟩) := by
  decide

end MemoryCache

end BaileysSession
