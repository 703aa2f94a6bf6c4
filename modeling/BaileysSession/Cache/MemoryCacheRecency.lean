import BaileysSession.Cache.MemoryCacheRuns
import BaileysSession.Shared.Recency
import Mathlib.Algebra.Ring.Nat

set_option autoImplicit false

namespace BaileysSession

open Recency (drop pushRecent longestSuffix)

structure Dated where
  value : String
  version : Int
  expiresAt : Int
  deriving DecidableEq, Repr

structure Budgets where
  ttlMs : Int
  maxEntries : Nat
  maxBytes : Nat

def MemoryCacheOptions.budgets (options : MemoryCacheOptions) : Budgets where
  ttlMs := options.ttlMs.getD MemoryCache.DEFAULT_TTL_MS
  maxEntries := options.maxEntries.getD MemoryCache.DEFAULT_MAX_ENTRIES
  maxBytes := options.maxBytes.getD MemoryCache.DEFAULT_MAX_BYTES

/-- What the cache is meant to be: the entries in the order of their last use, cut down to the
budgets after every set. -/
abbrev RecencyList := List (String × Dated)

namespace RecencyList

def bytes (entries : RecencyList) : Nat :=
  (entries.map fun entry => entry.2.value.utf8ByteSize).sum

def fits (budgets : Budgets) (entries : RecencyList) : Bool :=
  decide (entries.length ≤ budgets.maxEntries) && decide (entries.bytes ≤ budgets.maxBytes)

def apply (budgets : Budgets) :
    MemoryCache.Access → RecencyList → Option Versioned × RecencyList
  | .get now key, entries =>
    match entries.lookup key with
    | none => (none, entries)
    | some dated =>
      if dated.expiresAt ≤ now then (none, drop key entries)
      else (some ⟨dated.value, dated.version⟩, pushRecent key dated entries)
  | .set now key value version, entries =>
    (none, longestSuffix (fits budgets)
      (pushRecent key ⟨value, version, now + budgets.ttlMs⟩ entries))
  | .delete key, entries => (none, drop key entries)
  | .deleteByPrefix start, entries =>
    (none, entries.filter fun entry => !Text.startsWith entry.1 start)
  | .clear, _ => (none, [])
  | .sweepExpired now, entries =>
    (none, entries.filter fun entry => !decide (entry.2.expiresAt ≤ now))

def run (budgets : Budgets) (entries : RecencyList)
    (operations : List MemoryCache.Access) : RecencyList :=
  operations.foldl (fun entries operation => (apply budgets operation entries).2) entries

def results (budgets : Budgets) :
    RecencyList → List MemoryCache.Access → List (Option Versioned)
  | _, [] => []
  | entries, operation :: rest =>
    (apply budgets operation entries).1 :: results budgets (apply budgets operation entries).2 rest

@[simp] theorem bytes_append (left right : RecencyList) :
    bytes (left ++ right) = bytes left + bytes right := by simp [bytes]

@[simp] theorem bytes_nil : bytes [] = 0 := rfl

@[simp] theorem bytes_cons (entry : String × Dated) (rest : RecencyList) :
    bytes (entry :: rest) = entry.2.value.utf8ByteSize + bytes rest := by simp [bytes]

theorem bytes_filter (entries : RecencyList) (keep : String × Dated → Bool) :
    bytes (entries.filter keep) ≤ bytes entries :=
  Recency.weight_sublist _ List.filter_sublist

theorem lookup_split {key : String} {dated : Dated} {entries : RecencyList}
    (unique : (entries.map Prod.fst).Nodup) (found : entries.lookup key = some dated) :
    (drop key entries).length + 1 = entries.length ∧
      bytes (drop key entries) + dated.value.utf8ByteSize = bytes entries :=
  Recency.drop_found (fun entry => entry.2.value.utf8ByteSize) unique found

end RecencyList

namespace MemoryCache

def size (cache : MemoryCache) : Nat := cache.store.size

def approximateBytes (cache : MemoryCache) : Int := cache.currentBytes

def results : MemoryCache → List Access → List (Option Versioned)
  | _, [] => []
  | cache, operation :: rest =>
    (operation.apply cache).1 :: results (operation.apply cache).2 rest

def stored (dated : Dated) : CacheEntry :=
  ⟨dated.value, dated.version, dated.expiresAt, dated.value.utf8ByteSize⟩

structure Represents (cache : MemoryCache) (budgets : Budgets) (entries : RecencyList) : Prop where
  limits : cache.ttlMs = budgets.ttlMs ∧ cache.maxEntries = budgets.maxEntries ∧
    cache.maxBytes = budgets.maxBytes
  order : cache.store.entries = entries.map (Prod.map id stored)
  counted : cache.currentBytes = entries.bytes
  named : "" ∉ entries.map Prod.fst

namespace Represents

variable {cache : MemoryCache} {budgets : Budgets} {entries : RecencyList}

theorem keys (represents : Represents cache budgets entries) :
    cache.store.keys = entries.map Prod.fst := by
  rw [InsertionMap.keys, represents.order, List.map_map]
  rfl

theorem unique (represents : Represents cache budgets entries) :
    (entries.map Prod.fst).Nodup := by
  rw [← represents.keys]
  exact cache.store.unique

theorem size (represents : Represents cache budgets entries) :
    cache.store.size = entries.length := by
  rw [InsertionMap.size, represents.order, List.length_map]

theorem lookup (represents : Represents cache budgets entries) (key : String) :
    cache.store.get? key = (entries.lookup key).map stored := by
  rw [InsertionMap.get?, represents.order]
  clear represents
  induction entries with
  | nil => rfl
  | cons entry rest ih =>
    rw [List.map_cons, InsertionMap.lookup_cons, InsertionMap.lookup_cons, ih]
    by_cases same : key = entry.1 <;> simp [same]

theorem overBudget_iff (represents : Represents cache budgets entries) :
    cache.overBudget = true ↔ entries ≠ [] ∧ entries.fits budgets = false := by
  obtain ⟨_, maxEntries, maxBytes⟩ := represents.limits
  simp only [overBudget, represents.size, represents.counted, maxEntries, maxBytes,
    RecencyList.fits, Bool.and_eq_true, Bool.or_eq_true, decide_eq_true_eq, Bool.and_eq_false_iff,
    decide_eq_false_iff_not, ← List.length_pos_iff_ne_nil]
  omega

end Represents

theorem store_delete (cache : MemoryCache) (key : String) :
    (cache.delete key).store.entries = (cache.store.erase key).entries := by
  unfold delete
  split
  · rename_i absent
    symm
    apply List.filter_eq_self.mpr
    intro entry inside
    have different : entry.1 ≠ key := fun same =>
      (InsertionMap.get?_eq_none_iff cache.store key).mp absent (same ▸ List.mem_map_of_mem inside)
    simp [different]
  · rfl

theorem erase_represents {cache : MemoryCache} {budgets : Budgets} {entries : RecencyList}
    (represents : Represents cache budgets entries) (key : String) :
    (cache.store.erase key).entries = (drop key entries).map (Prod.map id stored) := by
  simp only [InsertionMap.erase, InsertionMap.filter, represents.order, drop, List.filter_map]
  rfl

theorem delete_represents {cache : MemoryCache} {budgets : Budgets} {entries : RecencyList}
    (represents : Represents cache budgets entries) (key : String) :
    Represents (cache.delete key) budgets (drop key entries) where
  limits := by
    unfold delete
    split <;> exact represents.limits
  order := (store_delete cache key).trans (erase_represents represents key)
  counted := by
    have held := represents.lookup key
    unfold delete
    cases found : entries.lookup key with
    | none =>
      have absent : key ∉ entries.map Prod.fst := by
        rw [← represents.keys, ← InsertionMap.get?_eq_none_iff, held, found]
        rfl
      simp only [held, found, Option.map_none, Recency.drop_absent absent]
      exact represents.counted
    | some dated =>
      have lighter := (RecencyList.lookup_split represents.unique found).2
      simp only [held, found, Option.map_some, represents.counted, stored]
      omega
  named := fun inside => represents.named
    ((List.filter_sublist.map Prod.fst).subset inside)

theorem evictRounds_represents {budgets : Budgets} (rounds : Nat) {cache : MemoryCache}
    {entries : RecencyList} (represents : Represents cache budgets entries)
    (enough : entries.length ≤ rounds) :
    Represents (evictRounds rounds cache) budgets
      (longestSuffix (RecencyList.fits budgets) entries) := by
  induction rounds generalizing cache entries with
  | zero =>
    have none : entries = [] := List.eq_nil_of_length_eq_zero (Nat.le_zero.mp enough)
    subst none
    exact represents
  | succ rounds ih =>
    have exceeds := represents.overBudget_iff
    unfold evictRounds
    cases entries with
    | nil =>
      have within : ¬ cache.overBudget = true := fun exceeding => (exceeds.mp exceeding).1 rfl
      rw [if_neg within]
      exact represents
    | cons entry rest =>
      unfold longestSuffix
      by_cases fits : RecencyList.fits budgets (entry :: rest) = true
      · have within : ¬ cache.overBudget = true := by
          intro exceeding
          rw [(exceeds.mp exceeding).2] at fits
          cases fits
        rw [if_neg within, if_pos fits]
        exact represents
      · have exceeding : cache.overBudget = true := exceeds.mpr ⟨by simp, by simpa using fits⟩
        have oldest : cache.store.keys.head? = some entry.1 := by rw [represents.keys]; rfl
        have nonEmpty : entry.1 ≠ "" := fun blank => represents.named (by simp [blank])
        have fresh : entry.1 ∉ rest.map Prod.fst := (List.nodup_cons.mp represents.unique).1
        have remaining : drop entry.1 (entry :: rest) = rest := by
          have others := Recency.drop_absent fresh
          simpa [drop] using others
        rw [if_pos exceeding, if_neg fits, oldest]
        simp only [if_neg nonEmpty]
        have deleted := delete_represents represents entry.1
        rw [remaining] at deleted
        exact ih deleted (by simpa using enough)

theorem set_represents {cache : MemoryCache} {budgets : Budgets} {entries : RecencyList}
    (represents : Represents cache budgets entries) (now : Int) (key value : String)
    (version : Int) (nonEmpty : key ≠ "") :
    Represents (cache.set now key value version) budgets
      (longestSuffix (RecencyList.fits budgets)
        (pushRecent key ⟨value, version, now + budgets.ttlMs⟩ entries)) := by
  have cleared := delete_represents represents key
  have pushed : Represents
      { cache.delete key with
        store := (cache.delete key).store.set key
          ⟨value, version, now + (cache.delete key).ttlMs, value.utf8ByteSize⟩
        currentBytes := (cache.delete key).currentBytes + value.utf8ByteSize }
      budgets (pushRecent key ⟨value, version, now + budgets.ttlMs⟩ entries) := by
    refine ⟨cleared.limits, ?_, ?_, ?_⟩
    · have appended := Recency.entries_set_erase cache.store key
        ⟨value, version, now + (cache.delete key).ttlMs, value.utf8ByteSize⟩
      simp only [InsertionMap.set, store_delete] at appended ⊢
      rw [appended, pushRecent, pushRecent, List.map_append, cleared.limits.1]
      exact congrArg (· ++ _) (erase_represents represents key)
    · rw [pushRecent, RecencyList.bytes_append, cleared.counted]
      simp [RecencyList.bytes]
    · rw [pushRecent, List.map_append, List.mem_append]
      rintro (before | single)
      · exact cleared.named before
      · exact nonEmpty (List.mem_singleton.mp single).symm
  apply evictRounds_represents _ pushed
  rw [← pushed.size]

theorem set_keeps_most {cache : MemoryCache} {budgets : Budgets} {entries : RecencyList}
    (represents : Represents cache budgets entries) (now : Int) (key value : String)
    (version : Int) (nonEmpty : key ≠ "") :
    let used := pushRecent key ⟨value, version, now + budgets.ttlMs⟩ entries
    ∃ kept, Represents (cache.set now key value version) budgets kept ∧ kept <:+ used ∧
      ∀ other, other <:+ used → RecencyList.fits budgets other = true → other <:+ kept :=
  ⟨_, set_represents represents now key value version nonEmpty,
    Recency.longestSuffix_suffix _ _, Recency.longestSuffix_longest _ _⟩

theorem get_represents {cache : MemoryCache} {budgets : Budgets} {entries : RecencyList}
    (represents : Represents cache budgets entries) (now : Int) (key : String) :
    (cache.get now key).1 = (RecencyList.apply budgets (.get now key) entries).1 ∧
      Represents (cache.get now key).2 budgets
        (RecencyList.apply budgets (.get now key) entries).2 := by
  have held := represents.lookup key
  unfold get
  cases found : entries.lookup key with
  | none =>
    simp only [held, found, Option.map_none, RecencyList.apply, true_and]
    exact represents
  | some dated =>
    have lighter := (RecencyList.lookup_split represents.unique found).2
    simp only [held, found, Option.map_some, RecencyList.apply]
    by_cases expired : dated.expiresAt ≤ now
    · have deleted := delete_represents represents key
      simp only [delete, held, found, Option.map_some] at deleted
      simp only [stored, expired, if_true, true_and]
      exact deleted
    · simp only [stored, expired, if_false, true_and]
      refine ⟨represents.limits, ?_, ?_, ?_⟩
      · show ((cache.store.erase key).set key (stored dated)).entries = _
        rw [Recency.entries_set_erase, pushRecent, pushRecent, List.map_append]
        exact congrArg (· ++ _) (erase_represents represents key)
      · show cache.currentBytes = _
        have last : RecencyList.bytes [(key, dated)] = dated.value.utf8ByteSize := by
          rw [RecencyList.bytes_cons, RecencyList.bytes_nil, Nat.add_zero]
        rw [pushRecent, RecencyList.bytes_append, represents.counted, last, lighter]
      · have inside : key ∈ entries.map Prod.fst := by
          rw [← represents.keys]
          by_contra absent
          rw [← InsertionMap.get?_eq_none_iff, held, found] at absent
          cases absent
        rw [pushRecent, List.map_append, List.mem_append]
        rintro (before | single)
        · exact represents.named ((List.filter_sublist.map Prod.fst).subset before)
        · exact represents.named ((List.mem_singleton.mp single) ▸ inside)

theorem deletions_represents {Item : Type} (drops : Item → Prop) [DecidablePred drops]
    (keyOf : Item → String) (items : List Item) {cache : MemoryCache} {budgets : Budgets}
    {entries : RecencyList} (represents : Represents cache budgets entries) :
    Represents (items.foldl
        (fun cache item => if drops item then cache.delete (keyOf item) else cache) cache) budgets
      (entries.filter fun entry =>
        !items.any fun item => decide (entry.1 = keyOf item) && decide (drops item)) := by
  induction items generalizing cache entries with
  | nil =>
    simpa using represents
  | cons item rest ih =>
    rw [List.foldl_cons]
    by_cases dropped : drops item
    · have next := ih (delete_represents represents (keyOf item))
      simpa [dropped, drop, List.filter_filter, Bool.and_comm] using next
    · have next := ih represents
      simpa [dropped] using next

theorem deleteByPrefix_represents {cache : MemoryCache} {budgets : Budgets} {entries : RecencyList}
    (represents : Represents cache budgets entries) (start : String) :
    Represents (cache.deleteByPrefix start) budgets
      (entries.filter fun entry => !Text.startsWith entry.1 start) := by
  have deleted := deletions_represents (Text.startsWith · start = true) id cache.store.keys
    represents
  have same : (entries.filter fun entry => !cache.store.keys.any fun key =>
      decide (entry.1 = id key) && decide (Text.startsWith key start = true)) =
      entries.filter fun entry => !Text.startsWith entry.1 start := by
    apply List.filter_congr
    intro entry inside
    rw [Bool.not_inj_iff, Bool.eq_iff_iff, List.any_eq_true, represents.keys]
    simp only [id, Bool.and_eq_true, decide_eq_true_eq]
    constructor
    · rintro ⟨_, -, rfl, starts⟩
      exact starts
    · intro starts
      exact ⟨entry.1, List.mem_map_of_mem inside, rfl, starts⟩
  rwa [same] at deleted

theorem sweepExpired_represents {cache : MemoryCache} {budgets : Budgets} {entries : RecencyList}
    (represents : Represents cache budgets entries) (now : Int) :
    Represents (cache.sweepExpired now) budgets
      (entries.filter fun entry => !decide (entry.2.expiresAt ≤ now)) := by
  have deleted := deletions_represents (fun entry : String × CacheEntry => entry.2.expiresAt ≤ now)
    Prod.fst cache.store.entries represents
  have same : (entries.filter fun entry => !cache.store.entries.any fun swept =>
      decide (entry.1 = swept.1) && decide (swept.2.expiresAt ≤ now)) =
      entries.filter fun entry => !decide (entry.2.expiresAt ≤ now) := by
    apply List.filter_congr
    intro entry inside
    have held : (entry.1, stored entry.2) ∈ cache.store.entries := by
      rw [represents.order]
      exact List.mem_map_of_mem inside
    rw [Bool.not_inj_iff, Bool.eq_iff_iff, List.any_eq_true]
    simp only [Bool.and_eq_true, decide_eq_true_eq]
    constructor
    · rintro ⟨⟨key, swept⟩, present, rfl, expired⟩
      -- One entry for a key, so the one that is swept is this one.
      have first := (InsertionMap.get?_eq_some_iff cache.store entry.1 swept).mpr present
      rw [(InsertionMap.get?_eq_some_iff cache.store entry.1 (stored entry.2)).mpr held,
        Option.some.injEq] at first
      have stale : (stored entry.2).expiresAt ≤ now := first ▸ expired
      exact stale
    · intro expired
      exact ⟨_, held, rfl, expired⟩
  rwa [same] at deleted

def Access.SetsNamed : Access → Prop
  | .set _ key _ _ => key ≠ ""
  | _ => True

theorem apply_represents {cache : MemoryCache} {budgets : Budgets} {entries : RecencyList}
    (represents : Represents cache budgets entries) (operation : Access)
    (named : operation.SetsNamed) :
    (operation.apply cache).1 = (RecencyList.apply budgets operation entries).1 ∧
      Represents (operation.apply cache).2 budgets
        (RecencyList.apply budgets operation entries).2 := by
  cases operation with
  | get now key => exact get_represents represents now key
  | set now key value version => exact ⟨rfl, set_represents represents now key value version named⟩
  | delete key => exact ⟨rfl, delete_represents represents key⟩
  | deleteByPrefix start => exact ⟨rfl, deleteByPrefix_represents represents start⟩
  | clear => exact ⟨rfl, represents.limits, rfl, rfl, by simp [RecencyList.apply]⟩
  | sweepExpired now => exact ⟨rfl, sweepExpired_represents represents now⟩

theorem run_represents {cache : MemoryCache} {budgets : Budgets} {entries : RecencyList}
    (represents : Represents cache budgets entries) (operations : List Access)
    (named : ∀ operation ∈ operations, operation.SetsNamed) :
    cache.results operations = RecencyList.results budgets entries operations ∧
      Represents (cache.run operations) budgets (RecencyList.run budgets entries operations) := by
  induction operations generalizing cache entries with
  | nil => exact ⟨rfl, represents⟩
  | cons operation rest ih =>
    obtain ⟨same, next⟩ := apply_represents represents operation (named _ List.mem_cons_self)
    obtain ⟨later, final⟩ := ih next fun other inside => named other (List.mem_cons_of_mem _ inside)
    exact ⟨by rw [results, RecencyList.results, same, later], final⟩

theorem new_represents (options : MemoryCacheOptions) :
    Represents (new options) options.budgets [] :=
  ⟨⟨rfl, rfl, rfl⟩, rfl, rfl, by simp⟩

end MemoryCache

namespace RecencyList

theorem fits_filter {budgets : Budgets} {entries : RecencyList} (within : fits budgets entries = true)
    (keep : String × Dated → Bool) : fits budgets (entries.filter keep) = true := by
  have fewer := List.length_filter_le keep entries
  have lighter := bytes_filter entries keep
  simp only [fits, Bool.and_eq_true, decide_eq_true_eq] at within ⊢
  omega

theorem apply_fits {budgets : Budgets} {entries : RecencyList}
    (unique : (entries.map Prod.fst).Nodup) (within : fits budgets entries = true)
    (operation : MemoryCache.Access) :
    fits budgets (apply budgets operation entries).2 = true := by
  cases operation with
  | get now key =>
    simp only [apply]
    split
    · exact within
    · rename_i dated found
      obtain ⟨shorter, lighter⟩ := lookup_split unique found
      split
      · exact fits_filter within _
      · simp only [fits, Bool.and_eq_true, decide_eq_true_eq, pushRecent, List.length_append,
          bytes_append, List.length_singleton, bytes_cons] at within ⊢
        simp only [bytes, List.map_nil, List.sum_nil] at within lighter ⊢
        omega
  | set now key value version => exact Recency.longestSuffix_fits _ _ (by simp [fits, bytes])
  | delete key => exact fits_filter within _
  | deleteByPrefix start => exact fits_filter within _
  | clear => simp [apply, fits, bytes]
  | sweepExpired now => exact fits_filter within _

end RecencyList

namespace MemoryCache

theorem run_fits {cache : MemoryCache} {budgets : Budgets} {entries : RecencyList}
    (represents : Represents cache budgets entries)
    (within : RecencyList.fits budgets entries = true) (operations : List Access)
    (named : ∀ operation ∈ operations, operation.SetsNamed) :
    RecencyList.fits budgets (RecencyList.run budgets entries operations) = true := by
  induction operations generalizing cache entries with
  | nil => exact within
  | cons operation rest ih =>
    have next := (apply_represents represents operation (named _ List.mem_cons_self)).2
    have kept := RecencyList.apply_fits represents.unique within operation
    exact ih next kept fun other inside => named other (List.mem_cons_of_mem _ inside)

/-- The cache cannot be told from the list of the most recent entries that fit its budgets. -/
theorem exact_within_budgets (options : MemoryCacheOptions) (operations : List Access)
    (named : ∀ operation ∈ operations, operation.SetsNamed) :
    let cache := (new options).run operations
    let entries := RecencyList.run options.budgets [] operations
    (new options).results operations = RecencyList.results options.budgets [] operations ∧
      cache.store.entries = entries.map (Prod.map id stored) ∧
      cache.size = entries.length ∧
      cache.approximateBytes = entries.bytes ∧
      cache.store.keys.Nodup ∧
      cache.size ≤ options.budgets.maxEntries ∧
      cache.approximateBytes ≤ options.budgets.maxBytes := by
  intro cache entries
  obtain ⟨same, represents⟩ := run_represents (new_represents options) operations named
  have within := run_fits (new_represents options) (by simp [RecencyList.fits, RecencyList.bytes])
    operations named
  simp only [RecencyList.fits, Bool.and_eq_true, decide_eq_true_eq] at within
  have size : cache.size = entries.length := represents.size
  have counted : cache.approximateBytes = entries.bytes := represents.counted
  refine ⟨same, represents.order, size, counted, cache.store.unique, ?_, ?_⟩
  · rw [size]
    exact within.1
  · rw [counted]
    exact Int.ofNat_le.mpr within.2

theorem set_within_one_entry :
    let operations : List Access := [.set 0 "a" "é" 1, .set 1 "b" "x" 2, .get 2 "a"]
    (new ⟨none, none, some 2⟩).results operations = [none, none, none] ∧
      ((new ⟨none, none, some 2⟩).run operations).size = 1 := by
  have refined := exact_within_budgets ⟨none, none, some 2⟩
    [.set 0 "a" "é" 1, .set 1 "b" "x" 2, .get 2 "a"]
    (by simp [Access.SetsNamed])
  refine ⟨refined.1.trans (by decide), refined.2.2.1.trans (by decide)⟩

end MemoryCache

end BaileysSession
