import BaileysSession.Retention.PruneEffects

set_option autoImplicit false

namespace BaileysSession

namespace Retention

section Categories

/-- The key is the category's name, or goes on after it with a hyphen. -/
def Belongs (key : String) (category : Category) : Prop :=
  key = category.name ∨ Text.startsWith key (category.name ++ "-") = true

theorem belongs_iff (key : String) (category : Category) :
    (decide (key = category.name) || Text.startsWith key (category.name ++ "-")) = true ↔
      Belongs key category := by
  rw [Bool.or_eq_true, decide_eq_true_eq, Belongs]

/-- The known category with the longest name that the key belongs to. -/
structure LongestMatch (key : String) (category : Category) : Prop where
  belongs : Belongs key category
  longest : ∀ other, Belongs key other → other.name.length ≤ category.name.length

theorem mem_CATEGORIES (category : Category) : category ∈ CATEGORIES := by
  rw [CATEGORIES, List.mem_insertionSort]
  cases category <;> decide

theorem name_injective {first second : Category} (same : first.name = second.name) :
    first = second := by
  revert same
  cases first <;> cases second <;> decide

theorem CATEGORIES_longest_first :
    CATEGORIES.Pairwise fun first second => second.name.length ≤ first.name.length := by
  have : Std.Total fun first second : Category => second.name.length ≤ first.name.length :=
    ⟨fun first second => Nat.le_total _ _⟩
  have : IsTrans Category fun first second => second.name.length ≤ first.name.length :=
    ⟨fun _ _ _ left right => Nat.le_trans right left⟩
  exact List.pairwise_insertionSort _ unsortedCategories

theorem Belongs.starts {key : String} {category : Category} (belongs : Belongs key category) :
    category.name.toList <+: key.toList := by
  rcases belongs with rfl | starts
  · exact List.prefix_rfl
  · obtain ⟨rest, rfl⟩ := (Text.startsWith_iff _ _).mp starts
    rw [String.toList_append, String.toList_append, List.append_assoc]
    exact List.prefix_append _ _

theorem longestMatch_unique {key : String} {first second : Category}
    (left : LongestMatch key first) (right : LongestMatch key second) : first = second := by
  have lengths : first.name.toList.length = second.name.toList.length :=
    Nat.le_antisymm (right.longest first left.belongs) (left.longest second right.belongs)
  have nested := List.prefix_of_prefix_length_le left.belongs.starts right.belongs.starts
    (Nat.le_of_eq lengths)
  exact name_injective (String.toList_inj.mp (nested.eq_of_length lengths))

theorem resolveCategory_iff (key : String) (category : Category) :
    resolveCategory key = some category ↔ key ≠ credsKey ∧ LongestMatch key category := by
  have found : ∀ found, resolveCategory key = some found → key ≠ credsKey ∧ LongestMatch key found := by
    intro found resolved
    unfold resolveCategory at resolved
    split at resolved
    · cases resolved
    · rename_i other
      obtain ⟨here, before, after, list, earlier⟩ := List.find?_eq_some_iff_append.mp resolved
      refine ⟨other, (belongs_iff key found).mp here, fun longer belongs => ?_⟩
      have listed := mem_CATEGORIES longer
      have sorted := CATEGORIES_longest_first
      rw [list] at listed sorted
      rcases List.mem_append.mp listed with skipped | rest
      · have refused := earlier longer skipped
        rw [(belongs_iff key longer).mpr belongs] at refused
        cases refused
      · rcases List.mem_cons.mp rest with rfl | later
        · exact Nat.le_refl _
        · exact (List.pairwise_cons.mp (List.pairwise_append.mp sorted).2.1).1 longer later
  constructor
  · exact found category
  · rintro ⟨other, longest⟩
    cases resolved : resolveCategory key with
    | some chosen => rw [longestMatch_unique (found chosen resolved).2 longest]
    | none =>
      rw [resolveCategory, if_neg other, List.find?_eq_none] at resolved
      exact absurd ((belongs_iff key category).mpr longest.belongs)
        (resolved category (mem_CATEGORIES category))

end Categories

/-- What a pass is to remove: a row of a configured category that has reached its age. -/
def Due (options : KeyRetentionOptions) (now : Int) (key : String) (record : SessionRecord) : Prop :=
  key ≠ credsKey ∧ ∃ category maxAgeMs, LongestMatch key category ∧
    options.maxAgeMsByCategory category = some maxAgeMs ∧ now - record.updatedAt ≥ maxAgeMs

theorem old_iff_due (options : KeyRetentionOptions) (now : Int) (key : String)
    (record : SessionRecord) : Old options key now record ↔ Due options now key record := by
  unfold Old Due maxAgeMs
  constructor
  · rintro ⟨maxAge, configured, old⟩
    obtain ⟨category, resolved, limited⟩ := Option.bind_eq_some_iff.mp configured
    obtain ⟨other, longest⟩ := (resolveCategory_iff key category).mp resolved
    exact ⟨other, category, maxAge, longest, limited, by omega⟩
  · rintro ⟨other, category, maxAge, longest, limited, old⟩
    have resolved := (resolveCategory_iff key category).mpr ⟨other, longest⟩
    exact ⟨maxAge, by rw [resolved, Option.bind_some, limited], by omega⟩

end Retention

namespace CacheManager

open Async

variable {Instance : Type} [DecidableEq Instance] {settings : Settings} {self : Instance}

def Forgotten (self : Instance) (sessionId : String) (keys : List String) (w : Cluster Instance) :
    Prop :=
  ∀ key ∈ keys, (w.l1 self).peek (cacheKey sessionId key) = none

def Call.Forgets : Call → Prop
  | .l1Delete _ | .l2Del _ | .publishInvalidation _ => True
  | _ => False

theorem effect_forgotten {sessionId : String} {keys : List String} (call : Call) (choice : Choice)
    (w : Cluster Instance) (forgets : call.Forgets) (forgotten : Forgotten self sessionId keys w) :
    Forgotten self sessionId keys (effect settings self call choice w).2 := by
  cases call with
  | l1Delete key =>
    intro other inside
    simp only [effect, withL1_l1, if_true, MemoryCache.peek_delete, forgotten other inside, ite_self]
  | l2Del => exact forgotten
  | publishInvalidation => exact forgotten
  | _ => exact False.elim forgets

theorem onDeleted_forgotten (sessionId key : String) (gone : List String) (oracle : Oracle Choice)
    {w : Cluster Instance} (forgotten : Forgotten self sessionId gone w) :
    Forgotten self sessionId (key :: gone)
      (evaluate (effect settings self) (onDeleted settings.redis sessionId key) oracle w).world := by
  let deleted := w.withL1 self ((w.l1 self).delete (cacheKey sessionId key))
  have first : Forgotten self sessionId (key :: gone) deleted := by
    intro other inside
    simp only [deleted, withL1_l1, if_true, MemoryCache.peek_delete]
    rcases List.mem_cons.mp inside with rfl | before
    · rw [if_pos rfl]
    · rw [forgotten other before, ite_self]
  have rest : (announceDeleted settings.redis (cacheKey sessionId key)).Only Call.Forgets :=
    only_bind (deleteL2_only trivial) fun _ => publish_only trivial
  exact evaluate_invariant effect_forgotten rest oracle.later first

theorem onDeletedEach_forgotten (sessionId : String) (keys gone : List String)
    (oracle : Oracle Choice) {w : Cluster Instance} (forgotten : Forgotten self sessionId gone w) :
    Forgotten self sessionId (keys.reverse ++ gone)
      (evaluate (effect settings self) (onDeletedEach settings.redis sessionId keys) oracle
        w).world := by
  induction keys generalizing gone oracle w with
  | nil => exact forgotten
  | cons key rest ih =>
    have first := @onDeleted_forgotten _ _ settings self sessionId key gone oracle w forgotten
    obtain ⟨_, resolved⟩ := evaluate_resolves (effect settings self)
      (@onDeleted_resolves settings.redis sessionId key) oracle w
    rw [onDeletedEach, evaluate_bind]
    revert first resolved
    obtain ⟨result, later, remaining⟩ :=
      evaluate (effect settings self) (onDeleted settings.redis sessionId key) oracle w
    rintro first rfl
    have next := ih (key :: gone) remaining first
    simpa using next

theorem get_forgotten (alone : settings.redis = none) {sessionId key : String} {w : Cluster Instance}
    (forgotten : (w.l1 self).peek (cacheKey sessionId key) = none)
    (absent : w.db.get sessionId key = none) {oracle : Oracle Choice}
    (accepted : Along (effect settings self) AdapterAccepts (get settings.redis sessionId key) oracle w) :
    (evaluate (effect settings self) (get settings.redis sessionId key) oracle w).result = .ok none := by
  have miss : ∀ now, (w.l1 self).get now (cacheKey sessionId key) = (none, w.l1 self) :=
    fun _ => MemoryCache.get_absent forgotten
  simp only [alone, get, readL2, safeL2Get, readDatabase, l1Get, adapterGet, Bind.bind, Async.bind,
    perform, pure, evaluate, Along, effect, miss, withL1_self] at accepted ⊢
  rw [settle_accepted accepted.2.1, absent]
  rfl

end CacheManager

namespace Retention

open Async CacheManager Database

variable {Instance : Type} [DecidableEq Instance] {settings : Settings} {self : Instance}
  {options : KeyRetentionOptions} {sessionId : String} {w : Cluster Instance}

/-- The pruned keys are those of the due rows, and they are gone from the database and from L1. -/
structure Exact (options : KeyRetentionOptions) (sessionId : String) (now : Int) (pruner : Instance)
    (before after : Cluster Instance) (prunedKeys : List String) : Prop where
  nodup : prunedKeys.Nodup
  due : ∀ key, key ∈ prunedKeys ↔
    ∃ record, before.db.get sessionId key = some record ∧ Due options now key record
  removes : before.db.Removes sessionId prunedKeys after.db
  forgotten : Forgotten pruner sessionId prunedKeys after

omit [DecidableEq Instance] in
theorem exact_nothing {now : Int}
    (none : ∀ key record, w.db.get sessionId key = some record → ¬ Due options now key record) :
    Exact options sessionId now self w w [] where
  nodup := List.nodup_nil
  due := by
    intro key
    constructor
    · intro inside
      cases inside
    · rintro ⟨record, found, due⟩
      exact absurd due (none key record found)
  removes := removes_nothing sessionId w.db
  forgotten := by
    intro key inside
    cases inside

theorem getAllKeys_nodup (db : Database) (sessionId : String) : (db.getAllKeys sessionId).Nodup := by
  have listed : (db.rows.keys.filter fun row => decide (row.1 = sessionId)).Nodup :=
    db.rows.unique.filter _
  refine List.Nodup.map_on ?_ listed
  intro first inFirst second inSecond same
  have here := of_decide_eq_true (List.mem_filter.mp inFirst).2
  have there := of_decide_eq_true (List.mem_filter.mp inSecond).2
  exact Prod.ext (here.trans there.symm) same

theorem deleteStale_exact {now : Int} {stale : List String} (nodup : stale.Nodup)
    (due : ∀ key, key ∈ stale ↔
      ∃ record, w.db.get sessionId key = some record ∧ Due options now key record)
    {oracle : Oracle Choice}
    (accepted : Along (effect settings self) AdapterAccepts
      (deleteStale settings.redis sessionId stale) oracle w) :
    let outcome := evaluate (effect settings self) (deleteStale settings.redis sessionId stale)
      oracle w
    outcome.result = .ok stale ∧ Exact options sessionId now self w outcome.world stale := by
  unfold deleteStale at accepted ⊢
  by_cases empty : stale.length = 0
  · have none : stale = [] := List.length_eq_zero_iff.mp empty
    subst none
    exact ⟨rfl, exact_nothing fun key record found isDue =>
      List.not_mem_nil ((due key).mpr ⟨record, found, isDue⟩)⟩
  · rw [if_neg empty] at accepted ⊢
    have taken : (oracle 0).rejection = none := ((along_bind _ _ _ _ _ _).mp accepted).1.1
    let deleted := { w with db := w.db.deleteMany sessionId stale }
    obtain ⟨_, resolved⟩ := evaluate_resolves (effect settings self)
      (onDeletedEach_resolves stale) oracle.later deleted
    have forgotten := @onDeletedEach_forgotten _ _ settings self sessionId stale [] oracle.later
      deleted fun _ inside => absurd inside List.not_mem_nil
    have reading : (onDeletedEach settings.redis sessionId stale).Only Call.Reading :=
      onDeletedEach_only stale fun key _ => onDeleted_only trivial trivial trivial
    have kept := @evaluate_reading _ _ settings self _ _ reading oracle.later deleted
    rw [evaluate_bind]
    simp only [adapterDeleteMany, evaluate, effect, settle_accepted taken, applies_accepted taken,
      List.filter_true, evaluate_bind]
    revert forgotten kept resolved
    simp only [deleted]
    obtain ⟨result, later, remaining⟩ := evaluate (effect settings self)
      (onDeletedEach settings.redis sessionId stale) oracle.later
      { w with db := w.db.deleteMany sessionId stale }
    rintro rfl forgotten kept
    refine ⟨rfl, nodup, due, ?_, fun key inside => ?_⟩
    · have removed := removes_deleteMany sessionId stale w.db
      intro other key
      rw [← removed other key, ← kept]
      rfl
    · exact forgotten key (by simpa using inside)

theorem candidates_nodup {keys : List String} (nodup : keys.Nodup) :
    (candidates options keys).Nodup :=
  nodup.filter _

theorem pruneCandidates_exact {oracle : Oracle Choice}
    (accepted : Along (effect settings self) AdapterAccepts
      (pruneCandidates settings.redis sessionId options
        (candidates options (w.db.getAllKeys sessionId))) oracle w) :
    let outcome := evaluate (effect settings self) (pruneCandidates settings.redis sessionId options
      (candidates options (w.db.getAllKeys sessionId))) oracle w
    ∃ prunedKeys, outcome.result = .ok prunedKeys ∧
      Exact options sessionId (oracle 1).dateNow self w outcome.world prunedKeys := by
  unfold pruneCandidates at accepted ⊢
  by_cases empty : (candidates options (w.db.getAllKeys sessionId)).length = 0
  · rw [if_pos empty]
    refine ⟨[], rfl, exact_nothing fun key record found isDue => ?_⟩
    have listed : key ∈ w.db.getAllKeys sessionId := by
      rw [mem_getAllKeys, found]
      rfl
    have candidate := ((old_iff_due options _ key record).mpr isDue).candidate listed
    rw [List.length_eq_zero_iff.mp empty] at candidate
    cases candidate
  · rw [if_neg empty] at accepted ⊢
    obtain ⟨read, continued⟩ := (along_bind _ _ _ _ _ _).mp accepted
    have taken : (oracle 0).rejection = none := read.1
    have records : (evaluate (effect settings self) (adapterGetMany sessionId
        (candidates options (w.db.getAllKeys sessionId))) oracle w) =
        ⟨.ok (w.db.getMany sessionId (candidates options (w.db.getAllKeys sessionId))), w,
          oracle.later⟩ := by
      simp only [adapterGetMany, evaluate, effect, settle_accepted taken]
    have rest := continued _ (congrArg Outcome.result records)
    rw [evaluate_bind, records]
    rw [records] at rest
    refine ⟨_, deleteStale_exact ?_ ?_ rest.2⟩
    · exact (candidates_nodup (getAllKeys_nodup w.db sessionId)).filter _
    · intro key
      exact (mem_stale_iff options (oracle 1).dateNow w.db sessionId key).trans
        (exists_congr fun record => and_congr_right fun _ => old_iff_due options _ key record)

/-- An undisturbed pass removes the due rows, no others, and says which they were. -/
theorem pruneExpiredKeys_exact (settings : Settings) (self : Instance) (sessionId : String)
    (options : KeyRetentionOptions) (oracle : Oracle Choice) (w : Cluster Instance)
    (accepted : Along (effect settings self) AdapterAccepts
      (pruneExpiredKeys settings.redis sessionId options) oracle w) :
    let outcome := evaluate (effect settings self)
      (pruneExpiredKeys settings.redis sessionId options) oracle w
    -- The third call of a pass reads the clock.
    let now := (oracle 2).dateNow
    (options.enabled = false → outcome.result = .ok [] ∧ outcome.world = w) ∧
      (options.enabled = true → ∃ prunedKeys, outcome.result = .ok prunedKeys ∧
        prunedKeys.Nodup ∧
        (∀ key, key ∈ prunedKeys ↔
          ∃ record, w.db.get sessionId key = some record ∧ Due options now key record) ∧
        w.db.Removes sessionId prunedKeys outcome.world.db ∧
        (settings.redis = none → ∀ key ∈ prunedKeys, ∀ reading : Oracle Choice,
          Along (effect settings self) AdapterAccepts (get settings.redis sessionId key) reading
            outcome.world →
          (evaluate (effect settings self) (get settings.redis sessionId key) reading
            outcome.world).result = .ok none)) := by
  intro outcome now
  constructor
  · intro disabled
    have skipped : pruneExpiredKeys settings.redis sessionId options = pure [] := by
      rw [pruneExpiredKeys, disabled]
      rfl
    simp only [outcome, skipped]
    exact ⟨rfl, rfl⟩
  · intro enabled
    simp only [outcome]
    rw [pruneExpiredKeys, if_pos enabled] at accepted ⊢
    obtain ⟨listing, continued⟩ := (along_bind _ _ _ _ _ _).mp accepted
    have taken : (oracle 0).rejection = none := listing.1
    have allKeys : evaluate (effect settings self) (adapterGetAllKeys sessionId) oracle w =
        ⟨.ok (w.db.getAllKeys sessionId), w, oracle.later⟩ := by
      simp only [adapterGetAllKeys, evaluate, effect, settle_accepted taken]
    have rest := continued _ (congrArg Outcome.result allKeys)
    rw [evaluate_bind, allKeys]
    rw [allKeys] at rest
    obtain ⟨prunedKeys, returned, pruned⟩ := pruneCandidates_exact rest
    refine ⟨prunedKeys, returned, pruned.nodup, pruned.due, pruned.removes, ?_⟩
    intro alone key inside reading reads
    have gone := pruned.removes sessionId key
    rw [if_pos ⟨rfl, inside⟩] at gone
    exact get_forgotten alone (pruned.forgotten key inside) gone reads

section Runs

def agedSettings : Settings where
  memory := ⟨none, none, none⟩
  redis := none
  versioning := fun version => version.getD 0 + 1

def memoriesExpire : KeyRetentionOptions where
  enabled := true
  maxAgeMsByCategory := fun category => if category = .senderKeyMemory then some 1000 else none

def agedDatabase : Database :=
  (Database.empty.setMany agedSettings.versioning 0 "bot"
    [⟨"sender-key-memory-a", "1"⟩, ⟨"sender-key-a", "2"⟩, ⟨"creds", "3"⟩])

-- The row is due at the very millisecond at which it reaches its age.
theorem pruneExpiredKeys_exact_boundary :
    let outcome := evaluate (effect agedSettings ())
      (pruneExpiredKeys agedSettings.redis "bot" memoriesExpire) (fun _ => ⟨1000, none⟩)
      (Cluster.initial agedSettings agedDatabase)
    outcome.result = .ok ["sender-key-memory-a"] ∧ outcome.world.db.get "bot" "sender-key-a" =
      agedDatabase.get "bot" "sender-key-a" := by
  obtain ⟨prunedKeys, returned, -, -, removes, -⟩ := (pruneExpiredKeys_exact agedSettings () "bot"
    memoriesExpire (fun _ => ⟨1000, none⟩) (Cluster.initial agedSettings agedDatabase)
    (by exact ⟨rfl, rfl, trivial, rfl, trivial, trivial⟩)).2 rfl
  refine ⟨by decide, ?_⟩
  have same := (show _ = Except.ok ["sender-key-memory-a"] by decide).symm.trans returned
  cases same
  exact removes "bot" "sender-key-a"

end Runs

end Retention

end BaileysSession
