import BaileysSession.Adapter.FirebaseEnumeration
import BaileysSession.Retention.Categories
import BaileysSession.Retention.PruneEffects

set_option autoImplicit false

namespace BaileysSession.FirebaseRealtime

open Async CacheManager Retention

section Categories

theorem isPrefixOf_escaped {start : List Char} (ordinary : ∀ char ∈ start, char ≠ '~') :
    (∀ char ∈ start, char ∉ reserved) → ∀ text : List Char,
      start.isPrefixOf (text.flatMap escapeChar) = start.isPrefixOf text := by
  induction start with
  | nil => exact fun _ _ => by simp
  | cons first rest ih =>
    intro plain text
    have later := ih (fun char inside => ordinary char (List.mem_cons_of_mem first inside))
      fun char inside => plain char (List.mem_cons_of_mem first inside)
    cases text with
    | nil => rfl
    | cons char more =>
      rw [List.flatMap_cons]
      by_cases special : char ∈ reserved
      · obtain ⟨_, _, shape⟩ := escapeChar_special special
        have tilde : first ≠ '~' := ordinary first List.mem_cons_self
        have other : first ≠ char := fun same => plain first List.mem_cons_self (same ▸ special)
        simp only [shape, List.cons_append, List.isPrefixOf, beq_eq_false_iff_ne.mpr tilde,
          beq_eq_false_iff_ne.mpr other, Bool.false_and]
      · rw [escapeChar_plain special]
        simp [List.isPrefixOf, later]

theorem startsWith_escaped {start : String} (plain : Plain start) (ordinary : '~' ∉ start.toList)
    (text : String) :
    Text.startsWith (escapeSegment text) start = Text.startsWith text start := by
  rw [Text.startsWith, escapeSegment, String.toList_ofList, isPrefixOf_escaped _ plain]
  · rfl
  · rintro char inside rfl
    exact ordinary inside

theorem escaped_eq_iff {name : String} (plain : Plain name) (ordinary : '~' ∉ name.toList)
    (text : String) : escapeSegment text = name ↔ text = name := by
  constructor
  · rintro rfl
    by_cases special : Plain text
    · exact (escapeSegment_plain special).symm
    · exact absurd (tilde_of_escaped special) ordinary
  · rintro rfl
    exact escapeSegment_plain plain

theorem resolveCategory_escaped (key : String) :
    resolveCategory (escapeSegment key) = resolveCategory key := by
  have creds := @escaped_eq_iff credsKey (by decide) (by decide) key
  have matching : ∀ category : Category,
      (decide (escapeSegment key = category.name) ||
        Text.startsWith (escapeSegment key) (category.name ++ "-")) =
      (decide (key = category.name) || Text.startsWith key (category.name ++ "-")) := by
    intro category
    have named : Plain category.name ∧ '~' ∉ category.name.toList := by
      cases category <;> decide
    have started : Plain (category.name ++ "-") ∧ '~' ∉ (category.name ++ "-").toList := by
      cases category <;> decide
    rw [startsWith_escaped started.1 started.2, decide_eq_decide.mpr (escaped_eq_iff named.1 named.2 key)]
  unfold resolveCategory
  simp only [creds, matching]

end Categories

section Caches

structure World (Instance : Type) where
  tree : Tree
  w : Cluster Instance

variable {Instance : Type} [DecidableEq Instance]

def realtime (settings : Settings) (self : Instance) : Effect Reply Choice (World Instance)
  | .dbGet sessionId key, choice, world => (choice.answer (get world.tree sessionId key), world)
  | .dbGetMany sessionId keys, choice, world =>
    (choice.answer (getMany world.tree sessionId keys), world)
  | .dbSetMany sessionId entries, choice, world => (choice.answer (), { world with
      tree := setMany world.tree choice.dateNow sessionId
        (entries.filter fun entry => choice.applies entry.key) })
  | .dbDeleteMany sessionId keys, choice, world => (choice.answer (), { world with
      tree := deleteMany world.tree sessionId (keys.filter choice.applies) })
  | .dbDeleteSession sessionId, choice, world => (choice.answer (), { world with
      tree := if choice.rejection.isNone then deleteSession world.tree sessionId else world.tree })
  | .dbGetAllKeys sessionId, choice, world =>
    (choice.answer (getAllKeys world.tree sessionId), world)
  | call, choice, world =>
    let (reply, w) := effect settings self call choice world.w
    (reply, { world with w := w })

def Accepting (_ : World Instance) (_ : Call) (choice : Choice) : Prop := choice.rejection = none

variable {settings : Settings} {self : Instance} {sessionId : String}

/-- These names are in neither cache any more; all else is as before. -/
structure Dropped (settings : Settings) (process : Instance) (names : List String)
    (before after : World Instance) : Prop where
  tree : after.tree = before.tree
  l1 : ∀ name, (after.w.l1 process).peek name =
    if name ∈ names then none else (before.w.l1 process).peek name
  l2 : settings.redis ≠ none → ∀ name, after.w.l2.get? name =
    if name ∈ names then none else before.w.l2.get? name

omit [DecidableEq Instance] in
theorem dropped_nothing (world : World Instance) : Dropped settings self [] world world :=
  ⟨rfl, fun _ => by simp, fun _ _ => by simp⟩

omit [DecidableEq Instance] in
theorem Dropped.then {first rest : List String} {before between after : World Instance}
    (left : Dropped settings self first before between)
    (right : Dropped settings self rest between after) :
    Dropped settings self (first ++ rest) before after := by
  refine ⟨right.tree.trans left.tree, fun name => ?_, fun redis name => ?_⟩
  · rw [right.l1, left.l1]
    by_cases one : name ∈ first <;> by_cases other : name ∈ rest <;> simp [one, other]
  · rw [right.l2 redis, left.l2 redis]
    by_cases one : name ∈ first <;> by_cases other : name ∈ rest <;> simp [one, other]

theorem publish_drops (world : World Instance) (name : String) :
    Triple (realtime settings self) Accepting (· = world) (publish settings.redis name)
      (Returns fun _ after => Dropped settings self [] world after) := by
  have nothing : ∀ inbox, Dropped settings self [] world
      { world with w := { world.w with inbox := inbox } } :=
    fun _ => ⟨rfl, fun _ => by simp, fun _ _ => by simp⟩
  unfold publish
  split
  · constructor
    rintro oracle _ rfl ⟨accepted, -⟩
    simp only [tryCatch, publishInvalidation, recover, evaluate, realtime, effect,
      settle_accepted accepted]
    exact nothing _
  · exact triple_done fun _ same => same ▸ nothing world.w.inbox

theorem deleteL2_drops {before world : World Instance} {name : String}
    (l1 : world.w = before.w.withL1 self ((before.w.l1 self).delete name))
    (tree : world.tree = before.tree) :
    Triple (realtime settings self) Accepting (· = world) (deleteL2 settings.redis name)
      (Returns fun _ after => Dropped settings self [name] before after) := by
  have gone : ∀ other, (world.w.l1 self).peek other =
      if other ∈ [name] then none else (before.w.l1 self).peek other := by
    intro other
    simp [l1, withL1_l1]
  unfold deleteL2
  split
  · rename_i none
    exact triple_done fun _ same => same ▸ ⟨tree, gone, fun redis => absurd none redis⟩
  · constructor
    rintro oracle _ rfl ⟨accepted, -⟩
    simp only [tryCatch, l2Del, recover, evaluate, realtime, effect,
      settle_accepted accepted, applies_accepted accepted, if_true]
    refine ⟨tree, gone, fun _ other => ?_⟩
    simp only [InsertionMap.get?_erase, l1, List.mem_singleton]
    rfl

theorem onDeleted_drops (world : World Instance) (key : String) :
    Triple (realtime settings self) Accepting (· = world) (onDeleted settings.redis sessionId key)
      (Returns fun _ after => Dropped settings self [cacheKey sessionId key] world after) := by
  have deleting : Triple (realtime settings self) Accepting (· = world)
      (l1Delete (cacheKey sessionId key)) (Returns fun _ after => after = { world with
        w := world.w.withL1 self ((world.w.l1 self).delete (cacheKey sessionId key)) }) := by
    constructor
    rintro oracle _ rfl -
    rfl
  have removing : Triple (realtime settings self) Accepting (· = { world with
        w := world.w.withL1 self ((world.w.l1 self).delete (cacheKey sessionId key)) })
      (deleteL2 settings.redis (cacheKey sessionId key))
      (Returns fun _ after => Dropped settings self [cacheKey sessionId key] world after) :=
    deleteL2_drops rfl rfl
  apply triple_then deleting
  intro _
  apply triple_then removing
  intro _
  apply triple_from
  intro between dropped
  apply triple_consequence (publish_drops between _) fun _ same => same
  exact fun _ _ after => dropped.then after

theorem onDeletedEach_drops (world : World Instance) (keys : List String) :
    Triple (realtime settings self) Accepting (· = world)
      (onDeletedEach settings.redis sessionId keys)
      (Returns fun _ after => Dropped settings self (keys.map (cacheKey sessionId)) world after) := by
  induction keys generalizing world with
  | nil => exact triple_done fun _ same => same ▸ dropped_nothing world
  | cons key rest ih =>
    apply triple_then (onDeleted_drops world key)
    intro _
    apply triple_from
    intro between dropped
    apply triple_consequence (ih between) fun _ same => same
    exact fun _ _ after => dropped.then after

end Caches

section Passes

variable {tree : Tree} {rows : Rows} {sessionId : String} {options : KeyRetentionOptions} {now : Int}

def stale (options : KeyRetentionOptions) (now : Int) (tree : Tree) (sessionId : String) :
    List String :=
  staleKeys options now (candidates options (getAllKeys tree sessionId))
    (getMany tree sessionId (candidates options (getAllKeys tree sessionId)))

theorem get?_getMany (tree : Tree) (sessionId key : String) (keys : List String) :
    (getMany tree sessionId keys).get? key = if key ∈ keys then get tree sessionId key else none := by
  rw [getMany, InsertionMap.get?_gathered (get tree sessionId)]
  · simp
  · intro found key
    cases get tree sessionId key <;> rfl

theorem get_legal (session : Legal sessionId) {key : String} (legal : Legal key) :
    get tree sessionId key = tree.get? (place sessionId key) := by
  rw [get, segments_path session.1 legal.1]

theorem row_of_get (mirrors : Mirrors tree rows) (session : Legal sessionId) {key : String}
    (legal : Legal key) {record : SessionRecord} (found : get tree sessionId key = some record) :
    rows (sessionId, key) ≠ none := by
  rw [get_legal session legal] at found
  rw [← mirrors.values sessionId key session legal, found]
  exact Option.some_ne_none _

theorem old_escaped_iff (key : String) (record : SessionRecord) :
    Old options (escapeSegment key) now record ↔ Old options key now record := by
  rw [Old, Old, maxAgeMs, maxAgeMs, resolveCategory_escaped]

theorem mem_stale (mirrors : Mirrors tree rows) (session : Legal sessionId) (name : String) :
    name ∈ stale options now tree sessionId ↔ ∃ key record, Legal key ∧
      get tree sessionId key = some record ∧ Old options key now record ∧
        name = escapeSegment key := by
  rw [stale, staleKeys, List.mem_filter, isStale_iff, get?_getMany]
  constructor
  · rintro ⟨candidate, record, found, old⟩
    rw [if_pos candidate] at found
    obtain ⟨key, present, rfl⟩ :=
      (mirrors.mem_getAllKeys session name).mp (List.mem_filter.mp candidate).1
    have legal := (mirrors.legal sessionId key present).2
    rw [get_escaped session.1 legal.1, ← get_legal session legal] at found
    exact ⟨key, record, legal, found, (old_escaped_iff key record).mp old, rfl⟩
  · rintro ⟨key, record, legal, found, old, rfl⟩
    have present := row_of_get mirrors session legal found
    rw [get_legal session legal] at found
    have escaped := (old_escaped_iff key record).mpr old
    have candidate := escaped.candidate ((mirrors.mem_getAllKeys session _).mpr ⟨key, present, rfl⟩)
    exact ⟨candidate, record, by rw [if_pos candidate, get_escaped session.1 legal.1, found], escaped⟩

theorem get_deleteListed (session : Legal sessionId) {key : String} (legal : Legal key)
    (names : List String) (listed : ∀ name ∈ names, ∃ other, Legal other ∧ name = escapeSegment other)
    (tree : Tree) :
    get (deleteMany tree sessionId names) sessionId key =
      if escapeSegment key ∈ names then none else get tree sessionId key := by
  induction names generalizing tree with
  | nil => simp [deleteMany]
  | cons name rest ih =>
    obtain ⟨other, otherLegal, rfl⟩ := listed name List.mem_cons_self
    have later := ih (fun name inside => listed name (List.mem_cons_of_mem _ inside))
      (remove tree (segments (path sessionId (some (escapeSegment other)))))
    rw [deleteMany] at later
    rw [deleteMany, List.foldl_cons, later, get_legal session legal, get?_remove,
      segments_path session.1 (escapeSegment_nonempty otherLegal.1)]
    have same : place sessionId (escapeSegment other) = place sessionId other := by
      rw [place, place, escapeSegment_twice]
    have below := under_place_iff session otherLegal session legal
    rw [same, get_legal session legal]
    by_cases here : other = key
    · rw [if_pos (below.mpr ⟨rfl, here⟩), here]
      simp
    · have apart : escapeSegment key ≠ escapeSegment other := fun escaped =>
        here (escapeSegment_injective otherLegal legal escaped.symm)
      rw [if_neg fun inside => here (below.mp inside).2]
      simp [apart]

variable {Instance : Type} [DecidableEq Instance] {settings : Settings} {self : Instance}
  {oracle : Oracle Choice}

theorem deleteStale_drops (names : List String)
    (accepted : ∀ index, (oracle index).rejection = none) (world : World Instance) :
    Dropped settings self (names.map (cacheKey sessionId))
      { world with tree := deleteMany world.tree sessionId names }
      (evaluate (realtime settings self) (deleteStale settings.redis sessionId names) oracle
        world).world := by
  unfold deleteStale
  split
  · rename_i empty
    rw [List.length_eq_zero_iff.mp empty]
    exact dropped_nothing world
  · rw [evaluate_bind]
    simp only [adapterDeleteMany, evaluate, realtime, settle_accepted (accepted 0),
      applies_accepted (accepted 0), List.filter_true]
    have along : Along (realtime settings self) Accepting
        (onDeletedEach settings.redis sessionId names) oracle.later
        { world with tree := deleteMany world.tree sessionId names } :=
      Along.of_oracle _ _ _ fun index => accepted (index + 1)
    obtain ⟨_, returned, dropped⟩ := triple_returns
      (onDeletedEach_drops { world with tree := deleteMany world.tree sessionId names } names) rfl along
    rw [evaluate_bind]
    revert returned dropped
    generalize evaluate (realtime settings self) (onDeletedEach settings.redis sessionId names)
      oracle.later { world with tree := deleteMany world.tree sessionId names } = outcome
    obtain ⟨result, after, rest⟩ := outcome
    rintro rfl dropped
    exact dropped

theorem prune_drops (enabled : options.enabled = true)
    (accepted : ∀ index, (oracle index).rejection = none)
    (clock : ∀ index, (oracle index).dateNow = now) (w : Cluster Instance) :
    Dropped settings self ((stale options now tree sessionId).map (cacheKey sessionId))
      ⟨deleteMany tree sessionId (stale options now tree sessionId), w⟩
      (evaluate (realtime settings self) (pruneExpiredKeys settings.redis sessionId options) oracle
        ⟨tree, w⟩).world := by
  rw [pruneExpiredKeys, if_pos enabled, evaluate_bind]
  simp only [adapterGetAllKeys, evaluate, realtime, settle_accepted (accepted 0)]
  unfold pruneCandidates
  split
  · rename_i empty
    have nothing : stale options now tree sessionId = [] := by
      rw [stale, List.length_eq_zero_iff.mp empty]
      rfl
    rw [nothing]
    exact dropped_nothing _
  · rw [evaluate_bind]
    simp only [adapterGetMany, evaluate, realtime, Oracle.later, settle_accepted (accepted 1)]
    have judged := @deleteStale_drops sessionId _ _ settings self oracle.later.later.later
      (stale options now tree sessionId) (fun index => accepted (index + 3)) ⟨tree, w⟩
    rw [stale, ← clock 2] at judged ⊢
    exact judged

end Passes

section Invalidation

variable {tree : Tree} {rows : Rows} {sessionId : String} {options : KeyRetentionOptions} {now : Int}

structure Invalidates {Instance : Type} (settings : Settings) (process : Instance)
    (rows : Rows) (sessionId : String) (before after : World Instance) : Prop where
  deleted : ∀ key, rows (sessionId, key) ≠ none → get after.tree sessionId key = none →
    (after.w.l1 process).peek (cacheKey sessionId key) = none ∧
      (settings.redis ≠ none → after.w.l2.get? (cacheKey sessionId key) = none)
  others : ∀ name, (∀ key, rows (sessionId, key) ≠ none → get after.tree sessionId key = none →
      name ≠ cacheKey sessionId key) →
    (after.w.l1 process).peek name = (before.w.l1 process).peek name ∧
      (settings.redis ≠ none → after.w.l2.get? name = before.w.l2.get? name)

/-- Whatever the caches hold, a pass at this time invalidates exactly what it deletes. -/
def PruneInvalidates (tree : Tree) (rows : Rows) (sessionId : String)
    (options : KeyRetentionOptions) (now : Int) : Prop :=
  ∀ (Instance : Type) [DecidableEq Instance] (settings : Settings) (self : Instance)
    (w : Cluster Instance) (oracle : Oracle Choice), (∀ index, (oracle index).rejection = none) →
      (∀ index, (oracle index).dateNow = now) →
        Invalidates settings self rows sessionId ⟨tree, w⟩
          (evaluate (realtime settings self) (pruneExpiredKeys settings.redis sessionId options)
            oracle ⟨tree, w⟩).world

theorem get_none_iff (mirrors : Mirrors tree rows) (session : Legal sessionId) {key : String}
    (present : rows (sessionId, key) ≠ none) :
    get (deleteMany tree sessionId (stale options now tree sessionId)) sessionId key = none ↔
      escapeSegment key ∈ stale options now tree sessionId := by
  have legal := (mirrors.legal sessionId key present).2
  have listed : ∀ name ∈ stale options now tree sessionId,
      ∃ other, Legal other ∧ name = escapeSegment other := by
    intro name inside
    obtain ⟨other, _, otherLegal, -, -, same⟩ := (mem_stale mirrors session name).mp inside
    exact ⟨other, otherLegal, same⟩
  have stored := mirrors.stored present
  rw [← get_legal session legal] at stored
  rw [get_deleteListed session legal _ listed]
  by_cases inside : escapeSegment key ∈ stale options now tree sessionId <;> simp [inside, stored]

theorem cacheKey_injective {key name : String} (same : cacheKey sessionId key = cacheKey sessionId name) :
    key = name :=
  (only_owns sessionId name sessionId key rfl same).2

def caching (sessionId key : String) : Cluster Unit :=
  (Cluster.initial ⟨⟨none, none, none⟩, none, fun _ => 0⟩ .empty).withL1 ()
    { MemoryCache.new ⟨none, none, none⟩ with
      store := InsertionMap.empty.set (cacheKey sessionId key) ⟨"", 0, 0, 0⟩ }

theorem plain_of_listed (mirrors : Mirrors tree rows) (session : Legal sessionId) {key : String}
    (legal : Legal key)
    (listed : cacheKey sessionId key ∈
      (stale options now tree sessionId).map (cacheKey sessionId)) : Plain key := by
  obtain ⟨name, judged, same⟩ := List.mem_map.mp listed
  obtain ⟨other, _, otherLegal, -, -, rfl⟩ := (mem_stale mirrors session name).mp judged
  have escaped := cacheKey_injective same
  have plain := plain_of_legal_escaped (escaped ▸ legal)
  rw [← escaped, escapeSegment_plain plain]
  exact plain

theorem mem_listed (mirrors : Mirrors tree rows) (session : Legal sessionId)
    (plain : ∀ key record, Legal key → get tree sessionId key = some record →
      Old options key now record → Plain key) (name : String) :
    name ∈ (stale options now tree sessionId).map (cacheKey sessionId) ↔
      ∃ key, rows (sessionId, key) ≠ none ∧
        get (deleteMany tree sessionId (stale options now tree sessionId)) sessionId key = none ∧
          name = cacheKey sessionId key := by
  constructor
  · intro inside
    obtain ⟨listed, judged, rfl⟩ := List.mem_map.mp inside
    obtain ⟨key, record, legal, found, old, rfl⟩ := (mem_stale mirrors session listed).mp judged
    have present := row_of_get mirrors session legal found
    refine ⟨key, present, (get_none_iff mirrors session present).mpr judged, ?_⟩
    rw [escapeSegment_plain (plain key record legal found old)]
  · rintro ⟨key, present, gone, rfl⟩
    have judged := (get_none_iff mirrors session present).mp gone
    obtain ⟨other, record, otherLegal, found, old, same⟩ := (mem_stale mirrors session _).mp judged
    obtain rfl := escapeSegment_injective (mirrors.legal sessionId key present).2 otherLegal same
    rw [escapeSegment_plain (plain key record otherLegal found old)] at judged
    exact List.mem_map_of_mem judged

theorem Dropped.invalidates {Instance : Type} {settings : Settings} {self : Instance}
    {names : List String} {w : Cluster Instance} {after : World Instance}
    (dropped : Dropped settings self names
      ⟨deleteMany tree sessionId (stale options now tree sessionId), w⟩ after)
    (listed : ∀ name, name ∈ names ↔ ∃ key, rows (sessionId, key) ≠ none ∧
      get (deleteMany tree sessionId (stale options now tree sessionId)) sessionId key = none ∧
        name = cacheKey sessionId key) :
    Invalidates settings self rows sessionId ⟨tree, w⟩ after := by
  constructor
  · intro key present gone
    rw [dropped.tree] at gone
    have inside := (listed _).mpr ⟨key, present, gone, rfl⟩
    exact ⟨by rw [dropped.l1, if_pos inside], fun redis => by rw [dropped.l2 redis, if_pos inside]⟩
  · intro name apart
    have outside : name ∉ names := by
      intro inside
      obtain ⟨key, present, gone, same⟩ := (listed name).mp inside
      exact apart key present (by rw [dropped.tree]; exact gone) same
    exact ⟨by rw [dropped.l1, if_neg outside], fun redis => by rw [dropped.l2 redis, if_neg outside]⟩

theorem invalidates_untouched {Instance : Type} {settings : Settings} {self : Instance}
    (mirrors : Mirrors tree rows) (w : Cluster Instance) :
    Invalidates settings self rows sessionId ⟨tree, w⟩ ⟨tree, w⟩ := by
  refine ⟨fun key present gone => ?_, fun _ _ => ⟨rfl, fun _ => rfl⟩⟩
  obtain ⟨session, legal⟩ := mirrors.legal sessionId key present
  rw [get_legal session legal] at gone
  exact absurd gone (mirrors.stored present)

theorem prune_invalidates_iff (mirrors : Mirrors tree rows) (session : Legal sessionId) :
    PruneInvalidates tree rows sessionId options now ↔ (options.enabled = true →
      ∀ key record, Legal key → get tree sessionId key = some record →
        Old options key now record → Plain key) := by
  constructor
  · intro right enabled key record legal found old
    have judged := (mem_stale mirrors session (escapeSegment key)).mpr
      ⟨key, record, legal, found, old, rfl⟩
    have present := row_of_get mirrors session legal found
    let settings : Settings := ⟨⟨none, none, none⟩, none, fun _ => 0⟩
    have dropped := @prune_drops tree sessionId options now Unit _ settings () (fun _ => ⟨now, none⟩)
      enabled (fun _ => rfl) (fun _ => rfl) (caching sessionId key)
    have invalidates := right Unit settings () (caching sessionId key) (fun _ => ⟨now, none⟩)
      (fun _ => rfl) fun _ => rfl
    have gone := (invalidates.deleted key present (by
      rw [dropped.tree]
      exact (get_none_iff mirrors session present).mpr judged)).1
    have held : ((caching sessionId key).l1 ()).peek (cacheKey sessionId key) = some ⟨"", 0⟩ := by
      simp [caching, withL1_l1, MemoryCache.peek]
    rw [dropped.l1, held] at gone
    split at gone
    · rename_i listed
      exact plain_of_listed mirrors session legal listed
    · cases gone
  · intro plain Instance _ settings self w oracle accepted clock
    by_cases enabled : options.enabled = true
    · exact (prune_drops enabled accepted clock w).invalidates
        (mem_listed mirrors session (plain enabled))
    · have same : evaluate (realtime settings self)
          (pruneExpiredKeys settings.redis sessionId options) oracle ⟨tree, w⟩ =
            ⟨.ok [], ⟨tree, w⟩, oracle⟩ := by
        rw [pruneExpiredKeys, if_neg enabled]
        rfl
      rw [same]
      exact invalidates_untouched mirrors w

end Invalidation

structure Enumerates (tree : Tree) (rows : Rows) : Prop where
  keys : ∀ sessionId, Legal sessionId → ListsKeys tree rows sessionId
  sessions : ListsSessions tree rows
  restores : ∀ sessionId, Legal sessionId → Restores tree rows sessionId
  prunes : ∀ sessionId options now, Legal sessionId →
    PruneInvalidates tree rows sessionId options now

/-- That is so exactly as long as nothing stored had to be escaped (or goes by a name that an
object cannot have). -/
theorem enumerates_iff (operations : List Operation)
    (supported : ∀ operation ∈ operations, operation.Supported) :
    Enumerates (run operations) (runRows operations) ↔
      ∀ sessionId key, runRows operations (sessionId, key) ≠ none →
        Plain sessionId ∧ Plain key ∧ key ≠ "__proto__" := by
  have mirrors := run_mirrors supported
  constructor
  · intro enumerates sessionId key present
    have session := (mirrors.legal sessionId key present).1
    exact ⟨(lists_sessions_iff mirrors).mp enumerates.sessions sessionId key present,
      (restores_iff mirrors session).mp (enumerates.restores sessionId session) key present⟩
  · intro plain
    constructor
    · intro sessionId session
      exact (lists_keys_iff mirrors session).mpr fun key present =>
        (plain sessionId key present).2.1
    · exact (lists_sessions_iff mirrors).mpr fun sessionId key present =>
        (plain sessionId key present).1
    · intro sessionId session
      exact (restores_iff mirrors session).mpr fun key present => (plain sessionId key present).2
    · intro sessionId options now session
      refine (prune_invalidates_iff mirrors session).mpr fun _ key record legal found _ => ?_
      exact (plain sessionId key (row_of_get mirrors session legal found)).2.1

def credsOperations : List Operation := [.setMany "bot" [⟨"creds", "1"⟩] 0]

theorem enumerates_creds : Enumerates (run credsOperations) (runRows credsOperations) := by
  refine (enumerates_iff credsOperations ?_).mpr ?_
  · intro operation inside
    rw [List.mem_singleton.mp inside]
    refine ⟨by decide, fun entry single => ?_⟩
    rw [List.mem_singleton.mp single]
    decide
  · intro sessionId key present
    have stored : (sessionId, key) = ("bot", "creds") := by
      by_contra other
      refine present ?_
      simp [runRows, credsOperations, Operation.asked, Overlay.putAll, Overlay.put,
        Function.update_of_ne other]
    cases stored
    decide

def addressOperations : List Operation := [.setMany "bot" [⟨"session-1.0", "1"⟩] 0]

theorem escaped_names_listed :
    runRows addressOperations ("bot", "session-1.0") = some "1" ∧
      getAllKeys (run addressOperations) "bot" = ["session-1~46~0"] ∧
      (exportSessionToObject (run addressOperations) "bot").entries = [("session-1~46~0", "1")] := by
  decide +kernel

end BaileysSession.FirebaseRealtime
