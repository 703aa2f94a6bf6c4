import BaileysSession.Cache.InterleavingSections

set_option autoImplicit false

namespace BaileysSession.Interleaving

open Async CacheManager KeysSet

variable {Instance : Type} [DecidableEq Instance] {settings : Settings} {p : Pool Instance}

/-- One TCP Redis, or none and a single instance. -/
def Linked (settings : Settings) (Instance : Type) : Prop :=
  settings.redis = some .tcp ∨ (settings.redis = none ∧ Subsingleton Instance)

section Announcing

variable {self : Instance} {sessionId : String}

theorem drain_onWritten (redis : Option RedisMode) (key value : String) (oracle : Oracle Choice)
    (w : Cluster Instance) :
    ∃ later, drain (effect settings self) CacheManager.Call.synchronous (do
        let version ← dateNow
        onWritten redis sessionId key value version) oracle w =
      ⟨announceWritten redis (cacheKey sessionId key) value (oracle 0).dateNow,
        w.withL1 self ((w.l1 self).set (oracle 1).dateNow (cacheKey sessionId key) value
          (oracle 0).dateNow), later⟩ := by
  rcases redis with _ | _ | _
  · exact ⟨_, rfl⟩
  · exact ⟨_, rfl⟩
  · exact ⟨_, rfl⟩

theorem drain_onDeleted (redis : Option RedisMode) (key : String) (oracle : Oracle Choice)
    (w : Cluster Instance) :
    ∃ later, drain (effect settings self) CacheManager.Call.synchronous
        (onDeleted redis sessionId key) oracle w =
      ⟨announceDeleted redis (cacheKey sessionId key),
        w.withL1 self ((w.l1 self).delete (cacheKey sessionId key)), later⟩ := by
  rcases redis with _ | _ | _
  · exact ⟨_, rfl⟩
  · exact ⟨_, rfl⟩
  · exact ⟨_, rfl⟩

def updates : Section → List (String × Option String)
  | .upsert entries => entries.map fun entry => (entry.key, some entry.value)
  | .remove deletions => deletions.map fun key => (key, none)

def Announcing (redis : Option RedisMode) (sessionId : String) (update : String × Option String)
    (branch : Branch) : Prop :=
  branch.key = update.1 ∧
    match update.2 with
    | some value => ∃ version,
        branch.program = announceWritten redis (cacheKey sessionId update.1) value version
    | none => branch.program = announceDeleted redis (cacheKey sessionId update.1)

def Starts (settings : Settings) (self : Instance) (sessionId : String)
    (update : String × Option String) (branch : Branch) : Prop :=
  ∀ oracle w, ∃ rest cache later,
    drain (effect settings self) CacheManager.Call.synchronous branch.program oracle w =
      ⟨rest, w.withL1 self cache, later⟩ ∧
    Announcing settings.redis sessionId update ⟨branch.key, rest⟩ ∧
    Replaces (cacheKey sessionId update.1) update.2 (w.l1 self).peek cache.peek

theorem branches_start (settings : Settings) (self : Instance) (sessionId : String)
    (change : Section) :
    List.Forall₂ (Starts settings self sessionId) (updates change)
      (branches settings sessionId change) := by
  cases change with
  | upsert entries =>
    simp only [updates, branches, List.forall₂_map_left_iff, List.forall₂_map_right_iff,
      List.forall₂_same]
    intro entry _ oracle w
    obtain ⟨later, drained⟩ := drain_onWritten settings.redis entry.key
      entry.value oracle w
    exact ⟨_, _, later, drained, ⟨rfl, _, rfl⟩, replaces_l1Set _ _ _ entry.value _⟩
  | remove deletions =>
    simp only [updates, branches, List.forall₂_map_left_iff, List.forall₂_map_right_iff,
      List.forall₂_same]
    intro key _ oracle w
    obtain ⟨later, drained⟩ := drain_onDeleted settings.redis key oracle w
    exact ⟨_, _, later, drained, ⟨rfl, rfl⟩, replaces_l1Delete _ _⟩

theorem start_announcing {ups : List (String × Option String)} {bs : List Branch}
    (starts : List.Forall₂ (Starts settings self sessionId) ups bs) (oracle : Oracle Choice)
    (w : Cluster Instance) :
    (∀ branch ∈ (start settings self bs oracle w).1, ∃ update ∈ ups,
        Announcing settings.redis sessionId update branch) ∧
      ∀ update ∈ ups, ∃ branch ∈ (start settings self bs oracle w).1,
        Announcing settings.redis sessionId update branch := by
  induction starts generalizing oracle w with
  | nil => exact ⟨nofun, nofun⟩
  | cons first _ ih =>
    obtain ⟨rest, cache, later, drained, announcing, -⟩ := first oracle w
    rw [start, drained]
    obtain ⟨backward, forward⟩ := ih later (w.withL1 self cache)
    constructor
    · intro branch inside
      rcases List.mem_cons.mp inside with rfl | inside
      · exact ⟨_, List.mem_cons_self, announcing⟩
      · obtain ⟨update, known, same⟩ := backward branch inside
        exact ⟨update, List.mem_cons_of_mem _ known, same⟩
    · intro update inside
      rcases List.mem_cons.mp inside with rfl | inside
      · exact ⟨_, List.mem_cons_self, announcing⟩
      · obtain ⟨branch, known, same⟩ := forward update inside
        exact ⟨branch, List.mem_cons_of_mem _ known, same⟩

def Ends (current : String → Option String) : List (String × Option String) → Prop
  | [] => True
  | (key, value) :: rest =>
    (key ∉ rest.map Prod.fst → current key = value) ∧ Ends current rest

theorem updates_keys (change : Section) : (updates change).map Prod.fst = change.keys := by
  cases change <;> simp [updates, Section.keys, Function.comp_def]

theorem updates_end {current : String → Option String} {change : Section}
    (leaves : ∀ key ∈ change.keys, current key = change.leaves key) :
    Ends current (updates change) := by
  cases change with
  | upsert entries =>
    simp only [Section.keys, Section.leaves] at leaves
    simp only [updates]
    induction entries with
    | nil => trivial
    | cons entry rest ih =>
      rw [List.map_cons, Ends]
      constructor
      · intro last
        have fresh : entry.key ∉ rest.map Entry.key := by simpa [Function.comp_def] using last
        rw [leaves entry.key List.mem_cons_self, Database.written_last fresh]
      · apply ih
        intro key inside
        rw [leaves key (List.mem_cons_of_mem _ inside), Database.written_later inside]
  | remove deletions =>
    simp only [Section.keys, Section.leaves] at leaves
    simp only [updates]
    induction deletions with
    | nil => trivial
    | cons key rest ih =>
      exact ⟨fun _ => leaves key List.mem_cons_self,
        ih fun other inside => leaves other (List.mem_cons_of_mem key inside)⟩

theorem start_l1 (good : String → String → String → Prop) (plain : Plain sessionId)
    {current : String → Option String}
    (agrees : ∀ key value, current key = some value → good sessionId key value)
    {ups : List (String × Option String)} {bs : List Branch}
    (starts : List.Forall₂ (Starts settings self sessionId) ups bs) (ends : Ends current ups)
    (oracle : Oracle Choice) (w : Cluster Instance)
    (before : ∀ other key held, Plain other →
      (w.l1 self).peek (cacheKey other key) = some held →
        pendingKeys sessionId (ups.map Prod.fst) other key ∨ good other key held.value) :
    ∃ cache, (start settings self bs oracle w).2 = w.withL1 self cache ∧
      ∀ other key held, Plain other → cache.peek (cacheKey other key) = some held →
        good other key held.value := by
  induction starts generalizing oracle w with
  | nil =>
    refine ⟨w.l1 self, (withL1_self w self).symm, ?_⟩
    intro other key held otherPlain present
    exact (before other key held otherPlain present).resolve_left fun waiting => nomatch waiting.2
  | @cons update branch rest _ first _ ih =>
    obtain ⟨program, cache, later, drained, -, replaces⟩ := first oracle w
    rw [start, drained]
    obtain ⟨final, changed, right⟩ := ih ends.2 later (w.withL1 self cache) (by
      rw [withL1_l1, if_pos rfl]
      intro other key held otherPlain present
      rcases replaces _ held present with ⟨same, fits⟩ | ⟨apart, kept⟩
      · obtain ⟨rfl, rfl⟩ := plain_owns plain update.1 other key otherPlain same
        by_cases again : update.1 ∈ rest.map Prod.fst
        · exact .inl ⟨rfl, again⟩
        · exact .inr (agrees _ _ ((ends.1 again).trans fits))
      · rcases before other key held otherPlain kept with ⟨rfl, inside⟩ | known
        · rcases List.mem_cons.mp inside with rfl | inside
          · exact absurd rfl apart
          · exact .inl ⟨rfl, inside⟩
        · exact .inr known)
    exact ⟨final, changed.trans (withL1_withL1 w self cache final), right⟩

theorem updates_current {current : String → Option String} {change : Section}
    (leaves : ∀ key ∈ change.keys, current key = change.leaves key) (unique : change.keys.Nodup)
    {update : String × Option String} (inside : update ∈ updates change) :
    current update.1 = update.2 := by
  have named : update.1 ∈ change.keys := updates_keys change ▸ List.mem_map_of_mem inside
  rw [leaves update.1 named]
  cases change with
  | upsert entries =>
    obtain ⟨entry, stored, rfl⟩ := List.mem_map.mp inside
    exact Database.written_of_nodup unique stored
  | remove deletions =>
    obtain ⟨key, _, rfl⟩ := List.mem_map.mp inside
    rfl

theorem announcing_ahead {update : String × Option String} {branch : Branch}
    (announcing : Announcing (some .tcp) sessionId update branch) :
    ∃ call, branch.program.ahead success =
        [call, .publishInvalidation (cacheKey sessionId branch.key)] ∧
      ((∃ value version, update.2 = some value ∧
          call = .l2Set (cacheKey sessionId branch.key) value version) ∨
        call = .l2Del (cacheKey sessionId branch.key)) := by
  obtain ⟨key, value⟩ := update
  obtain ⟨named, left⟩ := announcing
  rw [named]
  cases value with
  | none =>
    have program : branch.program = announceDeleted (some .tcp) (cacheKey sessionId key) := left
    rw [program]
    exact ⟨_, rfl, .inr rfl⟩
  | some value =>
    obtain ⟨version, program⟩ := left
    rw [program]
    exact ⟨_, rfl, .inl ⟨value, version, rfl, rfl⟩⟩

theorem announcing_silent {update : String × Option String} {branch : Branch}
    (announcing : Announcing none sessionId update branch) :
    branch.program.ahead success = [] := by
  obtain ⟨key, value⟩ := update
  obtain ⟨-, left⟩ := announcing
  cases value with
  | none =>
    have program : branch.program = announceDeleted none (cacheKey sessionId key) := left
    rw [program]
    rfl
  | some value =>
    obtain ⟨version, program⟩ := left
    rw [program]
    rfl

theorem announcing_owes {update : String × Option String} {branch : Branch}
    (announcing : Announcing (some .tcp) sessionId update branch) :
    branch.Owes publishes ∧ branch.Owes updatesL2 := by
  obtain ⟨call, ahead, kind⟩ := announcing_ahead announcing
  constructor
  · refine ⟨.publishInvalidation (cacheKey sessionId branch.key), ?_, rfl⟩
    rw [ahead]
    exact List.mem_cons_of_mem _ List.mem_cons_self
  · refine ⟨call, ?_, ?_⟩
    · rw [ahead]
      exact List.mem_cons_self
    · rcases kind with ⟨value, version, -, rfl⟩ | rfl <;> rfl

omit [DecidableEq Instance] in
theorem announcing_announces (linked : Linked settings Instance) {db : Database}
    {change : Section}
    (leaves : ∀ key ∈ change.keys, db.value? sessionId key = change.leaves key)
    {update : String × Option String} (inside : update ∈ updates change) {branch : Branch}
    (announcing : Announcing settings.redis sessionId update branch) :
    ∀ call ∈ branch.program.ahead success, Announces db sessionId change branch.key call := by
  intro call ahead
  rcases linked with tcp | ⟨silent, -⟩
  · rw [tcp] at announcing
    obtain ⟨first, all, kind⟩ := announcing_ahead announcing
    rw [all, List.mem_cons, List.mem_singleton] at ahead
    rcases ahead with rfl | rfl
    · rcases kind with ⟨value, version, valued, rfl⟩ | rfl
      · refine ⟨rfl, fun unique => ?_⟩
        rw [announcing.1, updates_current leaves unique inside, valued]
      · exact rfl
    · exact rfl
  · rw [silent] at announcing
    rw [announcing_silent announcing] at ahead
    cases ahead

def Pool.Updated (p : Pool Instance) (self : Instance) (sessionId other key value : String) :
    Prop :=
  p.cluster.db.value? other key = some value ∨ cacheKey other key ∈ p.cluster.inbox self ∨
    (other ≠ sessionId ∧ p.Owes publishes other key)

omit [DecidableEq Instance] in
theorem Pool.Updated.moved {other key value : String}
    (updated : p.Updated self sessionId other key value) {held : Option (Held Instance)}
    {cluster : Cluster Instance} (rows : cluster.db = p.cluster.db)
    (inbox : cluster.inbox = p.cluster.inbox) :
    cluster.db.value? other key = some value ∨
      (p.moved cluster sessionId held).Telling self other key := by
  rcases updated with same | message | ⟨apart, owed⟩
  · exact .inl (rows ▸ same)
  · right; left
    have delivered : cacheKey other key ∈ cluster.inbox self := inbox ▸ message
    exact delivered
  · exact .inr (.inr ((moved_elsewhere apart).mpr owed))

theorem announce_sound {next : Pool Instance} (linked : Linked settings Instance)
    (sound : Sound settings p) {clock : Nat → Int}
    (taken : announce settings p sessionId clock = some next) : Sound settings next := by
  unfold announce at taken
  split at taken
  · rename_i self change found
    cases taken
    obtain ⟨plain, leaves⟩ := sound.stages sessionId _ found
    have starts := branches_start settings self sessionId change
    have before : ∀ other key held, Plain other →
        (p.cluster.l1 self).peek (cacheKey other key) = some held →
          pendingKeys sessionId ((updates change).map Prod.fst) other key ∨
            p.Updated self sessionId other key held.value := by
      intro other key held otherPlain present
      rcases sound.l1 self other key held otherPlain present with same | message | owed
      · exact .inr (.inl same)
      · exact .inr (.inr (.inl message))
      · by_cases mine : other = sessionId
        · subst mine
          left
          refine ⟨rfl, ?_⟩
          rw [updates_keys]
          exact (owes_here found).mp owed
        · exact .inr (.inr (.inr ⟨mine, owed⟩))
    obtain ⟨backward, forward⟩ := start_announcing starts (ticking clock) p.cluster
    obtain ⟨cache, changed, right⟩ := start_l1 (p.Updated self sessionId) plain
      (fun key value same => .inl same) starts (updates_end leaves) (ticking clock) p.cluster
      before
    generalize start settings self (branches settings sessionId change) (ticking clock)
      p.cluster = started at backward forward changed
    obtain ⟨started, cluster⟩ := started
    dsimp only at backward forward changed ⊢
    subst changed
    have confined : Local p sessionId (p.cluster.withL1 self cache) :=
      ⟨fun _ _ _ => rfl, fun _ _ message => message⟩
    -- With a Redis every key of the section is still announced.
    have owing : settings.redis = some .tcp → ∀ key ∈ change.keys,
        ∃ branch ∈ started, branch.key = key ∧ branch.Owes publishes ∧ branch.Owes updatesL2 := by
      intro tcp key inside
      rw [← updates_keys] at inside
      obtain ⟨update, known, rfl⟩ := List.mem_map.mp inside
      obtain ⟨branch, present, announcing⟩ := forward update known
      rw [tcp] at announcing
      exact ⟨branch, present, announcing.1, announcing_owes announcing⟩
    apply sound.moved confined
    · intro other
      rw [withL1_l1]
      split
      · rename_i same
        subst same
        intro session key held otherPlain present
        exact (right session key held otherPlain present).moved rfl rfl
      · rename_i apart
        apply (sound.l1 other).moved confined
        rintro key value (same | owed)
        · exact .inl same
        · rcases linked with tcp | ⟨-, single⟩
          · obtain ⟨branch, present, named, announced, -⟩ :=
              owing tcp key ((owes_here found).mp owed)
            exact .inr (.inr (moved_here.mpr ⟨_, rfl, branch, present, named, announced⟩))
          · exact absurd (Subsingleton.elim other self) apart
    · intro redis
      apply (sound.l2 redis).moved confined
      rintro key value (same | owed)
      · exact .inl same
      · rcases linked with tcp | ⟨silent, -⟩
        · obtain ⟨branch, present, named, -, due⟩ := owing tcp key ((owes_here found).mp owed)
          exact .inr (moved_here.mpr ⟨_, rfl, branch, present, named, due⟩)
        · exact absurd silent redis
    · rintro _ same
      cases same
      refine ⟨plain, ?_⟩
      intro branch inside
      obtain ⟨update, known, announcing⟩ := backward branch inside
      exact announcing_announces linked leaves known announcing
  · cases taken

end Announcing

end BaileysSession.Interleaving
