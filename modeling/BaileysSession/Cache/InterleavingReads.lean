import BaileysSession.Cache.Footprints
import BaileysSession.Cache.InterleavingInvariant

set_option autoImplicit false

namespace BaileysSession.Interleaving

open Async CacheManager KeysSet

variable {Instance : Type} [DecidableEq Instance] {settings : Settings} {p : Pool Instance}

section Reads

variable {self : Instance} {sessionId key : String}

theorem get_fetches (redis : Option RedisMode) (sessionId key : String) :
    (CacheManager.get redis sessionId key).Only (Fetches (cacheKey sessionId key)) :=
  get_only ⟨fun _ _ => rfl, rfl, rfl, fun _ _ => rfl, trivial⟩ rfl

theorem fetch_l1 {call : CacheManager.Call} (fetches : Fetches (cacheKey sessionId key) call)
    (immediate : call.synchronous = true) (choice : Choice) (w : Cluster Instance) :
    ∃ cache, (effect settings self call choice w).2 = w.withL1 self cache ∧
      ∀ name held, cache.peek name = some held →
        (name = cacheKey sessionId key ∧ stored call = some held.value) ∨
          (w.l1 self).peek name = some held := by
  cases call with
  | l1Get name =>
    refine ⟨_, rfl, ?_⟩
    intro other held present
    exact .inr (MemoryCache.get_shrinks _ choice.dateNow name other held present)
  | l1Set name value version =>
    refine ⟨_, rfl, ?_⟩
    intro other held present
    rcases MemoryCache.set_held present with ⟨same, rfl⟩ | ⟨-, before⟩
    · exact .inl ⟨same.trans fetches, rfl⟩
    · exact .inr before
  | l1Delete name =>
    refine ⟨_, rfl, ?_⟩
    intro other held present
    exact .inr (MemoryCache.delete_shrinks _ name other held present)
  | dateNow | l1DeleteByPrefix | l1Clear => exact False.elim fetches
  | _ => cases immediate

theorem fetch_remote {call : CacheManager.Call} (fetches : Fetches (cacheKey sessionId key) call)
    (remote : call.synchronous = false) (time : Int) (w : Cluster Instance) :
    ∃ l2, (effect settings self call (now time) w).2 = { w with l2 } ∧
      ∀ name held, l2.get? name = some held →
        (name = cacheKey sessionId key ∧ stored call = some held.value) ∨
          w.l2.get? name = some held := by
  cases call with
  | l2Set name value version =>
    refine ⟨_, rfl, ?_⟩
    intro other held present
    rcases replaces_l2Set w.l2 name value version other held present with ⟨same, fits⟩ | ⟨-, before⟩
    · exact .inl ⟨same.trans fetches, fits⟩
    · exact .inr before
  | l2Get | dbGet => exact ⟨w.l2, rfl, fun _ _ present => .inr present⟩
  | l2Del | publishInvalidation | dbGetMany | dbSetMany | dbDeleteMany | dbDeleteSession
  | dbGetAllKeys =>
    exact False.elim fetches
  | _ => cases remote

theorem Sound.withL1 (sound : Sound settings p) {cache : MemoryCache}
    (right : p.L1Right self cache) :
    Sound settings { p with cluster := p.cluster.withL1 self cache } := by
  refine ⟨?_, sound.l2, sound.stages, sound.reads⟩
  intro other
  rw [withL1_l1]
  split
  · rename_i same
    subst same
    exact right
  · exact sound.l1 other

omit [DecidableEq Instance] in
theorem Sound.withRead (sound : Sound settings p) (thread : Nat) {read : Option (Read Instance)}
    (fetching : ∀ started, read = some started → Plain started.sessionId ∧
      started.program.Only (Fetches (cacheKey started.sessionId started.key))) :
    Sound settings { p with reads := Function.update p.reads thread read } := by
  refine ⟨sound.l1, sound.l2, sound.stages, ?_⟩
  intro other started found
  dsimp only at found
  rw [Function.update_apply] at found
  split at found
  · exact fetching started found
  · exact sound.reads other started found

/-- Since its last `await` the read has changed its own L1 only, and rightly. -/
def Fetching (p : Pool Instance) (self : Instance) (sessionId key : String)
    (rest : Program (Option String)) (w : Cluster Instance) : Prop :=
  rest.Only (Fetches (cacheKey sessionId key)) ∧
    ∃ cache, w = p.cluster.withL1 self cache ∧ p.L1Right self cache

theorem Fetching.step {call : CacheManager.Call} {next : Reply call → Program (Option String)}
    {choice : Choice} {w : Cluster Instance} (plain : Plain sessionId)
    (immediate : call.synchronous = true)
    (backed : p.Backs (p.Telling self sessionId key) sessionId key call)
    (fetching : Fetching p self sessionId key (.await call next) w) :
    Fetching p self sessionId key (next (effect settings self call choice w).1)
      (effect settings self call choice w).2 := by
  obtain ⟨⟨allowed, later⟩, before, rfl, right⟩ := fetching
  refine ⟨later _, ?_⟩
  obtain ⟨cache, changed, gains⟩ := fetch_l1 allowed immediate choice
    (p.cluster.withL1 self before)
  refine ⟨cache, changed.trans (withL1_withL1 _ _ _ _), ?_⟩
  apply Accurate.gains right plain backed
  rw [withL1_l1, if_pos rfl] at gains
  exact gains

theorem drained_sound (sound : Sound settings p) (plain : Plain sessionId)
    {program : Program (Option String)} {oracle : Oracle Choice}
    (fetches : program.Only (Fetches (cacheKey sessionId key)))
    (drains : Drains (effect settings self) CacheManager.Call.synchronous
      (p.Backs (p.Telling self sessionId key) sessionId key) program oracle p.cluster)
    (thread : Nat) :
    Sound settings { p with
      cluster := (drain (effect settings self) CacheManager.Call.synchronous program oracle
        p.cluster).world
      reads := Function.update p.reads thread (inFlight ⟨self, sessionId, key,
        (drain (effect settings self) CacheManager.Call.synchronous program oracle
          p.cluster).program⟩) } := by
  obtain ⟨fetching, cache, changed, right⟩ := drain_invariant (Fetching p self sessionId key)
    (fun _ _ _ _ immediate backed before => before.step plain immediate backed) drains
    ⟨fetches, p.cluster.l1 self, (withL1_self p.cluster self).symm, sound.l1 self⟩
  rw [changed]
  apply (sound.withL1 right).withRead thread
  intro started found
  unfold inFlight at found
  split at found
  · cases found
  · cases found
    exact ⟨plain, fetching⟩

theorem get_start {redis : Option RedisMode} (versionless : redis ≠ some .http)
    (oracle : Oracle Choice) (w : Cluster Instance) :
    Drains (effect settings self) CacheManager.Call.synchronous (stored · = none)
      (CacheManager.get redis sessionId key) oracle w := by
  apply drains_await.mpr
  intro _
  refine ⟨rfl, ?_⟩
  generalize (effect settings self (.l1Get (cacheKey sessionId key)) (oracle 0) w).1 = l1Hit
  rcases redis with _ | _ | _
  · cases l1Hit with
    | none => exact drains_await.mpr nofun
    | some hit => exact True.intro
  · cases l1Hit with
    | none => exact drains_await.mpr nofun
    | some hit => exact True.intro
  · exact absurd rfl versionless

theorem call_sound {next : Pool Instance} (versionless : settings.redis ≠ some .http)
    (sound : Sound settings p) (plain : Plain sessionId) {thread : Nat} {clock : Nat → Int}
    (taken : call settings p thread self sessionId key clock = some next) :
    Sound settings next := by
  unfold call at taken
  split at taken
  · cases taken
  · cases taken
    apply drained_sound sound plain (get_fetches settings.redis sessionId key)
    apply (get_start versionless _ _).mono
    intro call nothing value stores
    rw [nothing] at stores
    cases stores

theorem resumeRead_sound {next : Pool Instance} (sound : Sound settings p) {thread : Nat}
    {clock : Nat → Int} (timely : Timely settings p (.resumeRead thread clock))
    (taken : resumeRead settings p thread clock = some next) : Sound settings next := by
  unfold resumeRead at taken
  split at taken
  · cases taken
  · rename_i read found
    split at taken
    · cases taken
    · cases taken
      obtain ⟨plain, fetches⟩ := sound.reads thread read found
      exact drained_sound sound plain fetches (timely read found) thread

theorem performRead_sound {next : Pool Instance} (sound : Sound settings p) {thread : Nat}
    {time : Int} (timely : Timely settings p (.performRead thread time))
    (taken : performRead settings p thread time = some next) : Sound settings next := by
  unfold performRead at taken
  split at taken
  · cases taken
  · rename_i read found
    split at taken
    · cases taken
    · cases taken
    · rename_i call rest program
      split at taken
      · cases taken
      · rename_i remote
        cases taken
        obtain ⟨plain, fetches⟩ := sound.reads thread read found
        rw [program] at fetches
        obtain ⟨l2, changed, gains⟩ := fetch_remote fetches.1 (Bool.eq_false_iff.mpr remote) time
          p.cluster
        have backed := timely read found call (by rw [program]; rfl)
        rw [changed]
        have written : Sound settings { p with cluster := { p.cluster with l2 } } :=
          ⟨sound.l1, fun redis => Accurate.gains (sound.l2 redis) plain backed gains,
            sound.stages, sound.reads⟩
        apply written.withRead thread
        intro _ same
        cases same
        exact ⟨plain, fetches.2 _⟩

end Reads

theorem deliver_sound (sound : Sound settings p) (subscriber : Instance) (compositeKey : String) :
    Sound settings { p with cluster := CacheManager.deliver p.cluster subscriber compositeKey } := by
  refine ⟨?_, sound.l2, sound.stages, sound.reads⟩
  intro self sessionId key held plain present
  by_cases here : self = subscriber
  · subst here
    simp only [CacheManager.deliver, withL1_l1, if_true, MemoryCache.peek_delete] at present
    split at present
    · cases present
    · rename_i apart
      rcases sound.l1 self sessionId key held plain present with same | message | owed
      · exact .inl same
      · right; left
        simp only [CacheManager.deliver, Function.update_self]
        exact (List.mem_erase_of_ne apart).mpr message
      · exact .inr (.inr owed)
  · simp only [CacheManager.deliver, withL1_l1, if_neg here] at present
    rcases sound.l1 self sessionId key held plain present with same | message | owed
    · exact .inl same
    · right; left
      simp only [CacheManager.deliver, Function.update_of_ne here]
      exact message
    · exact .inr (.inr owed)

theorem sweepExpired_sound (sound : Sound settings p) (self : Instance) (time : Int) :
    Sound settings { p with
      cluster := p.cluster.withL1 self ((p.cluster.l1 self).sweepExpired time) } := by
  apply sound.withL1
  intro sessionId key held plain present
  exact sound.l1 self sessionId key held plain
    (MemoryCache.sweepExpired_shrinks _ time _ held present)

end BaileysSession.Interleaving
