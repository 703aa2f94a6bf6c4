import BaileysSession.Cache.Coherence

set_option autoImplicit false

namespace BaileysSession.CacheManager

open Async MemoryCache

variable {Instance : Type} [DecidableEq Instance] {settings : Settings} {self : Instance}
  {sessionId key : String} {w : Cluster Instance} {oracle : Oracle Choice}

theorem evaluate_safeL2Get {mode : RedisMode} (redis : settings.redis = some mode)
    (compositeKey : String) (accepted : (oracle 0).rejection = none) :
    evaluate (effect settings self) (safeL2Get settings.redis compositeKey) oracle w =
      ⟨.ok (w.l2.get? compositeKey), w, oracle.later⟩ := by
  rw [redis]
  simp only [safeL2Get, tryCatch, l2Get, recover, evaluate, effect, settle_accepted accepted]

theorem readL2_result (redis : settings.redis ≠ none)
    (accepted : ∀ index, (oracle index).rejection = none) :
    (evaluate (effect settings self) (readL2 settings.redis sessionId key) oracle w).result =
      .ok (((w.l2.get? (cacheKey sessionId key)).map Versioned.value).or
        (w.db.value? sessionId key)) := by
  obtain ⟨mode, redis⟩ := Option.ne_none_iff_exists'.mp redis
  unfold readL2
  rw [evaluate_bind, evaluate_safeL2Get redis _ (accepted 0)]
  cases present : w.l2.get? (cacheKey sessionId key) with
  | some held => rfl
  | none =>
    dsimp only
    unfold readDatabase
    rw [evaluate_bind]
    simp only [adapterGet, evaluate, effect, Oracle.later, settle_accepted (accepted 1)]
    cases stored : w.db.get sessionId key with
    | none => simp [Database.value?, stored, evaluate, pure]
    | some record =>
      dsimp only
      rw [evaluate_bind]
      simp only [l1Set, perform, evaluate, effect]
      rw [evaluate_bind, redis]
      simp [safeL2Set, tryCatch, l2Set, recover, evaluate, effect, Oracle.later,
        settle_accepted (accepted 3), Database.value?, stored, pure]

/-- What a read answers in HTTP mode: L1 is trusted unless L2 has another version. -/
def httpAnswer (l1Hit l2Hit : Option Versioned) (stored : Option String) : Option String :=
  match l1Hit, l2Hit with
  | some hit, some check => if check.version ≠ hit.version then some check.value else some hit.value
  | some hit, none => some hit.value
  | none, l2Hit => (l2Hit.map Versioned.value).or stored

theorem get_result (http : settings.redis = some .http)
    (accepted : ∀ index, (oracle index).rejection = none) :
    (evaluate (effect settings self) (CacheManager.get settings.redis sessionId key) oracle
        w).result =
      .ok (httpAnswer ((w.l1 self).get (oracle 0).dateNow (cacheKey sessionId key)).1
        (w.l2.get? (cacheKey sessionId key)) (w.db.value? sessionId key)) := by
  have redis : settings.redis ≠ none := by
    rw [http]
    nofun
  unfold CacheManager.get
  rw [evaluate_bind]
  simp only [l1Get, perform, evaluate, effect]
  cases looked : (w.l1 self).get (oracle 0).dateNow (cacheKey sessionId key) with
  | mk l1Hit cache =>
    have later : ∀ index, (oracle.later index).rejection = none := fun index => accepted _
    cases l1Hit with
    | none => exact readL2_result redis later
    | some hit =>
      dsimp only
      rw [if_pos http, evaluate_bind, evaluate_safeL2Get http _ (later 0)]
      cases present : (w.withL1 self cache).l2.get? (cacheKey sessionId key) with
      | none =>
        simp only [Cluster.withL1] at present
        simp [httpAnswer, present, evaluate, pure]
      | some check =>
        dsimp only
        simp only [Cluster.withL1] at present
        simp only [httpAnswer, present]
        split
        · rw [evaluate_bind]
          simp only [l1Delete, perform, evaluate, effect]
          have rest : ∀ index, (oracle.later.later.later index).rejection = none :=
            fun index => accepted _
          rw [readL2_result redis rest]
          simp [Cluster.withL1, present]
        · rfl

end BaileysSession.CacheManager
