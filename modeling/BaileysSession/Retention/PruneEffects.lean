import BaileysSession.Cache.Footprints
import BaileysSession.Retention.PruneExpiredKeys
import BaileysSession.Retention.RetentionRace

set_option autoImplicit false

namespace BaileysSession

def Database.Removes (sessionId : String) (removed : List String) (before after : Database) : Prop :=
  ∀ other key, after.get other key =
    if other = sessionId ∧ key ∈ removed then none else before.get other key

theorem Database.removes_nothing (sessionId : String) (db : Database) :
    db.Removes sessionId [] db := by
  intro other key
  rw [if_neg fun listed => List.not_mem_nil listed.2]

theorem Database.removes_deleteMany (sessionId : String) (keys : List String) (db : Database) :
    db.Removes sessionId keys (db.deleteMany sessionId keys) :=
  fun other key => db.get_deleteMany sessionId other key keys

namespace Retention

open Async CacheManager Database

variable {Instance : Type} [DecidableEq Instance] {settings : Settings} {self : Instance}
  {options : KeyRetentionOptions} {sessionId : String} {oracle : Oracle Choice}
  {w : Cluster Instance}

theorem Old.candidate {key : String} {now : Int} {record : SessionRecord}
    (old : Old options key now record) {allKeys : List String} (listed : key ∈ allKeys) :
    key ∈ candidates options allKeys := by
  obtain ⟨maxAge, configured, -⟩ := old
  obtain ⟨category, resolved, limited⟩ := Option.bind_eq_some_iff.mp configured
  refine List.mem_filter.mpr ⟨listed, ?_⟩
  have other : key ≠ credsKey := by
    rintro rfl
    cases resolved
  simp only [if_neg other, resolved, limited]
  rfl

theorem mem_stale_iff (options : KeyRetentionOptions) (now : Int) (db : Database)
    (sessionId key : String) :
    key ∈ staleKeys options now (candidates options (db.getAllKeys sessionId))
        (db.getMany sessionId (candidates options (db.getAllKeys sessionId))) ↔
      ∃ record, db.get sessionId key = some record ∧ Old options key now record := by
  rw [staleKeys, List.mem_filter, isStale_iff, get?_getMany]
  constructor
  · rintro ⟨candidate, record, found, old⟩
    rw [if_pos candidate] at found
    exact ⟨record, found, old⟩
  · rintro ⟨record, found, old⟩
    have listed : key ∈ db.getAllKeys sessionId := by
      rw [mem_getAllKeys, found]
      rfl
    have candidate := old.candidate listed
    exact ⟨candidate, record, by rw [if_pos candidate, found], old⟩

theorem deleteStale_removes (stale : List String) (oracle : Oracle Choice) (w : Cluster Instance) :
    ∃ removed, w.db.Removes sessionId removed (evaluate (effect settings self)
        (deleteStale settings.redis sessionId stale) oracle w).world.db ∧
      (∀ key ∈ removed, key ∈ stale) ∧ ((oracle 0).rejection = none → removed = stale) := by
  unfold deleteStale
  split
  · rename_i empty
    refine ⟨[], removes_nothing _ _, nofun, fun _ => ?_⟩
    exact (List.length_eq_zero_iff.mp empty).symm
  · have announcing : ∀ reply : Except String Unit, (settle reply >>= fun _ =>
        onDeletedEach settings.redis sessionId stale >>= fun _ =>
          (pure stale : Program (List String))).Only Call.Reading := by
      intro reply
      refine only_bind (settle_only reply) fun _ => ?_
      refine only_bind (onDeletedEach_only stale fun key _ => ?_) fun _ => trivial
      exact onDeleted_only trivial trivial trivial
    refine ⟨stale.filter (oracle 0).applies, ?_, fun key inside => (List.mem_filter.mp inside).1, ?_⟩
    · have kept := @evaluate_reading _ _ settings self _ _
        (announcing ((oracle 0).answer ())) oracle.later
        { w with db := w.db.deleteMany sessionId (stale.filter (oracle 0).applies) }
      intro other key
      have removed := removes_deleteMany sessionId (stale.filter (oracle 0).applies) w.db other key
      rw [← removed]
      exact congrArg (fun db => Database.get db other key) kept
    · intro accepted
      rw [applies_accepted accepted]
      exact List.filter_true stale

/-- What a pass with these outcomes removes: nothing but old rows, and all of them when it is
neither disabled nor disturbed. -/
structure Prunes (options : KeyRetentionOptions) (sessionId : String) (now : Int)
    (oracle : Oracle Choice) (before after : Database) (removed : List String) : Prop where
  removes : before.Removes sessionId removed after
  old : ∀ key ∈ removed, ∃ record, before.get sessionId key = some record ∧
    Old options key now record
  all : (∀ index, (oracle index).rejection = none) → ∀ key record,
    before.get sessionId key = some record → Old options key now record → key ∈ removed

theorem pruneCandidates_removes {now : Int} (clock : ∀ index, (oracle index).dateNow = now) :
    ∃ removed, Prunes options sessionId now oracle w.db (evaluate (effect settings self)
      (pruneCandidates settings.redis sessionId options
        (candidates options (w.db.getAllKeys sessionId))) oracle w).world.db removed := by
  unfold pruneCandidates
  split
  · rename_i empty
    refine ⟨[], removes_nothing _ _, nofun, fun _ key record found old => ?_⟩
    have listed : key ∈ w.db.getAllKeys sessionId := by
      rw [mem_getAllKeys, found]
      rfl
    exact List.length_eq_zero_iff.mp empty ▸ old.candidate listed
  · rw [evaluate_bind]
    cases rejected : (oracle 0).rejection with
    | some rejection =>
      simp only [adapterGetMany, evaluate, effect, Choice.answer, rejected, settle]
      refine ⟨[], removes_nothing _ _, nofun, fun accepted => ?_⟩
      rw [accepted 0] at rejected
      cases rejected
    | none =>
      simp only [adapterGetMany, evaluate, effect, settle_accepted rejected]
      obtain ⟨removed, removes, stale, all⟩ := @deleteStale_removes _ _ settings self sessionId
        (staleKeys options (oracle.later 0).dateNow
          (candidates options (w.db.getAllKeys sessionId))
          (w.db.getMany sessionId (candidates options (w.db.getAllKeys sessionId))))
        oracle.later.later w
      rw [show (oracle.later 0).dateNow = now from clock 1] at stale all
      refine ⟨removed, removes, fun key inside => ?_, fun accepted key record found old => ?_⟩
      · exact (mem_stale_iff options now w.db sessionId key).mp (stale key inside)
      · rw [all (accepted 2)]
        exact (mem_stale_iff options now w.db sessionId key).mpr ⟨record, found, old⟩

theorem pruneExpiredKeys_removes (enabled : options.enabled = true) {now : Int}
    (clock : ∀ index, (oracle index).dateNow = now) :
    ∃ removed, Prunes options sessionId now oracle w.db (evaluate (effect settings self)
      (pruneExpiredKeys settings.redis sessionId options) oracle w).world.db removed := by
  rw [pruneExpiredKeys, if_pos enabled, evaluate_bind]
  cases rejected : (oracle 0).rejection with
  | some rejection =>
    simp only [adapterGetAllKeys, evaluate, effect, Choice.answer, rejected, settle]
    refine ⟨[], removes_nothing _ _, ?_, fun accepted => ?_⟩
    · intro key inside
      cases inside
    · rw [accepted 0] at rejected
      cases rejected
  | none =>
    simp only [adapterGetAllKeys, evaluate, effect, settle_accepted rejected]
    obtain ⟨removed, removes, old, all⟩ := @pruneCandidates_removes _ _ settings self options
      sessionId oracle.later w now fun index => clock (index + 1)
    exact ⟨removed, removes, old, fun accepted => all fun index => accepted (index + 1)⟩

theorem pruneExpiredKeys_disabled (disabled : ¬ options.enabled = true) :
    (evaluate (effect settings self) (pruneExpiredKeys settings.redis sessionId options) oracle
      w).world = w := by
  rw [pruneExpiredKeys, if_neg disabled]
  rfl

end Retention

end BaileysSession
