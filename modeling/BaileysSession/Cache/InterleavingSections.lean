import BaileysSession.Cache.InterleavingInvariant

set_option autoImplicit false

namespace BaileysSession.Interleaving

open Async CacheManager KeysSet

variable {Instance : Type} [DecidableEq Instance] {settings : Settings} {p : Pool Instance}

section Sections

variable {sessionId : String} {held : Option (Held Instance)} {cluster : Cluster Instance}

omit [DecidableEq Instance] in
theorem moved_elsewhere {due : CacheManager.Call → Bool} {other key : String}
    (apart : other ≠ sessionId) :
    (p.moved cluster sessionId held).Owes due other key ↔ p.Owes due other key := by
  simp only [Pool.Owes, Pool.moved, Function.update_of_ne apart]

omit [DecidableEq Instance] in
theorem moved_here {due : CacheManager.Call → Bool} {key : String} :
    (p.moved cluster sessionId held).Owes due sessionId key ↔
      ∃ next ∈ held, next.stage.Owes due key := by
  simp only [Pool.Owes, Pool.moved, Function.update_self]

omit [DecidableEq Instance] in
theorem owes_here {due : CacheManager.Call → Bool} {key : String} {current : Held Instance}
    (found : p.sections sessionId = some current) :
    p.Owes due sessionId key ↔ current.stage.Owes due key := by
  simp [Pool.Owes, found]

omit [DecidableEq Instance] in
theorem Stage.Right.congr {db changed : Database} {stage : Stage}
    (right : stage.Right db sessionId)
    (same : ∀ key, changed.value? sessionId key = db.value? sessionId key) :
    stage.Right changed sessionId := by
  cases stage with
  | issued => trivial
  | stored change => exact fun key inside => (same key).trans (right key inside)
  | announcing change branches =>
    intro branch inside call ahead
    have announces := right branch inside call ahead
    cases call with
    | l2Set name value version =>
      exact ⟨announces.1, fun unique => (same branch.key).trans (announces.2 unique)⟩
    | _ => exact announces

structure Local (p : Pool Instance) (sessionId : String) (cluster : Cluster Instance) : Prop where
  rows : ∀ other key, other ≠ sessionId →
    cluster.db.value? other key = p.cluster.db.value? other key
  inbox : ∀ self key, key ∈ p.cluster.inbox self → key ∈ cluster.inbox self

omit [DecidableEq Instance] in
theorem Sound.moved (sound : Sound settings p) (confined : Local p sessionId cluster)
    (l1 : ∀ self, (p.moved cluster sessionId held).L1Right self (cluster.l1 self))
    (l2 : settings.redis ≠ none → (p.moved cluster sessionId held).L2Right cluster.l2)
    (right : ∀ next ∈ held, Plain sessionId ∧ next.stage.Right cluster.db sessionId) :
    Sound settings (p.moved cluster sessionId held) := by
  refine ⟨l1, l2, ?_, sound.reads⟩
  intro other next found
  by_cases same : other = sessionId
  · subst same
    simp only [Pool.moved, Function.update_self] at found
    exact right next found
  · simp only [Pool.moved, Function.update_of_ne same] at found
    obtain ⟨plain, before⟩ := sound.stages other next found
    exact ⟨plain, before.congr fun key => confined.rows other key same⟩

omit [DecidableEq Instance] in
theorem Pool.L1Right.moved {self : Instance} {cache : MemoryCache} (right : p.L1Right self cache)
    (confined : Local p sessionId cluster)
    (here : ∀ key value,
      p.cluster.db.value? sessionId key = some value ∨ p.Owes publishes sessionId key →
        cluster.db.value? sessionId key = some value ∨
          (p.moved cluster sessionId held).Telling self sessionId key) :
    (p.moved cluster sessionId held).L1Right self cache := by
  apply Accurate.moved right confined.rows
  · intro other key mine telling
    exact telling.imp (confined.inbox self _) (moved_elsewhere mine).mpr
  · rintro key value (same | message | owed)
    · exact here key value (.inl same)
    · exact .inr (.inl (confined.inbox self _ message))
    · exact here key value (.inr owed)

omit [DecidableEq Instance] in
theorem Pool.L2Right.moved {l2 : InsertionMap String Versioned} (right : p.L2Right l2)
    (confined : Local p sessionId cluster)
    (here : ∀ key value,
      p.cluster.db.value? sessionId key = some value ∨ p.Owes updatesL2 sessionId key →
        cluster.db.value? sessionId key = some value ∨
          (p.moved cluster sessionId held).Owes updatesL2 sessionId key) :
    (p.moved cluster sessionId held).L2Right l2 :=
  Accurate.moved right confined.rows (fun _ _ mine => (moved_elsewhere mine).mpr) here

omit [DecidableEq Instance] in
theorem Sound.moved_untouched (sound : Sound settings p) (confined : Local p sessionId cluster)
    (l1 : cluster.l1 = p.cluster.l1) (l2 : cluster.l2 = p.cluster.l2)
    (here : ∀ due key value,
      p.cluster.db.value? sessionId key = some value ∨ p.Owes due sessionId key →
        cluster.db.value? sessionId key = some value ∨ ∃ next ∈ held, next.stage.Owes due key)
    (right : ∀ next ∈ held, Plain sessionId ∧ next.stage.Right cluster.db sessionId) :
    Sound settings (p.moved cluster sessionId held) := by
  apply sound.moved confined _ _ right
  · intro self
    rw [l1]
    apply (sound.l1 self).moved confined
    intro key value known
    exact (here publishes key value known).imp_right fun owed => .inr (moved_here.mpr owed)
  · intro redis
    rw [l2]
    apply (sound.l2 redis).moved confined
    intro key value known
    exact (here updatesL2 key value known).imp_right moved_here.mpr

omit [DecidableEq Instance] in
theorem grant_sound {next : Pool Instance} (sound : Sound settings p) {self : Instance}
    {change : Section} (plain : Plain sessionId)
    (taken : grant p self sessionId change = some next) : Sound settings next := by
  unfold grant at taken
  split at taken
  · cases taken
  · rename_i free
    cases taken
    apply sound.moved_untouched ⟨fun _ _ _ => rfl, fun _ _ message => message⟩ rfl rfl
    · intro due key value known
      left
      apply known.resolve_right
      rintro ⟨held, found, -⟩
      rw [free] at found
      cases found
    · rintro _ same
      cases same
      exact ⟨plain, trivial⟩

omit [DecidableEq Instance] in
theorem store_sound {next : Pool Instance} (sound : Sound settings p) {time : Int}
    (taken : store settings p sessionId time = some next) : Sound settings next := by
  unfold store at taken
  split at taken
  · rename_i self change found
    cases taken
    have written := value?_write settings.versioning time sessionId
    have confined : Local p sessionId { p.cluster with
        db := change.write settings.versioning time sessionId p.cluster.db } := by
      constructor
      · intro other key apart
        dsimp only
        rw [written, if_neg fun both => apart both.1]
      · exact fun _ _ message => message
    apply sound.moved_untouched confined rfl rfl
    · intro due key value known
      by_cases inside : key ∈ change.keys
      · exact .inr ⟨_, rfl, inside⟩
      · left
        dsimp only
        rw [written, if_neg fun both => inside both.2]
        exact known.resolve_right (owes_here found).mp
    · rintro _ same
      cases same
      refine ⟨(sound.stages sessionId _ found).1, ?_⟩
      intro key inside
      dsimp only
      rw [written, if_pos ⟨rfl, inside⟩]
  · cases taken

omit [DecidableEq Instance] in
theorem release_sound {next : Pool Instance} (sound : Sound settings p)
    (taken : release p sessionId = some next) : Sound settings next := by
  unfold release at taken
  split at taken
  · rename_i self change branches found
    split at taken
    · rename_i ended
      cases taken
      apply sound.moved_untouched ⟨fun _ _ _ => rfl, fun _ _ message => message⟩ rfl rfl
      · intro due key value known
        left
        apply known.resolve_right
        rw [owes_here found]
        rintro ⟨branch, inside, -, call, ahead, -⟩
        have completed := List.all_eq_true.mp ended branch inside
        unfold finished at completed
        split at completed
        · rename_i program
          rw [program] at ahead
          cases ahead
        · rename_i program
          rw [program] at ahead
          cases ahead
        · cases completed
      · nofun
    · cases taken
  · cases taken

end Sections

section Branches

variable {sessionId : String} {bs : List Branch} {index : Nat}

theorem tail_owes {due : CacheManager.Call → Bool} {key : String} {call : CacheManager.Call}
    {rest : Reply call → Program Unit} (made : due call = false)
    (owes : Branch.Owes due ⟨key, .await call rest⟩) :
    Branch.Owes due ⟨key, rest (success call)⟩ := by
  obtain ⟨other, ahead, owed⟩ := owes
  rcases List.mem_cons.mp ahead with rfl | later
  · rw [made] at owed
    cases owed
  · exact ⟨other, later, owed⟩

theorem owes_set {due : CacheManager.Call → Bool} {key : String} {branch changed : Branch}
    (found : bs[index]? = some branch)
    (kept : branch.key = key → branch.Owes due → changed.key = key ∧ changed.Owes due)
    (owed : ∃ other ∈ bs, other.key = key ∧ other.Owes due) :
    ∃ other ∈ bs.set index changed, other.key = key ∧ other.Owes due := by
  obtain ⟨other, inside, named, owes⟩ := owed
  obtain ⟨place, there⟩ := List.getElem?_of_mem inside
  by_cases same : index = place
  · subst same
    rw [found] at there
    cases there
    have present : changed ∈ bs.set index changed := by
      apply List.mem_of_getElem?
      rw [List.getElem?_set_self (List.getElem?_eq_some_iff.mp found).1]
    exact ⟨changed, present, kept named owes⟩
  · refine ⟨other, ?_, named, owes⟩
    apply List.mem_of_getElem?
    rw [List.getElem?_set_ne same]
    exact there

theorem repeated_owes {key : String} {changed : Branch} (repeated : Repeated bs index key) :
    ∃ other ∈ bs.set index changed, other.key = key ∧ other.Owes updatesL2 := by
  obtain ⟨other, inside, named, owes⟩ := repeated
  obtain ⟨place, apart, there⟩ := List.mem_eraseIdx_iff_getElem?.mp inside
  refine ⟨other, ?_, named, owes⟩
  apply List.mem_of_getElem?
  rw [List.getElem?_set_ne apart.symm]
  exact there

theorem set_right {db : Database} {change : Section} {key : String} {call : CacheManager.Call}
    {rest : Reply call → Program Unit}
    (found : bs[index]? = some ⟨key, .await call rest⟩)
    (right : (Stage.announcing change bs).Right db sessionId) :
    (Stage.announcing change (bs.set index ⟨key, rest (success call)⟩)).Right db sessionId := by
  intro branch inside other ahead
  rcases List.mem_or_eq_of_mem_set inside with before | rfl
  · exact right branch before other ahead
  · exact right _ (List.mem_of_getElem? found) other (List.mem_cons_of_mem _ ahead)

variable {self : Instance} {key : String} {change : Section}

omit [DecidableEq Instance] in
theorem announce_l2 (sound : Sound settings p) {call : CacheManager.Call}
    {rest : Reply call → Program Unit} {l2 : InsertionMap String Versioned}
    {value : Option String}
    (holds : p.sections sessionId = some ⟨self, .announcing change bs⟩)
    (found : bs[index]? = some ⟨key, .await call rest⟩) (silent : publishes call = false)
    (replaces : Replaces (cacheKey sessionId key) value p.cluster.l2.get? l2.get?)
    (backed : ∀ text, value = some text → p.cluster.db.value? sessionId key = some text ∨
      Repeated bs index key) :
    Sound settings (p.moved { p.cluster with l2 } sessionId
      (some ⟨self, .announcing change (bs.set index ⟨key, rest (success call)⟩)⟩)) := by
  obtain ⟨plain, right⟩ := sound.stages sessionId _ holds
  have confined : Local p sessionId { p.cluster with l2 } :=
    ⟨fun _ _ _ => rfl, fun _ _ message => message⟩
  apply sound.moved confined
  · intro other
    apply (sound.l1 other).moved confined
    rintro name text (same | owed)
    · exact .inl same
    · right; right
      refine moved_here.mpr ⟨_, rfl, owes_set found ?_ ((owes_here holds).mp owed)⟩
      exact fun named owes => ⟨named, tail_owes silent owes⟩
  · intro redis session name held otherPlain present
    rcases replaces _ held present with ⟨same, fits⟩ | ⟨apart, kept⟩
    · obtain ⟨rfl, rfl⟩ := plain_owns plain key session name otherPlain same
      exact (backed held.value fits).imp_right fun repeated =>
        moved_here.mpr ⟨_, rfl, repeated_owes repeated⟩
    · rcases sound.l2 redis session name held otherPlain kept with same | owed
      · exact .inl same
      · right
        by_cases mine : session = sessionId
        · subst mine
          refine moved_here.mpr ⟨_, rfl, owes_set found ?_ ((owes_here holds).mp owed)⟩
          rintro rfl
          exact absurd rfl apart
        · exact (moved_elsewhere mine).mpr owed
  · rintro _ same
    cases same
    exact ⟨plain, set_right found right⟩

omit [DecidableEq Instance] in
theorem announce_published (sound : Sound settings p) {call : CacheManager.Call}
    {rest : Reply call → Program Unit}
    (holds : p.sections sessionId = some ⟨self, .announcing change bs⟩)
    (found : bs[index]? = some ⟨key, .await call rest⟩) (quiet : updatesL2 call = false) :
    Sound settings (p.moved { p.cluster with
        inbox := fun other => p.cluster.inbox other ++ [cacheKey sessionId key] } sessionId
      (some ⟨self, .announcing change (bs.set index ⟨key, rest (success call)⟩)⟩)) := by
  obtain ⟨plain, right⟩ := sound.stages sessionId _ holds
  have confined : Local p sessionId { p.cluster with
      inbox := fun other => p.cluster.inbox other ++ [cacheKey sessionId key] } :=
    ⟨fun _ _ _ => rfl, fun _ _ message => List.mem_append_left _ message⟩
  apply sound.moved confined
  · intro other
    apply (sound.l1 other).moved confined
    rintro name text (same | owed)
    · exact .inl same
    · right
      by_cases named : key = name
      · left
        subst named
        exact List.mem_append_right _ (List.mem_singleton.mpr rfl)
      · right
        refine moved_here.mpr ⟨_, rfl, owes_set found ?_ ((owes_here holds).mp owed)⟩
        exact fun same => absurd same named
  · intro redis
    apply (sound.l2 redis).moved confined
    rintro name text (same | owed)
    · exact .inl same
    · right
      refine moved_here.mpr ⟨_, rfl, owes_set found ?_ ((owes_here holds).mp owed)⟩
      exact fun named owes => ⟨named, tail_owes quiet owes⟩
  · rintro _ same
    cases same
    exact ⟨plain, set_right found right⟩

theorem performBranch_sound {next : Pool Instance} (sound : Sound settings p) {time : Int}
    (timely : Timely settings p (.performBranch sessionId index time))
    (taken : performBranch settings p sessionId index time = some next) : Sound settings next := by
  unfold performBranch at taken
  split at taken
  · rename_i self change bs holds
    split at taken
    · rename_i key call rest found
      cases taken
      have announces : Announces p.cluster.db sessionId change key call :=
        (sound.stages sessionId _ holds).2 _ (List.mem_of_getElem? found) call List.mem_cons_self
      cases call with
      | l2Set name value version =>
        obtain ⟨rfl, current⟩ := announces
        apply announce_l2 sound holds found rfl (replaces_l2Set _ _ value version)
        intro text fits
        cases fits
        rcases timely _ holds _ found _ rfl with unique | backed
        · exact .inl (current unique)
        · exact backed value rfl
      | l2Del name =>
        obtain rfl := announces
        exact announce_l2 sound holds found rfl (replaces_l2Del _ _) nofun
      | publishInvalidation name =>
        obtain rfl := announces
        exact announce_published sound holds found rfl
      | _ => exact False.elim announces
    · cases taken
  · cases taken

end Branches

end BaileysSession.Interleaving
