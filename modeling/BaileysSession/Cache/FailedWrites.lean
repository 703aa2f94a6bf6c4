import BaileysSession.Cache.Footprints
import BaileysSession.Cache.HttpReads
import BaileysSession.Cache.ReadsSince
import BaileysSession.Cache.SessionOperations
import BaileysSession.Factory.SaveCreds

set_option autoImplicit false

namespace BaileysSession.FailedWrites

open Async CacheManager KeysSet MemoryCache Transition

inductive Write where
  | keysSet (changes : Changes)
  | saveCreds (creds : String)

def Write.program (redis : Option RedisMode) (sessionId : String) : Write → Program Unit
  | .keysSet changes => CacheManager.keysSet redis sessionId changes
  | .saveCreds creds => CacheManager.saveCreds redis sessionId creds

def Write.sections : Write → List Section
  | .keysSet changes => changes.sections
  | .saveCreds creds => [.upsert [⟨credsKey, creds⟩]]

def Write.keys (write : Write) : List String := write.sections.flatMap Section.keys

theorem write_sections (redis : Option RedisMode) (sessionId : String) (write : Write)
    (settings : Settings) (oracle : Oracle Choice) (w : Cluster Unit) :
    evaluate (effect settings ()) (write.program redis sessionId) oracle w =
      evaluate (effect settings ()) (runSections redis sessionId write.sections) oracle w := by
  cases write with
  | keysSet changes => rfl
  | saveCreds creds =>
    simp only [Write.program, Write.sections, runSections, CacheManager.saveCreds, evaluate_bind]
    obtain ⟨result, _, _⟩ := evaluate (effect settings ())
      (runSection redis sessionId (.upsert [⟨credsKey, creds⟩])) oracle w
    cases result <;> rfl

/-- Database calls may do anything; Redis commands fail only without harm. -/
def RedisWorks (w : Cluster Unit) : CacheManager.Call → Choice → Prop
  | .dbGet _ _, _ | .dbGetMany _ _, _ | .dbSetMany _ _, _ | .dbDeleteMany _ _, _
  | .dbDeleteSession _, _ | .dbGetAllKeys _, _ => True
  | call, choice => Tolerable False w call choice

/-- The adapter call that rejected, with what it did before, and the state it was made in. -/
structure Failure where
  before : Cluster Unit
  change : Section
  choice : Choice

variable (settings : Settings) (sessionId : String)

def failure : List Section → Oracle Choice → Cluster Unit → Option Failure
  | [], _, _ => none
  | change :: rest, oracle, w =>
    match (oracle 0).rejection with
    | some _ => some ⟨w, change, oracle 0⟩
    | none =>
      let settled := evaluate (effect settings ()) (runSection settings.redis sessionId change)
        oracle w
      failure rest settled.oracle settled.world

def Failure.db (failed : Failure) : Database :=
  match failed.change with
  | .upsert entries => failed.before.db.setMany settings.versioning failed.choice.dateNow sessionId
      (entries.filter fun entry => failed.choice.applies entry.key)
  | .remove deletions =>
    failed.before.db.deleteMany sessionId (deletions.filter failed.choice.applies)

/-- At the time of the rejected call no level holds an entry for a row that it changed. -/
def Uncached (failed : Failure) : Prop :=
  ∀ key ∈ failed.change.keys, failed.choice.applies key = true →
    failed.change.leaves key ≠ failed.before.db.value? sessionId key →
      ¬ Live (failed.before.l1 ()) failed.choice.dateNow (cacheKey sessionId key) ∧
        (settings.redis ≠ none → failed.before.l2.get? (cacheKey sessionId key) = none)

variable {settings sessionId}

theorem write_along (write : Write) {ok : Cluster Unit → CacheManager.Call → Choice → Prop}
    {oracle : Oracle Choice} {w : Cluster Unit}
    (along : Along (effect settings ()) ok (write.program settings.redis sessionId) oracle w) :
    Along (effect settings ()) ok (runSections settings.redis sessionId write.sections)
      oracle w := by
  cases write with
  | keysSet changes => exact along
  | saveCreds creds =>
    rw [Write.sections, runSections, along_bind]
    exact ⟨along, fun _ _ => trivial⟩

section Failing

theorem written_filter (entries : List Entry) (keep : String → Bool) (key : String) :
    Database.written (entries.filter fun entry => keep entry.key) key =
      if keep key = true then Database.written entries key else none := by
  induction entries with
  | nil => simp [Database.written]
  | cons entry rest ih =>
    by_cases kept : keep entry.key = true
    · simp only [List.filter_cons, kept, if_true, Database.written, ih]
      by_cases same : entry.key = key
      · rw [← same, if_pos kept, if_pos kept]
      · simp [same]
    · simp only [List.filter_cons, if_neg kept, Database.written, ih]
      by_cases same : entry.key = key
      · rw [← same, if_neg kept, if_neg kept]
      · simp [same]

theorem Failure.value? (failed : Failure) (key : String) :
    (failed.db settings sessionId).value? sessionId key =
      if key ∈ failed.change.keys ∧ failed.choice.applies key = true then failed.change.leaves key
      else failed.before.db.value? sessionId key := by
  obtain ⟨before, change, choice⟩ := failed
  cases change with
  | upsert entries =>
    simp only [Failure.db, Section.keys, Section.leaves]
    rw [Database.value?_setMany, if_pos rfl, written_filter]
    by_cases applied : choice.applies key = true
    · by_cases listed : key ∈ entries.map Entry.key
      · obtain ⟨value, stored⟩ := Option.ne_none_iff_exists'.mp
          (mt (Database.written_eq_none_iff entries key).mp (not_not.mpr listed))
        simp [applied, listed, stored]
      · rw [(Database.written_eq_none_iff entries key).mpr listed]
        simp [listed]
    · simp [applied]
  | remove deletions =>
    simp only [Failure.db, Section.keys, Section.leaves]
    rw [Database.value?_deleteMany]
    by_cases touched : key ∈ deletions ∧ choice.applies key = true
    · simp [touched]
    · simp [touched]

theorem evaluate_rejected (change : Section) {oracle : Oracle Choice} (w : Cluster Unit)
    {rejection : Rejection} (rejected : (oracle 0).rejection = some rejection) :
    evaluate (effect settings ()) (runSection settings.redis sessionId change) oracle w =
      ⟨.error rejection.error,
        { w with db := (Failure.mk w change (oracle 0)).db settings sessionId }, oracle.later⟩ := by
  have refused : ∀ Value (value : Value), settle ((oracle 0).answer value) =
      .failed rejection.error := by
    intro Value value
    simp only [Choice.answer, rejected]
    rfl
  cases change with
  | upsert entries =>
    rw [runSection, evaluate_bind]
    simp only [adapterSetMany, evaluate, effect, refused, Failure.db]
  | remove deletions =>
    rw [runSection, evaluate_bind]
    simp only [adapterDeleteMany, evaluate, effect, refused, Failure.db]

def Unharmed (call : CacheManager.Call) : Prop :=
  ∀ (w : Cluster Unit) choice, RedisWorks w call choice → Tolerable False w call choice

theorem section_tolerable (change : Section) {oracle : Oracle Choice} {w : Cluster Unit}
    (works : Along (effect settings ()) RedisWorks (runSection settings.redis sessionId change)
      oracle w) (accepted : (oracle 0).rejection = none) :
    Along (effect settings ()) (Tolerable False) (runSection settings.redis sessionId change)
      oracle w := by
  have same : ∀ (w : Cluster Unit) call choice, Unharmed call → RedisWorks w call choice →
      Tolerable False w call choice := fun w _ choice unharmed => unharmed w choice
  cases change with
  | upsert entries =>
    refine ⟨accepted, works.2.on_only same ?_⟩
    apply only_bind (settle_only _)
    intro _
    apply onWrittenEach_only (fun _ _ works => works) entries
    intro entry _ version
    exact onWritten_only (fun _ _ works => works) (fun _ _ works => works) (fun _ _ works => works)
  | remove deletions =>
    refine ⟨accepted, works.2.on_only same ?_⟩
    apply only_bind (settle_only _)
    intro _
    apply onDeletedEach_only deletions
    intro key _
    exact onDeleted_only (fun _ _ works => works) (fun _ _ works => works) (fun _ _ works => works)

theorem rejected_sections (sections : List Section) {oracle : Oracle Choice} {w : Cluster Unit}
    (settled : Settled settings (sessions (· = sessionId)) False w)
    (works : Along (effect settings ()) RedisWorks (runSections settings.redis sessionId sections)
      oracle w) {error : String}
    (rejected : (evaluate (effect settings ()) (runSections settings.redis sessionId sections)
      oracle w).result = .error error) :
    ∃ failed, failure settings sessionId sections oracle w = some failed ∧
      failed.change ∈ sections ∧
      Settled settings (sessions (· = sessionId)) False failed.before ∧
      (evaluate (effect settings ()) (runSections settings.redis sessionId sections)
        oracle w).world = { failed.before with db := failed.db settings sessionId } := by
  induction sections generalizing oracle w with
  | nil => cases rejected
  | cons change rest ih =>
    cases refused : (oracle 0).rejection with
    | some rejection =>
      refine ⟨⟨w, change, oracle 0⟩, ?_, List.mem_cons_self, settled, ?_⟩
      · simp only [failure, refused]
      · rw [runSections, evaluate_bind, evaluate_rejected change w refused]
    | none =>
      rw [runSections, along_bind] at works
      obtain ⟨result, returned, after, -⟩ := triple_returns
        (runSection_spec (single_connected settings) w settled sessionId change
          fun key _ => only_owns sessionId key) rfl (section_tolerable change works.1 refused)
      have later := works.2 result returned
      rw [runSections, evaluate_bind] at rejected ⊢
      simp only [failure, refused]
      revert returned after later rejected
      obtain ⟨_, world, unused⟩ := evaluate (effect settings ())
        (runSection settings.redis sessionId change) oracle w
      intro rejected returned after later
      cases returned
      obtain ⟨failed, found, inside, before, left⟩ := ih after later rejected
      exact ⟨failed, found, List.mem_cons_of_mem change inside, before, left⟩

theorem cached_read {w : Cluster Unit} {key value : String} {now : Int}
    (l1 : ∀ held, (w.l1 ()).peek (cacheKey sessionId key) = some held → held.value = value)
    (l2 : settings.redis ≠ none → ∀ held, w.l2.get? (cacheKey sessionId key) = some held →
      held.value = value)
    (cached : ¬ Live (w.l1 ()) now (cacheKey sessionId key) →
      settings.redis ≠ none ∧ w.l2.get? (cacheKey sessionId key) ≠ none) :
    (evaluate (effect settings ()) (get settings.redis sessionId key) (fun _ => ⟨now, none⟩)
      w).result = .ok (some value) := by
  cases looked : ((w.l1 ()).get now (cacheKey sessionId key)).1 with
  | none =>
    obtain ⟨redis, present⟩ := cached ((get_eq_none_iff _ _ _).mp looked)
    obtain ⟨held, present⟩ := Option.ne_none_iff_exists'.mp present
    have shown : ∀ after : Cluster Unit, after.l2 = w.l2 → ∀ oracle : Oracle Choice,
        (∀ index, (oracle index).rejection = none) →
        (evaluate (effect settings ()) (readL2 settings.redis sessionId key) oracle after).result =
          .ok (some value) := by
      intro after same oracle accepted
      rw [readL2_result redis accepted, same, present, ← l2 redis held present]
      rfl
    unfold CacheManager.get
    rw [evaluate_bind]
    simp only [l1Get, perform, evaluate, effect, looked]
    exact shown (w.withL1 () _) rfl (fun _ => ⟨now, none⟩) fun _ => rfl
  | some hit =>
    have current : hit.value = value := l1 hit (get_hit looked)
    by_cases http : settings.redis = some .http
    · rw [get_result http fun _ => rfl, looked]
      have redis : settings.redis ≠ none := by
        rw [http]
        exact Option.some_ne_none _
      cases present : w.l2.get? (cacheKey sessionId key) with
      | none => simp only [httpAnswer, current]
      | some check => simp only [httpAnswer, current, l2 redis check present, ite_self]
    · unfold CacheManager.get
      rw [evaluate_bind]
      simp only [l1Get, perform, evaluate, effect, looked, if_neg http]
      rw [current]
      rfl

end Failing

section Agreeing

variable {w : Cluster Unit} (agrees : Settled settings (sessions (· = sessionId)) False w)
  {key : String} {held : Versioned}

include agrees

theorem settled_l1 (present : (w.l1 ()).peek (cacheKey sessionId key) = some held) :
    w.db.value? sessionId key = some held.value :=
  ((agrees.l1 () sessionId key held rfl present).resolve_left id).resolve_right
    fun shared => shared.1

theorem settled_l2 (redis : settings.redis ≠ none)
    (present : w.l2.get? (cacheKey sessionId key) = some held) :
    w.db.value? sessionId key = some held.value :=
  (agrees.l2 redis sessionId key held rfl present).resolve_left id

end Agreeing

section Rejected

variable {failed : Failure}
  (before : Settled settings (sessions (· = sessionId)) False failed.before)

include before

theorem uncached_agrees (uncached : Uncached settings sessionId failed) :
    AgreesSince settings sessionId failed.choice.dateNow (failed.db settings sessionId)
      { failed.before with db := failed.db settings sessionId } := by
  -- Where something is cached, the row is as it was.
  have kept : ∀ key, Live (failed.before.l1 ()) failed.choice.dateNow (cacheKey sessionId key) ∨
      (settings.redis ≠ none ∧ failed.before.l2.get? (cacheKey sessionId key) ≠ none) →
      (failed.db settings sessionId).value? sessionId key =
        failed.before.db.value? sessionId key := by
    intro key cached
    rw [Failure.value?]
    split
    · rename_i touched
      by_contra changed
      obtain ⟨l1, l2⟩ := uncached key touched.1 touched.2 changed
      rcases cached with live | ⟨redis, present⟩
      · exact l1 live
      · exact present (l2 redis)
    · rfl
  refine ⟨fun key entry present alive => ?_, fun redis key held present => ?_, rfl⟩
  · rw [kept key (.inl ⟨entry, present, alive⟩)]
    exact settled_l1 before (peek_stored present)
  · have there : failed.before.l2.get? (cacheKey sessionId key) ≠ none := by
      rw [present]
      exact Option.some_ne_none _
    rw [kept key (.inr ⟨redis, there⟩)]
    exact settled_l2 before redis present

theorem readsRight_uncached
    (right : ∀ key ∈ failed.change.keys, ReadsRight settings sessionId failed.choice.dateNow key
      { failed.before with db := failed.db settings sessionId }) :
    Uncached settings sessionId failed := by
  intro key inside applied changed
  by_contra cached
  cases stored : failed.before.db.value? sessionId key with
  | none =>
    apply cached
    constructor
    · rintro ⟨entry, present, -⟩
      cases stored.symm.trans (settled_l1 before (peek_stored present))
    · intro redis
      cases present : failed.before.l2.get? (cacheKey sessionId key) with
      | none => rfl
      | some held => cases stored.symm.trans (settled_l2 before redis present)
  | some value =>
    have somewhere : ¬ Live (failed.before.l1 ()) failed.choice.dateNow (cacheKey sessionId key) →
        settings.redis ≠ none ∧ failed.before.l2.get? (cacheKey sessionId key) ≠ none := by
      intro expired
      by_contra nowhere
      apply cached
      refine ⟨expired, fun redis => ?_⟩
      by_contra present
      exact nowhere ⟨redis, present⟩
    have answer := @cached_read settings sessionId
      { failed.before with db := failed.db settings sessionId } key value failed.choice.dateNow
      (fun _ present => (Option.some.inj (stored.symm.trans (settled_l1 before present))).symm)
      (fun redis _ present =>
        (Option.some.inj (stored.symm.trans (settled_l2 before redis present))).symm)
      somewhere
    have current := right key inside [] _ (.nil _) (fun _ => ⟨failed.choice.dateNow, none⟩)
      fun _ => ⟨rfl, Int.le_refl _⟩
    rw [answer] at current
    apply changed
    have leaves : (failed.db settings sessionId).value? sessionId key = failed.change.leaves key := by
      rw [Failure.value?, if_pos ⟨inside, applied⟩]
    rw [stored, ← leaves]
    exact (Except.ok.inj current).symm

end Rejected

/-- When the adapter call of a write rejects, later reads are right exactly if no level held an
entry for a row that the rejected call changed: the failed write updates and invalidates nothing. -/
theorem rejected_write_reads (settings : Settings) (sessionId : String) (write : Write)
    (w : Cluster Unit) (agrees : Settled settings (sessions (· = sessionId)) False w)
    (oracle : Oracle Choice)
    (works : Along (effect settings ()) RedisWorks (write.program settings.redis sessionId)
      oracle w)
    (error : String)
    (rejected : (evaluate (effect settings ()) (write.program settings.redis sessionId)
      oracle w).result = .error error) :
    ∃ failed, failure settings sessionId write.sections oracle w = some failed ∧
      ((∀ key ∈ write.keys, ReadsRight settings sessionId failed.choice.dateNow key
          (evaluate (effect settings ()) (write.program settings.redis sessionId)
            oracle w).world) ↔
        Uncached settings sessionId failed) := by
  rw [write_sections] at rejected ⊢
  obtain ⟨failed, found, inside, before, left⟩ :=
    rejected_sections write.sections agrees (write_along write works) rejected
  refine ⟨failed, found, ?_⟩
  rw [left]
  constructor
  · intro right
    apply readsRight_uncached before
    intro key touched
    exact right key (List.mem_flatMap.mpr ⟨failed.change, inside, touched⟩)
  · intro uncached key _
    exact (uncached_agrees before uncached).readsRight key

section Examples

def defaults : Settings := ⟨⟨none, none, none⟩, none, fun version => version.getD 0 + 1⟩

def answering : Oracle Choice := fun _ => ⟨0, none⟩

def unacknowledged : Oracle Choice := fun _ => ⟨0, some ⟨"timeout", fun _ => true⟩⟩

def storing (value : String) : Write := .keysSet ⟨[⟨"session-x", value⟩], []⟩

theorem rejected_write_reads_uncached :
    ReadsRight defaults "bot" 0 "session-x"
      (evaluate (effect defaults ()) ((storing "1").program none "bot") unacknowledged
        (Cluster.initial defaults .empty)).world := by
  obtain ⟨failed, found, reads⟩ := rejected_write_reads defaults "bot" (storing "1")
    (Cluster.initial defaults .empty) (initial_coherent .empty) unacknowledged
    ⟨trivial, trivial⟩ "timeout" rfl
  cases found
  refine reads.mpr (fun _ _ _ _ => ⟨?_, fun redis => absurd rfl redis⟩) "session-x" (by decide)
  rintro ⟨_, present, -⟩
  cases present

/-- The process that wrote and cached the row serves it from L1 after the row was overwritten. -/
theorem cached_row_stays_stale :
    ¬ ∀ (settings : Settings) (sessionId : String) (write : Write) (w : Cluster Unit),
      Settled settings (sessions (· = sessionId)) False w → ∀ oracle,
        Along (effect settings ()) RedisWorks (write.program settings.redis sessionId) oracle w →
        ∀ error, (evaluate (effect settings ()) (write.program settings.redis sessionId)
            oracle w).result = .error error →
          ∀ since, (∀ index, (oracle index).dateNow ≤ since) →
          ∀ key ∈ write.keys, ReadsRight settings sessionId since key
            (evaluate (effect settings ()) (write.program settings.redis sessionId)
              oracle w).world := by
  intro always
  have owns : ∀ other name, other = "bot" → Owns (sessions (· = "bot")) other name := by
    rintro _ name rfl
    exact only_owns _ name
  have permitted : Permitted defaults (· = "bot") (Tolerable False) (Cluster.initial defaults .empty)
      (.operate () (.keysSet "bot" ⟨[⟨"session-x", "1"⟩], []⟩) answering) :=
    ⟨rfl, along_accepted _ _ fun _ => rfl⟩
  have settled := step_settled owns (single_connected defaults)
    (initial_coherent .empty) permitted rfl
  have right := always defaults "bot" (storing "2") _ settled unacknowledged ⟨trivial, trivial⟩
    "timeout" rfl 0 (fun _ => Int.le_refl 0) "session-x" (by decide) [] _ (.nil _) answering
    fun _ => ⟨rfl, Int.le_refl 0⟩
  have stale : (Except.ok (some "1") : Except String (Option String)) = .ok (some "2") := right
  exact absurd (Option.some.inj (Except.ok.inj stale)) (by decide)

end Examples

end BaileysSession.FailedWrites
