import BaileysSession.Cache.ClusterRuns

set_option autoImplicit false

namespace BaileysSession.CacheManager

open Async Transition

instance (shared : Prop) [Decidable shared] {Instance : Type} (w : Cluster Instance) (call : Call)
    (choice : Choice) : Decidable (Tolerable shared w call choice) :=
  match call with
  | .l2Set key value _ => decidable_of_iff
      (choice.applies key = true ∨ ∀ held ∈ w.l2.get? key, held.value = value) (by rfl)
  | .l2Del key => inferInstanceAs (Decidable (choice.applies key = true ∨ w.l2.get? key = none))
  | .publishInvalidation key => inferInstanceAs (Decidable (shared → choice.applies key = true))
  | .dbGet _ _ | .dbGetMany _ _ | .dbSetMany _ _ | .dbDeleteMany _ _ | .dbDeleteSession _
  | .dbGetAllKeys _ =>
    inferInstanceAs (Decidable (Accepted w call choice))
  | .dateNow | .l1Get _ | .l1Set _ _ _ | .l1Delete _ | .l1DeleteByPrefix _ | .l1Clear
  | .l2Get _ => isTrue trivial

/-- A single instance whose Redis commands fail only where L2 holds nothing else keeps reading
what the database holds. -/
theorem reads_current_despite_failures (settings : Settings) (sessionId : String) (db : Database)
    (events : List (Event Unit)) (w : Cluster Unit)
    (run : Run (step settings) (Permitted settings (· = sessionId) (Tolerable False))
      (Cluster.initial settings db) events w)
    (key : String) (oracle : Oracle Choice)
    (accepted : ∀ index, (oracle index).rejection = none) :
    (evaluate (effect settings ()) (get settings.redis sessionId key) oracle w).result =
      .ok (w.db.value? sessionId key) := by
  have connected : Connected settings False Unit := ⟨False.elim, fun _ => inferInstance⟩
  have owns : ∀ other key, other = sessionId → Owns (sessions (· = sessionId)) other key := by
    rintro _ key rfl
    exact only_owns _ key
  have settled : Settled settings (sessions (· = sessionId)) False w :=
    run_settled owns connected (initial_coherent db) run
  have undisturbed : Undisturbed (sessions (· = sessionId)) False () w.inbox sessionId key :=
    ⟨rfl, fun message => message.1⟩
  exact get_current settled () (owns sessionId key rfl) undisturbed (along_accepted _ w accepted)

def oneSettings (mode : RedisMode) : Settings where
  memory := ⟨none, none, none⟩
  redis := some mode
  versioning := fun version => version.getD 0 + 1

def accepting : Oracle Choice := fun _ => ⟨0, none⟩

def failingL2Set : Oracle Choice := fun index =>
  if index = 3 then ⟨0, some ⟨"connection lost", fun _ => false⟩⟩ else ⟨0, none⟩

def write (value : String) (oracle : Oracle Choice) : Event Unit :=
  .operate () (.keysSet "bot" ⟨[⟨"session-x", value⟩], []⟩) oracle

def survivedRun : List (Event Unit) :=
  [write "1" failingL2Set, write "2" accepting, write "2" failingL2Set, .restart ()]

theorem reads_current_despite_failures_survived :
    ∃ w, replay (step (oneSettings .http))
        (Permitted (oneSettings .http) (· = "bot") (Tolerable False))
        (Cluster.initial (oneSettings .http) .empty) survivedRun = some w ∧
      (evaluate (effect (oneSettings .http) ()) (get (some .http) "bot" "session-x")
        accepting w).result = .ok (some "2") :=
  ⟨_, rfl, reads_current_despite_failures (oneSettings .http) "bot" .empty survivedRun _
    (replay_run _ _ _ _ _ rfl) "session-x" accepting fun _ => rfl⟩

def DatabaseAccepts (w : Cluster Unit) (call : Call) (choice : Choice) : Prop :=
  match call with
  | .dbGet _ _ | .dbGetMany _ _ | .dbSetMany _ _ | .dbDeleteMany _ _ | .dbDeleteSession _
  | .dbGetAllKeys _ =>
    Accepted w call choice
  | _ => True

instance (w : Cluster Unit) (call : Call) (choice : Choice) :
    Decidable (DatabaseAccepts w call choice) :=
  match call with
  | .dbGet _ _ | .dbGetMany _ _ | .dbSetMany _ _ | .dbDeleteMany _ _ | .dbDeleteSession _
  | .dbGetAllKeys _ =>
    inferInstanceAs (Decidable (Accepted w call choice))
  | .dateNow | .l1Get _ | .l1Set _ _ _ | .l1Delete _ | .l1DeleteByPrefix _ | .l1Clear
  | .l2Get _ | .l2Set _ _ _ | .l2Del _ | .publishInvalidation _ => isTrue trivial

-- The process restarts after a write whose L2 set failed.
def staleRun : List (Event Unit) := [write "1" accepting, write "2" failingL2Set, .restart ()]

def StaleRead (mode : RedisMode) : Prop :=
  ∃ w, replay (step (oneSettings mode)) (Permitted (oneSettings mode) (· = "bot") DatabaseAccepts)
      (Cluster.initial (oneSettings mode) .empty) staleRun = some w ∧
    w.db.value? "bot" "session-x" = some "2" ∧
    (evaluate (effect (oneSettings mode) ()) (get (some mode) "bot" "session-x")
      accepting w).result = .ok (some "1")

theorem stale_read_after_failure : StaleRead .tcp ∧ StaleRead .http :=
  ⟨⟨_, rfl, rfl, rfl⟩, ⟨_, rfl, rfl, rfl⟩⟩

end BaileysSession.CacheManager
