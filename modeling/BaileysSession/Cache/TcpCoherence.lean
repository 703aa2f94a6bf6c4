import BaileysSession.Cache.ClusterRuns

set_option autoImplicit false

namespace BaileysSession.CacheManager

open Async Transition

variable {Instance : Type} [DecidableEq Instance]

/-- In a cluster of instances on one TCP Redis a reader that has seen every invalidation of a key
reads what the database holds. -/
theorem tcp_reads_current (settings : Settings) (tcp : settings.redis = some .tcp) (db : Database)
    (events : List (Event Instance)) (w : Cluster Instance)
    (run : Run (step settings) (Permitted settings Plain Accepted) (Cluster.initial settings db)
      events w)
    (self : Instance) (sessionId key : String) (plain : Plain sessionId)
    (delivered : cacheKey sessionId key ∉ w.inbox self) (oracle : Oracle Choice)
    (accepted : ∀ index, (oracle index).rejection = none) :
    (evaluate (effect settings self) (get settings.redis sessionId key) oracle w).result =
        .ok (w.db.value? sessionId key) ∧
      ∀ keys, key ∈ keys → ∃ found,
        (evaluate (effect settings self) (getMany settings.redis sessionId keys) oracle w).result =
          .ok found ∧ found.get? key = w.db.value? sessionId key := by
  have connected : Connected settings True Instance :=
    ⟨fun _ => tcp, fun alone => absurd trivial alone⟩
  have settled : Settled settings (sessions Plain) True w := by
    apply run_settled (fun _ key plain => plain_owns plain key) connected (initial_coherent db)
    apply run.weaken
    intro before event permitted
    cases event with
    | operate self operation oracle =>
      exact ⟨permitted.1, permitted.2.mono accepted_tolerable⟩
    | _ => trivial
  have undisturbed : Undisturbed (sessions Plain) True self w.inbox sessionId key :=
    ⟨plain, fun message => delivered message.2⟩
  constructor
  · exact get_current settled self (plain_owns plain key) undisturbed (along_accepted _ w accepted)
  · exact fun keys asked => getMany_current settled self (fun other _ => plain_owns plain other)
      undisturbed asked (along_accepted _ w accepted)

def twoSettings : Settings where
  memory := ⟨none, none, none⟩
  redis := some .tcp
  versioning := fun version => version.getD 0 + 1

def quiet : Oracle Choice := fun _ => ⟨0, none⟩

def store (key value : String) : Operation := .keysSet "bot" ⟨[⟨key, value⟩], []⟩

def twoRun : List (Event Bool) :=
  [.operate false (store "session-x" "1") quiet, .operate true (.get "bot" "session-x") quiet,
    .operate false (store "session-x" "2") quiet, .deliver true "bot:session-x",
    .deliver true "bot:session-x"]

theorem tcp_reads_current_delivered :
    ∃ w, replay (step twoSettings) (Permitted twoSettings Plain Accepted)
        (Cluster.initial twoSettings .empty) twoRun = some w ∧
      (evaluate (effect twoSettings true) (get (some .tcp) "bot" "session-x") quiet w).result =
        .ok (some "2") := by
  refine ⟨_, rfl, ?_⟩
  exact (tcp_reads_current twoSettings rfl .empty twoRun _ (replay_run _ _ _ _ _ rfl) true "bot"
    "session-x" (by decide) (by decide) quiet (fun _ => rfl)).1

end BaileysSession.CacheManager
