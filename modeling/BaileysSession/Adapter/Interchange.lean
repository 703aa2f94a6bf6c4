import BaileysSession.Adapter.CloudflareD1Adapter
import BaileysSession.Adapter.FirebaseConformance
import BaileysSession.Adapter.FirestoreConformance
import BaileysSession.Adapter.MongoAdapter
import BaileysSession.Adapter.MysqlAdapter
import BaileysSession.Adapter.PostgresAdapter
import BaileysSession.Adapter.SqliteConformance

set_option autoImplicit false

namespace BaileysSession.Interchange

open Conformance DatabaseAdapter KeyedTable

inductive Backend where
  | sqlite
  | postgres
  | mysql
  | cloudflareD1
  | mongodb
  | firestore
  | firebaseRealtime
  deriving DecidableEq, Repr

/-- The session ids and keys in use, and how the databases are set up. -/
structure Deployment where
  sessions : String → Prop
  keys : String → Prop
  -- What the columns of the SQL databases hold, and how those of MySQL compare.
  fits : SqlAdapter.Column → Sql.Value → Bool
  fold : Sql.Value → Sql.Value
  -- What is too large for the others.
  documentTooLarge : MongoAdapter.MongoDoc → Bool
  batchRefused : List Firestore.FirestoreDoc → Bool
  updateRefused : String → List Entry → Bool
  batchTooLarge : String
  retryOptions : Option RetryOptions
  trying : 0 ≤ Retry.retries retryOptions

namespace Backend

def State : Backend → Type
  | sqlite => Database
  | postgres | mysql | cloudflareD1 => SqlAdapter.Table
  | mongodb => List MongoAdapter.MongoDoc
  | firestore => Firestore.Collection
  | firebaseRealtime => FirebaseRealtime.Tree

-- What the database leaves open, which is the order of what it hands out.
def Choice : Backend → Type
  | sqlite => Arrangement ((String × String) × SessionRecord)
  | postgres | mysql | cloudflareD1 => Arrangement (Sql.Row SqlAdapter.Column)
  | mongodb => Arrangement MongoAdapter.MongoDoc
  | firestore => Arrangement (String × Firestore.FirestoreDoc)
  | firebaseRealtime => Arrangement (List String × SessionRecord)

def initial : (backend : Backend) → backend.State
  | sqlite => Database.empty
  | postgres | mysql | cloudflareD1 => ([] : SqlAdapter.Table)
  | mongodb => ([] : List MongoAdapter.MongoDoc)
  | firestore => (.empty : Firestore.Collection)
  | firebaseRealtime => (.empty : FirebaseRealtime.Tree)

variable (deployment : Deployment)

def step (deployment : Deployment) :
    (backend : Backend) → Component backend.State backend.Choice Call Answer
  | sqlite => SqliteWorker.step
  | postgres => SqlAdapter.step PostgresAdapter.queries (PostgresAdapter.engine deployment.fits)
  | mysql =>
    SqlAdapter.step MysqlAdapter.queries (MysqlAdapter.engine deployment.fold deployment.fits)
  | cloudflareD1 =>
    SqlAdapter.step CloudflareD1Adapter.queries (CloudflareD1Adapter.engine deployment.fits)
  | mongodb => MongoAdapter.step deployment.documentTooLarge
  | firestore => Firestore.step deployment.batchTooLarge deployment.retryOptions
  | firebaseRealtime => FirebaseRealtime.step

-- Postgres takes no text with a zero character.
def Zeroless (text : String) : Prop := Char.ofNat 0 ∉ text.toList

/-- The database takes the names in use, and tells them from each other. -/
def Suits (deployment : Deployment) : Backend → Prop
  | sqlite | cloudflareD1 | mongodb => True
  | postgres => (∀ sessionId, deployment.sessions sessionId → Zeroless sessionId) ∧
      ∀ key, deployment.keys key → Zeroless key
  | mysql => SqlAdapter.Distinguishes (MysqlAdapter.engine deployment.fold deployment.fits)
      deployment.sessions deployment.keys
  | firestore => (∀ sessionId key, deployment.sessions sessionId → deployment.keys key →
      Firestore.Addressable sessionId key) ∧
      Firestore.Apart fun sessionId key => deployment.sessions sessionId ∧ deployment.keys key
  | firebaseRealtime =>
    (∀ sessionId, deployment.sessions sessionId → FirebaseRealtime.Addressable sessionId ∧
      FirebaseRealtime.Plain sessionId ∧
      FirebaseRealtime.Short (FirebaseRealtime.path sessionId none)) ∧
    (∀ key, deployment.keys key →
      FirebaseRealtime.Addressable key ∧ FirebaseRealtime.Plain key) ∧
    ∀ sessionId key, deployment.sessions sessionId → deployment.keys key →
      FirebaseRealtime.Short (FirebaseRealtime.path sessionId (some key) ++ "/updatedAt")

/-- The call stays within the limits of the database. -/
def Takes (deployment : Deployment) (rows : Rows) (call : Call) (backend : Backend) : Prop :=
  match backend with
  | sqlite => SqliteWorker.Accepted call
  | postgres => SqlAdapter.Accepted PostgresAdapter.queries
      (PostgresAdapter.engine deployment.fits) call
  | mysql => SqlAdapter.Accepted MysqlAdapter.queries
      (MysqlAdapter.engine deployment.fold deployment.fits) call
  | cloudflareD1 => SqlAdapter.Accepted CloudflareD1Adapter.queries
      (CloudflareD1Adapter.engine deployment.fits) call
  | mongodb => MongoAdapter.Accepted deployment.documentTooLarge call
  | firestore => Firestore.Accepted deployment.batchRefused rows call
  | firebaseRealtime => FirebaseRealtime.Accepted deployment.updateRefused call

def Admitted (deployment : Deployment) (rows : Rows) (call : Call) (backend : Backend) : Prop :=
  backend.Suits deployment ∧ call.operation.Within deployment.sessions deployment.keys ∧
    backend.Takes deployment rows call

def Holds : (backend : Backend) → backend.State → Rows → Prop
  | sqlite => fun db rows => rowsOf db = rows
  | postgres => SqlAdapter.Holds (PostgresAdapter.engine deployment.fits) deployment.sessions
      deployment.keys
  | mysql => SqlAdapter.Holds (MysqlAdapter.engine deployment.fold deployment.fits)
      deployment.sessions deployment.keys
  | cloudflareD1 => SqlAdapter.Holds (CloudflareD1Adapter.engine deployment.fits)
      deployment.sessions deployment.keys
  | mongodb => Represented MongoAdapter.toRecord
  | firestore => Firestore.Holds fun sessionId key =>
      deployment.sessions sessionId ∧ deployment.keys key
  | firebaseRealtime => FirebaseRealtime.Holds

variable {deployment}

theorem initial_holds (backend : Backend) : Holds deployment backend backend.initial nothing := by
  cases backend with
  | sqlite => exact rowsOf_empty
  | postgres => exact SqlAdapter.empty_holds _ _ _
  | mysql => exact SqlAdapter.empty_holds _ _ _
  | cloudflareD1 => exact SqlAdapter.empty_holds _ _ _
  | mongodb => exact represents_nothing
  | firestore => exact Firestore.empty_holds _
  | firebaseRealtime => exact FirebaseRealtime.empty_holds

theorem distinguishes_all {engine : Sql.Engine SqlAdapter.Column} (plain : engine.fold = id)
    (sessions keys : String → Prop) : SqlAdapter.Distinguishes engine sessions keys := by
  refine ⟨fun first second _ _ same => ?_, fun first second _ _ same => ?_⟩
  all_goals
    rw [plain] at same
    exact Sql.Value.text.inj same

theorem conforms (backend : Backend) : Conforms contract (step deployment backend)
    (Holds deployment backend) fun rows _ call => backend.Admitted deployment rows call := by
  refine Conforms.given fun suits => ?_
  cases backend with
  | sqlite => exact SqliteWorker.sqlite_conforms.mono fun _ _ _ => And.right
  | postgres => exact SqlAdapter.sql_conforms (PostgresAdapter.faithful _) (distinguishes_all rfl _ _)
  | mysql => exact SqlAdapter.sql_conforms (MysqlAdapter.faithful _ _) suits
  | cloudflareD1 =>
    exact SqlAdapter.sql_conforms (CloudflareD1Adapter.faithful _) (distinguishes_all rfl _ _)
  | mongodb => exact (MongoAdapter.mongo_conforms _).mono fun _ _ _ => And.right
  | firestore => exact Firestore.firestore_conforms deployment.batchTooLarge deployment.trying suits.2
  | firebaseRealtime =>
    obtain ⟨sessions, keys, -⟩ := suits
    exact FirebaseRealtime.firebase_conforms.mono fun _ _ _ admitted =>
      FirebaseRealtime.within_mono admitted.1
        (fun sessionId used => ⟨(sessions sessionId used).1.filled, (sessions sessionId used).2.1⟩)
        fun key used => ⟨(keys key used).1.filled, (keys key used).2⟩

end Backend

section Runs

-- A bot with its creds, on servers that take every value.
def oneBot : Deployment where
  sessions := (· = "bot")
  keys := (· = "creds")
  fits := fun _ _ => true
  fold := MysqlAdapter.caseless
  documentTooLarge := fun _ => false
  batchRefused := fun _ => false
  updateRefused := fun _ _ => false
  batchTooLarge := "too many writes"
  retryOptions := none
  trying := by decide

def storeAndList : List Call :=
  [⟨.set "bot" "creds" "one", 1⟩, ⟨.get "bot" "creds", 2⟩, ⟨.listSessions, 3⟩]

theorem postgres_accepts {fits : SqlAdapter.Column → Sql.Value → Bool}
    {query : Sql.Query SqlAdapter.Column} (few : query.params.length ≤ 65535) :
    SqlAdapter.Accepts (PostgresAdapter.engine fits) query := by
  intro most limit
  cases limit
  exact few

theorem postgres_suits : Backend.postgres.Suits oneBot := by
  constructor <;> rintro _ rfl <;> unfold Backend.Zeroless <;> decide

theorem oneBot_storable : SqlAdapter.Storable (PostgresAdapter.engine oneBot.fits)
    (PostgresAdapter.queries.setMany 1 "bot" [⟨"creds", "one"⟩]) 1 "bot" [⟨"creds", "one"⟩] := by
  refine ⟨fun query inside => ?_, fun _ _ _ => rfl, fun _ => List.nodup_singleton _⟩
  rw [List.mem_singleton.mp inside]
  exact postgres_accepts (by decide)

/-- Through every run of calls that it takes, a database answers as the contract has it for what the
calls before have stored, and ends with the rows they leave. -/
theorem backend_serves (deployment : Deployment) (backend : Backend)
    (turns : List (backend.Choice × Call))
    (allowed : contract.Admits (fun rows _ call => backend.Admitted deployment rows call) nothing
      turns) :
    contract.Answers nothing (turns.map Prod.snd)
        (answers (backend.step deployment) backend.initial turns) ∧
      backend.Holds deployment (final (backend.step deployment) backend.initial turns)
        (contract.asks nothing (turns.map Prod.snd)) :=
  backend.conforms.run backend.initial_holds allowed

theorem postgres_serves_bot : ∃ turns : List (Backend.postgres.Choice × Call),
    turns.map Prod.snd = storeAndList ∧ contract.Answers nothing storeAndList
      (answers (Backend.postgres.step oneBot) Backend.postgres.initial turns) := by
  refine ⟨storeAndList.map fun call => (Arrangement.stored _, call), rfl, ?_⟩
  exact (backend_serves oneBot .postgres (storeAndList.map fun call => (Arrangement.stored _, call))
    ⟨⟨postgres_suits, ⟨rfl, rfl⟩, oneBot_storable⟩,
      ⟨postgres_suits, ⟨rfl, rfl⟩, postgres_accepts (by decide)⟩,
      ⟨postgres_suits, trivial, postgres_accepts (by decide)⟩, trivial⟩).1

/-- Whatever callers do that two databases both take, they get answers from the one that they could
have got from the other, but for versions and the order of what is listed. -/
theorem databases_interchange (deployment : Deployment) (first second : Backend)
    (turns : List ((first.Choice × second.Choice) × Call))
    (allowed : contract.Admits (fun rows _ call => first.Admitted deployment rows call ∧
      second.Admitted deployment rows call) nothing turns) :
    List.Forall₂ Alike
      (answers (first.step deployment) first.initial (turns.map fun turn => (turn.1.1, turn.2)))
      (answers (second.step deployment) second.initial
        (turns.map fun turn => (turn.1.2, turn.2))) := by
  refine first.conforms.exchange second.conforms right_alike first.initial_holds
    second.initial_holds ?_ (allowed.project Prod.fst fun _ _ _ => And.left)
    (allowed.project Prod.snd fun _ _ _ => And.right)
  rw [List.map_map, List.map_map]
  rfl

theorem mongodb_for_postgres : List.Forall₂ Alike
    (answers (Backend.mongodb.step oneBot) Backend.mongodb.initial
      (storeAndList.map fun call => (Arrangement.stored _, call)))
    (answers (Backend.postgres.step oneBot) Backend.postgres.initial
      (storeAndList.map fun call => (Arrangement.stored _, call))) := by
  have exchanged := databases_interchange oneBot .mongodb .postgres
    (storeAndList.map fun call => ((Arrangement.stored _, Arrangement.stored _), call))
    ⟨⟨⟨trivial, ⟨rfl, rfl⟩, fun _ => rfl⟩, postgres_suits, ⟨rfl, rfl⟩, oneBot_storable⟩,
      ⟨⟨trivial, ⟨rfl, rfl⟩, trivial⟩, postgres_suits, ⟨rfl, rfl⟩, postgres_accepts (by decide)⟩,
      ⟨⟨trivial, trivial, trivial⟩, postgres_suits, trivial, postgres_accepts (by decide)⟩, trivial⟩
  exact exchanged

end Runs

end BaileysSession.Interchange
