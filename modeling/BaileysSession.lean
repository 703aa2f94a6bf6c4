import BaileysSession.Utils.WriteBatcherFailures
import BaileysSession.Utils.WriteBatcherRefinement
import BaileysSession.Lock.RedisLockExclusion
import BaileysSession.Adapter.Firestore
import BaileysSession.Factory.KeysSetSerial
import BaileysSession.Factory.KeysRoundTrip
import BaileysSession.Factory.ProcessWritesOverlap
import BaileysSession.Retention.RetentionRace
import BaileysSession.Retention.RetentionScope
import BaileysSession.Retention.FirebasePrune
import BaileysSession.Cache.TcpCoherence
import BaileysSession.Cache.RedisFailures
import BaileysSession.Cache.SessionOperations
import BaileysSession.Cache.SessionIsolation
import BaileysSession.Cache.SingleProcess
import BaileysSession.Cache.HttpDeletes
import BaileysSession.Cache.HttpVersions
import BaileysSession.Cache.InterleavingRuns
import BaileysSession.Cache.MemoryCacheRuns
import BaileysSession.Cache.MemoryCacheRecency
import BaileysSession.Retention.PruneExactness
import BaileysSession.Factory.KeysSetFailures
import BaileysSession.Adapter.FirebaseTree
import BaileysSession.Cache.RedisHttp
import BaileysSession.Cache.FailedWrites
import BaileysSession.Factory.RetryBudget
import BaileysSession.Adapter.SqliteStranding
import BaileysSession.Cache.MemoryCacheBounds
import BaileysSession.Adapter.RetriedWrites
import BaileysSession.Adapter.RecordVersions
import BaileysSession.Cache.RedisIsolation
import BaileysSession.Encryption.Authentication
import BaileysSession.Factory.Concurrency
import BaileysSession.Adapter.Interchange
import BaileysSession.Factory.KeysSetBatch
import BaileysSession.Factory.AuthState
import BaileysSession.Session.SessionInfo
import BaileysSession.Cache.ReadsSince
import BaileysSession.Cache.RedisTcp
import BaileysSession.Cache.MemoryCacheSweeps
import BaileysSession.Factory.HybridAuthState
import BaileysSession.Utils.WriteBatcherRest
import BaileysSession.Lock.LocalMutexRuns
