import BaileysSession.Cache.CoherentPrograms
import BaileysSession.Retention.Retention

set_option autoImplicit false

namespace BaileysSession.Retention

open Async CacheManager

def deleteStale (redis : Option RedisMode) (sessionId : String) (staleKeys : List String) :
    Program (List String) :=
  if staleKeys.length = 0 then pure []
  else do
    adapterDeleteMany sessionId staleKeys
    onDeletedEach redis sessionId staleKeys
    pure staleKeys

def pruneCandidates (redis : Option RedisMode) (sessionId : String) (options : KeyRetentionOptions)
    (candidates : List String) : Program (List String) :=
  if candidates.length = 0 then pure []
  else do
    let records ← adapterGetMany sessionId candidates
    let now ← dateNow
    deleteStale redis sessionId (staleKeys options now candidates records)

def pruneExpiredKeys (redis : Option RedisMode) (sessionId : String)
    (options : KeyRetentionOptions) : Program (List String) :=
  if options.enabled then do
    let allKeys ← adapterGetAllKeys sessionId
    pruneCandidates redis sessionId options (candidates options allKeys)
  else pure []

end BaileysSession.Retention
