import BaileysSession.Shared.InsertionMap

set_option autoImplicit false

namespace BaileysSession

inductive Category where
  | preKey
  | session
  | senderKey
  | senderKeyMemory
  | appStateSyncKey
  | appStateSyncVersion
  | lidMapping
  | deviceList
  | tctoken
  | identityKey
  deriving DecidableEq, Repr

def Category.name : Category → String
  | .preKey => "pre-key"
  | .session => "session"
  | .senderKey => "sender-key"
  | .senderKeyMemory => "sender-key-memory"
  | .appStateSyncKey => "app-state-sync-key"
  | .appStateSyncVersion => "app-state-sync-version"
  | .lidMapping => "lid-mapping"
  | .deviceList => "device-list"
  | .tctoken => "tctoken"
  | .identityKey => "identity-key"

-- Categories and ids in the order in which `for..in` visits them; a category may be `undefined`.
abbrev SignalDataSet (Value : Type) := InsertionMap Category (Option (InsertionMap String Value))

end BaileysSession
