/-!
# Settings

What a deployment chooses: the least level of the records it wants, whether each document
that is read or written is recorded, and whether keys that no element declares are refused.
-/

namespace V2G

structure Settings where
  logLevel : String := "INFO"
  recordDocuments : Bool := false
  rejectUnknown : Bool := true
  deriving DecidableEq

end V2G
