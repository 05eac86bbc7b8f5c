import V2G.Error.MessageError
import V2G.Json.Writer

/-!
# Events

What is worth a record while messages are read and written, with the level of the record
and its text. Calls of hooks are events too, but leave no record.
-/

namespace V2G

/-- The two places where a caller's own code is run. -/
inductive HookPoint where
  | afterParse
  | afterSerialize
  deriving DecidableEq

inductive Event where
  | decoding (path : Path)
  | decodingMember (path : Path)
  | ignoredKeys (keys : List String) (element : Element)
  | parseFailed (element : Element) (error : MessageError)
  | parsed (element : Element) (document : Json)
  | serialized (type : String) (document : Json)
  | unreadableText (element : Element) (reason : String)
  | unknownMessage (name : String)
  | misfit (response request : String) (error : MessageError)
  | hookCalled (hook : HookPoint) (message : String)
  | hookFailed (hook : HookPoint) (type : String)

namespace Event

/-- Levels of records, from the walk through each key up to errors. -/
def traceLevel : Nat := 5
def debugLevel : Nat := 10
def infoLevel : Nat := 20
def errorLevel : Nat := 40

/-- The level and the text of the record of an event. -/
def record? : Event → Option (Nat × String)
  | .decoding path => some (traceLevel, s!"Decoding {path.render}")
  | .decodingMember path => some (traceLevel, s!"Decoding choice member {path.render}")
  | .ignoredKeys keys e =>
    some (debugLevel, s!"Ignoring unknown keys {Text.quotedList keys} of {e.name}")
  | .parseFailed e error => some (debugLevel, s!"Parsing {e.name} failed: {error.message}")
  | .parsed e document => some (infoLevel, s!"Parsed {e.name}: {document.text}")
  | .serialized type document => some (infoLevel, s!"Serialized {type}: {document.text}")
  | .unreadableText e reason => some (debugLevel, s!"Invalid JSON text for {e.name}: {reason}")
  | .unknownMessage name => some (errorLevel, s!"{name} is not a known ISO 15118-20 message")
  | .misfit response request error =>
    some (debugLevel, s!"{response} does not fit {request}: {error.message}")
  | .hookFailed .afterParse type =>
    some (errorLevel, s!"post_parse hook failed for {type}, continuing with the parsed message")
  | .hookFailed .afterSerialize type =>
    some (errorLevel,
      s!"post_serialize hook failed for {type}, continuing with the serialized object")
  | .hookCalled _ _ => none

end Event

end V2G
