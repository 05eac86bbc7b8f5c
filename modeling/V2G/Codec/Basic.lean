import V2G.Exchange.Correlation
import V2G.Json.Reader
import V2G.Settings.Basic
import V2G.Text.Encoding
import V2G.Wire.Decode
import V2G.Wire.Encode

/-!
# The codec

Messages to and from documents. A caller may have code of their own run after each
document is read and after each message is written, which may replace the result; if it
fails, the result stands. Documents may be recorded. The record holds the text of the
document, so that it fails where `limit`, which says how many digits an integer may have in
a text, is exceeded; there is no limit where none is given.
-/

namespace V2G

variable [Url.Reader]

/-- Hooks give `none` where they fail. -/
structure Codec where
  afterParse : Option (Json → Value → Option Value) := none
  afterSerialize : Option (Value → Json → Option Json) := none

namespace Codec

/-- The codec without hooks. -/
def plain : Codec := {}

/-! ### Records -/

/-- The text of a document. -/
def textOf (document : Json) (limit : Option Nat) : Traced String :=
  .ofExcept ((document.dump limit).mapError fun most => .misuse (.longInteger most))

/-- Records a document, if documents are recorded. -/
def record (s : Settings) (event : Event) (document : Json) (limit : Option Nat) :
    Traced Unit := do
  if s.recordDocuments then
    let _ ← textOf document limit
    Traced.emit event

/-! ### Reading -/

/-- The result of a hook, or what it was given. -/
def runHook {α : Type} (point : HookPoint) (title type : String) (given : α) :
    Option (Unit → Option α) → Traced α
  | none => pure given
  | some run => do
    Traced.emit (.hookCalled point title)
    match run () with
    | some result => return result
    | none =>
      Traced.emit (.hookFailed point type)
      return given

/-- The message of a document. A failure that is an answer is recorded. -/
def parse (c : Codec) (s : Settings) (e : Element) (document : Json)
    (limit : Option Nat := none) : Traced Value :=
  let read := Wire.decode s.rejectUnknown document (.one (.element e)) []
  match read.outcome with
  | .error (.error error) => ⟨read.events ++ [.parseFailed e error], read.outcome⟩
  | _ => do
    let message ← read
    record s (.parsed e document) document limit
    runHook .afterParse message.shown message.typeName message
      (c.afterParse.map fun hook _ => hook document message)

/-- The message of a document that names it. -/
def parseNamed (c : Codec) (s : Settings) (document : Json) (limit : Option Nat := none) :
    Traced Value :=
  match document with
  | .obj [(name, body)] =>
    match Element.ofMessageName? name with
    | some e => c.parse s e body limit
    | none => do
      Traced.emit (.unknownMessage name)
      .error (.malformed [.key name] .unknownMessage)
  | _ => .error (.malformed [] .notAnEnvelope)

/-- The response to a request, checked against it. -/
def parseResponse (c : Codec) (s : Settings) (request : Value) (document : Json)
    (limit : Option Nat := none) : Traced Value := do
  let e ← Traced.ofExcept (Exchange.responseOf request)
  let response ← c.parse s e document limit
  match Exchange.correlate response request with
  | .error (.error error) => do
    Traced.emit (.misfit response.shown request.shown error)
    .error error
  | outcome => Traced.ofExcept outcome

/-- The message of a document that was read, or of the reason why none was. -/
def parseReading (c : Codec) (s : Settings) (e : Element) (read : Except String Json)
    (limit : Option Nat) : Traced Value :=
  match read with
  | .ok document => c.parse s e document limit
  | .error reason => do
    Traced.emit (.unreadableText e reason)
    .error (.malformed [.key e.name] (.unreadable reason))

/-- The message of a JSON text. -/
def fromText (c : Codec) (s : Settings) (e : Element) (text : List Char)
    (limit : Option Nat := Json.digitLimit) : Traced Value :=
  c.parseReading s e ((Json.read text limit).mapError fun f => f.message text) limit

/-- The message of a JSON text in any of its encodings. -/
def fromBytes (c : Codec) (s : Settings) (e : Element) (bytes : List UInt8)
    (limit : Option Nat := Json.digitLimit) : Traced Value :=
  let read := match Text.decode bytes with
    | .error f => .error f.message
    | .ok text => (Json.readBody text limit).mapError fun f => f.message text
  c.parseReading s e read limit

/-! ### Writing -/

/-- The document of a message. -/
def serialize (c : Codec) (s : Settings) (message : Value) (limit : Option Nat := none) :
    Traced Json :=
  match message with
  | .element e fs => do
    let written ← Traced.ofExcept ((Wire.encode (.element e fs)).mapError .misuse)
    let document ← runHook .afterSerialize message.shown message.typeName written
      (c.afterSerialize.map fun hook _ => hook message written)
    record s (.serialized message.typeName document) document limit
    return document
  | v => .misuse (.noFields v.typeName)

/-- The text of the document of a message. -/
def toText (c : Codec) (s : Settings) (message : Value) (limit : Option Nat := none) :
    Traced String := do
  textOf (← c.serialize s message limit) limit

/-- The document of a message under the name of the message. -/
def serializeNamed (c : Codec) (s : Settings) (message : Value) (limit : Option Nat := none) :
    Traced Json := do
  let name ← Traced.ofExcept (Exchange.nameOf message)
  return .obj [(name, ← c.serialize s message limit)]

end Codec

end V2G
