import V2G.Build.Number
import V2G.Url.Reader

/-!
# Single values from arguments

What an argument becomes as the value of a kind. Elements are taken as they are if they
are of the class asked for or extend it.
-/

namespace V2G

variable [Url.Reader]

namespace Build

def boundedText (least : Nat) (most : Option Nat) (s : String) : Except Fault Value :=
  match most.filter (· < s.length) with
  | some most => .error (.longText most)
  | none => if s.length < least then .error (.shortText least) else .ok (.text s)

def readText (least : Nat) (most : Option Nat) (v : Value) : Except Fault Value :=
  match spelled? v with
  | some (some s) => boundedText least most s
  | some none => .error .undecodableText
  | none => .error .notText

def boundedBytes (least : Nat) (most : Option Nat) (data : List UInt8) : Except Fault Value :=
  match most.filter (· < data.length) with
  | some most => .error (.longBytes most)
  | none => if data.length < least then .error (.shortBytes least) else .ok (.bytes data)

def readBytes (least : Nat) (most : Option Nat) (v : Value) : Except Fault Value :=
  match v with
  | .bytes data => boundedBytes least most data
  | v =>
    match v.text? with
    | some s => boundedBytes least most (Text.utf8Bytes s)
    | none => .error .notBytes

/-- A member of a token set, given as such or by its token. -/
def readToken (t : TokenType) (v : Value) : Except Fault Value :=
  match spelled? v with
  | some (some s) => if t.tokens.contains s then .ok (.token t s) else .error (.noToken t)
  | _ => .error (.noToken t)

/-- The most bytes of the text of a URL. -/
def maxUrlBytes : Nat := 2083

def urlOfText (s : String) : Except Fault Value :=
  if maxUrlBytes < s.utf8ByteSize then .error .longUrl
  else
    match Url.read s with
    | .error f => .error (.unreadableUrl f)
    | .ok none => .error .foreignScheme
    | .ok (some u) => if u.isWeb then .ok (.url u.text) else .error .foreignScheme

def readUrl (v : Value) : Except Fault Value :=
  match v with
  | .url s => .ok (.url s)
  | v =>
    match spelled? v with
    | some (some s) => urlOfText s
    | _ => .error .notUrl

end Build

namespace IdentifierType

/-- The text that an argument stands for in an identifier. A token stands for its symbol. -/
def content (v : Value) : String := v.shown

/-- The identifier of a type that an argument stands for. What is measured is the text of the
argument. -/
def read (t : IdentifierType) (v : Value) : Except IdentifierFault Value :=
  match v.text? with
  | none => .error (.notText t v.typeName)
  | some s =>
    if s.length < t.least || t.most < s.length then .error (.badLength t (content v))
    else if !s.toList.all t.allows then .error (.badCharacter t (content v))
    else .ok (.identifier t (content v))

end IdentifierType

namespace Build

def readElement (e : Element) (v : Value) : Except Fault Value :=
  match v with
  | .element e' fs => if e'.isA e then .ok (.element e' fs) else .error (.noElement e)
  | _ => .error (.noElement e)

/-- An argument that is no dictionary as a value of a kind. -/
def readScalar (k : Kind) (v : Value) : Except Fault Value :=
  match k with
  | .int low high => do return .int (← inRange low high (← readInt v))
  | .bool => (readBool v).map .bool
  | .text least most => readText least most v
  | .bytes least most => readBytes least most v
  | .url => readUrl v
  | .token t => readToken t v
  | .identifier t => (t.read v).mapError .identifier
  | .element e => readElement e v

end Build

end V2G
