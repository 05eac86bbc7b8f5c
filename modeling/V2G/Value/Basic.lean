import V2G.Keyed
import V2G.Number.Double
import V2G.Schema.Element
import V2G.Schema.Token
import V2G.Schema.Identifier

/-!
# Values

What a program hands to an element and what an element holds. An element value lists the
value of every field in declaration order, its choice last, and `none` where a field is
absent. `list` and `dict` occur in arguments only: elements hold tuples and elements. A mapping that
is no dictionary has no form here, but stands as the element that it makes (`Element.ofMapping`).
-/

namespace V2G

inductive Value where
  | none
  | bool (b : Bool)
  | int (n : Int)
  | float (x : Double)
  | text (s : String)
  | bytes (data : List UInt8)
  | token (type : TokenType) (token : String)
  | identifier (type : IdentifierType) (text : String)
  | url (text : String)
  | tuple (items : List Value)
  | list (items : List Value)
  | dict (entries : List (String × Value))
  | choice (member : String) (value : Value)
  | element (element : Element) (fields : List (String × Value))
  deriving Inhabited

namespace Value

def isNone : Value → Bool
  | .none => true
  | _ => false

/-- The name of a value's type in diagnostics. -/
def typeName : Value → String
  | .none => "NoneType"
  | .bool _ => "bool"
  | .int _ => "int"
  | .float _ => "float"
  | .text _ => "str"
  | .bytes _ => "bytes"
  | .token t _ => t.name
  | .identifier t _ => t.name
  | .url _ => "HttpUrl"
  | .tuple _ => "tuple"
  | .list _ => "list"
  | .dict _ => "dict"
  | .choice _ _ => "Choice"
  | .element e _ => e.name

/-- The value of a field of an element, `none` where it has no such field. -/
def field (v : Value) (name : String) : Value :=
  match v with
  | .element _ fields => (Keyed.get? fields name).getD .none
  | _ => .none

/-- The text of a value that is one: plain texts, tokens and identifiers. -/
def text? : Value → Option String
  | .text s | .token _ s | .identifier _ s => some s
  | _ => .none

/-- The items of a tuple or list. -/
def items? : Value → Option (List Value)
  | .tuple xs | .list xs => some xs
  | _ => .none

/-- An empty tuple or list. -/
def isEmptyCollection : Value → Bool
  | .tuple [] | .list [] => true
  | _ => false

end Value

end V2G
