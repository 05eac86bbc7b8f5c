import V2G.Schema.Element
import V2G.Schema.Token
import V2G.Schema.Identifier

/-!
# Fields

What an element declares: its fields in order, each with a name (for building the
element in a program), a key (for the wire), the kind of its value and its number of
occurrences, and at most one choice group. A collection is ordered (`list`) or a set
of distinct entries (`set`).
-/

namespace V2G

/-- The kind of a single value. -/
inductive Kind where
  | int (low high : Option Int)
  | bool
  | text (least : Nat) (most : Option Nat)
  | bytes (least : Nat) (most : Option Nat)
  | url
  | token (type : TokenType)
  | identifier (type : IdentifierType)
  | element (element : Element)
  deriving DecidableEq

namespace Kind

abbrev range (low high : Int) : Kind := .int (some low) (some high)
abbrev anyText : Kind := .text 0 none
abbrev anyBytes : Kind := .bytes 0 none
abbrev int8 : Kind := .range (-128) 127
abbrev int16 : Kind := .range (-32768) 32767
abbrev int32 : Kind := .range (-2147483648) 2147483647
abbrev uint8 : Kind := .range 0 255
abbrev uint16 : Kind := .range 0 65535
abbrev uint32 : Kind := .range 0 4294967295
abbrev uint64 : Kind := .range 0 18446744073709551615
abbrev percentage : Kind := .range 0 100
abbrev numericIdType : Kind := .range 1 4294967295
abbrev nameType : Kind := .text 1 (some 80)
abbrev descriptionType : Kind := .text 0 (some 160)
abbrev identifierType : Kind := .text 1 (some 255)
abbrev certificateType : Kind := .bytes 0 (some 1600)
abbrev rational : Kind := .element .rationalNumber

/-- The name a kind goes by in a description. -/
def name : Kind → String
  | .int _ _ => "int"
  | .bool => "bool"
  | .text _ _ => "str"
  | .bytes _ _ => "bytes"
  | .url => "HttpUrl"
  | .token t => t.name
  | .identifier t => t.name
  | .element e => e.name

end Kind

/-- The value of a field: one value, or a collection with bounds on its size. -/
inductive Shape where
  | one (kind : Kind)
  | list (kind : Kind) (least most : Nat)
  | set (kind : Kind) (least most : Nat)
  deriving DecidableEq

namespace Shape

def kind : Shape → Kind
  | .one k | .list k _ _ | .set k _ _ => k

def isCollection : Shape → Bool
  | .one _ => false
  | _ => true

/-- Whether the order of the entries carries no meaning. -/
def isUnordered : Shape → Bool
  | .set _ _ _ => true
  | _ => false

end Shape

/-- A field of an element. -/
structure Field where
  name : String
  key : String
  required : Bool
  shape : Shape
  deriving DecidableEq

namespace Field

def mandatory (name key : String) (kind : Kind) : Field := ⟨name, key, true, .one kind⟩
def optional (name key : String) (kind : Kind) : Field := ⟨name, key, false, .one kind⟩
def mandatoryMany (name key : String) (shape : Shape) : Field := ⟨name, key, true, shape⟩
def optionalMany (name key : String) (shape : Shape) : Field := ⟨name, key, false, shape⟩

end Field

/-- A member of a choice group, with its own name, key and kind of value. -/
structure Member where
  name : String
  key : String
  kind : Kind
  deriving DecidableEq

/-- A choice group: of its members exactly one (required) or at most one is present. -/
structure Group where
  name : String
  members : List Member
  required : Bool
  deriving DecidableEq

namespace Group

def names (g : Group) : List String := g.members.map (·.name)
def keys (g : Group) : List String := g.members.map (·.key)
def member? (g : Group) (name : String) : Option Member := g.members.find? (·.name == name)

end Group

/-- The field of an element that holds the selection of a choice group. -/
structure ChoiceField where
  name : String
  group : Group
  deriving DecidableEq

end V2G
