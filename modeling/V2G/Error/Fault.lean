import V2G.Error.Path
import V2G.Schema.Field
import V2G.Text.Quoted
import V2G.Url.Fault

/-!
# Faults

Why a value is refused, and where: an issue is a fault at a place of the arguments. The
`code` of a fault is its name in a report and `message` its sentence.
-/

namespace V2G

/-- Why a text is no identifier of a type. -/
inductive IdentifierFault where
  | notText (type : IdentifierType) (given : String)
  | badLength (type : IdentifierType) (text : String)
  | badCharacter (type : IdentifierType) (text : String)
  deriving DecidableEq

def IdentifierFault.message : IdentifierFault → String
  | .notText t given => s!"{t.name} must be given as text, not {given}"
  | .badLength t text =>
    s!"Invalid value '{text}' for {t.name} (length must be within [{t.least}..{t.most}])"
  | .badCharacter t text => s!"Invalid value '{text}' for {t.name} (must be {t.description})"

inductive Fault where
  | missing
  | unexpected
  | frozen
  | notInt
  | unreadableInt
  | overlongInt
  | fractionalInt
  | notFinite
  | notBool
  | unreadableBool
  | notText
  | undecodableText
  | shortText (least : Nat)
  | longText (most : Nat)
  | notBytes
  | shortBytes (least : Nat)
  | longBytes (most : Nat)
  | tooSmall (low : Int)
  | tooLarge (high : Int)
  | noToken (type : TokenType)
  | noElement (element : Element)
  | notCollection
  | tooFew (least count : Nat)
  | tooMany (most count : Nat)
  | tooManyDistinct (most count : Nat)
  | identifier (fault : IdentifierFault)
  | notUrl
  | unreadableUrl (fault : Url.Fault)
  | foreignScheme
  | longUrl
  /-- The name is no member of the group. -/
  | notAMember (given : String) (group : Group)
  /-- The value under the field of a group is no selection. -/
  | notAChoice (group : Group) (given : String)
  /-- An element of another class than the member's own. -/
  | otherElement (key : String) (kind : Kind) (given : Element)
  /-- The value of a member is refused. -/
  | badMember (key : String) (issues : List (Path × Fault))
  | notArguments
  | missingArgument
  | unexpectedArgument
  | unexpectedKeyword

/-- A fault and its place. -/
structure Issue where
  place : Path
  fault : Fault

namespace Fault

def code : Fault → String
  | .missing => "missing"
  | .unexpected => "extra_forbidden"
  | .frozen => "frozen_instance"
  | .notInt => "int_type"
  | .unreadableInt => "int_parsing"
  | .overlongInt => "int_parsing_size"
  | .fractionalInt => "int_from_float"
  | .notFinite => "finite_number"
  | .notBool => "bool_type"
  | .unreadableBool => "bool_parsing"
  | .notText => "string_type"
  | .undecodableText => "string_unicode"
  | .shortText _ => "string_too_short"
  | .longText _ => "string_too_long"
  | .notBytes => "bytes_type"
  | .shortBytes _ => "bytes_too_short"
  | .longBytes _ => "bytes_too_long"
  | .tooSmall _ => "greater_than_equal"
  | .tooLarge _ => "less_than_equal"
  | .noToken _ => "enum"
  | .noElement _ => "model_type"
  | .notCollection => "tuple_type"
  | .tooFew _ _ => "too_short"
  | .tooMany _ _ => "too_long"
  | .notUrl => "url_type"
  | .unreadableUrl _ => "url_parsing"
  | .foreignScheme => "url_scheme"
  | .longUrl => "url_too_long"
  | .tooManyDistinct _ _ | .identifier _ | .notAMember _ _ | .notAChoice _ _
  | .otherElement _ _ _ | .badMember _ _ => "value_error"
  | .notArguments => "arguments_type"
  | .missingArgument => "missing_argument"
  | .unexpectedArgument => "unexpected_positional_argument"
  | .unexpectedKeyword => "unexpected_keyword_argument"

/-- A number of things, in the singular for one. -/
def count (n : Nat) (thing : String) : String :=
  if n = 1 then s!"{n} {thing}" else s!"{n} {thing}s"

/-- Alternatives in quotes, the last after "or". -/
def alternatives : List String → String
  | [] => ""
  | [a] => s!"'{a}'"
  | [a, b] => s!"'{a}' or '{b}'"
  | a :: rest => s!"'{a}', " ++ alternatives rest

/-- The sentence of a fault by itself. -/
def sentence : Fault → String
  | .missing => "Field required"
  | .unexpected => "Extra inputs are not permitted"
  | .frozen => "Instance is frozen"
  | .notInt => "Input should be a valid integer"
  | .unreadableInt => "Input should be a valid integer, unable to parse string as an integer"
  | .overlongInt => "Unable to parse input string as an integer, exceeded maximum size"
  | .fractionalInt => "Input should be a valid integer, got a number with a fractional part"
  | .notFinite => "Input should be a finite number"
  | .notBool => "Input should be a valid boolean"
  | .unreadableBool => "Input should be a valid boolean, unable to interpret input"
  | .notText => "Input should be a valid string"
  | .undecodableText =>
    "Input should be a valid string, unable to parse raw data as a unicode string"
  | .shortText n => "String should have at least " ++ count n "character"
  | .longText n => "String should have at most " ++ count n "character"
  | .notBytes => "Input should be a valid bytes"
  | .shortBytes n => "Data should have at least " ++ count n "byte"
  | .longBytes n => "Data should have at most " ++ count n "byte"
  | .tooSmall n => s!"Input should be greater than or equal to {n}"
  | .tooLarge n => s!"Input should be less than or equal to {n}"
  | .noToken t => "Input should be " ++ alternatives t.tokens
  | .noElement e => s!"Input should be a valid dictionary or instance of {e.name}"
  | .notCollection => "Input should be a valid tuple"
  | .tooFew least n =>
    "Tuple should have at least " ++ count least "item" ++ s!" after validation, not {n}"
  | .tooMany most n =>
    "Tuple should have at most " ++ count most "item" ++ s!" after validation, not {n}"
  | .tooManyDistinct most n => s!"At most {most} distinct entries allowed, got {n}"
  | .identifier f => f.message
  | .notUrl => "URL input should be a string or URL"
  | .unreadableUrl f => s!"Input should be a valid URL, {f.message}"
  | .foreignScheme => "URL scheme should be 'http' or 'https'"
  | .longUrl => "URL should have at most 2083 characters"
  | .notAMember given g =>
    s!"'{given}' is not a member of choice group {g.name}. " ++
      s!"Members are {Text.quotedList g.names}"
  | .notAChoice g given => s!"{g.name} must be given as Choice(member, value), got {given}"
  | .otherElement key kind given => s!"{key} must be a {kind.name}, got {given.name}"
  | .badMember key _ => s!"Invalid value for {key}"
  | .notArguments => "Arguments must be a tuple, list or a dictionary"
  | .missingArgument => "Missing required argument"
  | .unexpectedArgument => "Unexpected positional argument"
  | .unexpectedKeyword => "Unexpected keyword argument"

/-- The sentence of a fault in a report. -/
def message (f : Fault) : String :=
  if f.code = "value_error" then "Value error, " ++ f.sentence else f.sentence

/-- The issues inside a fault. -/
def cause : Fault → List Issue
  | .badMember _ issues => issues.map fun (place, fault) => ⟨place, fault⟩
  | _ => []

end Fault

end V2G
