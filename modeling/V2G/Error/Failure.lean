import V2G.Error.MessageError

/-!
# Failures

An operation on messages fails with a message error, which is an answer to bad input, or
with an error about the call: a value that has no place in it.
-/

namespace V2G

/-- An error about a call. -/
inductive Misuse where
  /-- Base64 text with characters beyond ASCII. -/
  | foreignCharacters
  /-- An integer with more digits than may be written. -/
  | longInteger (most : Nat)
  /-- A selection of what is no member of the group. -/
  | notAMember (given : String) (group : Group)
  | unhashable (type : String)
  | notARequest (type : String)
  | notAnswered (response request : String)
  /-- An argument of an answer that names what the answer is given besides its fields. -/
  | repeatedArgument (name : String)
  | noAttribute (type name : String)
  /-- A class that has no such attribute. -/
  | noClassAttribute (name : String)
  /-- An attribute of a class that is assigned on one of its values. -/
  | classAttribute (type name : String)
  | noFields (type : String)
  deriving DecidableEq

def Misuse.message : Misuse → String
  | .foreignCharacters => "string argument should contain only ASCII characters"
  | .longInteger most =>
    s!"Exceeds the limit ({most} digits) for integer string conversion; " ++
      "use sys.set_int_max_str_digits() to increase the limit"
  | .notAMember given group => (Fault.notAMember given group).sentence
  | .unhashable type => s!"unhashable type: '{type}'"
  | .notARequest type => s!"{type} is not an ISO 15118-20 request"
  | .notAnswered response request => s!"{response} does not answer {request}"
  | .repeatedArgument name =>
    s!"V2GResponse.answering() got multiple values for argument '{name}'"
  | .noAttribute type name => s!"'{type}' object has no attribute '{name}'"
  | .noClassAttribute name => name
  | .classAttribute type name =>
    s!"'{name}' is a ClassVar of `{type}` and cannot be set on an instance. " ++
      s!"If you want to set a value on the class, use `{type}.{name} = value`."
  | .noFields type => s!"type object '{type}' has no attribute 'model_fields'"

inductive Failure where
  | error (error : MessageError)
  | misuse (misuse : Misuse)

end V2G
