/-!
# Identifiers

The simple text types of the protocol that carry a name of their own. An identifier is
a text whose length lies within the bounds of its type; a session identifier consists
of hexadecimal digits besides.
-/

namespace V2G

inductive IdentifierType where
  | sessionId
  | evccId
  | evseId
  | emaid
  | providerId
  deriving DecidableEq

namespace IdentifierType

def all : List IdentifierType :=
  [.sessionId, .evccId, .evseId, .emaid, .providerId]

def name : IdentifierType → String
  | .sessionId => "SessionID"
  | .evccId => "EVCCID"
  | .evseId => "EVSEID"
  | .emaid => "EMAID"
  | .providerId => "ProviderID"

def least (_ : IdentifierType) : Nat := 1

def most : IdentifierType → Nat
  | .sessionId => 16
  | .providerId => 80
  | _ => 255

def isHexDigit (c : Char) : Bool :=
  ('0' ≤ c && c ≤ '9') || ('a' ≤ c && c ≤ 'f') || ('A' ≤ c && c ≤ 'F')

/-- Whether a character may stand in an identifier of the type. -/
def allows : IdentifierType → Char → Bool
  | .sessionId, c => isHexDigit c
  | _, _ => true

/-- What an identifier of the type has to be, beyond its length. -/
def description : IdentifierType → String
  | .sessionId => "hexadecimal representation of max 8 bytes"
  | .providerId => "a name"
  | _ => "identifier"

end IdentifierType

end V2G
