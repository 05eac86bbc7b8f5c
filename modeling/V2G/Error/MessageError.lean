import V2G.Base64
import V2G.Error.Fault
import V2G.Value.Display

/-!
# Message errors

What can be wrong with a message: a mandatory key that is missing, a key whose value is
malformed, a choice group with no or several members, a rule over several fields that is
broken. Each error names its field: a path into the document, a choice group, or the key
that a rule is about.
-/

namespace V2G

/-- A rule over several fields that does not hold. -/
inductive Violation where
  | serviceNotOffered (key service : String) (offered : List String)
  | otherServiceSelected (service key : String)
  | unpairedV2xLimits
  | socOrder (min target : Int)
  | missingPowerProfile
  | foreignKey (key curve : String)
  | otherService (described requested : Int)
  | otherControlMode (group response request : String)
  | otherDirection (message : String) (offered requested : Bool)
  /-- A rule of the caller's own. -/
  | stated (field message : String) (rule : Option String)
  deriving DecidableEq

namespace Violation

def direction (bidirectional : Bool) : String :=
  if bidirectional then "BPT" else "unidirectional"

def field : Violation → String
  | .serviceNotOffered _ _ _ => "authorizationServices"
  | .otherServiceSelected _ _ => "selectedAuthorizationService"
  | .unpairedV2xLimits => "evMaximumV2xEnergyRequest"
  | .socOrder _ _ => "minimumSoc"
  | .missingPowerProfile => "evPowerProfile"
  | .foreignKey _ _ => "ecdhCurve"
  | .otherService _ _ => "serviceId"
  | .otherControlMode group _ _ => group
  | .otherDirection _ _ _ => "energyTransferMode"
  | .stated field _ _ => field

def message : Violation → String
  | .serviceNotOffered key service offered =>
    s!"{key} is set, but {service} is not among the authorization services " ++
      Text.quotedList offered
  | .otherServiceSelected service key =>
    s!"selectedAuthorizationService is {service} but {key} is set"
  | .unpairedV2xLimits =>
    "evMaximumV2xEnergyRequest and evMinimumV2xEnergyRequest must either be both set or " ++
      "both omitted. Only one of them was set"
  | .socOrder min target =>
    "minimumSOC must be less than or equal to targetSOC. " ++
      s!"minimumSOC: {min}, targetSOC: {target}"
  | .missingPowerProfile =>
    "evPowerProfile is not set although evProcessing is Finished and chargeProgress is Start"
  | .foreignKey key curve => s!"{key} does not fit ecdhCurve {curve}"
  | .otherService described requested =>
    s!"ServiceDetailRes describes service {described}, but service {requested} was requested"
  | .otherControlMode _ response request =>
    s!"Response control mode '{response}' does not match " ++
      s!"the requested control mode '{request}'"
  | .otherDirection message offered requested =>
    s!"{message} carries {direction offered} parameters, but " ++
      s!"{direction requested} parameters were requested"
  | .stated _ message _ => message

/-- The requirement of the standard that the rule stems from. -/
def rule : Violation → Option String
  | .unpairedV2xLimits => some "V2G20-2681"
  | .socOrder _ _ => some "V2G20-1640"
  | .stated _ _ rule => rule
  | _ => none

end Violation

/-- Why the value of a key is malformed. -/
inductive Detail where
  | none
  | notAnObject (given : String)
  | notAnArray (given : String)
  | notA (type given : String)
  | notBase64Text (given : String)
  | base64 (fault : Base64.Fault)
  | unknownKey (element : Element)
  | refused (fault : Fault)
  | identifier (fault : IdentifierFault)
  | unreadable (reason : String)
  | notAnEnvelope
  | unknownMessage
  | stated (text : String)

namespace Detail

def text : Detail → String
  | .none => ""
  | .notAnObject given => s!"Expected a JSON object, got {given}"
  | .notAnArray given => s!"Expected a JSON array, got {given}"
  | .notA type given => s!"Expected a JSON {type}, got {given}"
  | .notBase64Text given => s!"Expected a Base64 string, got {given}"
  | .base64 fault => s!"Invalid Base64: {fault.message}"
  | .unknownKey e => s!"Unknown key for {e.name}"
  | .refused fault => fault.message
  | .identifier fault => fault.message
  | .unreadable reason => reason
  | .notAnEnvelope => "Expected a JSON object with exactly one message name key"
  | .unknownMessage => "Unknown message name"
  | .stated text => text

def cause : Detail → List Issue
  | .refused fault => fault.cause
  | _ => []

end Detail

inductive MessageError where
  | missingMandatory (path : Path)
  | malformed (path : Path) (detail : Detail)
  | missingChoice (group : String) (members : List String)
  | conflictingChoice (group : String) (members : List String)
  | violated (violation : Violation)
  /-- An error about a choice group that its message tells. -/
  | choice (group : String) (members : List String) (message : String)
  /-- An error that its message tells. -/
  | other (field message : String)

namespace MessageError

def field : MessageError → String
  | .missingMandatory path | .malformed path _ => path.render
  | .missingChoice group _ | .conflictingChoice group _ | .choice group _ _ => group
  | .violated v => v.field
  | .other field _ => field

def message : MessageError → String
  | .missingMandatory path => s!"{path.render} is mandatory"
  | .malformed path detail =>
    let summary := s!"{path.render} is invalid"
    if detail.text = "" then summary else s!"{summary}: {detail.text}"
  | .missingChoice group members =>
    s!"{group} is mandatory: exactly one of {Text.quotedList members} must be set"
  | .conflictingChoice group members =>
    s!"{group} allows only one member but {Text.quotedList members} are set"
  | .violated v => v.message
  | .choice _ _ message => message
  | .other _ message => message

end MessageError

end V2G
