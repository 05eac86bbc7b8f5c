import V2G.Build.Rule
import V2G.Error.Failure
import V2G.Schema.Registry

/-!
# Requests and responses

A response answers requests of one class. It is bound to a request once its content agrees
with it: the service described is the one asked for, the control mode of a charge loop or
schedule exchange is the one requested, and a bidirectional offer answers a bidirectional
request. Being bound changes nothing in the response.
-/

namespace V2G.Exchange

/-- The class of an element value. -/
def elementOf? : Value → Option Element
  | .element e _ => some e
  | _ => none

/-- Whether a response of a class answers a value. -/
def answers (response : Element) (request : Value) : Bool :=
  match response.request?, elementOf? request with
  | some asked, some given => given.isA asked
  | _, _ => false

/-- Two selections of one mode, if both are made. -/
def sameMode (group : String) (response request : Value) : Option Violation := do
  let offered ← (response.field "control_mode").member?
  let requested ← (request.field "control_mode").member?
  if offered = requested then none else some (.otherControlMode group offered requested)

def isBidirectional (v : Value) : Bool :=
  (((v.field "energy_transfer_mode").member?).getD "").startsWith "bpt"

def sameDirection (e : Element) (response request : Value) : Option Violation :=
  let offered := isBidirectional response
  let requested := isBidirectional request
  if offered = requested then none else some (.otherDirection e.messageName offered requested)

def sameService (response request : Value) : Option Violation := do
  let described ← (response.field "service_id").intValue?
  let requested ← (request.field "service_id").intValue?
  if described = requested then none else some (.otherService described requested)

/-- What in a response contradicts the request it answers. -/
def contradiction? (e : Element) (response request : Value) : Option Violation :=
  if e.isA .serviceDetailRes then sameService response request
  else if e.isA .scheduleExchangeRes then sameMode Group.seResControlMode.name response request
  else if e.isA .chargeLoopRes then sameMode "CLResControlMode" response request
  else if e.isA .chargeParameterDiscoveryRes then sameDirection e response request
  else none

/-- The message name of a value, for a text about it. -/
def nameOf (v : Value) : Except Failure String :=
  match v with
  | .element e _ =>
    if e.isMessage then .ok e.messageName else .error (.misuse (.noAttribute e.name "message_name"))
  | v => .error (.misuse (.noAttribute v.typeName "message_name"))

/-- A request that a class of responses does not answer. -/
def unanswered {α : Type} (response : Element) (request : Value) : Except Failure α := do
  .error (.misuse (.notAnswered response.messageName (← nameOf request)))

/-- The response, if it can be bound to the request. -/
def correlate (response request : Value) : Except Failure Value :=
  match response with
  | .element e _ =>
    if !e.isResponse then .error (.misuse (.noAttribute e.name "correlate"))
    else if !answers e request then unanswered e request
    else
      match contradiction? e response request with
      | some v => .error (.error (.violated v))
      | none => .ok response
  | v => .error (.misuse (.noAttribute v.typeName "correlate"))

/-- The response class that answers a request of exactly this class. -/
def responseOf (request : Value) : Except Failure Element :=
  match (elementOf? request).bind Element.response? with
  | some e => .ok e
  | none => .error (.misuse (.notARequest request.typeName))

end V2G.Exchange
