import V2G.Error.MessageError
import V2G.Schema.Declaration

/-!
# Rules over several fields

What must hold between the fields of an element, once each has a value of its kind.
-/

namespace V2G

namespace Value

/-- The name of the selected member. -/
def member? : Value → Option String
  | .choice m _ => some m
  | _ => Option.none

/-- Whether a value is the token. -/
def isThe (v : Value) (token : String) : Bool := v.text? == some token

def intValue? : Value → Option Int
  | .int n => some n
  | _ => Option.none

end Value

/-- The key of a member by its name. -/
def Group.keyOf (g : Group) (name : String) : String := ((g.member? name).map (·.key)).getD name

namespace Rule

/-- The parameters given are those of a service that is offered. -/
def offeredService (v : Value) : Option MessageError :=
  let mode := ((v.field "auth_mode").member?).getD ""
  let service := if mode = "pnc_as_res" then "PnC" else "EIM"
  let offered := ((v.field "auth_services").items?.getD []).filterMap Value.text?
  if offered.contains service then none
  else some (.violated
    (.serviceNotOffered (Group.authSetupResMode.keyOf mode) service offered))

/-- The parameters given are those of the service that is selected. -/
def selectedService (v : Value) : Option MessageError :=
  let mode := ((v.field "auth_mode").member?).getD ""
  let service := ((v.field "selected_auth_service").text?).getD ""
  if mode = (if service = "PnC" then "pnc_params" else "eim_params") then none
  else some (.violated (.otherServiceSelected service (Group.authReqMode.keyOf mode)))

def pairedV2xLimits (v : Value) : Option MessageError :=
  if (v.field "ev_max_v2x_energy_request").isNone == (v.field "ev_min_v2x_energy_request").isNone
  then none
  else some (.violated .unpairedV2xLimits)

/-- Of two charge states the minimum does not exceed the target. -/
def socOrder? (min target : Option Int) : Option Violation := do
  let min ← min
  let target ← target
  if target < min then some (.socOrder min target) else none

def orderedSoc (v : Value) : Option MessageError :=
  (socOrder? (v.field "min_soc").intValue? (v.field "target_soc").intValue?).map .violated

/-- Once a schedule exchange is finished, a control mode is given. -/
def finishedMode (v : Value) : Option MessageError :=
  if (v.field "evse_processing").isThe "Finished" && (v.field "control_mode").isNone then
    some (.missingChoice Group.seResControlMode.name Group.seResControlMode.keys)
  else none

/-- A vehicle that has finished processing and starts to charge sends its power profile. -/
def startProfile (v : Value) : Option MessageError :=
  if (v.field "ev_processing").isThe "Finished" && (v.field "charge_progress").isThe "Start" &&
      (v.field "ev_power_profile").isNone then
    some (.violated .missingPowerProfile)
  else none

/-- The curve that a kind of private key belongs to. Keys for a trusted platform module
belong to either. -/
def curveOf? (member : String) : Option String :=
  if member = "secp521_encrypted_private_key" then some "SECP521"
  else if member = "x448_encrypted_private_key" then some "X448"
  else none

def fittingKey (v : Value) : Option MessageError := do
  let member ← (v.field "encrypted_private_key").member?
  let expected ← curveOf? member
  let curve ← (v.field "ecdh_curve").text?
  if curve = expected then none
  else some (.violated (.foreignKey (Group.encryptedPrivateKey.keyOf member) curve))

/-- The rule of an element that a value of it breaks. -/
def broken? (e : Element) (v : Value) : Option MessageError :=
  match e with
  | .authorizationSetupRes => offeredService v
  | .authorizationReq => selectedService v
  | .dynamicScheduleExchangeReqParams => pairedV2xLimits v
  | .dynamicScheduleExchangeResParams => orderedSoc v
  | .scheduleExchangeRes => finishedMode v
  | .powerDeliveryReq => startProfile v
  | .signedInstallationData => fittingKey v
  | _ => none

end Rule

end V2G
