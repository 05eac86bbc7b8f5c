import V2G.Schema.Declaration

/-!
# Messages

The messages of the protocol: the name each goes by on the wire, and the response that
answers each request.
-/

namespace V2G.Element

/-- The name of a message on the wire, where it is not its class name. -/
def wireName? : Element → Option String
  | .acChargeParameterDiscoveryReq => some "AC_ChargeParameterDiscoveryReq"
  | .acChargeParameterDiscoveryRes => some "AC_ChargeParameterDiscoveryRes"
  | .acChargeLoopReq => some "AC_ChargeLoopReq"
  | .acChargeLoopRes => some "AC_ChargeLoopRes"
  | .dcChargeParameterDiscoveryReq => some "DC_ChargeParameterDiscoveryReq"
  | .dcChargeParameterDiscoveryRes => some "DC_ChargeParameterDiscoveryRes"
  | .dcChargeLoopReq => some "DC_ChargeLoopReq"
  | .dcChargeLoopRes => some "DC_ChargeLoopRes"
  | .dcCableCheckReq => some "DC_CableCheckReq"
  | .dcCableCheckRes => some "DC_CableCheckRes"
  | .dcPreChargeReq => some "DC_PreChargeReq"
  | .dcPreChargeRes => some "DC_PreChargeRes"
  | .dcWeldingDetectionReq => some "DC_WeldingDetectionReq"
  | .dcWeldingDetectionRes => some "DC_WeldingDetectionRes"
  | _ => none

/-- The request that a response answers. -/
def request? : Element → Option Element
  | .sessionSetupRes => some .sessionSetupReq
  | .authorizationSetupRes => some .authorizationSetupReq
  | .authorizationRes => some .authorizationReq
  | .serviceDiscoveryRes => some .serviceDiscoveryReq
  | .serviceDetailRes => some .serviceDetailReq
  | .serviceSelectionRes => some .serviceSelectionReq
  | .scheduleExchangeRes => some .scheduleExchangeReq
  | .powerDeliveryRes => some .powerDeliveryReq
  | .meteringConfirmationRes => some .meteringConfirmationReq
  | .sessionStopRes => some .sessionStopReq
  | .certificateInstallationRes => some .certificateInstallationReq
  | .vehicleCheckInRes => some .vehicleCheckInReq
  | .vehicleCheckOutRes => some .vehicleCheckOutReq
  | .acChargeParameterDiscoveryRes => some .acChargeParameterDiscoveryReq
  | .acChargeLoopRes => some .acChargeLoopReq
  | .dcChargeParameterDiscoveryRes => some .dcChargeParameterDiscoveryReq
  | .dcChargeLoopRes => some .dcChargeLoopReq
  | .dcCableCheckRes => some .dcCableCheckReq
  | .dcPreChargeRes => some .dcPreChargeReq
  | .dcWeldingDetectionRes => some .dcWeldingDetectionReq
  | _ => none

def isMessage (e : Element) : Bool := e.isA .v2gMessage
def isResponse (e : Element) : Bool := e.isA .v2gResponse

/-- The name of a message. -/
def messageName (e : Element) : String := e.wireName?.getD e.name

/-- How an element is called in texts: messages by their message name, the Plug & Charge
parameters by the name that their signature refers to, all others by their class. -/
def title : Element → String
  | .pncAuthReqParams => "PnC_AReqAuthorizationMode"
  | e => e.messageName

def requests : List Element :=
  [ .sessionSetupReq, .authorizationSetupReq, .authorizationReq, .serviceDiscoveryReq,
    .serviceDetailReq, .serviceSelectionReq, .scheduleExchangeReq, .powerDeliveryReq,
    .meteringConfirmationReq, .sessionStopReq, .certificateInstallationReq, .vehicleCheckInReq,
    .vehicleCheckOutReq, .acChargeParameterDiscoveryReq, .acChargeLoopReq,
    .dcChargeParameterDiscoveryReq, .dcChargeLoopReq, .dcCableCheckReq, .dcPreChargeReq,
    .dcWeldingDetectionReq ]

def responses : List Element :=
  [ .sessionSetupRes, .authorizationSetupRes, .authorizationRes, .serviceDiscoveryRes,
    .serviceDetailRes, .serviceSelectionRes, .scheduleExchangeRes, .powerDeliveryRes,
    .meteringConfirmationRes, .sessionStopRes, .certificateInstallationRes, .vehicleCheckInRes,
    .vehicleCheckOutRes, .acChargeParameterDiscoveryRes, .acChargeLoopRes,
    .dcChargeParameterDiscoveryRes, .dcChargeLoopRes, .dcCableCheckRes, .dcPreChargeRes,
    .dcWeldingDetectionRes ]

/-- The messages that can be sent under their name. -/
def registered : List Element := requests ++ responses

/-- The message of a name. -/
def ofMessageName? (s : String) : Option Element := registered.find? (·.messageName == s)

/-- The response that answers a request. -/
def response? (e : Element) : Option Element := responses.find? (·.request? == some e)

end V2G.Element
