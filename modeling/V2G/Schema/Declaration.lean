import V2G.Schema.Signature
import V2G.Schema.Message
import V2G.Schema.ChargeLoop
import V2G.Schema.Metering
import V2G.Schema.Session
import V2G.Schema.Authorization
import V2G.Schema.Service
import V2G.Schema.Certificate
import V2G.Schema.Price
import V2G.Schema.Schedule
import V2G.Schema.PowerDelivery
import V2G.Schema.Parking
import V2G.Schema.Ac
import V2G.Schema.Dc

/-!
# Declarations

The declaration of each element: what it extends, the fields it adds, and its choice
group. Inherited fields come first, so that a message starts with its header.
-/

namespace V2G.Element

/-- The element that an element extends. -/
def parent : Element → Option Element
  | .baseModel => none
  | .v2gRequest
  | .v2gResponse => some .v2gMessage
  | .chargeParameterDiscoveryReq
  | .chargeLoopReq
  | .sessionSetupReq
  | .authorizationSetupReq
  | .authorizationReq
  | .serviceDiscoveryReq
  | .serviceDetailReq
  | .serviceSelectionReq
  | .scheduleExchangeReq
  | .powerDeliveryReq
  | .meteringConfirmationReq
  | .sessionStopReq
  | .certificateInstallationReq
  | .vehicleCheckInReq
  | .vehicleCheckOutReq
  | .dcCableCheckReq
  | .dcPreChargeReq
  | .dcWeldingDetectionReq => some .v2gRequest
  | .chargeParameterDiscoveryRes
  | .chargeLoopRes
  | .sessionSetupRes
  | .authorizationSetupRes
  | .authorizationRes
  | .serviceDiscoveryRes
  | .serviceDetailRes
  | .serviceSelectionRes
  | .scheduleExchangeRes
  | .powerDeliveryRes
  | .meteringConfirmationRes
  | .sessionStopRes
  | .certificateInstallationRes
  | .vehicleCheckInRes
  | .vehicleCheckOutRes
  | .dcCableCheckRes
  | .dcPreChargeRes
  | .dcWeldingDetectionRes => some .v2gResponse
  | .bptAcChargeParameterDiscoveryReqParams => some .acChargeParameterDiscoveryReqParams
  | .bptAcChargeParameterDiscoveryResParams => some .acChargeParameterDiscoveryResParams
  | .scheduledAcChargeLoopReqParams
  | .scheduledDcChargeLoopReqParams => some .scheduledChargeLoopReqParams
  | .scheduledAcChargeLoopResParams
  | .scheduledDcChargeLoopResParams => some .scheduledChargeLoopResParams
  | .bptScheduledAcChargeLoopReqParams => some .scheduledAcChargeLoopReqParams
  | .bptScheduledAcChargeLoopResParams => some .scheduledAcChargeLoopResParams
  | .dynamicAcChargeLoopReqParams
  | .dynamicDcChargeLoopReqParams => some .dynamicChargeLoopReqParams
  | .dynamicAcChargeLoopResParams
  | .dynamicDcChargeLoopResParams => some .dynamicChargeLoopResParams
  | .bptDynamicAcChargeLoopReqParams => some .dynamicAcChargeLoopReqParams
  | .bptDynamicAcChargeLoopResParams => some .dynamicAcChargeLoopResParams
  | .acChargeParameterDiscoveryReq
  | .dcChargeParameterDiscoveryReq => some .chargeParameterDiscoveryReq
  | .acChargeParameterDiscoveryRes
  | .dcChargeParameterDiscoveryRes => some .chargeParameterDiscoveryRes
  | .acChargeLoopReq
  | .dcChargeLoopReq => some .chargeLoopReq
  | .acChargeLoopRes
  | .dcChargeLoopRes => some .chargeLoopRes
  | .bptDcChargeParameterDiscoveryReqParams => some .dcChargeParameterDiscoveryReqParams
  | .bptDcChargeParameterDiscoveryResParams => some .dcChargeParameterDiscoveryResParams
  | .bptScheduledDcChargeLoopReqParams => some .scheduledDcChargeLoopReqParams
  | .bptScheduledDcChargeLoopResParams => some .scheduledDcChargeLoopResParams
  | .bptDynamicDcChargeLoopReqParams => some .dynamicDcChargeLoopReqParams
  | .bptDynamicDcChargeLoopResParams => some .dynamicDcChargeLoopResParams
  | _ => some .baseModel

/-- The fields an element adds to those it inherits. -/
def own : Element → List Field
  | .transform => Declared.transform
  | .digestMethod => Declared.digestMethod
  | .signatureMethod => Declared.signatureMethod
  | .canonicalizationMethod => Declared.canonicalizationMethod
  | .reference => Declared.reference
  | .signedInfo => Declared.signedInfo
  | .signature => Declared.signature
  | .x509IssuerSerial => Declared.x509IssuerSerial
  | .messageHeader => Declared.messageHeader
  | .v2gMessage => Declared.v2gMessage
  | .v2gResponse => Declared.v2gResponse
  | .rationalNumber => Declared.rationalNumber
  | .evseStatus => Declared.evseStatus
  | .displayParameters => Declared.displayParameters
  | .chargeLoopReq => Declared.chargeLoopReq
  | .meterInfo => Declared.meterInfo
  | .detailedCost => Declared.detailedCost
  | .detailedTax => Declared.detailedTax
  | .receipt => Declared.receipt
  | .chargeLoopRes => Declared.chargeLoopRes
  | .scheduledChargeLoopReqParams => Declared.scheduledChargeLoopReqParams
  | .dynamicChargeLoopReqParams => Declared.dynamicChargeLoopReqParams
  | .dynamicChargeLoopResParams => Declared.dynamicChargeLoopResParams
  | .certificateChain => Declared.certificateChain
  | .signedCertificateChain => Declared.signedCertificateChain
  | .contractCertificateChain => Declared.contractCertificateChain
  | .sessionSetupReq => Declared.sessionSetupReq
  | .sessionSetupRes => Declared.sessionSetupRes
  | .pncAuthSetupResParams => Declared.pncAuthSetupResParams
  | .authorizationSetupRes => Declared.authorizationSetupRes
  | .pncAuthReqParams => Declared.pncAuthReqParams
  | .authorizationReq => Declared.authorizationReq
  | .authorizationRes => Declared.authorizationRes
  | .serviceDiscoveryReq => Declared.serviceDiscoveryReq
  | .service => Declared.service
  | .serviceDiscoveryRes => Declared.serviceDiscoveryRes
  | .serviceDetailReq => Declared.serviceDetailReq
  | .parameter => Declared.parameter
  | .parameterSet => Declared.parameterSet
  | .serviceDetailRes => Declared.serviceDetailRes
  | .selectedService => Declared.selectedService
  | .serviceSelectionReq => Declared.serviceSelectionReq
  | .evPowerScheduleEntry => Declared.evPowerScheduleEntry
  | .evPowerSchedule => Declared.evPowerSchedule
  | .evPriceRule => Declared.evPriceRule
  | .evPriceRuleStack => Declared.evPriceRuleStack
  | .evAbsolutePriceSchedule => Declared.evAbsolutePriceSchedule
  | .evEnergyOffer => Declared.evEnergyOffer
  | .scheduledScheduleExchangeReqParams => Declared.scheduledScheduleExchangeReqParams
  | .dynamicScheduleExchangeReqParams => Declared.dynamicScheduleExchangeReqParams
  | .scheduleExchangeReq => Declared.scheduleExchangeReq
  | .powerScheduleEntry => Declared.powerScheduleEntry
  | .powerSchedule => Declared.powerSchedule
  | .priceLevelScheduleEntry => Declared.priceLevelScheduleEntry
  | .priceLevelSchedule => Declared.priceLevelSchedule
  | .taxRule => Declared.taxRule
  | .priceRule => Declared.priceRule
  | .priceRuleStack => Declared.priceRuleStack
  | .overstayRule => Declared.overstayRule
  | .overstayRules => Declared.overstayRules
  | .additionalService => Declared.additionalService
  | .absolutePriceSchedule => Declared.absolutePriceSchedule
  | .chargingSchedule => Declared.chargingSchedule
  | .dischargingSchedule => Declared.dischargingSchedule
  | .scheduleTuple => Declared.scheduleTuple
  | .scheduledScheduleExchangeResParams => Declared.scheduledScheduleExchangeResParams
  | .dynamicScheduleExchangeResParams => Declared.dynamicScheduleExchangeResParams
  | .scheduleExchangeRes => Declared.scheduleExchangeRes
  | .scheduledEvPowerProfile => Declared.scheduledEvPowerProfile
  | .evPowerProfile => Declared.evPowerProfile
  | .powerDeliveryReq => Declared.powerDeliveryReq
  | .powerDeliveryRes => Declared.powerDeliveryRes
  | .scheduledSignedMeterData => Declared.scheduledSignedMeterData
  | .signedMeteringData => Declared.signedMeteringData
  | .meteringConfirmationReq => Declared.meteringConfirmationReq
  | .sessionStopReq => Declared.sessionStopReq
  | .certificateInstallationReq => Declared.certificateInstallationReq
  | .signedInstallationData => Declared.signedInstallationData
  | .certificateInstallationRes => Declared.certificateInstallationRes
  | .targetPosition => Declared.targetPosition
  | .vehicleCheckInReq => Declared.vehicleCheckInReq
  | .vehicleCheckInRes => Declared.vehicleCheckInRes
  | .vehicleCheckOutReq => Declared.vehicleCheckOutReq
  | .vehicleCheckOutRes => Declared.vehicleCheckOutRes
  | .acChargeParameterDiscoveryReqParams => Declared.acChargeParameterDiscoveryReqParams
  | .acChargeParameterDiscoveryResParams => Declared.acChargeParameterDiscoveryResParams
  | .bptAcChargeParameterDiscoveryReqParams => Declared.bptAcChargeParameterDiscoveryReqParams
  | .bptAcChargeParameterDiscoveryResParams => Declared.bptAcChargeParameterDiscoveryResParams
  | .scheduledAcChargeLoopReqParams => Declared.scheduledAcChargeLoopReqParams
  | .scheduledAcChargeLoopResParams => Declared.scheduledAcChargeLoopResParams
  | .bptScheduledAcChargeLoopReqParams => Declared.bptScheduledAcChargeLoopReqParams
  | .dynamicAcChargeLoopReqParams => Declared.dynamicAcChargeLoopReqParams
  | .dynamicAcChargeLoopResParams => Declared.dynamicAcChargeLoopResParams
  | .bptDynamicAcChargeLoopReqParams => Declared.bptDynamicAcChargeLoopReqParams
  | .acChargeLoopRes => Declared.acChargeLoopRes
  | .dcChargeParameterDiscoveryReqParams => Declared.dcChargeParameterDiscoveryReqParams
  | .dcChargeParameterDiscoveryResParams => Declared.dcChargeParameterDiscoveryResParams
  | .bptDcChargeParameterDiscoveryReqParams => Declared.bptDcChargeParameterDiscoveryReqParams
  | .bptDcChargeParameterDiscoveryResParams => Declared.bptDcChargeParameterDiscoveryResParams
  | .scheduledDcChargeLoopReqParams => Declared.scheduledDcChargeLoopReqParams
  | .scheduledDcChargeLoopResParams => Declared.scheduledDcChargeLoopResParams
  | .bptScheduledDcChargeLoopReqParams => Declared.bptScheduledDcChargeLoopReqParams
  | .bptScheduledDcChargeLoopResParams => Declared.bptScheduledDcChargeLoopResParams
  | .dynamicDcChargeLoopReqParams => Declared.dynamicDcChargeLoopReqParams
  | .dynamicDcChargeLoopResParams => Declared.dynamicDcChargeLoopResParams
  | .bptDynamicDcChargeLoopReqParams => Declared.bptDynamicDcChargeLoopReqParams
  | .bptDynamicDcChargeLoopResParams => Declared.bptDynamicDcChargeLoopResParams
  | .dcChargeLoopReq => Declared.dcChargeLoopReq
  | .dcChargeLoopRes => Declared.dcChargeLoopRes
  | .dcCableCheckRes => Declared.dcCableCheckRes
  | .dcPreChargeReq => Declared.dcPreChargeReq
  | .dcPreChargeRes => Declared.dcPreChargeRes
  | .dcWeldingDetectionReq => Declared.dcWeldingDetectionReq
  | .dcWeldingDetectionRes => Declared.dcWeldingDetectionRes
  | _ => []

/-- The choice group of an element. It stands after the fields. -/
def choice : Element → Option ChoiceField
  | .authorizationSetupRes => some ⟨"auth_mode", .authSetupResMode⟩
  | .authorizationReq => some ⟨"auth_mode", .authReqMode⟩
  | .parameter => some ⟨"value", .parameterValue⟩
  | .scheduleExchangeReq => some ⟨"control_mode", .seReqControlMode⟩
  | .chargingSchedule => some ⟨"price_schedule", .priceSchedule⟩
  | .dischargingSchedule => some ⟨"price_schedule", .priceSchedule⟩
  | .dynamicScheduleExchangeResParams => some ⟨"price_schedule", .priceSchedule⟩
  | .scheduleExchangeRes => some ⟨"control_mode", .seResControlMode⟩
  | .evPowerProfile => some ⟨"control_mode", .evpptControlMode⟩
  | .signedMeteringData => some ⟨"control_mode", .smdtControlMode⟩
  | .signedInstallationData => some ⟨"encrypted_private_key", .encryptedPrivateKey⟩
  | .acChargeParameterDiscoveryReq => some ⟨"energy_transfer_mode", .acCpdReqMode⟩
  | .acChargeParameterDiscoveryRes => some ⟨"energy_transfer_mode", .acCpdResMode⟩
  | .acChargeLoopReq => some ⟨"control_mode", .acClReqMode⟩
  | .acChargeLoopRes => some ⟨"control_mode", .acClResMode⟩
  | .dcChargeParameterDiscoveryReq => some ⟨"energy_transfer_mode", .dcCpdReqMode⟩
  | .dcChargeParameterDiscoveryRes => some ⟨"energy_transfer_mode", .dcCpdResMode⟩
  | .dcChargeLoopReq => some ⟨"control_mode", .dcClReqMode⟩
  | .dcChargeLoopRes => some ⟨"control_mode", .dcClResMode⟩
  | _ => none

/-- An element with all that it extends, nearest first. No element stands more than five
steps from the root. -/
def lineage (e : Element) : List Element :=
  let rec climb : Nat → Element → List Element
    | 0, e => [e]
    | n + 1, e => e :: (e.parent.map (climb n)).getD []
  climb 5 e

/-- Whether an element is of a class, or extends it. -/
def isA (e base : Element) : Bool := e.lineage.contains base

/-- All fields of an element in declaration order. -/
def fields (e : Element) : List Field := e.lineage.reverse.flatMap own

def mandatoryFields (e : Element) : List Field := e.fields.filter (·.required)
def optionalFields (e : Element) : List Field := e.fields.filter (!·.required)

/-- The members that an element offers for choice. -/
def members (e : Element) : List Member := (e.choice.map (·.group.members)).getD []

/-- The keys that an object of the element may have. -/
def keys (e : Element) : List String := e.fields.map (·.key) ++ e.members.map (·.key)

end V2G.Element
