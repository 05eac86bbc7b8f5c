/-!
# Elements

One constructor per element class of the charging messages: the messages themselves,
the elements nested in them, and the bases they extend. `name` is the class name.
-/

namespace V2G

inductive Element where
  | baseModel
  | transform
  | digestMethod
  | signatureMethod
  | canonicalizationMethod
  | reference
  | signedInfo
  | signature
  | x509IssuerSerial
  | messageHeader
  | v2gMessage
  | v2gRequest
  | v2gResponse
  | chargeParameterDiscoveryReq
  | chargeParameterDiscoveryRes
  | rationalNumber
  | evseStatus
  | displayParameters
  | chargeLoopReq
  | meterInfo
  | detailedCost
  | detailedTax
  | receipt
  | chargeLoopRes
  | scheduledChargeLoopReqParams
  | scheduledChargeLoopResParams
  | dynamicChargeLoopReqParams
  | dynamicChargeLoopResParams
  | certificateChain
  | signedCertificateChain
  | contractCertificateChain
  | sessionSetupReq
  | sessionSetupRes
  | authorizationSetupReq
  | pncAuthSetupResParams
  | eimAuthSetupResParams
  | authorizationSetupRes
  | pncAuthReqParams
  | eimAuthReqParams
  | authorizationReq
  | authorizationRes
  | serviceDiscoveryReq
  | service
  | serviceDiscoveryRes
  | serviceDetailReq
  | parameter
  | parameterSet
  | serviceDetailRes
  | selectedService
  | serviceSelectionReq
  | serviceSelectionRes
  | evPowerScheduleEntry
  | evPowerSchedule
  | evPriceRule
  | evPriceRuleStack
  | evAbsolutePriceSchedule
  | evEnergyOffer
  | scheduledScheduleExchangeReqParams
  | dynamicScheduleExchangeReqParams
  | scheduleExchangeReq
  | powerScheduleEntry
  | powerSchedule
  | priceLevelScheduleEntry
  | priceLevelSchedule
  | taxRule
  | priceRule
  | priceRuleStack
  | overstayRule
  | overstayRules
  | additionalService
  | absolutePriceSchedule
  | chargingSchedule
  | dischargingSchedule
  | scheduleTuple
  | scheduledScheduleExchangeResParams
  | dynamicScheduleExchangeResParams
  | scheduleExchangeRes
  | scheduledEvPowerProfile
  | dynamicEvPowerProfile
  | evPowerProfile
  | powerDeliveryReq
  | powerDeliveryRes
  | scheduledSignedMeterData
  | dynamicSignedMeterData
  | signedMeteringData
  | meteringConfirmationReq
  | meteringConfirmationRes
  | sessionStopReq
  | sessionStopRes
  | certificateInstallationReq
  | signedInstallationData
  | certificateInstallationRes
  | targetPosition
  | vehicleCheckInReq
  | vehicleCheckInRes
  | vehicleCheckOutReq
  | vehicleCheckOutRes
  | acChargeParameterDiscoveryReqParams
  | acChargeParameterDiscoveryResParams
  | bptAcChargeParameterDiscoveryReqParams
  | bptAcChargeParameterDiscoveryResParams
  | scheduledAcChargeLoopReqParams
  | scheduledAcChargeLoopResParams
  | bptScheduledAcChargeLoopReqParams
  | bptScheduledAcChargeLoopResParams
  | dynamicAcChargeLoopReqParams
  | dynamicAcChargeLoopResParams
  | bptDynamicAcChargeLoopReqParams
  | bptDynamicAcChargeLoopResParams
  | acChargeParameterDiscoveryReq
  | acChargeParameterDiscoveryRes
  | acChargeLoopReq
  | acChargeLoopRes
  | dcChargeParameterDiscoveryReqParams
  | dcChargeParameterDiscoveryResParams
  | bptDcChargeParameterDiscoveryReqParams
  | bptDcChargeParameterDiscoveryResParams
  | scheduledDcChargeLoopReqParams
  | scheduledDcChargeLoopResParams
  | bptScheduledDcChargeLoopReqParams
  | bptScheduledDcChargeLoopResParams
  | dynamicDcChargeLoopReqParams
  | dynamicDcChargeLoopResParams
  | bptDynamicDcChargeLoopReqParams
  | bptDynamicDcChargeLoopResParams
  | dcChargeParameterDiscoveryReq
  | dcChargeParameterDiscoveryRes
  | dcChargeLoopReq
  | dcChargeLoopRes
  | dcCableCheckReq
  | dcCableCheckRes
  | dcPreChargeReq
  | dcPreChargeRes
  | dcWeldingDetectionReq
  | dcWeldingDetectionRes
  deriving DecidableEq

namespace Element

def all : List Element :=
  [ .baseModel,
    .transform,
    .digestMethod,
    .signatureMethod,
    .canonicalizationMethod,
    .reference,
    .signedInfo,
    .signature,
    .x509IssuerSerial,
    .messageHeader,
    .v2gMessage,
    .v2gRequest,
    .v2gResponse,
    .chargeParameterDiscoveryReq,
    .chargeParameterDiscoveryRes,
    .rationalNumber,
    .evseStatus,
    .displayParameters,
    .chargeLoopReq,
    .meterInfo,
    .detailedCost,
    .detailedTax,
    .receipt,
    .chargeLoopRes,
    .scheduledChargeLoopReqParams,
    .scheduledChargeLoopResParams,
    .dynamicChargeLoopReqParams,
    .dynamicChargeLoopResParams,
    .certificateChain,
    .signedCertificateChain,
    .contractCertificateChain,
    .sessionSetupReq,
    .sessionSetupRes,
    .authorizationSetupReq,
    .pncAuthSetupResParams,
    .eimAuthSetupResParams,
    .authorizationSetupRes,
    .pncAuthReqParams,
    .eimAuthReqParams,
    .authorizationReq,
    .authorizationRes,
    .serviceDiscoveryReq,
    .service,
    .serviceDiscoveryRes,
    .serviceDetailReq,
    .parameter,
    .parameterSet,
    .serviceDetailRes,
    .selectedService,
    .serviceSelectionReq,
    .serviceSelectionRes,
    .evPowerScheduleEntry,
    .evPowerSchedule,
    .evPriceRule,
    .evPriceRuleStack,
    .evAbsolutePriceSchedule,
    .evEnergyOffer,
    .scheduledScheduleExchangeReqParams,
    .dynamicScheduleExchangeReqParams,
    .scheduleExchangeReq,
    .powerScheduleEntry,
    .powerSchedule,
    .priceLevelScheduleEntry,
    .priceLevelSchedule,
    .taxRule,
    .priceRule,
    .priceRuleStack,
    .overstayRule,
    .overstayRules,
    .additionalService,
    .absolutePriceSchedule,
    .chargingSchedule,
    .dischargingSchedule,
    .scheduleTuple,
    .scheduledScheduleExchangeResParams,
    .dynamicScheduleExchangeResParams,
    .scheduleExchangeRes,
    .scheduledEvPowerProfile,
    .dynamicEvPowerProfile,
    .evPowerProfile,
    .powerDeliveryReq,
    .powerDeliveryRes,
    .scheduledSignedMeterData,
    .dynamicSignedMeterData,
    .signedMeteringData,
    .meteringConfirmationReq,
    .meteringConfirmationRes,
    .sessionStopReq,
    .sessionStopRes,
    .certificateInstallationReq,
    .signedInstallationData,
    .certificateInstallationRes,
    .targetPosition,
    .vehicleCheckInReq,
    .vehicleCheckInRes,
    .vehicleCheckOutReq,
    .vehicleCheckOutRes,
    .acChargeParameterDiscoveryReqParams,
    .acChargeParameterDiscoveryResParams,
    .bptAcChargeParameterDiscoveryReqParams,
    .bptAcChargeParameterDiscoveryResParams,
    .scheduledAcChargeLoopReqParams,
    .scheduledAcChargeLoopResParams,
    .bptScheduledAcChargeLoopReqParams,
    .bptScheduledAcChargeLoopResParams,
    .dynamicAcChargeLoopReqParams,
    .dynamicAcChargeLoopResParams,
    .bptDynamicAcChargeLoopReqParams,
    .bptDynamicAcChargeLoopResParams,
    .acChargeParameterDiscoveryReq,
    .acChargeParameterDiscoveryRes,
    .acChargeLoopReq,
    .acChargeLoopRes,
    .dcChargeParameterDiscoveryReqParams,
    .dcChargeParameterDiscoveryResParams,
    .bptDcChargeParameterDiscoveryReqParams,
    .bptDcChargeParameterDiscoveryResParams,
    .scheduledDcChargeLoopReqParams,
    .scheduledDcChargeLoopResParams,
    .bptScheduledDcChargeLoopReqParams,
    .bptScheduledDcChargeLoopResParams,
    .dynamicDcChargeLoopReqParams,
    .dynamicDcChargeLoopResParams,
    .bptDynamicDcChargeLoopReqParams,
    .bptDynamicDcChargeLoopResParams,
    .dcChargeParameterDiscoveryReq,
    .dcChargeParameterDiscoveryRes,
    .dcChargeLoopReq,
    .dcChargeLoopRes,
    .dcCableCheckReq,
    .dcCableCheckRes,
    .dcPreChargeReq,
    .dcPreChargeRes,
    .dcWeldingDetectionReq,
    .dcWeldingDetectionRes ]

def name : Element → String
  | .baseModel => "BaseModel"
  | .transform => "Transform"
  | .digestMethod => "DigestMethod"
  | .signatureMethod => "SignatureMethod"
  | .canonicalizationMethod => "CanonicalizationMethod"
  | .reference => "Reference"
  | .signedInfo => "SignedInfo"
  | .signature => "Signature"
  | .x509IssuerSerial => "X509IssuerSerial"
  | .messageHeader => "MessageHeader"
  | .v2gMessage => "V2GMessage"
  | .v2gRequest => "V2GRequest"
  | .v2gResponse => "V2GResponse"
  | .chargeParameterDiscoveryReq => "ChargeParameterDiscoveryReq"
  | .chargeParameterDiscoveryRes => "ChargeParameterDiscoveryRes"
  | .rationalNumber => "RationalNumber"
  | .evseStatus => "EVSEStatus"
  | .displayParameters => "DisplayParameters"
  | .chargeLoopReq => "ChargeLoopReq"
  | .meterInfo => "MeterInfo"
  | .detailedCost => "DetailedCost"
  | .detailedTax => "DetailedTax"
  | .receipt => "Receipt"
  | .chargeLoopRes => "ChargeLoopRes"
  | .scheduledChargeLoopReqParams => "ScheduledChargeLoopReqParams"
  | .scheduledChargeLoopResParams => "ScheduledChargeLoopResParams"
  | .dynamicChargeLoopReqParams => "DynamicChargeLoopReqParams"
  | .dynamicChargeLoopResParams => "DynamicChargeLoopResParams"
  | .certificateChain => "CertificateChain"
  | .signedCertificateChain => "SignedCertificateChain"
  | .contractCertificateChain => "ContractCertificateChain"
  | .sessionSetupReq => "SessionSetupReq"
  | .sessionSetupRes => "SessionSetupRes"
  | .authorizationSetupReq => "AuthorizationSetupReq"
  | .pncAuthSetupResParams => "PnCAuthSetupResParams"
  | .eimAuthSetupResParams => "EIMAuthSetupResParams"
  | .authorizationSetupRes => "AuthorizationSetupRes"
  | .pncAuthReqParams => "PnCAuthReqParams"
  | .eimAuthReqParams => "EIMAuthReqParams"
  | .authorizationReq => "AuthorizationReq"
  | .authorizationRes => "AuthorizationRes"
  | .serviceDiscoveryReq => "ServiceDiscoveryReq"
  | .service => "Service"
  | .serviceDiscoveryRes => "ServiceDiscoveryRes"
  | .serviceDetailReq => "ServiceDetailReq"
  | .parameter => "Parameter"
  | .parameterSet => "ParameterSet"
  | .serviceDetailRes => "ServiceDetailRes"
  | .selectedService => "SelectedService"
  | .serviceSelectionReq => "ServiceSelectionReq"
  | .serviceSelectionRes => "ServiceSelectionRes"
  | .evPowerScheduleEntry => "EVPowerScheduleEntry"
  | .evPowerSchedule => "EVPowerSchedule"
  | .evPriceRule => "EVPriceRule"
  | .evPriceRuleStack => "EVPriceRuleStack"
  | .evAbsolutePriceSchedule => "EVAbsolutePriceSchedule"
  | .evEnergyOffer => "EVEnergyOffer"
  | .scheduledScheduleExchangeReqParams => "ScheduledScheduleExchangeReqParams"
  | .dynamicScheduleExchangeReqParams => "DynamicScheduleExchangeReqParams"
  | .scheduleExchangeReq => "ScheduleExchangeReq"
  | .powerScheduleEntry => "PowerScheduleEntry"
  | .powerSchedule => "PowerSchedule"
  | .priceLevelScheduleEntry => "PriceLevelScheduleEntry"
  | .priceLevelSchedule => "PriceLevelSchedule"
  | .taxRule => "TaxRule"
  | .priceRule => "PriceRule"
  | .priceRuleStack => "PriceRuleStack"
  | .overstayRule => "OverstayRule"
  | .overstayRules => "OverstayRules"
  | .additionalService => "AdditionalService"
  | .absolutePriceSchedule => "AbsolutePriceSchedule"
  | .chargingSchedule => "ChargingSchedule"
  | .dischargingSchedule => "DischargingSchedule"
  | .scheduleTuple => "ScheduleTuple"
  | .scheduledScheduleExchangeResParams => "ScheduledScheduleExchangeResParams"
  | .dynamicScheduleExchangeResParams => "DynamicScheduleExchangeResParams"
  | .scheduleExchangeRes => "ScheduleExchangeRes"
  | .scheduledEvPowerProfile => "ScheduledEVPowerProfile"
  | .dynamicEvPowerProfile => "DynamicEVPowerProfile"
  | .evPowerProfile => "EVPowerProfile"
  | .powerDeliveryReq => "PowerDeliveryReq"
  | .powerDeliveryRes => "PowerDeliveryRes"
  | .scheduledSignedMeterData => "ScheduledSignedMeterData"
  | .dynamicSignedMeterData => "DynamicSignedMeterData"
  | .signedMeteringData => "SignedMeteringData"
  | .meteringConfirmationReq => "MeteringConfirmationReq"
  | .meteringConfirmationRes => "MeteringConfirmationRes"
  | .sessionStopReq => "SessionStopReq"
  | .sessionStopRes => "SessionStopRes"
  | .certificateInstallationReq => "CertificateInstallationReq"
  | .signedInstallationData => "SignedInstallationData"
  | .certificateInstallationRes => "CertificateInstallationRes"
  | .targetPosition => "TargetPosition"
  | .vehicleCheckInReq => "VehicleCheckInReq"
  | .vehicleCheckInRes => "VehicleCheckInRes"
  | .vehicleCheckOutReq => "VehicleCheckOutReq"
  | .vehicleCheckOutRes => "VehicleCheckOutRes"
  | .acChargeParameterDiscoveryReqParams => "ACChargeParameterDiscoveryReqParams"
  | .acChargeParameterDiscoveryResParams => "ACChargeParameterDiscoveryResParams"
  | .bptAcChargeParameterDiscoveryReqParams => "BPTACChargeParameterDiscoveryReqParams"
  | .bptAcChargeParameterDiscoveryResParams => "BPTACChargeParameterDiscoveryResParams"
  | .scheduledAcChargeLoopReqParams => "ScheduledACChargeLoopReqParams"
  | .scheduledAcChargeLoopResParams => "ScheduledACChargeLoopResParams"
  | .bptScheduledAcChargeLoopReqParams => "BPTScheduledACChargeLoopReqParams"
  | .bptScheduledAcChargeLoopResParams => "BPTScheduledACChargeLoopResParams"
  | .dynamicAcChargeLoopReqParams => "DynamicACChargeLoopReqParams"
  | .dynamicAcChargeLoopResParams => "DynamicACChargeLoopResParams"
  | .bptDynamicAcChargeLoopReqParams => "BPTDynamicACChargeLoopReqParams"
  | .bptDynamicAcChargeLoopResParams => "BPTDynamicACChargeLoopResParams"
  | .acChargeParameterDiscoveryReq => "ACChargeParameterDiscoveryReq"
  | .acChargeParameterDiscoveryRes => "ACChargeParameterDiscoveryRes"
  | .acChargeLoopReq => "ACChargeLoopReq"
  | .acChargeLoopRes => "ACChargeLoopRes"
  | .dcChargeParameterDiscoveryReqParams => "DCChargeParameterDiscoveryReqParams"
  | .dcChargeParameterDiscoveryResParams => "DCChargeParameterDiscoveryResParams"
  | .bptDcChargeParameterDiscoveryReqParams => "BPTDCChargeParameterDiscoveryReqParams"
  | .bptDcChargeParameterDiscoveryResParams => "BPTDCChargeParameterDiscoveryResParams"
  | .scheduledDcChargeLoopReqParams => "ScheduledDCChargeLoopReqParams"
  | .scheduledDcChargeLoopResParams => "ScheduledDCChargeLoopResParams"
  | .bptScheduledDcChargeLoopReqParams => "BPTScheduledDCChargeLoopReqParams"
  | .bptScheduledDcChargeLoopResParams => "BPTScheduledDCChargeLoopResParams"
  | .dynamicDcChargeLoopReqParams => "DynamicDCChargeLoopReqParams"
  | .dynamicDcChargeLoopResParams => "DynamicDCChargeLoopResParams"
  | .bptDynamicDcChargeLoopReqParams => "BPTDynamicDCChargeLoopReqParams"
  | .bptDynamicDcChargeLoopResParams => "BPTDynamicDCChargeLoopResParams"
  | .dcChargeParameterDiscoveryReq => "DCChargeParameterDiscoveryReq"
  | .dcChargeParameterDiscoveryRes => "DCChargeParameterDiscoveryRes"
  | .dcChargeLoopReq => "DCChargeLoopReq"
  | .dcChargeLoopRes => "DCChargeLoopRes"
  | .dcCableCheckReq => "DCCableCheckReq"
  | .dcCableCheckRes => "DCCableCheckRes"
  | .dcPreChargeReq => "DCPreChargeReq"
  | .dcPreChargeRes => "DCPreChargeRes"
  | .dcWeldingDetectionReq => "DCWeldingDetectionReq"
  | .dcWeldingDetectionRes => "DCWeldingDetectionRes"

/-- The element class of a name. -/
def ofName? (s : String) : Option Element := all.find? (·.name == s)

end Element

end V2G
