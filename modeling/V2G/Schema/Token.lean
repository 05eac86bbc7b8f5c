/-!
# Closed token sets

Each enumeration of the protocol has a fixed list of members. A member is known by
its symbol and written as its token, the spelling the protocol gives it.
-/

namespace V2G

inductive TokenType where
  | responseCode
  | evseNotification
  | processing
  | ecdhCurve
  | powerToleranceAcceptance
  | channelSelection
  | chargeProgress
  | chargingSession
  | evCheckInStatus
  | evCheckOutStatus
  | evseCheckOutStatus
  | parkingMethod
  | authService
  deriving DecidableEq

namespace TokenType

def all : List TokenType :=
  [.responseCode, .evseNotification, .processing, .ecdhCurve, .powerToleranceAcceptance, .channelSelection, .chargeProgress, .chargingSession, .evCheckInStatus, .evCheckOutStatus, .evseCheckOutStatus, .parkingMethod, .authService]

def name : TokenType → String
  | .responseCode => "ResponseCode"
  | .evseNotification => "EVSENotification"
  | .processing => "Processing"
  | .ecdhCurve => "ECDHCurve"
  | .powerToleranceAcceptance => "PowerToleranceAcceptance"
  | .channelSelection => "ChannelSelection"
  | .chargeProgress => "ChargeProgress"
  | .chargingSession => "ChargingSession"
  | .evCheckInStatus => "EVCheckInStatus"
  | .evCheckOutStatus => "EVCheckOutStatus"
  | .evseCheckOutStatus => "EVSECheckOutStatus"
  | .parkingMethod => "ParkingMethod"
  | .authService => "AuthEnum"

/-- The members in order, each a symbol and its token. -/
def members : TokenType → List (String × String)
  | .responseCode =>
    [ ("OK", "OK"),
      ("OK_CERT_EXPIRES_SOON", "OK_CertificateExpiresSoon"),
      ("OK_NEW_SESSION_ESTABLISHED", "OK_NewSessionEstablished"),
      ("OK_OLD_SESSION_JOINED", "OK_OldSessionJoined"),
      ("OK_POWER_TOLERANCE_CONFIRMED", "OK_PowerToleranceConfirmed"),
      ("WARN_AUTH_SELECTION_INVALID", "WARNING_AuthorizationSelectionInvalid"),
      ("WARN_CERT_EXPIRED", "WARNING_CertificateExpired"),
      ("WARN_CERT_NOT_YET_VALID", "WARNING_CertificateNotYetValid"),
      ("WARN_CERT_REVOKED", "WARNING_CertificateRevoked"),
      ("WARN_CERT_VALIDATION_ERROR", "WARNING_CertificateValidationError"),
      ("WARN_CHALLENGE_INVALID", "WARNING_ChallengeInvalid"),
      ("WARN_EIM_AUTH_FAILED", "WARNING_EIMAuthorizationFailure"),
      ("WARN_EMSP_UNKNOWN", "WARNING_eMSPUnknown"),
      ("WARN_EV_POWER_PROFILE_VIOLATION", "WARNING_EVPowerProfileViolation"),
      ("WARN_GENERAL_PNC_AUTH_ERROR", "WARNING_GeneralPnCAuthorizationError"),
      ("WARN_NO_CERT_AVAILABLE", "WARNING_NoCertificateAvailable"),
      ("WARN_NO_CONTRACT_MATCHING_PCID_FOUND", "WARNING_NoContractMatchingPCIDFound"),
      ("WARN_POWER_TOLERANCE_NOT_CONFIRMED", "WARNING_PowerToleranceNotConfirmed"),
      ("WARN_SCHEDULE_RENEGOTIATION_FAILED", "WARNING_ScheduleRenegotiationFailed"),
      ("WARN_STANDBY_NOT_ALLOWED", "WARNING_StandbyNotAllowed"),
      ("WARN_WPT", "WARNING_WPT"),
      ("FAILED", "FAILED"),
      ("FAILED_ASSOCIATION_ERROR", "FAILED_AssociationError"),
      ("FAILED_CONTACTOR_ERROR", "FAILED_ContactorError"),
      ("FAILED_EV_POWER_PROFILE_INVALID", "FAILED_EVPowerProfileInvalid"),
      ("FAILED_EV_POWER_PROFILE_VIOLATION", "FAILED_EVPowerProfileViolation"),
      ("FAILED_METERING_SIGNATURE_NOT_VALID", "FAILED_MeteringSignatureNotValid"),
      ("FAILED_NO_ENERGY_TRANSFER_SERVICE_SELECTED", "FAILED_NoEnergyTransferServiceSelected"),
      ("FAILED_NO_SERVICE_RENEGOTIATION_SUPPORTED", "FAILED_NoServiceRenegotiationSupported"),
      ("FAILED_PAUSE_NOT_ALLOWED", "FAILED_PauseNotAllowed"),
      ("FAILED_POWER_DELIVERY_NOT_APPLIED", "FAILED_PowerDeliveryNotApplied"),
      ("FAILED_POWER_TOLERANCE_NOT_CONFIRMED", "FAILED_PowerToleranceNotConfirmed"),
      ("FAILED_SCHEDULE_RENEGOTIATION", "FAILED_ScheduleRenegotiation"),
      ("FAILED_SCHEDULE_SELECTION_INVALID", "FAILED_ScheduleSelectionInvalid"),
      ("FAILED_SEQUENCE_ERROR", "FAILED_SequenceError"),
      ("FAILED_SERVICE_ID_INVALID", "FAILED_ServiceIDInvalid"),
      ("FAILED_SERVICE_SELECTION_INVALID", "FAILED_ServiceSelectionInvalid"),
      ("FAILED_SIGNATURE_ERROR", "FAILED_SignatureError"),
      ("FAILED_UNKNOWN_SESSION", "FAILED_UnknownSession"),
      ("FAILED_WRONG_CHARGE_PARAMETER", "FAILED_WrongChargeParameter") ]
  | .evseNotification =>
    [ ("PAUSE", "Pause"),
      ("EXIT_STANDBY", "ExitStandby"),
      ("TERMINATE", "Terminate"),
      ("METERING_CONFIRMATION", "MeteringConfirmation"),
      ("SCHEDULE_RENEGOTIATION", "ScheduleRenegotiation"),
      ("SERVICE_RENEGOTIATION", "ServiceRenegotiation") ]
  | .processing =>
    [ ("FINISHED", "Finished"),
      ("ONGOING", "Ongoing"),
      ("WAITING_FOR_CUSTOMER", "Ongoing_WaitingForCustomerInteraction") ]
  | .ecdhCurve =>
    [ ("SECP521", "SECP521"),
      ("X448", "X448") ]
  | .powerToleranceAcceptance =>
    [ ("NOT_CONFIRMED", "PowerToleranceNotConfirmed"),
      ("CONFIRMED", "PowerToleranceConfirmed") ]
  | .channelSelection =>
    [ ("CHARGE", "Charge"),
      ("DISCHARGE", "Discharge") ]
  | .chargeProgress =>
    [ ("START", "Start"),
      ("STOP", "Stop"),
      ("STANDBY", "Standby"),
      ("SCHEDULE_RENEGOTIATION", "ScheduleRenegotiation") ]
  | .chargingSession =>
    [ ("PAUSE", "Pause"),
      ("TERMINATE", "Terminate"),
      ("SERVICE_RENEGOTIATION", "ServiceRenegotiation") ]
  | .evCheckInStatus =>
    [ ("CHECK_IN", "CheckIn"),
      ("PROCESSING", "Processing"),
      ("COMPLETED", "Completed") ]
  | .evCheckOutStatus =>
    [ ("CHECK_OUT", "CheckOut"),
      ("PROCESSING", "Processing"),
      ("COMPLETED", "Completed") ]
  | .evseCheckOutStatus =>
    [ ("SCHEDULED", "Scheduled"),
      ("COMPLETED", "Completed") ]
  | .parkingMethod =>
    [ ("AUTO_PARKING", "AutoParking"),
      ("MV_GUIDED_MANUAL", "MVGuideManual"),
      ("MANUAL", "Manual") ]
  | .authService =>
    [ ("EIM", "EIM"),
      ("PNC", "PnC") ]

def tokens (t : TokenType) : List String := t.members.map (·.2)

/-- The symbol of a token. -/
def symbol? (t : TokenType) (token : String) : Option String :=
  (t.members.find? (·.2 == token)).map (·.1)

end TokenType

end V2G
