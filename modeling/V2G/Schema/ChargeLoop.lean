import V2G.Schema.Field

/-!
# Charge loop elements

The parts that the AC and DC charge loops share, and the rational number that all
physical quantities are written with.
-/

namespace V2G.Declared

open V2G.Field

def rationalNumber : List Field :=
  [ mandatory "exponent" "exponent" .int8,
    mandatory "value" "value" .int16 ]

def evseStatus : List Field :=
  [ mandatory "notification_max_delay" "notificationMaxDelay" .uint16,
    mandatory "evse_notification" "evseNotification" (.token .evseNotification) ]

def displayParameters : List Field :=
  [ optional "present_soc" "presentSoc" .percentage,
    optional "min_soc" "minimumSoc" .percentage,
    optional "target_soc" "targetSoc" .percentage,
    optional "max_soc" "maximumSoc" .percentage,
    optional "remaining_time_to_min_soc" "remainingTimeToMinimumSoc" .uint32,
    optional "remaining_time_to_target_soc" "remainingTimeToTargetSoc" .uint32,
    optional "remaining_time_to_max_soc" "remainingTimeToMaximumSoc" .uint32,
    optional "charging_complete" "chargingComplete" .bool,
    optional "battery_energy_capacity" "batteryEnergyCapacity" .rational,
    optional "inlet_hot" "inletHot" .bool ]

def chargeLoopReq : List Field :=
  [ optional "display_parameters" "displayParameters" (.element .displayParameters),
    mandatory "meter_info_requested" "meterInfoRequested" .bool ]

def chargeLoopRes : List Field :=
  [ optional "evse_status" "evseStatus" (.element .evseStatus),
    optional "meter_info" "meterInfo" (.element .meterInfo),
    optional "receipt" "receipt" (.element .receipt) ]

def scheduledChargeLoopReqParams : List Field :=
  [ optional "ev_target_energy_request" "evTargetEnergyRequest" .rational,
    optional "ev_max_energy_request" "evMaximumEnergyRequest" .rational,
    optional "ev_min_energy_request" "evMinimumEnergyRequest" .rational ]

def dynamicChargeLoopReqParams : List Field :=
  [ optional "departure_time" "departureTime" .uint32,
    mandatory "ev_target_energy_request" "evTargetEnergyRequest" .rational,
    mandatory "ev_max_energy_request" "evMaximumEnergyRequest" .rational,
    mandatory "ev_min_energy_request" "evMinimumEnergyRequest" .rational ]

def dynamicChargeLoopResParams : List Field :=
  [ optional "departure_time" "departureTime" .uint32,
    optional "min_soc" "minimumSoc" .percentage,
    optional "target_soc" "targetSoc" .percentage,
    optional "ack_max_delay" "ackMaxDelay" .uint16 ]

end V2G.Declared
