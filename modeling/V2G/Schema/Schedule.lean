import V2G.Schema.Field

/-!
# Schedule elements

The exchange of power schedules, with the schedule drawn up by the station
(scheduled mode) or on the fly (dynamic mode).
-/

namespace V2G.Declared

open V2G.Field

def evPowerScheduleEntry : List Field :=
  [ mandatory "duration" "duration" .uint32,
    mandatory "power" "power" .rational ]

def evPowerSchedule : List Field :=
  [ mandatory "time_anchor" "timeAnchor" .uint64,
    mandatoryMany "entries" "evPowerScheduleEntries"
        (.list (.element .evPowerScheduleEntry) 1 1024) ]

def evEnergyOffer : List Field :=
  [ mandatory "ev_power_schedule" "evPowerSchedule" (.element .evPowerSchedule),
    mandatory "ev_absolute_price_schedule" "evAbsolutePriceSchedule"
        (.element .evAbsolutePriceSchedule) ]

def scheduledScheduleExchangeReqParams : List Field :=
  [ optional "departure_time" "departureTime" .uint32,
    optional "ev_target_energy_request" "evTargetEnergyRequest" .rational,
    optional "ev_max_energy_request" "evMaximumEnergyRequest" .rational,
    optional "ev_min_energy_request" "evMinimumEnergyRequest" .rational,
    optional "ev_energy_offer" "evEnergyOffer" (.element .evEnergyOffer) ]

def dynamicScheduleExchangeReqParams : List Field :=
  [ mandatory "departure_time" "departureTime" .uint32,
    optional "min_soc" "minimumSoc" .percentage,
    optional "target_soc" "targetSoc" .percentage,
    mandatory "ev_target_energy_request" "evTargetEnergyRequest" .rational,
    mandatory "ev_max_energy_request" "evMaximumEnergyRequest" .rational,
    mandatory "ev_min_energy_request" "evMinimumEnergyRequest" .rational,
    optional "ev_max_v2x_energy_request" "evMaximumV2xEnergyRequest" .rational,
    optional "ev_min_v2x_energy_request" "evMinimumV2xEnergyRequest" .rational ]

def scheduleExchangeReq : List Field :=
  [ mandatory "max_supporting_points" "maximumSupportingPoints" (.range 12 1024) ]

def powerScheduleEntry : List Field :=
  [ mandatory "duration" "duration" .uint32,
    mandatory "power" "power" .rational,
    optional "power_l2" "powerL2" .rational,
    optional "power_l3" "powerL3" .rational ]

def powerSchedule : List Field :=
  [ mandatory "time_anchor" "timeAnchor" .uint64,
    optional "available_energy" "availableEnergy" .rational,
    optional "power_tolerance" "powerTolerance" .rational,
    mandatoryMany "entries" "powerScheduleEntries" (.list (.element .powerScheduleEntry) 1 1024) ]

def chargingSchedule : List Field :=
  [ mandatory "power_schedule" "powerSchedule" (.element .powerSchedule) ]

def dischargingSchedule : List Field :=
  [ mandatory "power_schedule" "powerSchedule" (.element .powerSchedule) ]

def scheduleTuple : List Field :=
  [ mandatory "schedule_tuple_id" "scheduleTupleId" .numericIdType,
    mandatory "charging_schedule" "chargingSchedule" (.element .chargingSchedule),
    optional "discharging_schedule" "dischargingSchedule" (.element .dischargingSchedule) ]

def scheduledScheduleExchangeResParams : List Field :=
  [ mandatoryMany "schedule_tuples" "scheduleTuples" (.set (.element .scheduleTuple) 1 3) ]

def dynamicScheduleExchangeResParams : List Field :=
  [ optional "departure_time" "departureTime" .uint32,
    optional "min_soc" "minimumSoc" .percentage,
    optional "target_soc" "targetSoc" .percentage ]

def scheduleExchangeRes : List Field :=
  [ mandatory "evse_processing" "evseProcessing" (.token .processing),
    optional "go_to_pause" "goToPause" .bool ]

end V2G.Declared

namespace V2G.Group

def seReqControlMode : Group where
  name := "SEReqControlMode"
  members :=
    [ ⟨"scheduled_params", "scheduledSeReqControlMode",
        .element .scheduledScheduleExchangeReqParams⟩,
      ⟨"dynamic_params", "dynamicSeReqControlMode", .element .dynamicScheduleExchangeReqParams⟩ ]
  required := true

def seResControlMode : Group where
  name := "SEResControlMode"
  members :=
    [ ⟨"scheduled_params", "scheduledSeResControlMode",
        .element .scheduledScheduleExchangeResParams⟩,
      ⟨"dynamic_params", "dynamicSeResControlMode", .element .dynamicScheduleExchangeResParams⟩ ]
  required := false

end V2G.Group
