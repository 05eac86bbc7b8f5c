import V2G.Schema.Field

/-!
# Power delivery elements

The start and stop of the power transfer with the power profile of the vehicle.
-/

namespace V2G.Declared

open V2G.Field

def scheduledEvPowerProfile : List Field :=
  [ mandatory "selected_schedule_tuple_id" "selectedScheduleTupleId" .numericIdType,
    mandatory "power_tolerance_acceptance" "powerToleranceAcceptance"
        (.token .powerToleranceAcceptance) ]

def evPowerProfile : List Field :=
  [ mandatory "time_anchor" "timeAnchor" .uint64,
    mandatoryMany "entries" "evPowerProfileEntries" (.list (.element .powerScheduleEntry) 1 2048) ]

def powerDeliveryReq : List Field :=
  [ mandatory "ev_processing" "evProcessing" (.token .processing),
    mandatory "charge_progress" "chargeProgress" (.token .chargeProgress),
    optional "ev_power_profile" "evPowerProfile" (.element .evPowerProfile),
    optional "bpt_channel_selection" "bptChannelSelection" (.token .channelSelection) ]

def powerDeliveryRes : List Field :=
  [ optional "evse_status" "evseStatus" (.element .evseStatus) ]

end V2G.Declared

namespace V2G.Group

def evpptControlMode : Group where
  name := "EVPPTControlMode"
  members :=
    [ ⟨"scheduled_profile", "scheduledEvpptControlMode", .element .scheduledEvPowerProfile⟩,
      ⟨"dynamic_profile", "dynamicEvpptControlMode", .element .dynamicEvPowerProfile⟩ ]
  required := true

end V2G.Group
