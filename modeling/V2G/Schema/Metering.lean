import V2G.Schema.Field

/-!
# Metering elements

Meter readings, receipts and their confirmation by the vehicle.
-/

namespace V2G.Declared

open V2G.Field

def meterInfo : List Field :=
  [ mandatory "meter_id" "meterId" (.text 1 (some 32)),
    mandatory "charged_energy_reading_wh" "chargedEnergyReadingWh" .uint64,
    optional "bpt_discharged_energy_reading_wh" "bptDischargedEnergyReadingWh" .uint64,
    optional "capacitive_energy_reading_varh" "capacitiveEnergyReadingVarh" .uint64,
    optional "bpt_inductive_energy_reading_varh" "bptInductiveEnergyReadingVarh" .uint64,
    optional "meter_signature" "meterSignature" (.bytes 0 (some 64)),
    optional "meter_status" "meterStatus" .int16,
    optional "meter_timestamp" "meterTimestamp" .uint64 ]

def detailedCost : List Field :=
  [ mandatory "amount" "amount" .rational,
    mandatory "cost_per_unit" "costPerUnit" .rational ]

def detailedTax : List Field :=
  [ mandatory "tax_rule_id" "taxRuleId" .numericIdType,
    mandatory "amount" "amount" .rational ]

def receipt : List Field :=
  [ mandatory "time_anchor" "timeAnchor" .uint64,
    optional "energy_costs" "energyCosts" (.element .detailedCost),
    optional "occupancy_costs" "occupancyCosts" (.element .detailedCost),
    optional "additional_services_costs" "additionalServicesCosts" (.element .detailedCost),
    optional "overstay_costs" "overstayCosts" (.element .detailedCost),
    optionalMany "tax_costs" "taxCosts" (.set (.element .detailedTax) 0 10) ]

def scheduledSignedMeterData : List Field :=
  [ mandatory "selected_schedule_tuple_id" "selectedScheduleTupleId" .numericIdType ]

def signedMeteringData : List Field :=
  [ mandatory "id" "id" .identifierType,
    mandatory "session_id" "sessionId" (.identifier .sessionId),
    mandatory "meter_info" "meterInfo" (.element .meterInfo),
    optional "receipt" "receipt" (.element .receipt) ]

def meteringConfirmationReq : List Field :=
  [ mandatory "signed_metering_data" "signedMeteringData" (.element .signedMeteringData) ]

end V2G.Declared

namespace V2G.Group

def smdtControlMode : Group where
  name := "SMDTControlMode"
  members :=
    [ ⟨"scheduled_smart_meter_data", "scheduledSmdtControlMode",
        .element .scheduledSignedMeterData⟩,
      ⟨"dynamic_smart_meter_data", "dynamicSmdtControlMode", .element .dynamicSignedMeterData⟩ ]
  required := true

end V2G.Group
