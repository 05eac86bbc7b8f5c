import V2G.Schema.Field

/-!
# DC elements

The messages of DC charging.
-/

namespace V2G.Declared

open V2G.Field

def dcChargeParameterDiscoveryReqParams : List Field :=
  [ mandatory "ev_max_charge_power" "evMaximumChargePower" .rational,
    mandatory "ev_min_charge_power" "evMinimumChargePower" .rational,
    mandatory "ev_max_charge_current" "evMaximumChargeCurrent" .rational,
    mandatory "ev_min_charge_current" "evMinimumChargeCurrent" .rational,
    mandatory "ev_max_voltage" "evMaximumVoltage" .rational,
    mandatory "ev_min_voltage" "evMinimumVoltage" .rational,
    optional "target_soc" "targetSoc" .percentage ]

def dcChargeParameterDiscoveryResParams : List Field :=
  [ mandatory "evse_max_charge_power" "evseMaximumChargePower" .rational,
    mandatory "evse_min_charge_power" "evseMinimumChargePower" .rational,
    mandatory "evse_max_charge_current" "evseMaximumChargeCurrent" .rational,
    mandatory "evse_min_charge_current" "evseMinimumChargeCurrent" .rational,
    mandatory "evse_max_voltage" "evseMaximumVoltage" .rational,
    mandatory "evse_min_voltage" "evseMinimumVoltage" .rational,
    optional "evse_power_ramp_limit" "evsePowerRampLimitation" .rational ]

def bptDcChargeParameterDiscoveryReqParams : List Field :=
  [ mandatory "ev_max_discharge_power" "evMaximumDischargePower" .rational,
    mandatory "ev_min_discharge_power" "evMinimumDischargePower" .rational,
    mandatory "ev_max_discharge_current" "evMaximumDischargeCurrent" .rational,
    mandatory "ev_min_discharge_current" "evMinimumDischargeCurrent" .rational ]

def bptDcChargeParameterDiscoveryResParams : List Field :=
  [ mandatory "evse_max_discharge_power" "evseMaximumDischargePower" .rational,
    mandatory "evse_min_discharge_power" "evseMinimumDischargePower" .rational,
    mandatory "evse_max_discharge_current" "evseMaximumDischargeCurrent" .rational,
    mandatory "evse_min_discharge_current" "evseMinimumDischargeCurrent" .rational ]

def scheduledDcChargeLoopReqParams : List Field :=
  [ mandatory "ev_target_current" "evTargetCurrent" .rational,
    mandatory "ev_target_voltage" "evTargetVoltage" .rational,
    optional "ev_max_charge_power" "evMaximumChargePower" .rational,
    optional "ev_min_charge_power" "evMinimumChargePower" .rational,
    optional "ev_max_charge_current" "evMaximumChargeCurrent" .rational,
    optional "ev_max_voltage" "evMaximumVoltage" .rational,
    optional "ev_min_voltage" "evMinimumVoltage" .rational ]

def scheduledDcChargeLoopResParams : List Field :=
  [ optional "evse_max_charge_power" "evseMaximumChargePower" .rational,
    optional "evse_min_charge_power" "evseMinimumChargePower" .rational,
    optional "evse_max_charge_current" "evseMaximumChargeCurrent" .rational,
    optional "evse_max_voltage" "evseMaximumVoltage" .rational ]

def bptScheduledDcChargeLoopReqParams : List Field :=
  [ optional "ev_max_discharge_power" "evMaximumDischargePower" .rational,
    optional "ev_min_discharge_power" "evMinimumDischargePower" .rational,
    optional "ev_max_discharge_current" "evMaximumDischargeCurrent" .rational ]

def bptScheduledDcChargeLoopResParams : List Field :=
  [ optional "evse_max_discharge_power" "evseMaximumDischargePower" .rational,
    optional "evse_min_discharge_power" "evseMinimumDischargePower" .rational,
    optional "evse_max_discharge_current" "evseMaximumDischargeCurrent" .rational,
    optional "evse_min_voltage" "evseMinimumVoltage" .rational ]

def dynamicDcChargeLoopReqParams : List Field :=
  [ mandatory "ev_max_charge_power" "evMaximumChargePower" .rational,
    mandatory "ev_min_charge_power" "evMinimumChargePower" .rational,
    mandatory "ev_max_charge_current" "evMaximumChargeCurrent" .rational,
    mandatory "ev_max_voltage" "evMaximumVoltage" .rational,
    mandatory "ev_min_voltage" "evMinimumVoltage" .rational ]

def dynamicDcChargeLoopResParams : List Field :=
  [ mandatory "evse_max_charge_power" "evseMaximumChargePower" .rational,
    mandatory "evse_min_charge_power" "evseMinimumChargePower" .rational,
    mandatory "evse_max_charge_current" "evseMaximumChargeCurrent" .rational,
    mandatory "evse_max_voltage" "evseMaximumVoltage" .rational ]

def bptDynamicDcChargeLoopReqParams : List Field :=
  [ mandatory "ev_max_discharge_power" "evMaximumDischargePower" .rational,
    mandatory "ev_min_discharge_power" "evMinimumDischargePower" .rational,
    mandatory "ev_max_discharge_current" "evMaximumDischargeCurrent" .rational,
    optional "ev_max_v2x_energy_request" "evMaximumV2xEnergyRequest" .rational,
    optional "ev_min_v2x_energy_request" "evMinimumV2xEnergyRequest" .rational ]

def bptDynamicDcChargeLoopResParams : List Field :=
  [ mandatory "evse_max_discharge_power" "evseMaximumDischargePower" .rational,
    mandatory "evse_min_discharge_power" "evseMinimumDischargePower" .rational,
    mandatory "evse_max_discharge_current" "evseMaximumDischargeCurrent" .rational,
    mandatory "evse_min_voltage" "evseMinimumVoltage" .rational ]

def dcChargeLoopReq : List Field :=
  [ mandatory "ev_present_voltage" "evPresentVoltage" .rational ]

def dcChargeLoopRes : List Field :=
  [ mandatory "evse_present_current" "evsePresentCurrent" .rational,
    mandatory "evse_present_voltage" "evsePresentVoltage" .rational,
    mandatory "evse_power_limit_achieved" "evsePowerLimitAchieved" .bool,
    mandatory "evse_current_limit_achieved" "evseCurrentLimitAchieved" .bool,
    mandatory "evse_voltage_limit_achieved" "evseVoltageLimitAchieved" .bool ]

def dcCableCheckRes : List Field :=
  [ mandatory "evse_processing" "evseProcessing" (.token .processing) ]

def dcPreChargeReq : List Field :=
  [ mandatory "ev_processing" "evProcessing" (.token .processing),
    mandatory "ev_present_voltage" "evPresentVoltage" .rational,
    mandatory "ev_target_voltage" "evTargetVoltage" .rational ]

def dcPreChargeRes : List Field :=
  [ mandatory "evse_present_voltage" "evsePresentVoltage" .rational ]

def dcWeldingDetectionReq : List Field :=
  [ mandatory "ev_processing" "evProcessing" (.token .processing) ]

def dcWeldingDetectionRes : List Field :=
  [ mandatory "evse_present_voltage" "evsePresentVoltage" .rational ]

end V2G.Declared

namespace V2G.Group

def dcCpdReqMode : Group where
  name := "CPDReqEnergyTransferMode"
  members :=
    [ ⟨"dc_params", "dcCpdReqEnergyTransferMode", .element .dcChargeParameterDiscoveryReqParams⟩,
      ⟨"bpt_dc_params", "bptDcCpdReqEnergyTransferMode",
        .element .bptDcChargeParameterDiscoveryReqParams⟩ ]
  required := true

def dcCpdResMode : Group where
  name := "CPDResEnergyTransferMode"
  members :=
    [ ⟨"dc_params", "dcCpdResEnergyTransferMode", .element .dcChargeParameterDiscoveryResParams⟩,
      ⟨"bpt_dc_params", "bptDcCpdResEnergyTransferMode",
        .element .bptDcChargeParameterDiscoveryResParams⟩ ]
  required := true

def dcClReqMode : Group where
  name := "CLReqControlMode"
  members :=
    [ ⟨"scheduled_params", "scheduledDcClReqControlMode", .element .scheduledDcChargeLoopReqParams⟩,
      ⟨"dynamic_params", "dynamicDcClReqControlMode", .element .dynamicDcChargeLoopReqParams⟩,
      ⟨"bpt_scheduled_params", "bptScheduledDcClReqControlMode",
        .element .bptScheduledDcChargeLoopReqParams⟩,
      ⟨"bpt_dynamic_params", "bptDynamicDcClReqControlMode",
        .element .bptDynamicDcChargeLoopReqParams⟩ ]
  required := true

def dcClResMode : Group where
  name := "CLResControlMode"
  members :=
    [ ⟨"scheduled_params", "scheduledDcClResControlMode", .element .scheduledDcChargeLoopResParams⟩,
      ⟨"dynamic_params", "dynamicDcClResControlMode", .element .dynamicDcChargeLoopResParams⟩,
      ⟨"bpt_scheduled_params", "bptScheduledDcClResControlMode",
        .element .bptScheduledDcChargeLoopResParams⟩,
      ⟨"bpt_dynamic_params", "bptDynamicDcClResControlMode",
        .element .bptDynamicDcChargeLoopResParams⟩ ]
  required := true

end V2G.Group
