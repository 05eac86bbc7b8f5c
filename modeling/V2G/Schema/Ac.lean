import V2G.Schema.Field

/-!
# AC elements

The messages of AC charging. A value given per phase has optional companions for
the second and third phase.
-/

namespace V2G.Declared

open V2G.Field

def acChargeParameterDiscoveryReqParams : List Field :=
  [ mandatory "ev_max_charge_power" "evMaximumChargePower" .rational,
    optional "ev_max_charge_power_l2" "evMaximumChargePowerL2" .rational,
    optional "ev_max_charge_power_l3" "evMaximumChargePowerL3" .rational,
    mandatory "ev_min_charge_power" "evMinimumChargePower" .rational,
    optional "ev_min_charge_power_l2" "evMinimumChargePowerL2" .rational,
    optional "ev_min_charge_power_l3" "evMinimumChargePowerL3" .rational ]

def acChargeParameterDiscoveryResParams : List Field :=
  [ mandatory "evse_max_charge_power" "evseMaximumChargePower" .rational,
    optional "evse_max_charge_power_l2" "evseMaximumChargePowerL2" .rational,
    optional "evse_max_charge_power_l3" "evseMaximumChargePowerL3" .rational,
    mandatory "evse_min_charge_power" "evseMinimumChargePower" .rational,
    optional "evse_min_charge_power_l2" "evseMinimumChargePowerL2" .rational,
    optional "evse_min_charge_power_l3" "evseMinimumChargePowerL3" .rational,
    mandatory "evse_nominal_frequency" "evseNominalFrequency" .rational,
    optional "max_power_asymmetry" "maximumPowerAsymmetry" .rational,
    optional "evse_power_ramp_limit" "evsePowerRampLimitation" .rational,
    optional "evse_present_active_power" "evsePresentActivePower" .rational,
    optional "evse_present_active_power_l2" "evsePresentActivePowerL2" .rational,
    optional "evse_present_active_power_l3" "evsePresentActivePowerL3" .rational ]

def bptAcChargeParameterDiscoveryReqParams : List Field :=
  [ mandatory "ev_max_discharge_power" "evMaximumDischargePower" .rational,
    optional "ev_max_discharge_power_l2" "evMaximumDischargePowerL2" .rational,
    optional "ev_max_discharge_power_l3" "evMaximumDischargePowerL3" .rational,
    mandatory "ev_min_discharge_power" "evMinimumDischargePower" .rational,
    optional "ev_min_discharge_power_l2" "evMinimumDischargePowerL2" .rational,
    optional "ev_min_discharge_power_l3" "evMinimumDischargePowerL3" .rational ]

def bptAcChargeParameterDiscoveryResParams : List Field :=
  [ mandatory "evse_max_discharge_power" "evseMaximumDischargePower" .rational,
    optional "evse_max_discharge_power_l2" "evseMaximumDischargePowerL2" .rational,
    optional "evse_max_discharge_power_l3" "evseMaximumDischargePowerL3" .rational,
    mandatory "evse_min_discharge_power" "evseMinimumDischargePower" .rational,
    optional "evse_min_discharge_power_l2" "evseMinimumDischargePowerL2" .rational,
    optional "evse_min_discharge_power_l3" "evseMinimumDischargePowerL3" .rational ]

def scheduledAcChargeLoopReqParams : List Field :=
  [ optional "ev_max_charge_power" "evMaximumChargePower" .rational,
    optional "ev_max_charge_power_l2" "evMaximumChargePowerL2" .rational,
    optional "ev_max_charge_power_l3" "evMaximumChargePowerL3" .rational,
    optional "ev_min_charge_power" "evMinimumChargePower" .rational,
    optional "ev_min_charge_power_l2" "evMinimumChargePowerL2" .rational,
    optional "ev_min_charge_power_l3" "evMinimumChargePowerL3" .rational,
    mandatory "ev_present_active_power" "evPresentActivePower" .rational,
    optional "ev_present_active_power_l2" "evPresentActivePowerL2" .rational,
    optional "ev_present_active_power_l3" "evPresentActivePowerL3" .rational,
    optional "ev_present_reactive_power" "evPresentReactivePower" .rational,
    optional "ev_present_reactive_power_l2" "evPresentReactivePowerL2" .rational,
    optional "ev_present_reactive_power_l3" "evPresentReactivePowerL3" .rational ]

def scheduledAcChargeLoopResParams : List Field :=
  [ optional "evse_target_active_power" "evseTargetActivePower" .rational,
    optional "evse_target_active_power_l2" "evseTargetActivePowerL2" .rational,
    optional "evse_target_active_power_l3" "evseTargetActivePowerL3" .rational,
    optional "evse_target_reactive_power" "evseTargetReactivePower" .rational,
    optional "evse_target_reactive_power_l2" "evseTargetReactivePowerL2" .rational,
    optional "evse_target_reactive_power_l3" "evseTargetReactivePowerL3" .rational,
    optional "evse_present_active_power" "evsePresentActivePower" .rational,
    optional "evse_present_active_power_l2" "evsePresentActivePowerL2" .rational,
    optional "evse_present_active_power_l3" "evsePresentActivePowerL3" .rational ]

def bptScheduledAcChargeLoopReqParams : List Field :=
  [ optional "ev_max_discharge_power" "evMaximumDischargePower" .rational,
    optional "ev_max_discharge_power_l2" "evMaximumDischargePowerL2" .rational,
    optional "ev_max_discharge_power_l3" "evMaximumDischargePowerL3" .rational,
    optional "ev_min_discharge_power" "evMinimumDischargePower" .rational,
    optional "ev_min_discharge_power_l2" "evMinimumDischargePowerL2" .rational,
    optional "ev_min_discharge_power_l3" "evMinimumDischargePowerL3" .rational ]

def dynamicAcChargeLoopReqParams : List Field :=
  [ mandatory "ev_max_charge_power" "evMaximumChargePower" .rational,
    optional "ev_max_charge_power_l2" "evMaximumChargePowerL2" .rational,
    optional "ev_max_charge_power_l3" "evMaximumChargePowerL3" .rational,
    mandatory "ev_min_charge_power" "evMinimumChargePower" .rational,
    optional "ev_min_charge_power_l2" "evMinimumChargePowerL2" .rational,
    optional "ev_min_charge_power_l3" "evMinimumChargePowerL3" .rational,
    mandatory "ev_present_active_power" "evPresentActivePower" .rational,
    optional "ev_present_active_power_l2" "evPresentActivePowerL2" .rational,
    optional "ev_present_active_power_l3" "evPresentActivePowerL3" .rational,
    mandatory "ev_present_reactive_power" "evPresentReactivePower" .rational,
    optional "ev_present_reactive_power_l2" "evPresentReactivePowerL2" .rational,
    optional "ev_present_reactive_power_l3" "evPresentReactivePowerL3" .rational ]

def dynamicAcChargeLoopResParams : List Field :=
  [ mandatory "evse_target_active_power" "evseTargetActivePower" .rational,
    optional "evse_target_active_power_l2" "evseTargetActivePowerL2" .rational,
    optional "evse_target_active_power_l3" "evseTargetActivePowerL3" .rational,
    optional "evse_target_reactive_power" "evseTargetReactivePower" .rational,
    optional "evse_target_reactive_power_l2" "evseTargetReactivePowerL2" .rational,
    optional "evse_target_reactive_power_l3" "evseTargetReactivePowerL3" .rational,
    optional "evse_present_active_power" "evsePresentActivePower" .rational,
    optional "evse_present_active_power_l2" "evsePresentActivePowerL2" .rational,
    optional "evse_present_active_power_l3" "evsePresentActivePowerL3" .rational ]

def bptDynamicAcChargeLoopReqParams : List Field :=
  [ mandatory "ev_max_discharge_power" "evMaximumDischargePower" .rational,
    optional "ev_max_discharge_power_l2" "evMaximumDischargePowerL2" .rational,
    optional "ev_max_discharge_power_l3" "evMaximumDischargePowerL3" .rational,
    mandatory "ev_min_discharge_power" "evMinimumDischargePower" .rational,
    optional "ev_min_discharge_power_l2" "evMinimumDischargePowerL2" .rational,
    optional "ev_min_discharge_power_l3" "evMinimumDischargePowerL3" .rational,
    optional "ev_max_v2x_energy_request" "evMaximumV2xEnergyRequest" .rational,
    optional "ev_min_v2x_energy_request" "evMinimumV2xEnergyRequest" .rational ]

def acChargeLoopRes : List Field :=
  [ optional "evse_target_frequency" "evseTargetFrequency" .rational ]

end V2G.Declared

namespace V2G.Group

def acCpdReqMode : Group where
  name := "CPDReqEnergyTransferMode"
  members :=
    [ ⟨"ac_params", "acCpdReqEnergyTransferMode", .element .acChargeParameterDiscoveryReqParams⟩,
      ⟨"bpt_ac_params", "bptAcCpdReqEnergyTransferMode",
        .element .bptAcChargeParameterDiscoveryReqParams⟩ ]
  required := true

def acCpdResMode : Group where
  name := "CPDResEnergyTransferMode"
  members :=
    [ ⟨"ac_params", "acCpdResEnergyTransferMode", .element .acChargeParameterDiscoveryResParams⟩,
      ⟨"bpt_ac_params", "bptAcCpdResEnergyTransferMode",
        .element .bptAcChargeParameterDiscoveryResParams⟩ ]
  required := true

def acClReqMode : Group where
  name := "CLReqControlMode"
  members :=
    [ ⟨"scheduled_params", "scheduledAcClReqControlMode", .element .scheduledAcChargeLoopReqParams⟩,
      ⟨"dynamic_params", "dynamicAcClReqControlMode", .element .dynamicAcChargeLoopReqParams⟩,
      ⟨"bpt_scheduled_params", "bptScheduledAcClReqControlMode",
        .element .bptScheduledAcChargeLoopReqParams⟩,
      ⟨"bpt_dynamic_params", "bptDynamicAcClReqControlMode",
        .element .bptDynamicAcChargeLoopReqParams⟩ ]
  required := true

def acClResMode : Group where
  name := "CLResControlMode"
  members :=
    [ ⟨"scheduled_params", "scheduledAcClResControlMode", .element .scheduledAcChargeLoopResParams⟩,
      ⟨"dynamic_params", "dynamicAcClResControlMode", .element .dynamicAcChargeLoopResParams⟩,
      ⟨"bpt_scheduled_params", "bptScheduledAcClResControlMode",
        .element .bptScheduledAcChargeLoopResParams⟩,
      ⟨"bpt_dynamic_params", "bptDynamicAcClResControlMode",
        .element .bptDynamicAcChargeLoopResParams⟩ ]
  required := true

end V2G.Group
