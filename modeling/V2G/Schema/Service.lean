import V2G.Schema.Field

/-!
# Service elements

Discovery, description and selection of services. A service parameter holds one
value of the group `parameterValue`.
-/

namespace V2G.Declared

open V2G.Field

def serviceDiscoveryReq : List Field :=
  [ optionalMany "supported_service_ids" "supportedServiceIds" (.set .uint16 0 16) ]

def service : List Field :=
  [ mandatory "service_id" "serviceId" .uint16,
    mandatory "free_service" "freeService" .bool ]

def serviceDiscoveryRes : List Field :=
  [ mandatory "service_renegotiation_supported" "serviceRenegotiationSupported" .bool,
    mandatoryMany "energy_transfer_services" "energyTransferServices"
        (.set (.element .service) 1 8),
    optionalMany "vas_services" "vasServices" (.set (.element .service) 0 8) ]

def serviceDetailReq : List Field :=
  [ mandatory "service_id" "serviceId" .uint16 ]

def parameter : List Field :=
  [ mandatory "name" "name" .nameType ]

def parameterSet : List Field :=
  [ mandatory "id" "parameterSetId" .uint16,
    mandatoryMany "parameters" "parameters" (.set (.element .parameter) 1 32) ]

def serviceDetailRes : List Field :=
  [ mandatory "service_id" "serviceId" .uint16,
    mandatoryMany "parameter_sets" "parameterSets" (.set (.element .parameterSet) 1 32) ]

def selectedService : List Field :=
  [ mandatory "service_id" "serviceId" .uint16,
    mandatory "parameter_set_id" "parameterSetId" .uint16 ]

def serviceSelectionReq : List Field :=
  [ mandatory "selected_energy_service" "selectedEnergyTransferService" (.element .selectedService),
    optionalMany "selected_vas_list" "selectedVasServices" (.set (.element .selectedService) 0 16) ]

end V2G.Declared

namespace V2G.Group

def parameterValue : Group where
  name := "ParameterValue"
  members :=
    [ ⟨"bool_value", "boolValue", .bool⟩,
      ⟨"byte_value", "byteValue", .int8⟩,
      ⟨"short_value", "shortValue", .int16⟩,
      ⟨"int_value", "intValue", .int32⟩,
      ⟨"rational_number", "rationalNumber", .rational⟩,
      ⟨"finite_str", "finiteString", .nameType⟩ ]
  required := true

end V2G.Group
