import V2G.Schema.Field

/-!
# Authorization elements

The set-up of and the request for an authorization, by external means (EIM) or by
Plug & Charge (PnC).
-/

namespace V2G.Declared

open V2G.Field

def pncAuthSetupResParams : List Field :=
  [ mandatory "gen_challenge" "genChallenge" (.bytes 16 (some 16)),
    optionalMany "supported_providers" "supportedProviders" (.set (.identifier .providerId) 0 128) ]

def authorizationSetupRes : List Field :=
  [ mandatoryMany "auth_services" "authorizationServices" (.set (.token .authService) 1 2),
    mandatory "cert_install_service" "certificateInstallationService" .bool ]

def pncAuthReqParams : List Field :=
  [ optional "id" "id" .identifierType,
    mandatory "gen_challenge" "genChallenge" (.bytes 16 (some 16)),
    mandatory "contract_cert_chain" "contractCertificateChain"
        (.element .contractCertificateChain) ]

def authorizationReq : List Field :=
  [ mandatory "selected_auth_service" "selectedAuthorizationService" (.token .authService) ]

def authorizationRes : List Field :=
  [ mandatory "evse_processing" "evseProcessing" (.token .processing) ]

end V2G.Declared

namespace V2G.Group

def authSetupResMode : Group where
  name := "ASResAuthorizationMode"
  members :=
    [ ⟨"eim_as_res", "eimAsResAuthorizationMode", .element .eimAuthSetupResParams⟩,
      ⟨"pnc_as_res", "pncAsResAuthorizationMode", .element .pncAuthSetupResParams⟩ ]
  required := true

def authReqMode : Group where
  name := "AReqAuthorizationMode"
  members :=
    [ ⟨"eim_params", "eimAReqAuthorizationMode", .element .eimAuthReqParams⟩,
      ⟨"pnc_params", "pncAReqAuthorizationMode", .element .pncAuthReqParams⟩ ]
  required := true

end V2G.Group
