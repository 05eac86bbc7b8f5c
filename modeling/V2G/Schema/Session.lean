import V2G.Schema.Field

/-!
# Session elements

The messages that open and close a session.
-/

namespace V2G.Declared

open V2G.Field

def sessionSetupReq : List Field :=
  [ mandatory "evcc_id" "evccId" (.identifier .evccId) ]

def sessionSetupRes : List Field :=
  [ mandatory "evse_id" "evseId" (.identifier .evseId) ]

def sessionStopReq : List Field :=
  [ mandatory "charging_session" "chargingSession" (.token .chargingSession),
    optional "ev_termination_code" "evTerminationCode" .nameType,
    optional "ev_termination_explanation" "evTerminationExplanation" .descriptionType ]

end V2G.Declared
