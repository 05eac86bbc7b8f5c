import V2G.Schema.Field

/-!
# Message frames

What every message, request and response carries: the header, and for responses
the response code.
-/

namespace V2G.Declared

open V2G.Field

def messageHeader : List Field :=
  [ mandatory "session_id" "sessionId" (.identifier .sessionId),
    mandatory "timestamp" "timestamp" .uint64,
    optional "signature" "signature" (.element .signature) ]

def v2gMessage : List Field :=
  [ mandatory "header" "messageHeader" (.element .messageHeader) ]

def v2gResponse : List Field :=
  [ mandatory "response_code" "responseCode" (.token .responseCode) ]

end V2G.Declared
