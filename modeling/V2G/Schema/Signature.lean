import V2G.Schema.Field

/-!
# Signature elements

The XML signature block that a message header may carry. Only its structure is
held here: digests and signature values are opaque bytes.
-/

namespace V2G.Declared

open V2G.Field

def transform : List Field :=
  [ mandatory "algorithm" "algorithm" .url ]

def digestMethod : List Field :=
  [ mandatory "algorithm" "algorithm" .url ]

def signatureMethod : List Field :=
  [ mandatory "algorithm" "algorithm" .url ]

def canonicalizationMethod : List Field :=
  [ mandatory "algorithm" "algorithm" .url ]

def reference : List Field :=
  [ mandatoryMany "transforms" "transforms" (.list (.element .transform) 1 1),
    mandatory "digest_method" "digestMethod" (.element .digestMethod),
    mandatory "digest_value" "digestValue" .anyBytes,
    optional "id" "id" .anyText,
    optional "uri" "uri" .anyText ]

def signedInfo : List Field :=
  [ mandatory "canonicalization_method" "canonicalizationMethod" (.element .canonicalizationMethod),
    mandatory "signature_method" "signatureMethod" (.element .signatureMethod),
    mandatoryMany "references" "references" (.list (.element .reference) 1 4) ]

def signature : List Field :=
  [ mandatory "signed_info" "signedInfo" (.element .signedInfo),
    mandatory "signature_value" "signatureValue" .anyBytes ]

def x509IssuerSerial : List Field :=
  [ mandatory "x509_issuer_name" "x509IssuerName" .anyText,
    mandatory "x509_serial_number" "x509SerialNumber" (.int (some 0) none) ]

end V2G.Declared
