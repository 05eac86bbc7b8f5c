import V2G.Schema.Field

/-!
# Certificate elements

Certificate chains and the installation of a contract certificate.
-/

namespace V2G.Declared

open V2G.Field

def certificateChain : List Field :=
  [ mandatory "certificate" "certificate" (.bytes 0 (some 800)),
    optionalMany "sub_certificates" "subCertificates" (.list .certificateType 0 3) ]

def signedCertificateChain : List Field :=
  [ mandatory "id" "id" .identifierType,
    mandatory "certificate" "certificate" (.bytes 0 (some 800)),
    optionalMany "sub_certificates" "subCertificates" (.list .certificateType 0 3) ]

def contractCertificateChain : List Field :=
  [ mandatory "certificate" "certificate" (.bytes 0 (some 800)),
    mandatoryMany "sub_certificates" "subCertificates" (.list .certificateType 1 3) ]

def certificateInstallationReq : List Field :=
  [ mandatory "oem_prov_cert_chain" "oemProvisioningCertificateChain"
        (.element .signedCertificateChain),
    mandatoryMany "root_cert_ids" "rootCertificateIds" (.set (.element .x509IssuerSerial) 1 20),
    mandatory "max_contract_cert_chains" "maximumContractCertificateChains" .uint16,
    optionalMany "prioritized_emaids" "prioritizedEmaids" (.set (.identifier .emaid) 0 8) ]

def signedInstallationData : List Field :=
  [ mandatory "id" "id" .identifierType,
    mandatory "contract_cert_chain" "contractCertificateChain" (.element .contractCertificateChain),
    mandatory "ecdh_curve" "ecdhCurve" (.token .ecdhCurve),
    mandatory "dh_public_key" "dhPublicKey" (.bytes 0 (some 133)) ]

def certificateInstallationRes : List Field :=
  [ mandatory "evse_processing" "evseProcessing" (.token .processing),
    mandatory "cps_certificate_chain" "cpsCertificateChain" (.element .certificateChain),
    mandatory "signed_installation_data" "signedInstallationData"
        (.element .signedInstallationData),
    mandatory "remaining_contract_cert_chains" "remainingContractCertificateChains" .uint8 ]

end V2G.Declared

namespace V2G.Group

def encryptedPrivateKey : Group where
  name := "EncryptedPrivateKey"
  members :=
    [ ⟨"secp521_encrypted_private_key", "secp521EncryptedPrivateKey", .bytes 94 (some 94)⟩,
      ⟨"x448_encrypted_private_key", "x448EncryptedPrivateKey", .bytes 84 (some 84)⟩,
      ⟨"tpm_encrypted_private_key", "tpmEncryptedPrivateKey", .bytes 209 (some 209)⟩ ]
  required := true

end V2G.Group
