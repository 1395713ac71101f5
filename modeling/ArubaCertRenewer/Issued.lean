import ArubaCertRenewer.Csr
import ArubaCertRenewer.Summary

/- Issued certificates: `validate_issued_certificate`, the verification CA, and
   `read_certificate_input`. -/
namespace ArubaCertRenewer
open PyText Effects Effects.Py

/-- Make a call whose answer is a value or an exception. -/
def ask {σ α : Type} (c : Call) (view : Call.Ans c → Except StdError α) : Act σ α := do
  let r ← perform (I := World) c
  result (liftStd (view r))

/-! The validity period. -/

/-- `datetime.max`, in microseconds since the epoch. -/
def maxInstant : Int := 253402300799999999

def maxTimedeltaDays : Nat := 999999999

/-- `now + timedelta(days=days)`. -/
def plusDays (now : Int) (days : Nat) : Except Exc Int := do
  raiseWhen (maxTimedeltaDays < days)
    (overflowError ("days=" ++ ofNat days ++ "; must have magnitude <= 999999999"))
  raiseWhen (maxInstant < now + days * dayMicros) (overflowError "date value out of range")
  return now + days * dayMicros

/-- `_require_current_certificate_validity`. -/
def requireCurrentCertificateValidity (certificate : Certificate) (now : Int)
    (minimumRemainingDays : Option Nat) : Except Exc Unit := do
  raiseWhen (now < certificate.notValidBeforeUtc)
    (valueError "Issued certificate is not yet valid")
  raiseWhen (certificate.notValidAfterUtc ≤ now) (valueError "Issued certificate has expired")
  match minimumRemainingDays with
  | none => return ()
  | some days =>
    raiseWhen (certificate.notValidAfterUtc ≤ (← plusDays now days))
      (valueError ("Issued certificate does not have enough remaining validity " ++
        "to leave the renewal warning window"))

/-- `ISSUANCE_FRESHNESS_WINDOW`. -/
def issuanceFreshnessWindow : Int := 5 * 60 * 1000000

/-! The signature. -/

/-- `ISSUED_SIGNATURE_OIDS`. -/
def issuedSignatureOids (digest : Text) : Option (List Oid) :=
  if digest == "sha256" then some ["1.2.840.113549.1.1.11", "1.2.840.10045.4.3.2"]
  else if digest == "sha384" then some ["1.2.840.113549.1.1.12", "1.2.840.10045.4.3.3"]
  else if digest == "sha512" then some ["1.2.840.113549.1.1.13", "1.2.840.10045.4.3.4"]
  else none

/-- `_validate_issued_signature`. -/
def validateIssuedSignature (certificate : Certificate) (digest : Text) : Except Exc Unit := do
  match issuedSignatureOids digest with
  | none => .error (valueError "Configured issued certificate digest is unsupported")
  | some allowed =>
    let hash ← match certificate.signatureHash with
      | .ok hash => pure hash
      | .error e => throw (if e.unsupportedAlgorithm then
          valueError "Issued certificate signature hash algorithm is unsupported" else .std e)
    raiseWhen (hash != some digest || !allowed.contains certificate.signatureOid)
      (valueError "Issued certificate signature does not match opnsense.digest")

/-! The certificate against the CSR and the policy. -/

/-- The certificates of a PEM text, `x509.load_pem_x509_certificates(text.encode("ascii"))`. -/
def loadIssued (P : Platform) (certificatePem : Text) : Except Exc (List Certificate) :=
  let bad := valueError "Issued certificate is not valid PEM X.509"
  match encodeAscii certificatePem with
  | none => .error bad
  | some data =>
    match P.loadPemX509Certificates data with
    | .ok certificates => .ok certificates
    | .error e => .error (if e.value then bad else .std e)

/-- `_require_extension`. -/
def requireExtension {α : Type} (certificate : Certificate) (field : Extensions → Option α)
    (name : Text) : Except Exc α := do
  match field (← liftStd certificate.extensions) with
  | some value => return value
  | none => throw (valueError ("Issued certificate is missing " ++ name))

def checkIssuedSubject (certificate : Certificate) (csr : Csr) (identities : CertificateIdentities) :
    Except Exc Unit := do
  let subject ← liftStd certificate.subject
  raiseWhen (subject.attributesForOid oidCommonName != [identities.commonName])
    (valueError ("Issued certificate CN must equal switch host '" ++ identities.commonName ++ "'"))
  raiseWhen (!subject.same (← liftStd csr.subject))
    (valueError "Issued certificate subject does not match the CSR")

/-- Whether two lists have the same members. -/
def sameMembers {α : Type} [BEq α] (xs ys : List α) : Bool := xs.all ys.contains && ys.all xs.contains

/-- The DNS and IP names of a certificate are exactly the configured ones. -/
def checkIssuedNames (certificate : Certificate) (identities : CertificateIdentities) :
    Except Exc Unit := do
  let names ← requireExtension certificate Extensions.subjectAltName "Subject Alternative Name"
  raiseWhen (names.contains .other)
    (valueError "Issued certificate SAN contains an unsupported identity type")
  let dnsNames := names.filterMap fun
    | .dns value => some (casefold value)
    | _ => none
  let expectedDns := (identities.dnsNames.map casefold).eraseDups
  raiseWhen (dnsNames.length != expectedDns.length || !sameMembers dnsNames expectedDns)
    (valueError ("Issued certificate DNS SAN set does not exactly match configured " ++
      "identities"))
  let ipNames := names.filter fun
    | .dns _ => false
    | _ => true
  let expectedIps := ((identities.ipAddresses.filterMap IpAddress.ofText).map GeneralName.ip).eraseDups
  raiseWhen (ipNames.length != expectedIps.length || !sameMembers ipNames expectedIps)
    (valueError "Issued certificate IP SAN set does not exactly match configured identities")

/-- `ISSUED_EKU_OIDS`. -/
def issuedEkuOids : List Oid := ["1.3.6.1.5.5.7.3.1", "1.3.6.1.5.5.8.2.2"]

def checkIssuedUsage (certificate : Certificate) : Except Exc Unit := do
  raiseWhen (← requireExtension certificate Extensions.basicConstraintsCa "Basic Constraints")
    (valueError "Issued certificate Basic Constraints must set CA to FALSE")
  let usages ← requireExtension certificate Extensions.extendedKeyUsage "Extended Key Usage"
  raiseWhen (usages.length != issuedEkuOids.length || !sameMembers usages issuedEkuOids)
    (valueError ("Issued certificate Extended Key Usage must contain exactly " ++
      "serverAuth and 1.3.6.1.5.5.8.2.2"))
  let usage ← requireExtension certificate Extensions.keyUsage "Key Usage"
  raiseWhen
    (!(usage.digitalSignature && usage.keyEncipherment && !usage.contentCommitment &&
      !usage.dataEncipherment && !usage.keyAgreement && !usage.keyCertSign && !usage.crlSign))
    (valueError "Issued certificate Key Usage does not match server policy")

/-- The part of `validate_issued_certificate` before it reads the clock. -/
def matchIssuedCertificate (P : Platform) (certificatePem : Text) (csr : Csr) (switch : Switch) :
    Except Exc Certificate := do
  let certificates ← loadIssued P certificatePem
  match certificates with
  | [certificate] =>
    let certificateKey ← liftStd certificate.publicKey
    let csrKey ← liftStd csr.publicKey
    raiseWhen (!certificateKey.rsa)
      (valueError "Issued certificate does not contain an RSA public key")
    raiseWhen (certificateKey.keySize != 2048)
      (valueError ("Issued certificate RSA key size is " ++ ofNat certificateKey.keySize ++ "; " ++
        "expected 2048"))
    raiseWhen (certificateKey.spki != csrKey.spki)
      (valueError "Issued certificate public key does not match the CSR")
    let identities ← getCertificateIdentities switch
    checkIssuedSubject certificate csr identities
    checkIssuedNames certificate identities
    checkIssuedUsage certificate
    raiseWhen (certificate.notValidAfterUtc ≤ certificate.notValidBeforeUtc)
      (valueError "Issued certificate validity period is invalid")
    return certificate
  | _ => throw (valueError "Issued certificate response must contain exactly one certificate")

/-- The part of `validate_issued_certificate` after it read the clock. -/
def checkIssuedTimes (certificate : Certificate) (lifetimeDays : Nat) (digest : Text) (now : Int)
    (requireFreshIssuance : Bool) (minimumRemainingDays : Option Nat) : Except Exc Unit := do
  requireCurrentCertificateValidity certificate now minimumRemainingDays
  raiseWhen (requireFreshIssuance &&
      certificate.notValidBeforeUtc < now - issuanceFreshnessWindow)
    (valueError "Issued certificate is older than the issuance freshness window")
  raiseWhen (certificate.notValidAfterUtc - certificate.notValidBeforeUtc !=
      lifetimeDays * dayMicros)
    (valueError ("Issued certificate validity period is inconsistent with " ++
      "opnsense.lifetime_days"))
  validateIssuedSignature certificate digest

def validateIssuedCertificate {σ : Type} (P : Platform) (certificatePem : Text) (csr : Csr)
    (switch : Switch) (lifetimeDays : Nat) (digest : Text) (requireFreshIssuance : Bool)
    (minimumRemainingDays : Option Nat) : Act σ Certificate := do
  let certificate ← result (matchIssuedCertificate P certificatePem csr switch)
  let now ← perform (I := World) .utcNow
  result (checkIssuedTimes certificate lifetimeDays digest now requireFreshIssuance
    minimumRemainingDays)
  return certificate

/-! The verification CA. -/

structure VerificationCaSnapshot where
  path : Text
  pem : Bytes

def badCaPem (snapshot : VerificationCaSnapshot) : Exc :=
  valueError ("verification.ca_file does not contain valid PEM certificates: " ++ snapshot.path)

/-- `_ca_ssl_data`. -/
def caSslData (snapshot : VerificationCaSnapshot) : Except Exc Text :=
  match decodeAscii snapshot.pem with
  | some t => .ok t
  | none => .error (badCaPem snapshot)

def loadTrusted (P : Platform) (snapshot : VerificationCaSnapshot) :
    Except Exc (List Certificate) := do
  let trusted ← match P.loadPemX509Certificates snapshot.pem with
    | .ok certificates => pure certificates
    | .error e => throw (if e.value then badCaPem snapshot else .std e)
  raiseWhen trusted.isEmpty
    (valueError ("verification.ca_file does not contain any trusted certificates: " ++ snapshot.path))
  return trusted

/-- The name a server at `host` must be verified as. -/
def serverName (host : Text) : Except Exc GeneralName := do
  let identity ← parseIdentity host "switch host"
  return match identity.key with
    | .dns canonical => .dns canonical
    | .ip address => .ip address

def verifyIssuedCertificateTrust {σ : Type} (P : Platform) (certificate : Certificate)
    (switch : Switch) (snapshot : VerificationCaSnapshot) : Act σ Unit := do
  let trusted ← result (loadTrusted P snapshot)
  let expected ← result (serverName switch.host)
  match ← ask (.verifyServer trusted expected certificate) fun r => r with
  | none => return ()
  | some reason =>
    throw (valueError ("Issued certificate failed pre-install trust verification against " ++
      "verification.ca_file (" ++ snapshot.path ++ "): " ++ reason))

/-- `create_client_tls_context`. -/
def createClientTlsContext {σ : Type} (cadata : Option Text) : Act σ TlsContext := do
  let context ← ask (.createTlsContext cadata) fun r => r
  raiseIf (!context.checkHostname || !context.certRequired)
    (runtimeError "TLS client verification context is not securely configured")
  return context

/-! The certificate input file. -/

def maxCertificateInputBytes : Nat := 64 * 1024

open Regex in
def crlf : Regex := seq (opt (lit "\r")) (lit "\n")

open Regex in
/-- `[ \t\r\n]*`. -/
def pemSpace : Regex := star true (char fun c => c == ' ' || c == '\t' || c == '\r' || c == '\n')

/-- `[A-Za-z0-9+/=]`. -/
def isBase64 (c : Char) : Bool := isAlnumAscii c || c == '+' || c == '/' || c == '='

open Regex in
def certificatePattern : Regex :=
  seqs [pemSpace, lit "-----BEGIN CERTIFICATE-----", crlf,
    plus (seq (plus (char isBase64)) crlf), lit "-----END CERTIFICATE-----", pemSpace]

/-- What the certificate input must be once it is read. -/
def checkCertificateInput (P : Platform) (data : Bytes) : Except Exc Text := do
  raiseWhen (maxCertificateInputBytes < data.length)
    (valueError ("Certificate input exceeds " ++ ofNat maxCertificateInputBytes ++ " bytes"))
  match decodeAscii data with
  | none => throw (valueError "Certificate input must be ASCII PEM")
  | some certificatePem =>
    raiseWhen (!fullmatch certificatePattern certificatePem)
      (valueError "Certificate input must contain exactly one PEM X.509 certificate")
    let certificates ← match P.loadPemX509Certificates data with
      | .ok certificates => pure certificates
      | .error e =>
        throw (if e.value then valueError "Certificate input is not valid PEM X.509" else .std e)
    raiseWhen (certificates.length != 1)
      (valueError "Certificate input must contain exactly one certificate")
    return certificatePem

/-- What an exception of opening or reading the certificate input becomes. -/
def certificateInputError (certificateInput : Text) (e : Exc) : Exc :=
  match e with
  | .std { os := some os, .. } =>
    if os.fileNotFound then valueError ("Certificate input file not found: " ++ certificateInput)
    else if os.isADirectory then
      valueError ("Certificate input is not a regular file: " ++ certificateInput)
    else valueError
      ("Certificate input could not be read: " ++ certificateInput ++ ": " ++ e.str)
  | e => e

def readCertificateInput {σ : Type} (P : Platform) (certificateInput : Text) : Act σ Text := do
  let data ← handle
    (within (ask (.openInputFile certificateInput) fun r => r)
      (fun _ _ => ask .closeFile fun r => r) fun _ => do
        raiseIf (!(← ask .inputIsRegular fun r => r))
          (valueError ("Certificate input is not a regular file: " ++ certificateInput))
        ask (.readFile (maxCertificateInputBytes + 1)) fun r => r)
    fun e => throw (certificateInputError certificateInput e)
  result (checkCertificateInput P data)

end ArubaCertRenewer
