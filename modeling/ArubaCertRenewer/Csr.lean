import ArubaCertRenewer.Regex
import ArubaCertRenewer.Settings

/- Certificate signing requests: the create command, the PEM block in the
   switch's output, and `validate_csr_pem`. -/
namespace ArubaCertRenewer
open PyText

def maxCsrPemBytes : Nat := 64 * 1024

/-- Raise what a package raised. -/
def liftStd {α : Type} (x : Except StdError α) : Except Exc α := x.mapError Exc.std

/-- `_validate_csr_common_name`. -/
def validateCsrCommonName (commonName : Text) : Except Exc Unit :=
  raiseWhen (!isAscii commonName || 90 < commonName.length)
    (valueError "CSR common name exceeds Aruba's 90-character ASCII limit")

def quoteCliSubjectValue (value : Text) : Except Exc Text := do
  raiseWhen (value.any fun c => c == '"' || c == '\r' || c == '\n')
    (valueError "CSR subject value contains unsupported characters")
  return if value.contains ' ' then "\"" ++ value ++ "\"" else value

/-- What every create command starts with. -/
def createCsrCommand : Text := "crypto pki create-csr"

def buildCsrCommand (switch : Switch) (certificateName taProfile : Text) (settings : CsrSettings) :
    Except Exc Text := do
  validateCliIdentifier certificateName "certificate name"
  validateCliIdentifier taProfile "TA profile"
  let commonName := (← getCertificateIdentities switch).commonName
  validateCsrCommonName commonName
  let organization ← quoteCliSubjectValue settings.organization
  let organizationalUnit ← quoteCliSubjectValue settings.organizationalUnit
  let locality ← quoteCliSubjectValue settings.locality
  let state ← quoteCliSubjectValue settings.state
  return join " "
    [createCsrCommand,
     "certificate-name " ++ certificateName,
     "ta-profile " ++ taProfile,
     "usage web",
     "key-type rsa",
     "key-size " ++ settings.keySize,
     "subject",
     "common-name " ++ commonName,
     "org " ++ organization,
     "org-unit " ++ organizationalUnit,
     "locality " ++ locality,
     "state " ++ state,
     "country " ++ settings.country]

open Regex in
def csrPemPattern : Regex :=
  seqs [lit "-----BEGIN CERTIFICATE REQUEST-----", star false any,
    lit "-----END CERTIFICATE REQUEST-----"]

def extractCsrPem (output : Text) : Except Exc Text :=
  match search csrPemPattern output with
  | some m => .ok (strip m.matched ++ "\n")
  | none => .error (valueError "Could not find a PEM certificate signing request")

/-! Subjects. -/

def oidCommonName : Oid := "2.5.4.3"
def oidOrganization : Oid := "2.5.4.10"
def oidOrganizationalUnit : Oid := "2.5.4.11"
def oidLocality : Oid := "2.5.4.7"
def oidState : Oid := "2.5.4.8"
def oidCountry : Oid := "2.5.4.6"

namespace Name

def attributesForOid (subject : Name) (oid : Oid) : List Text :=
  (subject.flatten.filter (·.oid == oid)).map NameAttribute.value

/-- `==` of two names: the same relative names in order, each as a set. -/
def same (a b : Name) : Bool :=
  a.length == b.length && (a.zip b).all fun (x, y) => x.all y.contains && y.all x.contains

end Name

def getSubjectValue (subject : Name) (oid : Oid) (fieldName : Text) : Except Exc Text :=
  match subject.attributesForOid oid with
  | [value] => .ok value
  | _ => .error (valueError ("CSR must contain exactly one " ++ fieldName))

/-- The object identifier, the name and the expected value of every subject attribute. -/
def expectedSubject (commonName : Text) (settings : CsrSettings) : List (Oid × Text × Text) :=
  [(oidCommonName, "common name", commonName),
   (oidOrganization, "organization", settings.organization),
   (oidOrganizationalUnit, "organizational unit", settings.organizationalUnit),
   (oidLocality, "locality", settings.locality),
   (oidState, "state", settings.state),
   (oidCountry, "country", settings.country)]

def checkSubjectAttribute (P : Platform) (csr : Csr) (field : Oid × Text × Text) :
    Except Exc Unit := do
  let (oid, fieldName, expected) := field
  let actual ← getSubjectValue (← liftStd csr.subject) oid fieldName
  if oid == oidCommonName then
    validateCsrCommonName actual
  else if oid == oidCountry then
    raiseWhen (!isCountryCode actual) (valueError "CSR country must be two uppercase ASCII letters")
  else
    raiseWhen (100 < actual.length) (valueError ("CSR " ++ fieldName ++ " exceeds 100 characters"))
  raiseWhen (actual != expected)
    (valueError ("CSR " ++ fieldName ++ " is " ++ P.repr actual ++ "; expected " ++ P.repr expected))

/-! Signature and requested names. -/

def oidRsaWithSha1 : Oid := "1.2.840.113549.1.1.5"
def oidRsaWithSha256 : Oid := "1.2.840.113549.1.1.11"
def oidExtensionRequest : Oid := "1.2.840.113549.1.9.14"
def oidSubjectAltName : Oid := "2.5.29.17"

def verifyCsrSignature (csr : Csr) : Except Exc Unit := do
  let hash ←
    if csr.signatureOid == oidRsaWithSha1 then pure SignatureHash.sha1
    else if csr.signatureOid == oidRsaWithSha256 then pure SignatureHash.sha256
    else throw (valueError ("Unsupported CSR signature algorithm: " ++ csr.signatureOid))
  match csr.verify hash with
  | .valid => return ()
  | .invalidSignature => throw (valueError "CSR signature is invalid")
  | .unsupportedAlgorithm =>
    let name : Text := match hash with
      | .sha1 => "sha1"
      | .sha256 => "sha256"
    throw (valueError ("CSR signature algorithm is unavailable: " ++ name))

/-- The identity a requested name stands for. -/
def requestedIdentity : GeneralName → Except Exc Identity
  | .dns value => do
    let identity ← parseIdentity value "CSR SAN"
    raiseWhen (identity.kind != .dns) (valueError "CSR contains unsupported SAN identity")
    return identity
  | .ip address => parseIdentity address.str "CSR SAN"
  | .ipNetwork printed => parseIdentity printed "CSR SAN"
  | .other => .error (valueError "CSR contains unsupported SAN identity")

/-- The keys of the requested names, each allowed and none twice. -/
def requestedKeys (allowed : List IdentityKey) :
    List IdentityKey → List GeneralName → Except Exc (List IdentityKey)
  | seen, [] => .ok seen
  | seen, name :: names => do
    let identity ← requestedIdentity name
    raiseWhen (seen.contains identity.key || !allowed.contains identity.key)
      (valueError "CSR SAN is duplicated or unconfigured")
    requestedKeys allowed (identity.key :: seen) names

def checkRequestedNames (switch : Switch) (names : List GeneralName) : Except Exc Unit := do
  raiseWhen (names.length < 1 || 101 < names.length)
    (valueError "CSR SAN count must be between 1 and 101")
  let allowed ← (switch.host :: switch.additionalSans).mapM fun value => do
    return (← parseIdentity value "identity").key
  let seen ← requestedKeys allowed [] names
  raiseWhen (!seen.contains (← parseIdentity switch.host "identity").key)
    (valueError "CSR SAN omits the switch host")

def checkRequestedExtensions (switch : Switch) (attributes : List Oid)
    (extensions : List CsrExtension) : Except Exc Unit := do
  raiseWhen (1 < attributes.length || attributes.any fun oid => oid != oidExtensionRequest)
    (valueError "CSR contains unsupported or duplicate attributes")
  raiseWhen (1 < extensions.length || (!extensions.isEmpty && attributes.length != 1))
    (valueError "CSR contains unsupported requested extensions")
  raiseWhen (!attributes.isEmpty && extensions.isEmpty)
    (valueError "CSR extension request contains no permitted SAN")
  match extensions with
  | [] => return ()
  | extension :: _ =>
    raiseWhen (extension.oid != oidSubjectAltName || extension.critical)
      (valueError "CSR contains unsupported requested extensions")
    checkRequestedNames switch extension.names

/-- `csr.attributes` and `csr.extensions`, read together. -/
def readCsrAttributes (csr : Csr) : Except Exc (List Oid × List CsrExtension) :=
  let read := do
    let attributes ← csr.attributes
    let extensions ← csr.extensions
    return (attributes, extensions)
  match read with
  | .ok r => .ok r
  | .error e =>
    if e.value || e.duplicateExtension then
      .error (valueError "CSR contains malformed attributes or extensions")
    else .error (.std e)

/-- `x509.load_pem_x509_csr(csr_pem.encode("ascii"))`. -/
def loadCsr (P : Platform) (csrPem : Text) : Except Exc Csr :=
  match encodeAscii csrPem with
  | none => .error (valueError "Returned CSR is not valid PEM")
  | some data =>
    match P.loadPemX509Csr data with
    | .ok csr => .ok csr
    | .error e =>
      .error (if e.value then valueError "Returned CSR is not valid PEM" else .std e)

def validateCsrPem (P : Platform) (csrPem : Text) (switch : Switch) (settings : CsrSettings) :
    Except Exc Csr := do
  checkOutputSize csrPem maxCsrPemBytes "CSR PEM"
  let csr ← loadCsr P csrPem
  let publicKey ← liftStd csr.publicKey
  raiseWhen (!publicKey.rsa) (valueError "CSR does not contain an RSA public key")
  raiseWhen (publicKey.keySize != 2048)
    (valueError ("CSR RSA key size is " ++ ofNat publicKey.keySize ++ "; expected " ++
      settings.keySize))
  verifyCsrSignature csr
  let identities ← getCertificateIdentities switch
  validateCsrCommonName identities.commonName
  let expected := expectedSubject identities.commonName settings
  expected.forM (checkSubjectAttribute P csr)
  raiseWhen ((← liftStd csr.subject).flatten.length != expected.length)
    (valueError "CSR subject must contain exactly six expected attributes")
  let (attributes, extensions) ← readCsrAttributes csr
  checkRequestedExtensions switch attributes extensions
  return csr

end ArubaCertRenewer
