import ArubaCertRenewer.Issued

/- Startup and credentials: `validate_cli_args`, the files the configuration
   names, and what both drivers do before they touch a switch.

   Both drivers make the same checks in the same order; `startup` is that body.
   It hands on an `Operation`, which has the settings its operation needs. -/
namespace ArubaCertRenewer
open PyText Effects Effects.Py

inductive OutputFormat where
  | human | json
  deriving DecidableEq, Repr

/-- The parsed command line. -/
structure Args where
  config : Text
  switchName : Option Text := none
  output : OutputFormat := .human
  generateCsr : Bool := false
  retrieveCsr : Bool := false
  signCsr : Bool := false
  installCertificate : Bool := false
  renew : Bool := false
  renewDue : Bool := false
  certificateName : Option Text := none
  csrOutput : Option Text := none
  certificateOutput : Option Text := none
  certificateInput : Option Text := none
  deriving DecidableEq

/-- Whether a text argument is true in a condition. -/
def given (t : Option Text) : Bool := t.any fun t => !t.isEmpty

namespace Args

def stagedOperations (a : Args) : List Bool :=
  [a.generateCsr, a.retrieveCsr, a.signCsr, a.installCertificate]

def operations (a : Args) : List Bool := a.stagedOperations ++ [a.renew, a.renewDue]

def staged (a : Args) : Bool := a.stagedOperations.any id

def stagedName (a : Args) : Text :=
  if a.generateCsr then "--generate-csr"
  else if a.retrieveCsr then "--retrieve-csr"
  else if a.signCsr then "--sign-csr"
  else "--install-certificate"

end Args

/-- The checks of `validate_cli_args` on the arguments alone. -/
def validateCliFlags (a : Args) : Except Exc Unit := do
  let renewal := a.renew || a.renewDue
  let renewalMode : Text := if a.renewDue then "--renew-due" else "--renew"
  raiseWhen (a.output == .json && (a.generateCsr || a.retrieveCsr) && a.csrOutput.isNone)
    (valueError "--output json requires --csr-output for CSR output")
  raiseWhen (1 < a.operations.count true)
    (valueError ("--generate-csr, --retrieve-csr, --sign-csr, " ++
      "--install-certificate, --renew, and --renew-due are mutually exclusive"))
  raiseWhen (a.renew && !given a.switchName) (valueError "--renew requires --switch")
  raiseWhen (a.staged && !given a.switchName) (valueError (a.stagedName ++ " requires --switch"))
  raiseWhen (a.staged && !given a.certificateName)
    (valueError (a.stagedName ++ " requires --certificate-name"))
  raiseWhen (renewal && given a.certificateName)
    (valueError (renewalMode ++ " does not accept --certificate-name"))
  raiseWhen (!a.staged && !renewal && given a.certificateName)
    (valueError ("--certificate-name requires --generate-csr, --retrieve-csr, " ++
      "--sign-csr, or --install-certificate"))
  raiseWhen (renewal && a.csrOutput.isSome)
    (valueError (renewalMode ++ " does not accept --csr-output"))
  raiseWhen ((!a.staged || a.signCsr || a.installCertificate) && a.csrOutput.isSome)
    (valueError "--csr-output requires --generate-csr or --retrieve-csr")
  raiseWhen (renewal && a.certificateOutput.isSome)
    (valueError (renewalMode ++ " does not accept --certificate-output"))
  raiseWhen (!a.signCsr && a.certificateOutput.isSome)
    (valueError "--certificate-output requires --sign-csr")
  raiseWhen (a.signCsr && a.certificateOutput.isNone)
    (valueError "--sign-csr requires --certificate-output")
  raiseWhen (a.installCertificate && a.certificateInput.isNone)
    (valueError "--install-certificate requires --certificate-input")
  raiseWhen (renewal && a.certificateInput.isSome)
    (valueError (renewalMode ++ " does not accept --certificate-input"))
  raiseWhen (!a.installCertificate && !renewal && a.certificateInput.isSome)
    (valueError "--certificate-input requires --install-certificate")
  if given a.certificateName then
    validateCliIdentifier (a.certificateName.getD []) "certificate name"

/-- An output file must not be there yet. -/
def refuseExisting {σ : Type} (label : Text) : Option Text → Act σ Unit
  | none => pure ()
  | some path => do
    raiseIf (← ask (.pathExists path) fun r => r)
      (valueError (label ++ " already exists: " ++ path))

def validateCliArgs {σ : Type} (a : Args) : Act σ Unit := do
  result (validateCliFlags a)
  refuseExisting "CSR output file" a.csrOutput
  refuseExisting "Certificate output file" a.certificateOutput

/-! Local files. -/

/-- `except OSError: raise e from None`. -/
def osErrorAs {σ α : Type} (e : Exc) (x : Act σ α) : Act σ α :=
  handle x fun e' => throw (if e'.isOsError then e else e')

/-- Open a secure file, read up to `limit` bytes of it, and close it. -/
def readSecureFile {σ : Type} (path sourceName : Text) (limit : Nat) : Act σ Bytes :=
  within (ask (.openSecureFile path sourceName) fun r => r) (fun _ _ => ask .closeFile fun r => r)
    fun _ => ask (.readFile limit) fun r => r

def loadConfig {σ : Type} (P : Platform) (configFile : Text) : Act σ (List (Text × Toml)) := do
  let contents ← osErrorAs (valueError ("Configuration file cannot be read: " ++ configFile))
    (readSecureFile configFile "Configuration file" (maxConfigFileBytes + 1))
  raiseIf (maxConfigFileBytes < contents.length)
    (valueError ("Configuration file exceeds " ++ ofNat maxConfigFileBytes ++ " bytes: " ++
      configFile))
  match P.tomlLoads contents with
  | some config => return config
  | none => throw (valueError ("Invalid TOML or UTF-8 in configuration file " ++ configFile))

def resolveConfigRelativePath {σ : Type} (path configFile : Text) : Act σ Text :=
  ask (.resolvePath path configFile) fun r => r

/-- The path a table names under `key`. -/
def configuredPath (label : Text) (members : List (Text × Toml)) (key : Text) : Except Exc Text :=
  match (Toml.get? members key).bind Toml.asText with
  | none => .error (valueError (label ++ " must be configured"))
  | some path =>
    if (strip path).isEmpty then .error (valueError (label ++ " must be configured"))
    else if path.any (·.toNat == 0) then
      .error (valueError (label ++ " contains unsupported characters"))
    else .ok path

def getSshKnownHostsFile {σ : Type} (config : List (Text × Toml)) (configFile : Text) :
    Act σ Text := do
  match Toml.get? config "ssh" with
  | some (.table settings) =>
    let path ← result (configuredPath "ssh.known_hosts_file" settings "known_hosts_file")
    let knownHostsFile ← resolveConfigRelativePath path configFile
    within (ask (.openSecureFile knownHostsFile "ssh.known_hosts_file") fun r => r)
      (fun _ _ => ask .closeFile fun r => r) fun _ => pure ()
    return knownHostsFile
  | _ => throw (valueError "An [ssh] configuration section is required")

def captureVerificationCa {σ : Type} (path : Text) : Act σ VerificationCaSnapshot := do
  let pem ← osErrorAs (valueError ("verification.ca_file cannot be read: " ++ path))
    (readSecureFile path "verification.ca_file" (maxVerificationCaFileBytes + 1))
  raiseIf (maxVerificationCaFileBytes < pem.length)
    (valueError ("verification.ca_file exceeds " ++ ofNat maxVerificationCaFileBytes ++ " bytes: " ++
      path))
  raiseIf pem.isEmpty
    (valueError ("verification.ca_file does not contain any trusted certificates: " ++ path))
  return ⟨path, pem⟩

/-- A context that trusts the snapshot; what makes it impossible is an unloadable CA file. -/
def verificationContext {σ : Type} (snapshot : VerificationCaSnapshot) : Act σ TlsContext :=
  handle (do createClientTlsContext (some (← result (caSslData snapshot)))) fun e =>
    throw (if e.isOsError || e.isSslError || e.isValueError then
      valueError ("verification.ca_file cannot be loaded as a CA file: " ++ snapshot.path) else e)

def getVerificationCaFile {σ : Type} (config : List (Text × Toml)) (configFile : Text) :
    Act σ VerificationCaSnapshot := do
  match Toml.get? config "verification" with
  | some (.table settings) =>
    let path ← result (configuredPath "verification.ca_file" settings "ca_file")
    let caFile ← resolveConfigRelativePath path configFile
    let snapshot ← captureVerificationCa caFile
    let _ ← verificationContext snapshot
    return snapshot
  | _ => throw (valueError ("A [verification] configuration section is required for " ++
      "--install-certificate, --renew, or --renew-due"))

/-! The operation a command line asks for. -/

inductive Operation where
  | inspect
  | generateCsr (name : Text) (csr : CsrSettings) (csrOutput : Option Text)
  | retrieveCsr (name : Text) (csr : CsrSettings) (csrOutput : Option Text)
  | signCsr (name : Text) (csr : CsrSettings) (opnsense : OpnsenseSettings) (certificateOutput : Text)
  | install (name : Text) (csr : CsrSettings) (opnsense : OpnsenseSettings)
      (ca : VerificationCaSnapshot) (certificatePem : Text)
  | renewNow (csr : CsrSettings) (opnsense : OpnsenseSettings) (ca : VerificationCaSnapshot)
  | renewDue (csr : CsrSettings) (opnsense : OpnsenseSettings) (ca : VerificationCaSnapshot)

/-- The operations that run under the lifecycle lock. -/
def Operation.locked : Operation → Bool
  | inspect | retrieveCsr .. => false
  | _ => true

structure Startup where
  warningDays : Nat
  switches : List Switch
  operation : Operation

def signingSettings (config : List (Text × Toml)) (switches : List Switch) (window : Option Nat) :
    Except Exc OpnsenseSettings := do
  let opnsense ← getOpnsenseSettings config
  match window with
  | some warningDays => validateAutomaticRenewalWindow warningDays opnsense
  | none => pure ()
  switches.forM fun switch => do
    let _ ← validateSwitchSigningIdentity switch
  return opnsense

/-- The settings of the operation the arguments select, in the order the drivers read them. -/
def selectOperation {σ : Type} (P : Platform) (a : Args) (config : List (Text × Toml))
    (warningDays : Nat) (switches : List Switch) : Act σ Operation := do
  let name := a.certificateName.getD []
  if a.renewDue then
    let csr ← result (getCsrSettings config)
    let opnsense ← result (signingSettings config switches (some warningDays))
    return .renewDue csr opnsense (← getVerificationCaFile config a.config)
  else if a.renew then
    let csr ← result (getCsrSettings config)
    let opnsense ← result (signingSettings config (switches.take 1) none)
    return .renewNow csr opnsense (← getVerificationCaFile config a.config)
  else if a.generateCsr then
    return .generateCsr name (← result (getCsrSettings config)) a.csrOutput
  else if a.retrieveCsr then
    return .retrieveCsr name (← result (getCsrSettings config)) a.csrOutput
  else if a.signCsr then
    let csr ← result (getCsrSettings config)
    let opnsense ← result (signingSettings config (switches.take 1) none)
    return .signCsr name csr opnsense (a.certificateOutput.getD [])
  else if a.installCertificate then
    let csr ← result (getCsrSettings config)
    let opnsense ← result (signingSettings config (switches.take 1) none)
    let ca ← getVerificationCaFile config a.config
    let certificatePem ← readCertificateInput P (a.certificateInput.getD [])
    return .install name csr opnsense ca certificatePem
  else return .inspect

def startup {σ : Type} (P : Platform) (a : Args) : Act σ Startup := do
  validateCliArgs a
  let config ← loadConfig P a.config
  let knownHostsFile ← getSshKnownHostsFile config a.config
  let (warningDays, configured) ← result (validateConfig config knownHostsFile)
  let switches ← result (selectSwitches configured a.switchName)
  return ⟨warningDays, switches, ← selectOperation P a config warningDays switches⟩

/-! Credentials. -/

structure Credentials where
  username : Text
  password : Text

def maxPasswordFileBytes : Nat := 16 * 1024

/-- The bytes of a password file without its one line end. -/
def trimLineEnd (data : Bytes) : Bytes :=
  match data.reverse with
  | 10 :: 13 :: rest => rest.reverse
  | 10 :: rest => rest.reverse
  | _ => data

def passwordOfBytes (passwordFile : Text) (data : Bytes) : Except Exc Text := do
  raiseWhen (maxPasswordFileBytes < data.length)
    (valueError ("switches.password_file exceeds " ++ ofNat maxPasswordFileBytes ++ " bytes: " ++
      passwordFile))
  raiseWhen (data.contains 0) (valueError ("switches.password_file contains NUL: " ++ passwordFile))
  let password := trimLineEnd data
  raiseWhen password.isEmpty (valueError ("switches.password_file is empty: " ++ passwordFile))
  raiseWhen (password.any fun b => b == 13 || b == 10)
    (valueError ("switches.password_file must contain exactly one line: " ++ passwordFile))
  match decodeUtf8 password with
  | some t => return t
  | none => .error (valueError
      ("switches.password_file must contain valid UTF-8: " ++ passwordFile))

def readPasswordFile {σ : Type} (path configFile : Text) : Act σ Text := do
  let passwordFile ← resolveConfigRelativePath path configFile
  let data ← within (ask (.openPasswordFile passwordFile) fun r => r)
    (fun _ _ => ask .closePasswordFile fun r => r) fun _ =>
      osErrorAs (valueError ("switches.password_file cannot be read: " ++ passwordFile))
        (ask (.readPassword (maxPasswordFileBytes + 1)) fun r => r)
  result (passwordOfBytes passwordFile data)

/-- The first text that is not empty. -/
def firstGiven (a b : Option Text) : Option Text := if given a then a else b

def getSwitchCredentials {σ : Type} (P : Platform) (switch : Switch) (configFile : Text)
    (allowPrompt : Bool) : Act σ Credentials := do
  let configured := firstGiven switch.username (P.environ "ARUBA_SSH_USERNAME")
  let username ←
    if given configured then pure (configured.getD [])
    else if allowPrompt then ask .inputUsername fun r => r
    else throw (valueError "SSH username is required in non-interactive mode")
  result (validateSshUsername username "SSH username")
  let password ← match switch.passwordFile with
    | some path => readPasswordFile path configFile
    | none =>
      let password := P.environ "ARUBA_SSH_PASSWORD"
      if given password then pure (password.getD [])
      else if allowPrompt then ask .getpass fun r => r
      else throw (valueError "SSH password is required in non-interactive mode")
  raiseIf password.isEmpty
    (valueError ("SSH password for " ++ switch.name ++ " cannot be empty"))
  return ⟨username, password⟩

end ArubaCertRenewer
