import ArubaCertRenewer.Lifecycle
import ArubaCertRenewer.Record
import ArubaCertRenewer.Renewal

/- The driver of `--output json`. The variable of a switch's computation is its
   record; `observed` runs a function with `_json_progress` as its callback. -/
namespace ArubaCertRenewer
open PyText Effects Effects.Py

def exitOk : Nat := 0
def exitWarning : Nat := 1
def exitError : Nat := 2

variable {σ α : Type}

/-- Run a function whose progress goes to the record. -/
def observed (x : Act Log α) : Act SwitchResult α :=
  ofProg fun item => x.prog [] >>= fun p => .ret (p.1, p.2.foldl jsonProgress item)

/-- `write_or_print_csr` and `write_certificate`; what is printed is left out. -/
def writeOutput (text : Text) : Option Text → Act σ Unit
  | some path => within (ask (.createFile path) fun r => r) (fun _ _ => ask .closeFile fun r => r)
      fun _ => ask (.writeFile text) fun r => r
  | none => pure ()

/-! Explicit operations. -/

/-- `_json_renew`. -/
def jsonRenew (P : Platform) (switch : Switch) (credentials : Credentials) (csr : CsrSettings)
    (opnsense : OpnsenseSettings) (ca : VerificationCaSnapshot) (warningDays : Option Nat) :
    Act SwitchResult Unit := do
  modify fun item => { item with stage := .preflight }
  match ← attempt (observed
      (renewCertificate P switch credentials csr opnsense ca warningDays)) with
  | .error e => modify (jsonFailure · e)
  | .ok _ => modify fun item => { item with
      outcome := .successChanged, stage := .completed
      message := "Certificate renewal verified by live HTTPS." }

def jsonGenerate (P : Platform) (switch : Switch) (credentials : Credentials) (name : Text)
    (csr : CsrSettings) (csrOutput : Option Text) : Act SwitchResult Unit := do
  modify fun item => { item with stage := .csrGeneration }
  let csrPem ← observed (generateCsr P switch credentials name csr)
  modify (jsonProgress · .csrConfirmed)
  writeOutput csrPem csrOutput
  modify fun item => { item with
    outcome := .successPrepared, message := "CSR generated and written to the requested file." }

def jsonRetrieve (P : Platform) (switch : Switch) (credentials : Credentials) (name : Text)
    (csr : CsrSettings) (csrOutput : Option Text) : Act SwitchResult Unit := do
  modify (jsonProgress · .csrRetrievalStarted)
  let csrPem ← observed (retrieveCsr P switch credentials name csr)
  modify (jsonProgress · .csrRetrieved)
  writeOutput csrPem csrOutput
  modify fun item => { item with
    outcome := .successNoChange
    message := "Pending CSR retrieved and written to the requested file." }

/-- `x509.load_pem_x509_certificate(certificate_pem.encode("ascii"))`. -/
def loadSignedCertificate (P : Platform) (certificatePem : Text) : Except Exc Certificate :=
  match encodeAscii certificatePem with
  | none => .error (valueError "'ascii' codec can't encode characters: ordinal not in range(128)")
  | some data => liftStd (P.loadPemX509Certificate data)

/-- Whether the certificate was written: it is not when the file could not be. -/
def jsonSign (P : Platform) (switch : Switch) (credentials : Credentials) (name : Text)
    (csr : CsrSettings) (opnsense : OpnsenseSettings) (certificateOutput : Text) :
    Act SwitchResult Bool := do
  modify fun item => { item with stage := .signing }
  let certificatePem ← observed (signPendingCsr P switch credentials name csr opnsense none)
  modify fun item => { item with milestones := { item.milestones with csr := .confirmed } }
  let certificate ← result (loadSignedCertificate P certificatePem)
  modify fun item => { item with certificate := some (jsonCertificate certificate) }
  match ← attempt (writeOutput certificatePem (some certificateOutput)) with
  | .error e =>
    if e.isOsError then
      modify fun item => { item with
        outcome := .failurePartial, stage := .finalization, reasonCode := some .recoveryRequired
        message := "Issued certificate could not be written to the requested file."
        manualRecoveryRequired := true }
      return false
    else throw e
  | .ok () =>
    modify fun item => { item with
      outcome := .successPrepared
      message := "Issued certificate validated and written to the requested file." }
    return true

def jsonInstall (P : Platform) (switch : Switch) (credentials : Credentials) (name : Text)
    (csr : CsrSettings) (opnsense : OpnsenseSettings) (ca : VerificationCaSnapshot)
    (certificatePem : Text) : Act SwitchResult Unit := do
  modify fun item => { item with stage := .installation }
  let certificate ← observed (installPendingCertificate P switch credentials name certificatePem csr
    opnsense.lifetimeDays ca opnsense.digest none)
  modify (jsonProgress · (.installationConfirmed certificate))
  modify fun item => { item with stage := .liveVerification }
  reraiseAs (fun _ => .own .liveHttpsVerification "Live HTTPS verification failed") (fun _ => false)
    (observed (verifyLiveHttpsCertificate P switch ca certificate))
  modify (jsonProgress · .liveTlsConfirmed)
  modify fun item => { item with
    outcome := .successChanged, message := "Certificate installation verified by live HTTPS." }

/-- What `except (ValueError, OSError)` of `_json_explicit` does. -/
def explicitFailure (operation : Operation) (item : SwitchResult) : SwitchResult :=
  let outcome := jsonFailureOutcome item
  let general := fun reason : Reason =>
    if outcome == .failurePreAttempt then { item with
      outcome, reasonCode := some reason
      message := "Operation failed before a new certificate state change."
      manualRecoveryRequired := item.milestones.csr == .confirmed || item.pendingCsrObserved }
    else { item with
      outcome, reasonCode := some reason
      message := "Operation failed after a state change; inspect switch."
      manualRecoveryRequired := true }
  match operation with
  | .generateCsr .. =>
    if item.milestones.csr == .confirmed then { item with
      outcome := .failurePartial, reasonCode := some .csrFailed
      message := "CSR exists but could not be written to the requested file."
      manualRecoveryRequired := true }
    else general .csrFailed
  | .signCsr .. => jsonFailure item (.own .csrSigning [])
  | .install .. => general .validationFailed
  | _ => general .csrFailed

def jsonExplicitError (operation : Operation) (e : Exc) : Act SwitchResult Unit :=
  if e.isCsrGenerationError || e.isCertificateInstallationAttemptError ||
      e.isLiveHttpsVerificationError then modify (jsonFailure · e)
  else if e.isValueError || e.isOsError then modify (explicitFailure operation)
  else throw e

/-- The end of the `try` of `_json_explicit`, unless its body returned. -/
def completing (x : Act SwitchResult Unit) : Act SwitchResult Unit := do
  x
  modify fun item => { item with stage := .completed }

/-- The `try` of `_json_explicit`. -/
def jsonExplicitBody (P : Platform) (switch : Switch) (credentials : Credentials) :
    Operation → Act SwitchResult Unit
  | .generateCsr name csr csrOutput =>
    completing (jsonGenerate P switch credentials name csr csrOutput)
  | .retrieveCsr name csr csrOutput =>
    completing (jsonRetrieve P switch credentials name csr csrOutput)
  | .signCsr name csr opnsense certificateOutput => do
    if ← jsonSign P switch credentials name csr opnsense certificateOutput then
      completing (pure ())
  | .install name csr opnsense ca certificatePem =>
    completing (jsonInstall P switch credentials name csr opnsense ca certificatePem)
  | .inspect | .renewNow .. | .renewDue .. => pure ()

/-! One switch. -/

/-- `check_switch` and what its status means; `due` is what a due certificate is met with. -/
def jsonInspect (switch : Switch) (credentials : Credentials) (warningDays : Nat)
    (due : Act SwitchResult Unit) : Act SwitchResult Unit := do
  modify fun item => { item with stage := .inspection }
  match ← alone () (checkSwitch switch credentials warningDays) with
  | .error => modify fun item => { item with
      reasonCode := some .inspectionFailed, message := "Switch certificate inspection failed." }
  | .ok => modify fun item => { item with
      renewalDue := some false, outcome := .successNoChange, stage := .completed
      message := "Certificate is healthy; no renewal required." }
  | .renewalDue | .expired =>
    modify fun item => { item with renewalDue := some true }
    due

/-- `_json_process_target`. -/
def jsonProcessTarget (P : Platform) (switch : Switch) (credentials : Credentials)
    (warningDays : Nat) : Operation → Act SwitchResult Unit
  | .inspect => jsonInspect switch credentials warningDays <| modify fun item => { item with
      outcome := .attentionDue, stage := .decision
      message := "Certificate renewal attention is due." }
  | .renewDue csr opnsense ca => jsonInspect switch credentials warningDays
      (jsonRenew P switch credentials csr opnsense ca (some warningDays))
  | .renewNow csr opnsense ca => jsonRenew P switch credentials csr opnsense ca none
  | operation => handle (jsonExplicitBody P switch credentials operation)
      (jsonExplicitError operation)

/-- A lock release that fails after the record of the operation was made. -/
def lockReleaseFailure (item : SwitchResult) : SwitchResult :=
  if item.outcome.isFailure && item.reasonCode.isSome then { item with
    message := "Operation failed and lock release failed; inspect state."
    manualRecoveryRequired := true }
  else { item with
    stage := .lock, reasonCode := some .lockFailed
    message := "Lifecycle lock release failed; inspect state before retrying."
    outcome := jsonFailureOutcome item, manualRecoveryRequired := true }

/-- What the exceptions that leave the lock do to the record. -/
def jsonEscape (e : Exc) (item : SwitchResult) : SwitchResult :=
  if e.isLifecycleLockReleaseError then lockReleaseFailure item
  else if e.isLifecycleLockError then { item with
    outcome := .failurePreAttempt, stage := .lock
    reasonCode := some (if e.isLifecycleLockBusy then .lockBusy else .lockFailed)
    message := "Lifecycle lock is busy or unavailable." }
  else jsonFailure item e

/-- The body of the loop of `_run_json`. -/
def jsonSwitch (P : Platform) (configFile : Text) (warningDays : Nat) (operation : Operation)
    (switch : Switch) : Act SwitchResult Unit := do
  match ← attempt (alone () (getSwitchCredentials P switch configFile false)) with
  | .error _ => modify fun item => { item with
      stage := .configuration, reasonCode := some .configInvalid
      message := "Switch credentials could not be loaded." }
  | .ok credentials =>
    let process := jsonProcessTarget P switch credentials warningDays operation
    handle (if operation.locked then lifecycleLock P switch.host process else process) fun e =>
      modify (jsonEscape e)

/-! The invocation. -/

/-- Run a computation on a new record, which is its result. -/
def recording (item : SwitchResult) (x : Act SwitchResult Unit) : Act σ SwitchResult :=
  ofProg fun s => x.prog item >>= fun p => .ret (p.1.map fun _ => p.2, s)

/-- The records of the switches, in order. -/
def jsonSwitches (P : Platform) (configFile : Text) (warningDays : Nat) (operation : Operation) :
    List Switch → Act σ (List SwitchResult)
  | [] => return []
  | switch :: switches => do
    let item ← recording { target := switch.name }
      (jsonSwitch P configFile warningDays operation switch)
    return item :: (← jsonSwitches P configFile warningDays operation switches)

/-- `_json_operation`. -/
def jsonOperation (a : Args) : Text :=
  if a.renewDue then "renew_due"
  else if a.renew then "renew_now"
  else if a.generateCsr then "generate_csr"
  else if a.retrieveCsr then "retrieve_csr"
  else if a.signCsr then "sign_csr"
  else if a.installCertificate then "install"
  else "inspect"

def jsonExitCode (operation : Operation) (results : List SwitchResult) : Nat :=
  if results.any (·.outcome.isFailure) then exitError
  else match operation with
    | .inspect => if results.any (·.outcome == .attentionDue) then exitWarning else exitOk
    | _ => exitOk

/-- `_run_json`. -/
def runJson (P : Platform) (a : Args) : Act σ (RunResult × Nat) := do
  let run : RunResult := { operation := jsonOperation a, stage := .configuration }
  match ← attempt (alone () (startup P a)) with
  | .error e =>
    if e.isValueError then
      return ({ run with reasonCode := some .configInvalid
                         message := "Configuration or command validation failed." }, exitError)
    else
      return ({ run with reasonCode := some .unexpectedFailure
                         message := "Startup failed." }, exitError)
  | .ok s =>
    let results ← jsonSwitches P a.config s.warningDays s.operation s.switches
    return ({ run with results }, jsonExitCode s.operation results)

/-- `json_main`, with the result it prints. -/
def jsonMain (P : Platform) (a : Args) : Act σ (RunResult × Nat) := do
  let (run, exitCode) ← within (ask .openDevnull fun r => r)
    (fun _ inFlight => ask (.closeDevnull inFlight) fun r => r) fun _ => runJson P a
  return (run.finish, exitCode)

end ArubaCertRenewer
