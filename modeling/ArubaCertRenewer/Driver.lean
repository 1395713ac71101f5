import ArubaCertRenewer.JsonDriver

/- The driver of the human output, and `main`. What it prints is left out; what
   is left is which results it collects and with which code it ends. -/
namespace ArubaCertRenewer
open PyText Effects Effects.Py

variable {σ : Type}

/-- Run a function without a `progress` callback. -/
def unobserved {α : Type} (x : Act Log α) : Act σ α := alone [] x

/-! `renew_due_certificates`. -/

inductive RenewalStatus where
  | healthy | renewed | error
  deriving DecidableEq, Repr

/-- What happens to a switch while its lifecycle lock is held. -/
def renewDueLocked (P : Platform) (warningDays : Nat) (csr : CsrSettings) (opnsense : OpnsenseSettings)
    (ca : VerificationCaSnapshot) (switch : Switch) (credentials : Credentials) :
    Act σ RenewalStatus := do
  match ← attempt (alone () (checkSwitch switch credentials warningDays)) with
  | .error _ => return .error
  | .ok .ok => return .healthy
  | .ok .error => return .error
  | .ok _ =>
    match ← attempt (unobserved (renewCertificate P switch credentials csr opnsense ca
        (some warningDays))) with
    | .ok _ => return .renewed
    | .error _ => return .error

/-- The body of the loop: the results so far, and the `result` of this switch. -/
def renewDueSwitch (P : Platform) (configFile : Text) (warningDays : Nat) (csr : CsrSettings)
    (opnsense : OpnsenseSettings) (ca : VerificationCaSnapshot) (switch : Switch) :
    Act (List RenewalStatus) Unit :=
  withVars none <| andFinally
    (handle
      (do
        match ← attempt (alone () (getSwitchCredentials P switch configFile true)) with
        | .error _ => assign fun _ => some .error
        | .ok credentials =>
          lifecycleLock P switch.host do
            let status ← renewDueLocked P warningDays csr opnsense ca switch credentials
            assign fun _ => some status)
      fun e => if e.isLifecycleLockError then assign fun _ => some .error else throw e)
    (do
      match ← locals with
      | some status => outer (modify (· ++ [status]))
      | none => pure ())

def renewDueSwitches (P : Platform) (configFile : Text) (warningDays : Nat) (csr : CsrSettings)
    (opnsense : OpnsenseSettings) (ca : VerificationCaSnapshot) :
    List Switch → Act (List RenewalStatus) Unit
  | [] => return ()
  | switch :: switches => do
    renewDueSwitch P configFile warningDays csr opnsense ca switch
    renewDueSwitches P configFile warningDays csr opnsense ca switches

/-- The variable is the list `results`. -/
def renewDueCertificates (P : Platform) (switches : List Switch) (configFile : Text)
    (warningDays : Nat) (csr : CsrSettings) (opnsense : OpnsenseSettings)
    (ca : VerificationCaSnapshot) : Act (List RenewalStatus) Nat := do
  result (validateAutomaticRenewalWindow warningDays opnsense)
  set ([] : List RenewalStatus)
  renewDueSwitches P configFile warningDays csr opnsense ca switches
  let results ← get
  return if results.contains .error then exitError else exitOk

/-! `run_explicit_operation`. -/

/-- `except cls: return EXIT_ERROR`. -/
def exitingOn (cls : Exc → Bool) (x : Act σ Nat) : Act σ Nat :=
  handle x fun e => if cls e then return exitError else throw e

def valueOrOsError (e : Exc) : Bool := e.isValueError || e.isOsError

/-- What a failure to write the CSR becomes. -/
def csrOutputError (generated : Bool) (output : Text) (e : Exc) : Exc :=
  if generated then csrGenerationError
    ("CSR was generated and validated but could not be written " ++ "to " ++ output ++ ": " ++ e.str ++
      ". The pending CSR remains on " ++ "the switch and can be retrieved again")
  else valueError ("CSR was retrieved and validated but could not be written " ++ "to " ++ output ++
    ": " ++ e.str)

def writeCsr (generated : Bool) (csrPem : Text) (csrOutput : Option Text) : Act σ Unit :=
  handle (writeOutput csrPem csrOutput) fun e =>
    throw (if e.isOsError then csrOutputError generated (csrOutput.getD "None") e else e)

/-- The branch of `run_explicit_operation` an operation takes. -/
def explicitBody (P : Platform) (switch : Switch) (credentials : Credentials) :
    Operation → Act σ Nat
  | .renewNow csr opnsense ca => exitingOn Exc.isRenewalFailure do
    let _ ← unobserved (renewCertificate P switch credentials csr opnsense ca none)
    return exitOk
  | .install name csr opnsense ca certificatePem => exitingOn valueOrOsError do
    let certificate ← unobserved (installPendingCertificate P switch credentials name certificatePem csr
      opnsense.lifetimeDays ca opnsense.digest none)
    unobserved (verifyLiveHttpsCertificate P switch ca certificate)
    return exitOk
  | .signCsr name csr opnsense certificateOutput => exitingOn valueOrOsError do
    let certificatePem ← unobserved (signPendingCsr P switch credentials name csr opnsense none)
    writeOutput certificatePem (some certificateOutput)
    return exitOk
  | .generateCsr name csr csrOutput => exitingOn valueOrOsError do
    let csrPem ← unobserved (generateCsr P switch credentials name csr)
    writeCsr true csrPem csrOutput
    return exitOk
  | .retrieveCsr name csr csrOutput => exitingOn valueOrOsError do
    let csrPem ← unobserved (retrieveCsr P switch credentials name csr)
    writeCsr false csrPem csrOutput
    return exitOk
  | .inspect | .renewDue .. => return exitError

def runExplicitOperation (P : Platform) (configFile : Text) (operation : Operation)
    (switch : Switch) : Act σ Nat := do
  match ← attempt (alone () (getSwitchCredentials P switch configFile true)) with
  | .error e => if e.isValueError then return exitError else throw e
  | .ok credentials => explicitBody P switch credentials operation

/-- The explicit operations of `main`, under the lock where they need it. -/
def explicitOperation (P : Platform) (configFile : Text) (operation : Operation) (switch : Switch) :
    Act σ Nat :=
  let body := runExplicitOperation P configFile operation switch
  exitingOn Exc.isLifecycleLockError
    (if operation.locked then lifecycleLock P switch.host body else body)

/-! The inspection. -/

/-- `get_exit_code`. -/
def getExitCode (results : List Status) : Nat :=
  if results.contains .error then exitError
  else if results.contains .renewalDue || results.contains .expired then exitWarning
  else exitOk

/-- The body of the inspection loop of `main`: a `ValueError` is an error of the switch. -/
def inspectOne (P : Platform) (configFile : Text) (warningDays : Nat) (switch : Switch) :
    Act σ Status := do
  match ← attempt (alone () (getSwitchCredentials P switch configFile true)) with
  | .error e => if e.isValueError then return .error else throw e
  | .ok credentials =>
    handle (alone () (checkSwitch switch credentials warningDays)) fun e =>
      if e.isValueError then return .error else throw e

def inspectSwitches (P : Platform) (configFile : Text) (warningDays : Nat) :
    List Switch → Act σ (List Status)
  | [] => return []
  | switch :: switches => do
    let status ← inspectOne P configFile warningDays switch
    return status :: (← inspectSwitches P configFile warningDays switches)

/-! `main`. -/

/-- What `main` does once its startup succeeded. -/
def runHuman (P : Platform) (configFile : Text) (s : Startup) : Act σ Nat :=
  match s.operation with
  | .renewDue csr opnsense ca =>
    alone [] (renewDueCertificates P s.switches configFile s.warningDays csr opnsense ca)
  | .inspect => do
    return getExitCode (← inspectSwitches P configFile s.warningDays s.switches)
  | operation =>
    match s.switches with
    | switch :: _ => explicitOperation P configFile operation switch
    | [] => throw (runtimeError "list index out of range")

def humanMain (P : Platform) (a : Args) : Act σ Nat := do
  match ← attempt (alone () (startup P a)) with
  | .error e => if e.isValueError then return exitError else throw e
  | .ok s => runHuman P a.config s

def main (P : Platform) (a : Args) : Act σ Nat :=
  match a.output with
  | .json => do return (← jsonMain P a).2
  | .human => humanMain P a

/-- The status the process exits with: an exception that escapes `main` exits with 1. -/
def exitStatus : Except Exc Nat → Nat
  | .ok code => code
  | .error _ => 1

end ArubaCertRenewer
