import ArubaCertRenewer.Live
import ArubaCertRenewer.Opnsense

/- The inspection of a switch and the renewal of its certificate. -/
namespace ArubaCertRenewer
open PyText Effects Effects.Py

variable {σ : Type}

/-! `check_switch`. -/

inductive Status where
  | ok | renewalDue | expired | error
  deriving DecidableEq, Repr

/-- The decision on the days that remain. -/
def statusOf (daysRemaining : Int) (warningDays : Nat) : Status :=
  if daysRemaining < 0 then .expired
  else if daysRemaining ≤ warningDays then .renewalDue
  else .ok

/-- The version and the summary, as `check_switch` reads them. -/
def inspectSwitch (switch : Switch) (credentials : Credentials) : Act σ Text :=
  sshConnection switch credentials do
    let versionOutput ← sendCommand "show version" maxShowVersionOutputBytes
    result (checkOutputSize versionOutput maxShowVersionOutputBytes "show version")
    let certOutput ← readSummary
    result (checkSummarySize certOutput)
    return certOutput

/-- The active certificate's expiration; an installed row always has one. -/
def activeExpiration (certOutput : Text) : Except Exc Int := do
  let certificate ← getActiveWebCertificate (← parseWebCertificates certOutput)
  match certificate.expiration with
  | some expiration => return expiration
  | none => .error (runtimeError "a pending certificate has no expiration")

def checkSwitch (switch : Switch) (credentials : Credentials) (warningDays : Nat) : Act σ Status := do
  match ← attempt (inspectSwitch switch credentials) with
  | .error _ => return .error
  | .ok certOutput =>
    match activeExpiration certOutput with
    | .error e => if e.isValueError then return .error else throw e
    | .ok expiration =>
      let today : Int ← perform (I := World) .today
      return statusOf (expiration - today) warningDays

/-! `renewal_preflight`. -/

structure Preflight where
  activeCertificateName : Text
  taProfile : Text
  newCertificateName : Text

/-- The decision of the preflight on a summary, but for the name. -/
def activeForRenewal (summaryOutput : Text) : Except Exc WebCertificate := do
  let certificates ← parseWebCertificates summaryOutput
  raiseWhen (certificates.any (·.pending)) (.own .pendingCsrPreflight
    ("A pending Web CSR already exists (" ++ pendingNames certificates ++ "). Use the explicit " ++
      "staged commands to inspect or recover it; --renew will not " ++
      "resume, replace, or clear it"))
  getActiveWebCertificate certificates

/-- What an exception of the preflight becomes. -/
def renewalPreflightError (e : Exc) : Exc :=
  if e.isRenewalPreflightError then e
  else if e.isNetmikoAuthentication then .own .renewalPreflight "SSH authentication failed"
  else if e.isNetmikoTimeout then .own .renewalPreflight "SSH connection timed out"
  else if e.isValueError || e.isOsError then .own .renewalPreflight e.str
  else e

def renewalPreflight (switch : Switch) (credentials : Credentials) : Act σ Preflight :=
  handle
    (do
      let summaryOutput ← sshConnection switch credentials readSummary
      let active ← result (activeForRenewal summaryOutput)
      let now ← perform (I := World) .utcNow
      let certificateName ← result (chooseRenewalCertificateName summaryOutput now)
      return ⟨active.name, active.profile, certificateName⟩)
    fun e => throw (renewalPreflightError e)

/-! `renew_certificate`. -/

/-- `except (ValueError, OSError)`: another class, with a text made of the error's. -/
def reraiseAs (wrap : Text → Exc) (keep : Exc → Bool) (x : Act σ α) : Act σ α :=
  handle x fun e => throw
    (if keep e then e else if e.isValueError || e.isOsError then wrap e.str else e)

def pendingRemains (e : Text) : Text :=
  e ++ ". The pending CSR remains on the switch; use the explicit " ++
    "staged commands for diagnosis or recovery"

def renewCertificate (P : Platform) (switch : Switch) (credentials : Credentials)
    (settings : CsrSettings) (opnsense : OpnsenseSettings) (ca : VerificationCaSnapshot)
    (minimumRemainingDays : Option Nat) : Act Log Text := do
  let preflight ← renewalPreflight switch credentials
  progress .preflightConfirmed
  let certificateName := preflight.newCertificateName
  let _ ← reraiseAs (.own .csrGenerationPreAttempt) Exc.isCsrGenerationError
    (generateCsr P switch credentials certificateName settings)
  progress .csrConfirmed
  let certificatePem ← reraiseAs (fun e => .own .csrSigning (pendingRemains e)) (fun _ => false)
    (signPendingCsr P switch credentials certificateName settings opnsense minimumRemainingDays)
  let certificate ← reraiseAs (fun e => .own .certificatePreInstallation (pendingRemains e))
    Exc.isCertificateInstallationAttemptError
    (installPendingCertificate P switch credentials certificateName certificatePem settings
      opnsense.lifetimeDays ca opnsense.digest minimumRemainingDays)
  progress (.installationConfirmed certificate)
  reraiseAs (.own .liveHttpsVerification) (fun _ => false)
    (verifyLiveHttpsCertificate P switch ca certificate)
  progress .liveTlsConfirmed
  return certificateName

end ArubaCertRenewer
