import ArubaCertRenewer.Install

/- The structured result: the record of one switch, what a progress report does
   to it, and what an exception does to it. -/
namespace ArubaCertRenewer
open PyText

inductive Outcome where
  | successChanged | successNoChange | successPrepared | attentionDue
  | failurePreAttempt | failurePartial | failureAmbiguous
  deriving DecidableEq, Repr

inductive Stage where
  | startup | configuration | lock | inspection | decision | preflight | csrGeneration
  | csrRetrieval | signing | issuedValidation | installation | activation | liveVerification
  | finalization | completed
  deriving DecidableEq, Repr

inductive Milestone where
  | notAttempted | confirmed | failed | uncertain
  deriving DecidableEq, Repr

inductive Change where
  | none | confirmed | possible
  deriving DecidableEq, Repr

inductive Reason where
  | configInvalid | lockBusy | lockFailed | pendingState | inspectionFailed | csrFailed
  | signingFailed | validationFailed | installationFailed | verificationFailed
  | recoveryRequired | unexpectedFailure
  deriving DecidableEq, Repr

structure Milestones where
  csr : Milestone := .notAttempted
  issuance : Milestone := .notAttempted
  installation : Milestone := .notAttempted
  activation : Milestone := .notAttempted
  liveTls : Milestone := .notAttempted
  deriving DecidableEq, Repr

/-- `_json_certificate`: the fingerprint and the expiry date. -/
structure CertificateRecord where
  fingerprintSha256 : Text
  expiryDate : Text
  deriving DecidableEq, Repr

structure SwitchResult where
  target : Text
  outcome : Outcome := .failurePreAttempt
  stage : Stage := .startup
  renewalDue : Option Bool := none
  change : Change := .none
  manualRecoveryRequired : Bool := false
  reasonCode : Option Reason := none
  message : Text := "Operation has not completed."
  certificate : Option CertificateRecord := none
  pendingCsrObserved : Bool := false
  milestones : Milestones := {}
  deriving DecidableEq, Repr

def Outcome.isFailure : Outcome → Bool
  | .failurePreAttempt | .failurePartial | .failureAmbiguous => true
  | _ => false

def jsonCertificate (certificate : Certificate) : CertificateRecord :=
  ⟨certificate.sha256, strftimeDate "-" (utcDate certificate.notValidAfterUtc)⟩

/-- `_json_progress`. -/
def jsonProgress (item : SwitchResult) : Progress → SwitchResult
  | .preflightConfirmed => { item with stage := .preflight }
  | .pendingCsrObserved => { item with pendingCsrObserved := true }
  | .csrRetrievalStarted => { item with
      stage := .csrRetrieval
      milestones := if item.milestones.csr == .notAttempted then
        { item.milestones with csr := .failed } else item.milestones }
  | .csrRetrieved => { item with milestones := { item.milestones with csr := .confirmed } }
  | .signingPreparation => { item with stage := .signing }
  | .csrConfirmed => { item with
      stage := .csrGeneration
      milestones := { item.milestones with csr := .confirmed }
      change := .confirmed }
  | .issuanceDispatched => { item with
      stage := .signing
      milestones := { item.milestones with issuance := .uncertain }
      change := .possible }
  | .issuanceConfirmed => { item with
      milestones := { item.milestones with issuance := .confirmed }
      change := .confirmed }
  | .certificateRetrieved | .issuedValidationStarted | .issuedValidated =>
    { item with stage := .issuedValidation }
  | .installationPrepared => { item with stage := .installation }
  | .installationConfirmed certificate => { item with
      stage := .activation
      milestones := { item.milestones with installation := .confirmed, activation := .confirmed }
      change := .confirmed
      certificate := some (jsonCertificate certificate) }
  | .liveTlsConfirmed => { item with
      stage := .liveVerification
      milestones := { item.milestones with liveTls := .confirmed } }

/-- `_json_failure_outcome`. -/
def jsonFailureOutcome (item : SwitchResult) : Outcome :=
  let m := item.milestones
  if item.change == .possible ||
      [m.csr, m.issuance, m.installation].contains .uncertain then .failureAmbiguous
  else if item.change == .confirmed ||
      [m.issuance, m.installation, m.activation].contains .confirmed then .failurePartial
  else .failurePreAttempt

/-- Whether a failure leaves something to recover: more than nothing happened, or a CSR is there. -/
def recoveryNeeded (item : SwitchResult) (outcome : Outcome) : Bool :=
  outcome != .failurePreAttempt || item.milestones.csr == .confirmed || item.pendingCsrObserved

/-- `_json_failure`. -/
def jsonFailure (item : SwitchResult) (error : Exc) : SwitchResult :=
  if error.isPendingCsrPreflightError then { item with
    outcome := .failurePreAttempt, stage := .preflight, reasonCode := some .pendingState
    message := "A pending CSR requires manual investigation.", manualRecoveryRequired := true }
  else if error.isRenewalPreflightError then { item with
    outcome := .failurePreAttempt, stage := .preflight, reasonCode := some .inspectionFailed
    message := "Renewal preflight failed.", manualRecoveryRequired := false }
  else if error.isCsrGenerationPreAttemptError then { item with
    outcome := .failurePreAttempt, stage := .csrGeneration, reasonCode := some .csrFailed
    message := "CSR creation was not attempted.", manualRecoveryRequired := false }
  else if error.isCsrGenerationError then { item with
    outcome := .failureAmbiguous, stage := .csrGeneration, reasonCode := some .csrFailed
    message := "CSR creation was attempted; inspect switch state."
    milestones := { item.milestones with csr := .uncertain }
    change := .possible, manualRecoveryRequired := true }
  else if error.isCsrSigningError then { item with
    outcome := jsonFailureOutcome item
    reasonCode := some
      (if item.stage == .issuedValidation then .validationFailed
      else if item.stage == .csrRetrieval then .csrFailed
      else .signingFailed)
    message := "Signing or issued-certificate validation failed; inspect state."
    manualRecoveryRequired := recoveryNeeded item (jsonFailureOutcome item) }
  else if error.isCertificatePreInstallationError then { item with
    outcome := jsonFailureOutcome item, stage := .installation, reasonCode := some .validationFailed
    message := "Installation did not begin; inspect pending state.", manualRecoveryRequired := true }
  else if error.isCertificateInstallationAttemptError then { item with
    outcome := .failureAmbiguous, stage := .installation, reasonCode := some .installationFailed
    message := "Installation was attempted; inspect switch state."
    milestones := { item.milestones with installation := .uncertain }
    change := .possible, manualRecoveryRequired := true }
  else if error.isLiveHttpsVerificationError then { item with
    outcome := jsonFailureOutcome item, stage := .liveVerification
    reasonCode := some .verificationFailed
    message := "Installed state was confirmed; live HTTPS failed."
    milestones := { item.milestones with liveTls := .failed }
    manualRecoveryRequired := true }
  else { item with
    outcome := jsonFailureOutcome item, reasonCode := some .unexpectedFailure
    message := "Operation failed; inspect state before retrying."
    manualRecoveryRequired := recoveryNeeded item (jsonFailureOutcome item) }

/-! The result of an invocation. -/

structure RunResult where
  operation : Text
  outcome : Outcome := .failurePreAttempt
  stage : Stage := .startup
  manualRecoveryRequired : Bool := false
  reasonCode : Option Reason := none
  message : Text := "Operation has not completed."
  results : List SwitchResult := []
  deriving DecidableEq, Repr

/-- `_SEVERITY`. -/
def Outcome.severity : Outcome → Nat
  | .successNoChange => 0
  | .successPrepared => 1
  | .successChanged => 2
  | .attentionDue => 3
  | .failurePreAttempt => 4
  | .failurePartial => 5
  | .failureAmbiguous => 6

/-- The first of the most severe records. -/
def mostSevere : SwitchResult → List SwitchResult → SwitchResult
  | chosen, [] => chosen
  | chosen, item :: items =>
    mostSevere (if chosen.outcome.severity < item.outcome.severity then item else chosen) items

def RunResult.finish (run : RunResult) : RunResult :=
  match run.results with
  | [] => run
  | item :: items =>
    let chosen := mostSevere item items
    { run with
      outcome := chosen.outcome
      stage := if Outcome.attentionDue.severity ≤ chosen.outcome.severity then chosen.stage
        else .completed
      reasonCode := chosen.reasonCode
      message := chosen.message
      manualRecoveryRequired := run.manualRecoveryRequired ||
        run.results.any (·.manualRecoveryRequired) }

end ArubaCertRenewer
