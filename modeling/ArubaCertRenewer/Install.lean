import ArubaCertRenewer.Ssh

/- The operations on one switch: creating a CSR, retrieving one, and installing
   a signed certificate through the guarded prompts.

   A function that reports progress does so to a `Log`; the driver that gave it
   a callback applies the callback to the log, the other drops it. -/
namespace ArubaCertRenewer
open PyText Effects Effects.Py

/-- What a function with a `progress` argument calls it with. -/
inductive Progress where
  | preflightConfirmed
  | pendingCsrObserved
  | csrRetrievalStarted
  | csrRetrieved
  | signingPreparation
  | csrConfirmed
  | issuanceDispatched
  | issuanceConfirmed
  | certificateRetrieved
  | issuedValidationStarted
  | issuedValidated
  | installationPrepared
  | installationConfirmed (certificate : Certificate)
  | liveTlsConfirmed

/-- The progress reported so far, oldest first. -/
abbrev Log := List Progress

def progress (event : Progress) : Act Log Unit := modify (· ++ [event])

def csrGenerationError (message : Text) : Exc := .own .csrGeneration message
def certificateInstallationAttemptError (message : Text) : Exc :=
  .own .certificateInstallationAttempt message

variable {σ : Type}

/-! `generate_csr`. -/

/-- Send the create command from configuration mode, which is left whatever happens. -/
def createCsr (command : Text) : Act Bool Unit := do
  configMode
  andFinally
    (do
      set true
      let createOutput ← sendCommandTiming command maxCsrCreateOutputBytes
      result (checkOutputSize createOutput maxCsrCreateOutputBytes "CSR creation"))
    (do if !(← connectionPoisoned) then exitConfigMode)

/-- The create command for a name the summary shows to be free. -/
def prepareCsrCommand (switch : Switch) (certificateName : Text) (settings : CsrSettings)
    (summaryOutput : Text) : Except Exc Text := do
  let certificates ← parseWebCertificates summaryOutput
  let activeCertificate ← getActiveWebCertificate certificates
  raiseWhen (casefold certificateName == casefold activeCertificate.name)
    (valueError ("New certificate name must differ from the active Web " ++ "certificate name"))
  raiseWhen (← certificateNameExists summaryOutput certificateName)
    (valueError ("Certificate name already exists on the switch: " ++ certificateName))
  buildCsrCommand switch certificateName activeCertificate.profile settings

/-- What an exception becomes once it leaves the connection of `generate_csr`. -/
def generateCsrError (attempted : Bool) (e : Exc) : Exc :=
  if e.isCsrGenerationError then e
  else if e.isNetmikoAuthentication then
    if attempted then csrGenerationError
      ("SSH authentication failed after CSR creation was attempted; " ++
        "a pending CSR may remain on the switch")
    else valueError "SSH authentication failed"
  else if e.isNetmikoTimeout then
    if attempted then csrGenerationError
      ("SSH operation timed out after CSR creation was attempted; " ++
        "a pending CSR may remain on the switch")
    else valueError "SSH connection timed out"
  else if attempted then csrGenerationError
    ("CSR creation was attempted, but the operation failed; " ++
      "a pending CSR may remain on the switch")
  else e

/-- The body of the connection of `generate_csr`. -/
def generateOnSwitch (P : Platform) (switch : Switch) (certificateName : Text)
    (settings : CsrSettings) : Act Bool Text := do
  let summaryOutput ← readSummary
  let command ← result (prepareCsrCommand switch certificateName settings summaryOutput)
  createCsr command
  handle (retrieveAndValidateCsr P switch certificateName settings) fun e =>
    throw (if e.isValueError then csrGenerationError
      ("CSR retrieval or validation failed: " ++ e.str ++ ". " ++ "The pending CSR was not removed")
      else e)

def generateCsr (P : Platform) (switch : Switch) (credentials : Credentials) (certificateName : Text)
    (settings : CsrSettings) : Act σ Text := do
  result (validateCliIdentifier certificateName "certificate name")
  alone false <|
    handle (sshConnection switch credentials
      (generateOnSwitch P switch certificateName settings)) fun e => do
        throw (generateCsrError (← get) e)

/-! `retrieve_csr`; its own checks of the entry are those of `require_pending_web_certificate`. -/

/-- Outside the installation, the Netmiko exceptions become `ValueError`s. -/
def netmikoAsValueError (e : Exc) : Exc :=
  if e.isNetmikoAuthentication then valueError "SSH authentication failed"
  else if e.isNetmikoTimeout then valueError "SSH connection timed out"
  else e

def retrieveCsr (P : Platform) (switch : Switch) (credentials : Credentials) (certificateName : Text)
    (settings : CsrSettings) : Act Log Text := do
  result (validateCliIdentifier certificateName "certificate name")
  handle
    (sshConnection switch credentials do
      let summaryOutput ← readSummary
      let _ ← result (requirePendingWebCertificate summaryOutput certificateName)
      progress .pendingCsrObserved
      retrieveAndValidateCsr P switch certificateName settings)
    fun e => throw (netmikoAsValueError e)

/-! `install_signed_certificate`. -/

def certificatePastePrompt : Text := "Paste the certificate here and enter:"
def certificateReplacementPrompt : Text :=
  "This certificate will replace an existing local certificate. Continue (y/n)?"

def installCommand : Text := "crypto pki install-signed-certificate"
def confirmCommand : Text := "y"

structure InstallFlags where
  attempted : Bool := false
  dialogueCompleted : Bool := false
  enteredConfigMode : Bool := false

/-- `_send_certificate_pem`. -/
def sendCertificatePem (certificatePem : Text) : Act σ Text :=
  withReadBudget maxInstallPromptOutputBytes [] (utf8Length certificatePem + 1) do
    ask (.writeChannel certificatePem) fun r => r
    ask (.writeChannel "\n") fun r => r
    ask .readChannelTiming fun r => r

/-- The pending entry, still as the caller saw it. -/
def requireSameProfile (summaryOutput certificateName expectedProfile : Text) : Except Exc Unit := do
  checkSummarySize summaryOutput
  let pendingEntry ← requirePendingWebCertificate summaryOutput certificateName
  raiseWhen (casefold pendingEntry.profile != casefold expectedProfile)
    (valueError ("Certificate " ++ certificateName ++ " TA profile changed before installation"))

def checkPastePrompt (pastePrompt : Text) : Except Exc Unit := do
  checkOutputSize pastePrompt maxInstallPromptOutputBytes "installation prompt"
  raiseWhen (!endsWithExpectedPrompt pastePrompt certificatePastePrompt)
    (valueError "Switch did not return the expected certificate-paste prompt")

def checkReplacementPrompt (replacementPrompt : Text) : Except Exc Unit := do
  checkOutputSize replacementPrompt maxInstallPromptOutputBytes "installation prompt"
  raiseWhen (!endsWithExpectedPrompt replacementPrompt certificateReplacementPrompt)
    (valueError ("Switch did not return the expected certificate-replacement prompt; " ++
      "confirmation was not sent"))

def checkConfirmation (confirmationOutput : Text) : Except Exc Unit := do
  checkOutputSize confirmationOutput maxInstallConfirmOutputBytes "installation confirmation"
  raiseWhen (containsObviousCliError confirmationOutput)
    (valueError "Switch reported an error while installing the certificate")

/-- The prompts, from the paste prompt to the confirmation. -/
def installPrompts (certificatePem : Text) : Act σ Unit := do
  let pastePrompt ← sendCommandTiming installCommand maxInstallPromptOutputBytes
  result (checkPastePrompt pastePrompt)
  let replacementPrompt ← sendCertificatePem certificatePem
  result (checkReplacementPrompt replacementPrompt)
  let confirmationOutput ← sendCommandTiming confirmCommand maxInstallConfirmOutputBytes
  result (checkConfirmation confirmationOutput)

/-- The `try` body of `install_signed_certificate`. -/
def installDialogue (certificateName certificatePem expectedProfile : Text) :
    Act InstallFlags Unit := do
  let summaryOutput ← readSummary
  result (requireSameProfile summaryOutput certificateName expectedProfile)
  configMode
  modify fun f => { f with enteredConfigMode := true }
  modify fun f => { f with attempted := true }
  installPrompts certificatePem
  modify fun f => { f with dialogueCompleted := true }

/-- Its `finally`: an exit that fails matters only after a completed dialogue. -/
def leaveDialogue : Act InstallFlags Unit := do
  let flags ← get
  if flags.enteredConfigMode then
    if !(← connectionPoisoned) then
      handle exitConfigMode fun exitError =>
        raiseIf flags.dialogueCompleted (certificateInstallationAttemptError
          ("Certificate installation may already have changed the switch, " ++
            "and config mode could not be exited: " ++ exitError.str))

open Regex in
/-- `(?:^|\n)\s*Certificate Detail:\s*(?:\n|$)`. -/
def certificateDetailPattern : Regex :=
  seqs [alt textStart (lit "\n"), star true space, lit "Certificate Detail:", star true space,
    alt (lit "\n") textEnd]

/-- What the summary must show after the installation. -/
def checkInstalledEntry (summaryOutput certificateName expectedProfile : Text) :
    Except Exc Unit := do
  checkSummarySize summaryOutput
  let installedEntry ← getCertificateSummaryEntry summaryOutput certificateName
  raiseWhen (casefold installedEntry.usage != "web")
    (valueError ("Installed certificate has usage " ++ installedEntry.usage ++ "; " ++ "expected Web"))
  raiseWhen (casefold installedEntry.expiration == "csr")
    (valueError "Certificate is still shown as a pending CSR")
  raiseWhen (casefold installedEntry.profile != casefold expectedProfile)
    (valueError "Installed certificate TA profile changed")

def checkInstalledDetails (detailsOutput : Text) : Except Exc Unit := do
  checkOutputSize detailsOutput maxCertificateDetailOutputBytes "certificate detail"
  raiseWhen (containsObviousCliError detailsOutput ||
      (search certificateDetailPattern detailsOutput).isNone)
    (valueError "Could not confirm the installed certificate in detailed switch output")

/-- The post-install verification of `install_signed_certificate`. -/
def verifyInstalled (certificateName expectedProfile : Text) : Act σ Unit := do
  let summaryOutput ← readSummary
  result (checkInstalledEntry summaryOutput certificateName expectedProfile)
  let detailsOutput ← sendCommand (detailCommand certificateName) maxCertificateDetailOutputBytes
  result (checkInstalledDetails detailsOutput)

def installSignedCertificate (certificateName certificatePem expectedProfile : Text) : Act σ Unit :=
  alone ({} : InstallFlags) do
    andFinally
      (handle (installDialogue certificateName certificatePem expectedProfile) fun e => do
        throw (if (← get).attempted then certificateInstallationAttemptError
          ("Certificate installation may already have changed the switch: " ++ e.str) else e))
      leaveDialogue
    handle (verifyInstalled certificateName expectedProfile) fun e =>
      throw (if e.isCertificateInstallationAttemptError then e
        else certificateInstallationAttemptError
          ("Certificate installation may already have changed the switch, but " ++
            "post-install Aruba verification failed: " ++ e.str))

/-! `install_pending_certificate`. -/

/-- What an exception becomes once it leaves the connection of `install_pending_certificate`. -/
def installPendingError (completed : Bool) (e : Exc) : Exc :=
  let attempted := fun cause : Text => certificateInstallationAttemptError
    ("Certificate installation may already have changed the switch; " ++ cause)
  if e.isCertificateInstallationAttemptError then e
  else if e.isNetmikoAuthentication then
    if completed then attempted "SSH authentication failed while closing the connection"
    else valueError "SSH authentication failed"
  else if e.isNetmikoTimeout then
    if completed then attempted "SSH timed out while closing the connection"
    else valueError "SSH connection timed out"
  else if e.isValueError || e.isOsError then
    if completed then attempted "an error occurred while closing the SSH connection" else e
  else if completed then attempted "an SSH error occurred while closing the connection"
  else valueError "SSH operation failed before certificate installation was attempted"

/-- The certificate to install, checked against the pending CSR and the verification CA. -/
def validateForInstallation (P : Platform) (switch : Switch) (certificateName certificatePem : Text)
    (settings : CsrSettings) (lifetimeDays : Nat) (ca : VerificationCaSnapshot) (digest : Text)
    (minimumRemainingDays : Option Nat) : Act Log Certificate := do
  progress .pendingCsrObserved
  progress .csrRetrievalStarted
  let csrPem ← retrieveAndValidateCsr P switch certificateName settings
  let csr ← result (validateCsrPem P csrPem switch settings)
  progress .csrRetrieved
  progress .issuedValidationStarted
  let certificate ← validateIssuedCertificate P certificatePem csr switch lifetimeDays digest false
    minimumRemainingDays
  verifyIssuedCertificateTrust P certificate switch ca
  let now ← perform (I := World) .utcNow
  result (requireCurrentCertificateValidity certificate now minimumRemainingDays)
  progress .issuedValidated
  progress .installationPrepared
  return certificate

/-- The pending entry the installation starts from. -/
def readPendingEntry (certificateName : Text) : Act σ SummaryEntry := do
  let summaryOutput ← readSummary
  result do
    checkSummarySize summaryOutput
    requirePendingWebCertificate summaryOutput certificateName

/-- The body of the connection of `install_pending_certificate`; the variable is
`installation_completed`. -/
def installOverConnection (P : Platform) (switch : Switch) (certificateName certificatePem : Text)
    (settings : CsrSettings) (lifetimeDays : Nat) (ca : VerificationCaSnapshot) (digest : Text)
    (minimumRemainingDays : Option Nat) : Act (Log × Bool) Certificate := do
  let pendingEntry ← readPendingEntry certificateName
  let certificate ← outer (validateForInstallation P switch certificateName certificatePem settings
    lifetimeDays ca digest minimumRemainingDays)
  installSignedCertificate certificateName certificatePem pendingEntry.profile
  assign fun _ => true
  return certificate

def installPendingCertificate (P : Platform) (switch : Switch) (credentials : Credentials)
    (certificateName certificatePem : Text) (settings : CsrSettings) (lifetimeDays : Nat)
    (ca : VerificationCaSnapshot) (digest : Text) (minimumRemainingDays : Option Nat) :
    Act Log Certificate := do
  result (validateCliIdentifier certificateName "certificate name")
  let _ ← result (validateSwitchSigningIdentity switch)
  withVars false <|
    handle
      (sshConnection switch credentials (installOverConnection P switch certificateName
        certificatePem settings lifetimeDays ca digest minimumRemainingDays))
      fun e => do throw (installPendingError (← locals) e)

end ArubaCertRenewer
