import ArubaCertRenewer.Startup

/- The SSH connection to a switch: the known-hosts snapshot it is opened with,
   its contexts, and the commands that only read. -/
namespace ArubaCertRenewer
open PyText Effects Effects.Py

def maxKnownHostsFileBytes : Nat := 256 * 1024
def maxShowVersionOutputBytes : Nat := 16 * 1024
def maxCsrCreateOutputBytes : Nat := 80 * 1024
def maxCsrDetailOutputBytes : Nat := 80 * 1024
def maxInstallPromptOutputBytes : Nat := 80 * 1024
def maxInstallConfirmOutputBytes : Nat := 16 * 1024
def maxCertificateDetailOutputBytes : Nat := 256 * 1024

/-- `CONFIG_READ_BYTES` and `FRAMING_BYTES` of the bounded transport. -/
def configReadBytes : Nat := 4 * 1024
def framingBytes : Nat := 4 * 1024

variable {σ α : Type}

/-! The known-hosts snapshot. -/

def readKnownHosts (switch : Switch) : Act σ Bytes := do
  let file := switch.sshKnownHostsFile
  let contents ← osErrorAs (valueError ("ssh.known_hosts_file cannot be read: " ++ file))
    (readSecureFile file "ssh.known_hosts_file" (maxKnownHostsFileBytes + 1))
  raiseIf (maxKnownHostsFileBytes < contents.length)
    (valueError ("ssh.known_hosts_file exceeds " ++ ofNat maxKnownHostsFileBytes ++ " bytes: " ++
      file))
  return contents

/-- Remove the snapshot directory: an `OSError` is only logged when one is in flight already. -/
def removeSnapshot (directory : Text) (inFlight : Option Exc) : Act σ Unit :=
  handle (ask (.rmtree directory) fun r => r) fun e =>
    if e.isOsError then
      raiseIf inFlight.isNone (valueError "SSH known_hosts snapshot could not be removed")
    else throw e

def snapshotKnownHosts (switch : Switch) (body : Text → Act σ α) : Act σ α := do
  let contents ← readKnownHosts switch
  within (ask .mkdtemp fun r => r) removeSnapshot fun directory => do
    let permissions ← ask (.statDirectory directory) fun r => r
    raiseIf (permissions != 0o700) (osError "temporary directory permissions are unsafe")
    let snapshot := directory ++ "/known_hosts"
    ask (.writeSnapshot snapshot contents) fun r => r
    body snapshot

def getDeviceParameters (switch : Switch) (credentials : Credentials) (snapshot : Text) : Device :=
  ⟨switch.host, credentials.username, credentials.password, snapshot⟩

def sshConnection (switch : Switch) (credentials : Credentials) (body : Act σ α) : Act σ α :=
  snapshotKnownHosts switch fun snapshot =>
    within (ask (.connect (getDeviceParameters switch credentials snapshot)) fun r => r)
      (fun _ inFlight => ask (.disconnect inFlight) fun r => r) fun _ => body

/-! Bounded reads. -/

/-- `_ssh_read_budget`. -/
def withReadBudget (semanticLimit : Nat) (command : Text) (extraEchoBytes : Nat) (body : Act σ α) :
    Act σ α := do
  let prompt ← perform (I := World) .basePrompt
  let limit := semanticLimit + utf8Length command + utf8Length prompt + framingBytes + extraEchoBytes
  within (ask (.enterReadBudget limit) fun r => r)
    (fun _ inFlight => ask (.exitReadBudget inFlight) fun r => r) fun _ => body

def sendCommand (command : Text) (semanticLimit : Nat) : Act σ Text :=
  withReadBudget semanticLimit command 0 (ask (.sendCommand command) fun r => r)

def sendCommandTiming (command : Text) (semanticLimit : Nat) : Act σ Text :=
  withReadBudget semanticLimit command 0 (ask (.sendCommandTiming command) fun r => r)

def configMode : Act σ Unit :=
  withReadBudget configReadBytes "configure terminal" 0 (ask .configMode fun r => r)

def exitConfigMode : Act σ Unit :=
  withReadBudget configReadBytes "end" 0 (ask .exitConfigMode fun r => r)

def connectionPoisoned : Act σ Bool := perform (I := World) .poisoned

/-- The certificate summary, as every operation reads it. -/
def readSummary : Act σ Text := sendCommand summaryCommand maxCertificateSummaryOutputBytes

def detailCommand (certificateName : Text) : Text :=
  "show crypto pki local-certificate " ++ certificateName

/-! CSR retrieval. -/

def retrieveAndValidateCsr (P : Platform) (switch : Switch) (certificateName : Text)
    (settings : CsrSettings) : Act σ Text := do
  let csrOutput ← sendCommand (detailCommand certificateName) maxCsrDetailOutputBytes
  result (checkOutputSize csrOutput maxCsrDetailOutputBytes "CSR detail")
  let csrPem ← result (extractCsrPem csrOutput)
  let _ ← result (validateCsrPem P csrPem switch settings)
  return csrPem

/-! Prompts. -/

open Regex in
/-- The pattern of `_contains_obvious_cli_error`, matched ignoring case. -/
def cliErrorPattern : Regex :=
  alt
    (seqs [alt textStart (lit "\n"), star true space, opt (seq (lit "%") (star true space)),
      alts [litIgnoringCase "invalid", litIgnoringCase "unknown", litIgnoringCase "error",
        litIgnoringCase "failed"]])
    (litIgnoringCase "not found")

def containsObviousCliError (output : Text) : Bool := (search cliErrorPattern output).isSome

def endsWithExpectedPrompt (output expectedPrompt : Text) : Bool :=
  !containsObviousCliError output && endsWith (rstrip output) expectedPrompt

end ArubaCertRenewer
