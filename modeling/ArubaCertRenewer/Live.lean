import ArubaCertRenewer.Startup

/- The live HTTPS verification. Its loop ends when its clock says so, so it is
   given a number of iterations; a run that uses them up is `unfinished`. -/
namespace ArubaCertRenewer
open PyText Effects Effects.Py

def httpsVerificationWindowSeconds : Rat := 30
def httpsRetryDelaySeconds : Rat := 2
def httpsSocketTimeoutSeconds : Rat := 5
def httpsResolverCleanupSeconds : Rat := 1 / 10

/-- The keyword arguments of `verify_live_https_certificate`, in seconds, and the window as it is
printed. -/
structure LiveTimes where
  verificationWindow : Rat
  retryDelay : Rat
  socketTimeout : Rat
  printedWindow : Text

/-- Their defaults, which every caller leaves. -/
def liveTimes : LiveTimes :=
  ⟨httpsVerificationWindowSeconds, httpsRetryDelaySeconds, httpsSocketTimeoutSeconds, "30"⟩

variable {σ : Type}

def monotonic : Act σ Rat := perform (I := World) .monotonic

/-- `_resolve_live_https_addresses`; the resolver process is one call. -/
def resolveLiveHttpsAddresses (host : Text) (deadline : Rat) : Act σ (List SocketAddress) := do
  let exceeded := valueError "Live HTTPS hostname resolution exceeded verification window"
  match IpAddress.ofText host with
  | some (.v4 _) => return [⟨.inet, host⟩]
  | some (.v6 _ _) => return [⟨.inet6, host⟩]
  | none =>
    let remaining := deadline - (← monotonic)
    raiseIf (remaining ≤ httpsResolverCleanupSeconds) exceeded
    let addresses ← ask (.resolveHostname host deadline) fun r => r
    raiseIf addresses.isEmpty (valueError "Live HTTPS hostname resolution failed")
    raiseIf (deadline ≤ (← monotonic)) exceeded
    return addresses

/-- `_is_retryable_live_https_error`. -/
def isRetryableLiveHttpsError (e : OsError) : Bool :=
  e.connection || e.timeout || e.errno.any fun code =>
    [Errno.connRefused, .connReset, .connAborted, .netUnreach, .hostUnreach, .timedOut].contains code

/-- Whether the exception is an `OSError` the endpoint may recover from. -/
def isRetryable : Exc → Bool
  | .std e => !e.os.any (·.ssl) && e.os.any isRetryableLiveHttpsError
  | .own _ _ => false

/-- `_live_https_timeout`. -/
def liveHttpsTimeout (deadline socketTimeout : Rat) : Act σ Rat := do
  let remaining := deadline - (← monotonic)
  raiseIf (remaining ≤ 0) timeoutError
  return if socketTimeout ≤ remaining then socketTimeout else remaining

/-- The leaf certificate one address presents. -/
def readLeafFrom (address : SocketAddress) (host : Text) (deadline socketTimeout : Rat) :
    Act σ Bytes := do
  let peerDer ← within (ask (.openSocket address.family) fun r => r)
    (fun _ inFlight => ask (.closeSocket inFlight) fun r => r) fun _ => do
      ask (.setTimeout (← liveHttpsTimeout deadline socketTimeout)) fun r => r
      ask (.connectSocket address) fun r => r
      ask (.setTimeout (← liveHttpsTimeout deadline socketTimeout)) fun r => r
      within (ask (.wrapSocket host) fun r => r)
        (fun _ inFlight => ask (.closeTls inFlight) fun r => r) fun _ =>
          ask .getPeerCert fun r => r
  let _ ← liveHttpsTimeout deadline socketTimeout
  return peerDer

/-- `_read_live_https_leaf`: the next address after an error that may pass. -/
def readLiveHttpsLeaf (host : Text) (deadline socketTimeout : Rat) :
    Exc → List SocketAddress → Act σ Bytes
  | lastError, [] => throw lastError
  | _, address :: addresses => do
    match ← attempt (readLeafFrom address host deadline socketTimeout) with
    | .ok peerDer => return peerDer
    | .error e =>
      raiseIf (!isRetryable e) e
      raiseIf (deadline - (← monotonic) ≤ 0) e
      readLiveHttpsLeaf host deadline socketTimeout e addresses

def notReady : Text := "HTTPS endpoint did not become ready"

def notVerified (times : LiveTimes) (lastError : Text) : Exc :=
  valueError ("Expected certificate was not verified over live HTTPS within " ++
    times.printedWindow ++ " seconds: " ++ lastError)

/-- What one reading of the endpoint means: the text to go on with, or `none` for a match. -/
def judgeLeaf (expectedDer : Bytes) : Except Exc Bytes → Except Exc (Option Text)
  | .ok peerDer =>
    .ok (if peerDer == expectedDer then none
      else some "HTTPS service presented a different valid certificate")
  | .error e =>
    if e.isSslCertVerificationError then
      .error (valueError "Live HTTPS certificate or hostname verification failed")
    else if e.isSslError then .error (valueError "Live HTTPS TLS handshake failed")
    else if e.isOsError then
      if isRetryable e then .ok (some notReady)
      else .error (valueError "Live HTTPS connection failed")
    else .error e

/-- The loop of `verify_live_https_certificate`. -/
def awaitLiveCertificate (times : LiveTimes) (host : Text) (deadline : Rat) (expectedDer : Bytes)
    (addresses : List SocketAddress) : Nat → Text → Act σ Unit
  | 0, _ => ofProg fun _ => .unfinished
  | n + 1, lastError => do
    raiseIf (deadline - (← monotonic) ≤ 0) (notVerified times lastError)
    let leaf ← attempt
      (readLiveHttpsLeaf host deadline times.socketTimeout timeoutError addresses)
    match ← result (judgeLeaf expectedDer leaf) with
    | none =>
      raiseIf (deadline - (← monotonic) ≤ 0)
        (notVerified times "HTTPS verification deadline expired")
    | some lastError =>
      let remaining := deadline - (← monotonic)
      raiseIf (remaining ≤ 0) (notVerified times lastError)
      perform (I := World) (.sleep
        (if times.retryDelay ≤ remaining then times.retryDelay else remaining))
      awaitLiveCertificate times host deadline expectedDer addresses n lastError

/-- `verify_live_https_certificate` with its keyword arguments. -/
def verifyLiveHttpsCertificateWithin (times : LiveTimes) (P : Platform) (switch : Switch)
    (snapshot : VerificationCaSnapshot) (expected : Certificate) : Act σ Unit := do
  raiseIf (times.verificationWindow ≤ 0) (valueError "Invalid live HTTPS verification window")
  raiseIf (times.retryDelay < 0) (valueError "Invalid live HTTPS retry delay")
  raiseIf (times.socketTimeout ≤ 0) (valueError "Invalid live HTTPS socket timeout")
  let host := (← result (validateSwitchSigningIdentity switch)).commonName
  let context ← verificationContext snapshot
  raiseIf (!context.checkHostname || !context.certRequired)
    (valueError "TLS verification context is not securely configured")
  let deadline := (← monotonic) + times.verificationWindow
  let addresses ← resolveLiveHttpsAddresses host deadline
  awaitLiveCertificate times host deadline expected.der addresses P.liveAttempts notReady

/-- `verify_live_https_certificate`. -/
def verifyLiveHttpsCertificate (P : Platform) (switch : Switch) (snapshot : VerificationCaSnapshot)
    (expected : Certificate) : Act σ Unit :=
  verifyLiveHttpsCertificateWithin liveTimes P switch snapshot expected

end ArubaCertRenewer
