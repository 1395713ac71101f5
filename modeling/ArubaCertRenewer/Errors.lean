import ArubaCertRenewer.PyText

/- The exceptions the program tells apart. `StdError` is any exception of Python
   or of a package, reduced to the classes an `except` clause or an `isinstance`
   of the program asks about; `OwnError` are the classes the program defines,
   all of them subclasses of `ValueError`. -/
namespace ArubaCertRenewer
open PyText

inductive Errno where
  | again | wouldBlock | connRefused | connReset | connAborted | netUnreach | hostUnreach
  | timedOut
  | other (code : Nat)
  deriving DecidableEq, Repr

/-- An `OSError`: its `errno`, and the subclasses of `OSError` it is an instance of. -/
structure OsError where
  errno : Option Errno := none
  fileNotFound : Bool := false
  isADirectory : Bool := false
  connection : Bool := false
  timeout : Bool := false
  ssl : Bool := false
  sslCertVerification : Bool := false
  httpCode : Option Nat := none
  deriving DecidableEq, Repr

structure StdError where
  message : Text
  value : Bool := false
  os : Option OsError := none
  netmikoAuthentication : Bool := false
  netmikoTimeout : Bool := false
  duplicateExtension : Bool := false
  unsupportedAlgorithm : Bool := false
  deriving DecidableEq, Repr

inductive OwnError where
  | csrGeneration | certificateInstallationAttempt | renewalPreflight | pendingCsrPreflight
  | csrGenerationPreAttempt | csrSigning | certificatePreInstallation | liveHttpsVerification
  | lifecycleLock | lifecycleLockBusy | lifecycleLockRelease
  deriving DecidableEq, Repr

inductive Exc where
  | std (e : StdError)
  | own (c : OwnError) (message : Text)
  deriving DecidableEq, Repr

def valueError (message : Text) : Exc := .std { message, value := true }
def osError (message : Text) : Exc := .std { message, os := some {} }
def runtimeError (message : Text) : Exc := .std { message }
def overflowError (message : Text) : Exc := .std { message }
def timeoutError : Exc := .std { message := [], os := some { timeout := true } }

namespace Exc

/-- `str(error)`. -/
def str : Exc → Text
  | std e => e.message
  | own _ m => m

def isValueError : Exc → Bool
  | std e => e.value
  | own _ _ => true

def isOsError : Exc → Bool
  | std e => e.os.isSome
  | own _ _ => false

def isSslError : Exc → Bool
  | std e => e.os.any (·.ssl)
  | own _ _ => false

def isSslCertVerificationError : Exc → Bool
  | std e => e.os.any (·.sslCertVerification)
  | own _ _ => false

def isNetmikoAuthentication : Exc → Bool
  | std e => e.netmikoAuthentication
  | own _ _ => false

def isNetmikoTimeout : Exc → Bool
  | std e => e.netmikoTimeout
  | own _ _ => false

def isOwn (c : OwnError) : Exc → Bool
  | std _ => false
  | own c' _ => c' == c

def isCsrGenerationError : Exc → Bool := isOwn .csrGeneration
def isCertificateInstallationAttemptError : Exc → Bool := isOwn .certificateInstallationAttempt
def isPendingCsrPreflightError : Exc → Bool := isOwn .pendingCsrPreflight
def isCsrGenerationPreAttemptError : Exc → Bool := isOwn .csrGenerationPreAttempt
def isCsrSigningError : Exc → Bool := isOwn .csrSigning
def isCertificatePreInstallationError : Exc → Bool := isOwn .certificatePreInstallation
def isLiveHttpsVerificationError : Exc → Bool := isOwn .liveHttpsVerification
def isLifecycleLockBusy : Exc → Bool := isOwn .lifecycleLockBusy
def isLifecycleLockReleaseError : Exc → Bool := isOwn .lifecycleLockRelease

/-- `PendingCSRPreflightError` is a `RenewalPreflightError`. -/
def isRenewalPreflightError (e : Exc) : Bool :=
  e.isOwn .renewalPreflight || e.isPendingCsrPreflightError

def isLifecycleLockError (e : Exc) : Bool :=
  e.isOwn .lifecycleLock || e.isLifecycleLockBusy || e.isLifecycleLockReleaseError

/-- `RENEWAL_FAILURE_TYPES`. -/
def isRenewalFailure (e : Exc) : Bool :=
  e.isRenewalPreflightError || e.isCsrGenerationPreAttemptError || e.isCsrGenerationError ||
    e.isCsrSigningError || e.isCertificatePreInstallationError ||
    e.isCertificateInstallationAttemptError || e.isLiveHttpsVerificationError

end Exc

end ArubaCertRenewer
