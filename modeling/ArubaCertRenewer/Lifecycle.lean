import ArubaCertRenewer.Startup

/- The per-switch lifecycle lock: `flock` on a file named after the host, under
   checks that the locked file is the one the path names. -/
namespace ArubaCertRenewer
open PyText Effects Effects.Py

variable {σ α : Type}

def lifecycleLockError (message : Text) : Exc := .own .lifecycleLock message

/-- The name of the lock of a host; a host that is not ASCII has none. -/
def lockFilename (P : Platform) (canonicalHost : Text) : Except Exc Text :=
  if isAscii canonicalHost then .ok (P.sha256Hexdigest canonicalHost ++ ".lock")
  else .error (valueError "'ascii' codec can't encode characters: ordinal not in range(128)")

/-- `mode & mask != 0`. -/
def hasBits (mode mask : Nat) : Bool := mode &&& mask != 0

/-- `_validate_directory`. -/
def validateDirectory (P : Platform) (m : Metadata) : Except Exc Unit :=
  raiseWhen (!m.directory || !(m.uid == 0 || m.uid == P.euid) || hasBits m.mode 0o007 ||
      (hasBits m.mode 0o020 && m.gid != P.egid))
    (lifecycleLockError "Lifecycle lock directory has unsafe permissions")

/-- `_validate_lock_file`. -/
def validateLockFile (P : Platform) (m : Metadata) : Except Exc Unit :=
  raiseWhen (!m.regular || m.nlink != 1 || m.size != 0 || m.uid != P.euid || hasBits m.mode 0o077)
    (lifecycleLockError "Lifecycle lock file is unsafe")

/-- `_identity`. -/
def Metadata.identity (m : Metadata) : Nat × Nat := (m.dev, m.ino)

/-- The descriptors a lock holds, as far as they are open. -/
structure LockFds where
  directory : Option Nat := none
  lock : Option Nat := none

/-- What an exception of `flock` becomes. -/
def flockError (e : Exc) : Exc :=
  match e with
  | .std { os := some { errno := some .again, .. }, .. }
  | .std { os := some { errno := some .wouldBlock, .. }, .. } =>
    .own .lifecycleLockBusy "Another lifecycle operation is already in progress for this switch"
  | e => e

/-- The acquisition, from the directory to the last check of the path. -/
def openAndLock (P : Platform) (canonicalHost : Text) : Act LockFds Unit := do
  let directoryFd ← ask .openLockDirectory fun r => r
  modify fun fds => { fds with directory := some directoryFd }
  result (validateDirectory P (← ask (.fstat directoryFd) fun r => r))
  let filename ← result (lockFilename P canonicalHost)
  let lockFd ← ask (.openLockFile filename directoryFd) fun r => r
  modify fun fds => { fds with lock := some lockFd }
  result (validateLockFile P (← ask (.fstat lockFd) fun r => r))
  handle (ask (.flock lockFd) fun r => r) fun e => throw (flockError e)
  let metadata ← ask (.fstat lockFd) fun r => r
  result (validateLockFile P metadata)
  let pathname ← ask (.statLockPath filename directoryFd) fun r => r
  raiseIf (pathname.identity != metadata.identity || !pathname.regular)
    (lifecycleLockError "Lifecycle lock pathname changed during acquisition")

/-- Close descriptors in order; whether one of them failed with an `OSError`. -/
def closeDescriptors : List Nat → Act σ Bool
  | [] => return false
  | fd :: fds => do
    let failed ← handle (do ask (.closeFd fd) fun r => r; return false) fun e =>
      if e.isOsError then return true else throw e
    return failed || (← closeDescriptors fds)

/-- The `finally` of `lifecycle_lock`: a failure to close matters after a body that did not raise. -/
def releaseLock (fds : LockFds) (inFlight : Option Exc) : Act σ Unit := do
  let failed ← closeDescriptors (fds.lock.toList ++ fds.directory.toList)
  raiseIf (failed && inFlight.isNone)
    (.own .lifecycleLockRelease "Lifecycle lock release failed")

def acquireLock (P : Platform) (canonicalHost : Text) : Act LockFds LockFds := do
  handle (openAndLock P canonicalHost) fun e => do
    let e := if e.isOsError then lifecycleLockError "Lifecycle lock is unavailable or unsafe" else e
    releaseLock (← get) (some e)
    throw e
  get

def lifecycleLock (P : Platform) (canonicalHost : Text) (body : Act σ α) : Act σ α :=
  within (alone {} (acquireLock P canonicalHost))
    (fun fds inFlight => alone () (releaseLock fds inFlight)) fun _ => body

end ArubaCertRenewer
