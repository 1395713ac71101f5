import ArubaCertRenewer.Surroundings

/- The error paths of `lifecycle_lock`.

   A run of it is an acquisition, the body if the acquisition succeeded, and
   the closing of what the acquisition opened. `LockRun` lists how it can end;
   `os.close` is taken to fail with an `OSError` only. -/
namespace ArubaCertRenewer
open PyText Effects Effects.Py

/-! ## What a history did with descriptors -/

def openedFd : Event World → Option Nat
  | ⟨.openLockDirectory, .ok fd⟩ => some fd
  | ⟨.openLockFile _ _, .ok fd⟩ => some fd
  | _ => none

def closedFd : Event World → Option Nat
  | ⟨.closeFd fd, _⟩ => some fd
  | _ => none

/-- The exception of `os.close`. -/
def closeFailure : Event World → Option StdError
  | ⟨.closeFd _, .error e⟩ => some e
  | _ => none

/-- The exception of another call of the lock. -/
def acquireFailure : Event World → Option StdError
  | ⟨.openLockDirectory, .error e⟩ | ⟨.openLockFile _ _, .error e⟩ | ⟨.fstat _, .error e⟩
  | ⟨.flock _, .error e⟩ | ⟨.statLockPath _ _, .error e⟩ => some e
  | _ => none

/-- The descriptors of the lock that a history opened, the latest first. -/
def openedFds (h : History World) : List Nat := h.filterMap openedFd

/-- The descriptors that a history closed, the latest first, whether or not closing failed. -/
def closedFds (h : History World) : List Nat := h.filterMap closedFd

def acquireFailures (h : History World) : List StdError := h.filterMap acquireFailure

def closeFailures (h : History World) : List StdError := h.filterMap closeFailure

/-- The errors by which `flock` says that another process holds the lock. -/
def isHeld (e : StdError) : Bool :=
  e.os.any fun os => os.errno == some .again || os.errno == some .wouldBlock

def reportsHeld : Event World → Bool
  | ⟨.flock _, .error e⟩ => isHeld e
  | _ => false

def lockHeld (h : History World) : Bool := h.any reportsHeld

def busyError : Exc :=
  .own .lifecycleLockBusy "Another lifecycle operation is already in progress for this switch"

def unavailableError : Exc := lifecycleLockError "Lifecycle lock is unavailable or unsafe"

def releaseError : Exc := .own .lifecycleLockRelease "Lifecycle lock release failed"

/-- How an acquisition stands: what it opened is what it holds, and nothing was closed. -/
structure Holding (t : History World) (fds : LockFds) : Prop where
  opened : openedFds t = fds.lock.toList ++ fds.directory.toList
  closed : closedFds t = []

/-- So far every call of the acquisition succeeded. -/
structure Going (t : History World) (fds : LockFds) : Prop extends Holding t fds where
  free : lockHeld t = false
  fine : acquireFailures t = []

/-- Where an exception of the acquisition comes from: the only call that failed, or a check. -/
inductive Cause (canonicalHost : Text) (t : History World) : Exc → Prop where
  | busy {x : StdError} : acquireFailures t = [x] → Cause canonicalHost t busyError
  | call {x : StdError} : acquireFailures t = [x] → Cause canonicalHost t (.std x)
  | check {message : Text} : acquireFailures t = [] →
      Cause canonicalHost t (lifecycleLockError message)
  | encoding {x : StdError} : acquireFailures t = [] → isAscii canonicalHost = false → x.os = none →
      Cause canonicalHost t (.std x)

/-- How the acquisition ends. -/
def Acquisition (canonicalHost : Text) (r : Except Exc Unit) (fds : LockFds) (t : History World) :
    Prop :=
  match r with
  | .ok () => Going t fds
  | .error e => Holding t fds ∧ (e = busyError ↔ lockHeld t = true) ∧ Cause canonicalHost t e

/-- A call that opens and closes nothing and succeeds. -/
theorem Going.step {t : History World} {fds : LockFds} (h : Going t fds) (ev : Event World)
    (ho : openedFd ev = none) (hc : closedFd ev = none) (hb : reportsHeld ev = false)
    (hf : acquireFailure ev = none) : Going (ev :: t) fds where
  opened := (List.filterMap_cons_none ho).trans h.opened
  closed := (List.filterMap_cons_none hc).trans h.closed
  free := by
    simp only [lockHeld, List.any_cons, hb, Bool.false_or]
    exact h.free
  fine := (List.filterMap_cons_none hf).trans h.fine

section acquisition
variable {P : Platform} {host : Text} {fds : LockFds} {t : History World}

/-- A check of the acquisition that fails. -/
theorem Going.refuse {e : Exc} (h : Going t fds) (hbusy : e ≠ busyError) (hcause : Cause host t e) :
    Acquisition host (.error e) fds t := by
  refine ⟨h.toHolding, ⟨fun he => absurd he hbusy, fun hheld => ?_⟩, hcause⟩
  rw [h.free] at hheld
  cases hheld

end acquisition

/-- The descriptors are closed in order, each once, and a failure of one is told. -/
theorem closeDescriptors_closes {σ : Type} (fds : List Nat) :
    ∀ (s : σ) (h : History World), wpy (fun _ _ => True) (closeDescriptors fds : Act σ Bool)
      (fun r s' h' => ∃ rel, h' = rel ++ h ∧ s' = s ∧
        ((∀ e ∈ closeFailures rel, e.os.isSome = true) →
          closedFds rel = fds.reverse ∧ openedFds rel = [] ∧
          r = .ok (!(closeFailures rel).isEmpty))) s h := by
  induction fds with
  | nil =>
    intro s h
    exact ⟨[], rfl, rfl, fun _ => ⟨rfl, rfl, rfl⟩⟩
  | cons fd fds ih =>
    intro s h
    simp only [closeDescriptors]
    rw [wpy_bind, wpy_handle, wpy_bind]
    refine wpy_ask.mpr ⟨trivial, fun r => ?_⟩
    -- the rest of the descriptors, after this one was closed
    have hrest : ∀ failed : Bool, (r = .ok () ∧ failed = false) ∨
        (∃ e, r = .error e ∧ failed = true) →
        wpy (fun _ _ => True) (do return failed || (← closeDescriptors fds) : Act σ Bool)
          (fun r' s' h' => ∃ rel, h' = rel ++ h ∧ s' = s ∧
            ((∀ e ∈ closeFailures rel, e.os.isSome = true) →
              closedFds rel = (fd :: fds).reverse ∧ openedFds rel = [] ∧
              r' = .ok (!(closeFailures rel).isEmpty))) s (⟨.closeFd fd, r⟩ :: h) := by
      intro failed hfailed
      rw [wpy_bind]
      refine wpy_post (ih s _) fun r' s' t hr' => ?_
      obtain ⟨rel, hrel, rfl, hclosed⟩ := hr'
      have hhist : t ++ ⟨.closeFd fd, r⟩ :: h = (rel ++ [⟨.closeFd fd, r⟩]) ++ h := by
        rw [hrel]
        simp
      have hthis : closeFailures [⟨.closeFd fd, r⟩] = [] ∧ failed = false ∨
          closeFailures [⟨.closeFd fd, r⟩] ≠ [] ∧ failed = true := by
        obtain ⟨rfl, hf⟩ | ⟨e, rfl, hf⟩ := hfailed
        · exact .inl ⟨rfl, hf⟩
        · exact .inr ⟨by simp [closeFailures, closeFailure], hf⟩
      have hsplit : closeFailures (rel ++ [⟨.closeFd fd, r⟩]) =
          closeFailures rel ++ closeFailures [⟨.closeFd fd, r⟩] := List.filterMap_append
      have hclosed' : (∀ e ∈ closeFailures (rel ++ [⟨.closeFd fd, r⟩]), e.os.isSome = true) →
          closedFds (rel ++ [⟨.closeFd fd, r⟩]) = (fd :: fds).reverse ∧
          openedFds (rel ++ [⟨.closeFd fd, r⟩]) = [] ∧ r' = .ok (!(closeFailures rel).isEmpty) := by
        intro hall
        rw [hsplit] at hall
        obtain ⟨hc, ho, hr⟩ := hclosed fun e he => hall e (List.mem_append_left _ he)
        refine ⟨?_, ?_, hr⟩
        · rw [closedFds, List.filterMap_append, List.reverse_cons]
          exact congrArg (· ++ [fd]) hc
        · rw [openedFds, List.filterMap_append]
          exact congrArg (· ++ []) ho
      cases r' with
      | error e =>
        refine ⟨_, hhist, rfl, fun hall => ?_⟩
        obtain ⟨-, -, hr⟩ := hclosed' hall
        cases hr
      | ok b =>
        refine ⟨_, hhist, rfl, fun hall => ?_⟩
        obtain ⟨hc, ho, hr⟩ := hclosed' hall
        refine ⟨hc, ho, ?_⟩
        cases hr
        rw [hsplit]
        obtain ⟨hnil, rfl⟩ | ⟨hne, rfl⟩ := hthis
        · simp [hnil]
        · simp [hne]
    cases r with
    | ok u => exact hrest false (.inl ⟨rfl, rfl⟩)
    | error e =>
      simp only [liftStd_error, either_error, Exc.isOsError]
      by_cases hos : e.os.isSome = true
      · simp only [hos, if_true]
        exact hrest true (.inr ⟨e, rfl, rfl⟩)
      · simp only [hos]
        refine ⟨[⟨.closeFd fd, .error e⟩], rfl, rfl, fun hall => ?_⟩
        exact absurd (hall e (by simp [closeFailures, closeFailure])) hos

/-- `finally`: what was opened is closed, and only a body that returned learns of a failure. -/
theorem releaseLock_closes {σ : Type} (fds : LockFds) (raised : Option Exc) (s : σ)
    (h : History World) : wpy (fun _ _ => True) (releaseLock fds raised : Act σ Unit)
      (fun r s' h' => ∃ rel, h' = rel ++ h ∧ s' = s ∧
        ((∀ e ∈ closeFailures rel, e.os.isSome = true) →
          closedFds rel = (fds.lock.toList ++ fds.directory.toList).reverse ∧ openedFds rel = [] ∧
          r = if closeFailures rel ≠ [] ∧ raised = none then .error releaseError else .ok ())) s h := by
  simp only [releaseLock]
  rw [wpy_bind]
  refine wpy_post (closeDescriptors_closes _ s h) fun r s' t hr => ?_
  obtain ⟨rel, hrel, rfl, hclosed⟩ := hr
  cases r with
  | error e =>
    refine ⟨rel, hrel, rfl, fun hall => ?_⟩
    obtain ⟨-, -, hr⟩ := hclosed hall
    cases hr
  | ok failed =>
    rw [either_ok]
    refine wpy_raiseIf.mpr ⟨fun hb => ?_, fun hb => ?_⟩
    · refine ⟨rel, hrel, rfl, fun hall => ?_⟩
      obtain ⟨hc, ho, hr⟩ := hclosed hall
      cases hr
      refine ⟨hc, ho, ?_⟩
      have hcond : closeFailures rel ≠ [] ∧ raised = none := by simpa using hb
      rw [if_pos hcond]
      rfl
    · refine ⟨rel, hrel, rfl, fun hall => ?_⟩
      obtain ⟨hc, ho, hr⟩ := hclosed hall
      cases hr
      refine ⟨hc, ho, ?_⟩
      have hcond : ¬ (closeFailures rel ≠ [] ∧ raised = none) := by
        intro h
        simp [h.1, h.2] at hb
      rw [if_neg hcond]

/-! ## A run -/

/-- What the caller may see of it: no `OSError`, and a lock error if a call failed with one. -/
inductive Surfaced (canonicalHost : Text) (acq : History World) : Exc → Prop where
  | busy {x : StdError} : acquireFailures acq = [x] → Surfaced canonicalHost acq busyError
  | unavailable {x : StdError} : acquireFailures acq = [x] → x.os.isSome = true →
      Surfaced canonicalHost acq unavailableError
  | check {message : Text} : acquireFailures acq = [] →
      Surfaced canonicalHost acq (lifecycleLockError message)
  | other {x : StdError} : x.os = none →
      acquireFailures acq = [x] ∨ acquireFailures acq = [] ∧ isAscii canonicalHost = false →
      Surfaced canonicalHost acq (.std x)

section parts
variable {σ α : Type} {P : Platform} {host : Text} {body : Act σ α} {s s' : σ} {h h' : History World}

theorem ends_lifecycleLock {r : Except Exc α} : Ends (lifecycleLock P host body) s h r s' h' ↔
    (∃ e fds, r = .error e ∧ s' = s ∧ Ends (acquireLock P host) {} h (.error e) fds h') ∨
      ∃ held fds h₁ r₁ h₂ u, Ends (acquireLock P host) {} h (.ok held) fds h₁ ∧
        Ends body s h₁ r₁ s' h₂ ∧ Ends (releaseLock held (inFlight r₁)) () h₂ u () h' ∧
        r = after u r₁ := by
  refine ends_within.trans (or_congr ?_ ?_)
  · constructor
    · intro hrun
      obtain ⟨e, rfl, he⟩ := hrun
      obtain ⟨rfl, fds, he⟩ := ends_alone.mp he
      exact ⟨e, fds, rfl, rfl, he⟩
    · intro hrun
      obtain ⟨e, fds, rfl, rfl, he⟩ := hrun
      exact ⟨e, rfl, ends_alone.mpr ⟨rfl, fds, he⟩⟩
  · constructor
    · intro hrun
      obtain ⟨held, s₁, h₁, r₁, s₂, h₂, u, he, hb, hl, rfl⟩ := hrun
      obtain ⟨rfl, fds, he⟩ := ends_alone.mp he
      obtain ⟨rfl, _, hl⟩ := ends_alone.mp hl
      exact ⟨held, fds, h₁, r₁, h₂, u, he, hb, hl, rfl⟩
    · intro hrun
      obtain ⟨held, fds, h₁, r₁, h₂, u, he, hb, hl, rfl⟩ := hrun
      exact ⟨held, s, h₁, r₁, s', h₂, u, ends_alone.mpr ⟨rfl, fds, he⟩, hb,
        ends_alone.mpr ⟨rfl, (), hl⟩, rfl⟩

/-- The calls of locks raise nothing but `OSError`s. -/
def LocksRaiseOsErrors (h : History World) : Prop :=
  ∀ e ∈ acquireFailures h ++ closeFailures h, e.os.isSome = true

theorem LocksRaiseOsErrors.of_suffix (hos : LocksRaiseOsErrors h') (hs : h <:+ h') :
    LocksRaiseOsErrors h := by
  obtain ⟨t, rfl⟩ := hs
  intro e he
  apply hos e
  rw [acquireFailures, closeFailures, List.filterMap_append, List.filterMap_append]
  obtain he | he := List.mem_append.mp he
  · exact List.mem_append_left _ (List.mem_append_right _ he)
  · exact List.mem_append_right _ (List.mem_append_right _ he)

theorem Surfaced.isLifecycleLockError {acq : History World} {e : Exc} (hs : Surfaced host acq e)
    (hascii : isAscii host = true) (hos : LocksRaiseOsErrors acq) : e.isLifecycleLockError = true := by
  cases hs with
  | busy _ | unavailable _ _ | check _ => rfl
  | @other x hnone hwhy =>
    obtain hfailed | ⟨-, hno⟩ := hwhy
    · have hsome := hos x (List.mem_append_left _ (by simp [hfailed]))
      rw [hnone] at hsome
      cases hsome
    · rw [hascii] at hno
      cases hno

end parts

end ArubaCertRenewer
