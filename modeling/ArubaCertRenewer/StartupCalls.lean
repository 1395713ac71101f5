import ArubaCertRenewer.CallKinds

/- The calls around the operations. Those of the startup, of the credentials and of
   the output files are made neither to a switch nor to the certificate authority nor
   to the lock store; those of the lock are all made to the lock store. -/
namespace ArubaCertRenewer
open PyText Effects Effects.Py

/-- The calls that hand a text to a switch or open a request. -/
def Call.sends : Call → Bool
  | .sendCommand _ | .sendCommandTiming _ | .writeChannel _ | .openUrl _ _ _ => true
  | _ => false

/-- A call without a mark that sends nothing and is none of the lock store's. -/
def Call.idle (c : Call) : Bool := c.mark?.isNone && c.group != .lock && !c.sends

abbrev Idle {σ α : Type} (x : Act σ α) : Prop := Makes (fun c => c.idle = true) x

/-- The calls that a password is read or handed over with. -/
def Call.secret : Call → Bool
  | .getpass | .readPassword _ | .connect _ => true
  | _ => false

/-- An idle call that reads no password. -/
def Call.passwordless (c : Call) : Bool := c.idle && !c.secret

abbrev Passwordless {σ α : Type} (x : Act σ α) : Prop := Makes (fun c => c.passwordless = true) x

theorem Passwordless.idle {σ α : Type} {x : Act σ α} (hx : Passwordless x) : Idle x :=
  Obeys.mono hx fun _ _ hc => (Bool.and_eq_true_iff.mp hc).1

theorem opensSession_of_idle {c : Call} (hc : c.idle = true) : c.opensSession = false := by
  cases c with
  | connect d => cases hc
  | _ => rfl

theorem idle_iff {c : Call} : c.idle = true ↔ c.mark? = none ∧ c.group ≠ .lock ∧ c.sends = false := by
  simp only [Call.idle, Bool.and_eq_true, Option.isNone_iff_eq_none, bne_iff_ne, Bool.not_eq_true', and_assoc]

theorem Idle.markless {σ α : Type} {x : Act σ α} (hx : Idle x) : Markless x :=
  Obeys.mono hx fun _ _ hc => (idle_iff.mp hc).1

section startup
variable {σ : Type} {P : Platform} {switch : Switch} {configFile : Text}

theorem idle_readPasswordFile {path : Text} :
    Idle (readPasswordFile path configFile : Act σ Text) := by
  refine .bind' (.ask' fun _ => rfl) fun passwordFile => .bind' (.within' (.ask' fun _ => rfl)
    (fun _ _ => .ask' fun _ => rfl) fun _ => ?_) fun data => .result' _
  exact .handle' (.ask' fun _ => rfl) fun _ => .throw' _

theorem idle_getSwitchCredentials {allowPrompt : Bool} :
    Idle (getSwitchCredentials P switch configFile allowPrompt : Act σ Credentials) := by
  unfold getSwitchCredentials
  dsimp only
  split
  swap
  split
  all_goals
    refine .bind' ?_ fun username => .bind' (.result' _) fun _ => ?_
    · first | exact .pure' _ | exact .ask' fun _ => rfl | exact .throw' _
    split
    · exact .bind' idle_readPasswordFile fun _ => .bind' (.raiseIf' _ _) fun _ => .pure' _
    split
    · exact .bind' (.pure' _) fun _ => .bind' (.raiseIf' _ _) fun _ => .pure' _
    try split
    all_goals
      refine .bind' ?_ fun _ => .bind' (.raiseIf' _ _) fun _ => .pure' _
      first | exact .ask' fun _ => rfl | exact .throw' _

theorem passwordless_readSecureFile {path sourceName : Text} {limit : Nat} :
    Passwordless (readSecureFile path sourceName limit : Act σ Bytes) :=
  .within' (.ask' fun _ => rfl) (fun _ _ => .ask' fun _ => rfl) fun _ => .ask' fun _ => rfl

theorem passwordless_writeOutput {text : Text} {path : Option Text} :
    Passwordless (writeOutput text path : Act σ Unit) := by
  unfold writeOutput
  split
  · exact .within' (.ask' fun _ => rfl) (fun _ _ => .ask' fun _ => rfl) fun _ => .ask' fun _ => rfl
  · exact .pure' _

theorem passwordless_osErrorAs {α : Type} {e : Exc} {x : Act σ α} (hx : Passwordless x) :
    Passwordless (osErrorAs e x) :=
  .handle' hx fun _ => .throw' _

theorem passwordless_loadConfig : Passwordless (loadConfig P configFile : Act σ (List (Text × Toml))) := by
  refine .bind' (passwordless_osErrorAs passwordless_readSecureFile) fun contents => .bind' (.raiseIf' _ _) fun _ => ?_
  split
  · exact .pure' _
  · exact .throw' _

theorem passwordless_getSshKnownHostsFile {config : List (Text × Toml)} :
    Passwordless (getSshKnownHostsFile config configFile : Act σ Text) := by
  unfold getSshKnownHostsFile
  split
  · exact .bind' (.result' _) fun _ => .bind' (.ask' fun _ => rfl) fun _ =>
      .bind' (.within' (.ask' fun _ => rfl) (fun _ _ => .ask' fun _ => rfl) fun _ => .pure' _) fun _ => .pure' _
  · exact .throw' _

theorem passwordless_readKnownHosts : Passwordless (readKnownHosts switch : Act σ Bytes) :=
  .bind' (passwordless_osErrorAs passwordless_readSecureFile) fun _ => .bind' (.raiseIf' _ _) fun _ => .pure' _

theorem passwordless_createClientTlsContext {cadata : Option Text} :
    Passwordless (createClientTlsContext cadata : Act σ TlsContext) :=
  .bind' (.ask' fun _ => rfl) fun _ => .bind' (.raiseIf' _ _) fun _ => .pure' _

theorem passwordless_getVerificationCaFile {config : List (Text × Toml)} :
    Passwordless (getVerificationCaFile config configFile : Act σ VerificationCaSnapshot) := by
  unfold getVerificationCaFile
  split
  · refine .bind' (.result' _) fun _ => .bind' (.ask' fun _ => rfl) fun _ => .bind' ?_ fun snapshot =>
      .bind' (.handle' (.bind' (.result' _) fun _ => passwordless_createClientTlsContext) fun _ => .throw' _)
        fun _ => .pure' _
    exact .bind' (passwordless_osErrorAs passwordless_readSecureFile) fun _ => .bind' (.raiseIf' _ _) fun _ =>
      .bind' (.raiseIf' _ _) fun _ => .pure' _
  · exact .throw' _

theorem passwordless_readCertificateInput {certificateInput : Text} :
    Passwordless (readCertificateInput P certificateInput : Act σ Text) :=
  .bind' (.handle' (.within' (.ask' fun _ => rfl) (fun _ _ => .ask' fun _ => rfl) fun _ =>
    .bind' (.ask' fun _ => rfl) fun _ => .bind' (.raiseIf' _ _) fun _ => .ask' fun _ => rfl) fun _ =>
    .throw' _) fun _ => .result' _

theorem passwordless_refuseExisting {label : Text} {path : Option Text} :
    Passwordless (refuseExisting label path : Act σ Unit) := by
  cases path with
  | none => exact .pure' _
  | some path => exact .bind' (.ask' fun _ => rfl) fun _ => .raiseIf' _ _

theorem passwordless_selectOperation {a : Args} {config : List (Text × Toml)} {warningDays : Nat}
    {switches : List Switch} :
    Passwordless (selectOperation P a config warningDays switches : Act σ Operation) := by
  unfold selectOperation
  dsimp only
  split
  · exact .bind' (.result' _) fun _ => .bind' (.result' _) fun _ =>
      .bind' passwordless_getVerificationCaFile fun _ => .pure' _
  split
  · exact .bind' (.result' _) fun _ => .bind' (.result' _) fun _ =>
      .bind' passwordless_getVerificationCaFile fun _ => .pure' _
  split
  · exact .bind' (.result' _) fun _ => .pure' _
  split
  · exact .bind' (.result' _) fun _ => .pure' _
  split
  · exact .bind' (.result' _) fun _ => .bind' (.result' _) fun _ => .pure' _
  split
  · exact .bind' (.result' _) fun _ => .bind' (.result' _) fun _ =>
      .bind' passwordless_getVerificationCaFile fun _ => .bind' passwordless_readCertificateInput fun _ => .pure' _
  · exact .pure' _

/-- Before the operation nothing is done to a switch. -/
theorem passwordless_startup {a : Args} : Passwordless (startup P a : Act σ Startup) := by
  refine .bind' ?_ fun _ => .bind' passwordless_loadConfig fun _ => .bind' passwordless_getSshKnownHostsFile fun _ =>
    .bind' (.result' _) fun _ => .bind' (.result' _) fun _ => .bind' passwordless_selectOperation fun _ => .pure' _
  exact .bind' (.result' _) fun _ => .bind' passwordless_refuseExisting fun _ => passwordless_refuseExisting

/-! The operation that a startup selects. -/

/-- The text of the input file, as this run read it. -/
def FromFile (P : Platform) (h : History World) (certificatePem : Text) : Prop :=
  ∃ limit data, ⟨.readFile limit, .ok data⟩ ∈ h ∧ checkCertificateInput P data = .ok certificatePem

theorem FromFile.append {h t : History World} {certificatePem : Text} (hf : FromFile P h certificatePem) :
    FromFile P (t ++ h) certificatePem := by
  obtain ⟨limit, data, hread, hcheck⟩ := hf
  exact ⟨limit, data, List.mem_append_right _ hread, hcheck⟩

/-- What the arguments ask for, a certificate to install being the input file's. -/
inductive Selected (P : Platform) (a : Args) (h : History World) : Operation → Prop where
  | renewDue {csr : CsrSettings} {opnsense : OpnsenseSettings} {ca : VerificationCaSnapshot} :
      a.renewDue = true → Selected P a h (.renewDue csr opnsense ca)
  | renewNow {csr : CsrSettings} {opnsense : OpnsenseSettings} {ca : VerificationCaSnapshot} :
      a.renewDue = false → a.renew = true → Selected P a h (.renewNow csr opnsense ca)
  | generateCsr {name : Text} {csr : CsrSettings} {csrOutput : Option Text} :
      (a.renewDue || a.renew) = false → a.staged = true → Selected P a h (.generateCsr name csr csrOutput)
  | retrieveCsr {name : Text} {csr : CsrSettings} {csrOutput : Option Text} :
      (a.renewDue || a.renew) = false → a.staged = true → Selected P a h (.retrieveCsr name csr csrOutput)
  | signCsr {name certificateOutput : Text} {csr : CsrSettings} {opnsense : OpnsenseSettings} :
      (a.renewDue || a.renew) = false → a.staged = true → Selected P a h (.signCsr name csr opnsense certificateOutput)
  | install {name certificatePem : Text} {csr : CsrSettings} {opnsense : OpnsenseSettings}
      {ca : VerificationCaSnapshot} : (a.renewDue || a.renew) = false → a.staged = true →
      FromFile P h certificatePem → Selected P a h (.install name csr opnsense ca certificatePem)
  | inspect : (a.renewDue || a.renew) = false → a.staged = false → Selected P a h .inspect

end startup

/-! ## The lock -/

/-- Every call is the lock store's. -/
abbrev Locking {σ α : Type} (x : Act σ α) : Prop := Makes (fun c => c.group = .lock) x

theorem lock_call {c : Call} (hc : c.group = .lock) : c.mark? = none ∧ c.sends = false := by
  cases c with
  | openLockDirectory | openLockFile _ _ | fstat _ | flock _ | statLockPath _ _ | closeFd _ => exact ⟨rfl, rfl⟩
  | _ => cases hc

theorem Locking.markless {σ α : Type} {x : Act σ α} (hx : Locking x) : Markless x :=
  Obeys.mono hx fun _ _ hc => (lock_call hc).1

section lock
variable {σ : Type} {P : Platform} {host : Text}

theorem locking_closeDescriptors : ∀ fds : List Nat, Locking (closeDescriptors fds : Act σ Bool)
  | [] => .pure' _
  | fd :: fds => by
    refine .bind' (.handle' (.bind' (.ask' fun _ => rfl) fun _ => .pure' _) fun e => ?_) fun _ =>
      .bind' (locking_closeDescriptors fds) fun _ => .pure' _
    split
    · exact .pure' _
    · exact .throw' e

theorem locking_releaseLock {fds : LockFds} {raised : Option Exc} :
    Locking (releaseLock fds raised : Act σ Unit) :=
  .bind' (locking_closeDescriptors _) fun _ => .raiseIf' _ _

end lock

end ArubaCertRenewer
