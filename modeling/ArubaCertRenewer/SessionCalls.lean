import ArubaCertRenewer.StartupCalls
import ArubaCertRenewer.RecordOperations

/- The calls of the operations on one switch: none is made to the lock store, every
   connection is to the host of the switch, and a command or a request that
   changes something is made after a connection to it was opened.

   `Attached` calls open no connection; what an operation does over a connection,
   and what it asks of the certificate authority, are such calls. -/
namespace ArubaCertRenewer
open PyText Effects Effects.Py

/-- A core call that opens no connection. -/
def Call.attached (c : Call) : Bool := c.group == .core && !c.opensSession

abbrev Attached {σ α : Type} (x : Act σ α) : Prop := Makes (fun c => c.attached = true) x

theorem opensSession_of_attached {c : Call} (hc : c.attached = true) : c.opensSession = false := by
  simp only [Call.attached, Bool.and_eq_true, Bool.not_eq_true'] at hc
  exact hc.2

theorem Call.Unmarked.attached {c : Call} (hc : c.Unmarked) : c.attached = true := by
  have hsession : c.opensSession = false := by
    rw [Bool.eq_false_iff]
    intro ho
    cases hc.2.symm.trans (mark_connect_iff.mpr ho)
  simp only [Call.attached, hc.1, hsession, BEq.rfl, Bool.not_false, Bool.and_self]

theorem Silent.attached {σ α : Type} {x : Act σ α} (hx : Silent x) : Attached x :=
  Obeys.mono hx.makes fun _ _ => Call.Unmarked.attached

/-! ## Over a connection -/

section attached
variable {σ α : Type} {P : Platform} {switch : Switch} {credentials : Credentials}

theorem attached_withReadBudget {limit : Nat} {command : Text} {extra : Nat} {body : Act σ α}
    (hb : Attached body) : Attached (withReadBudget limit command extra body) :=
  .bind' (.call fun _ => rfl) fun _ =>
    .within' (.ask' fun _ => rfl) (fun _ _ => .ask' fun _ => rfl) fun _ => hb

theorem attached_sendCommand {command : Text} {limit : Nat} :
    Attached (sendCommand command limit : Act σ Text) :=
  attached_withReadBudget (.ask' fun _ => rfl)

theorem attached_sendCommandTiming {command : Text} {limit : Nat} :
    Attached (sendCommandTiming command limit : Act σ Text) :=
  attached_withReadBudget (.ask' fun _ => rfl)

theorem attached_retrieveAndValidateCsr {name : Text} {settings : CsrSettings} :
    Attached (retrieveAndValidateCsr P switch name settings : Act σ Text) :=
  .bind' attached_sendCommand fun _ => .bind' (.result' _) fun _ => .bind' (.result' _) fun _ =>
    .bind' (.result' _) fun _ => .pure' _

theorem attached_createCsr {command : Text} : Attached (createCsr command) := by
  refine .bind' silent_configMode.attached fun _ => .andFinally' ?_ ?_
  · exact .bind' (.set' _) fun _ => .bind' attached_sendCommandTiming fun _ => .result' _
  · refine .bind' (.call fun _ => rfl) fun poisoned => ?_
    cases poisoned
    · exact silent_exitConfigMode.attached
    · exact .pure' _

theorem attached_generateOnSwitch {name : Text} {settings : CsrSettings} :
    Attached (generateOnSwitch P switch name settings) :=
  .bind' attached_sendCommand fun _ => .bind' (.result' _) fun _ => .bind' attached_createCsr fun _ =>
    .handle' attached_retrieveAndValidateCsr fun _ => .throw' _

theorem attached_installPrompts {certificatePem : Text} :
    Attached (installPrompts certificatePem : Act σ Unit) := by
  refine .bind' attached_sendCommandTiming fun _ => .bind' (.result' _) fun _ => .bind' ?_ fun _ =>
    .bind' (.result' _) fun _ => .bind' attached_sendCommandTiming fun _ => .result' _
  exact attached_withReadBudget (.bind' (.ask' fun _ => rfl) fun _ => .bind' (.ask' fun _ => rfl) fun _ =>
    .ask' fun _ => rfl)

theorem attached_installDialogue {name certificatePem profile : Text} :
    Attached (installDialogue name certificatePem profile) :=
  .bind' attached_sendCommand fun _ => .bind' (.result' _) fun _ => .bind' silent_configMode.attached fun _ =>
    .bind' (.modify' _) fun _ => .bind' (.modify' _) fun _ => .bind' attached_installPrompts fun _ => .modify' _

theorem attached_leaveDialogue : Attached leaveDialogue := by
  refine .bind' .get' fun flags => ?_
  split
  · refine .bind' (.call fun _ => rfl) fun poisoned => ?_
    cases poisoned
    · exact .handle' silent_exitConfigMode.attached fun _ => .raiseIf' _ _
    · exact .pure' _
  · exact .pure' _

theorem attached_verifyInstalled {name profile : Text} :
    Attached (verifyInstalled name profile : Act σ Unit) :=
  .bind' attached_sendCommand fun _ => .bind' (.result' _) fun _ => .bind' attached_sendCommand fun _ => .result' _

theorem attached_installSignedCertificate {name certificatePem profile : Text} :
    Attached (installSignedCertificate name certificatePem profile : Act σ Unit) := by
  refine .alone' (.bind' (.andFinally' (.handle' attached_installDialogue fun _ => ?_) attached_leaveDialogue)
    fun _ => .handle' attached_verifyInstalled fun _ => .throw' _)
  exact .bind' .get' fun _ => .throw' _

theorem attached_validateIssuedCertificate {certificatePem digest : Text} {csr : Csr} {lifetimeDays : Nat}
    {requireFresh : Bool} {minimumRemainingDays : Option Nat} :
    Attached (validateIssuedCertificate P certificatePem csr switch lifetimeDays digest requireFresh
      minimumRemainingDays : Act σ Certificate) :=
  .bind' (.result' _) fun _ => .bind' (.call fun _ => rfl) fun _ => .bind' (.result' _) fun _ => .pure' _

theorem attached_verifyIssuedCertificateTrust {certificate : Certificate} {ca : VerificationCaSnapshot} :
    Attached (verifyIssuedCertificateTrust P certificate switch ca : Act σ Unit) := by
  refine .bind' (.result' _) fun _ => .bind' (.result' _) fun _ => .bind' (.ask' fun _ => rfl) fun reason => ?_
  cases reason with
  | none => exact .pure' _
  | some _ => exact .throw' _

theorem attached_validateForInstallation {name certificatePem digest : Text} {settings : CsrSettings}
    {lifetimeDays : Nat} {ca : VerificationCaSnapshot} {minimumRemainingDays : Option Nat} :
    Attached (validateForInstallation P switch name certificatePem settings lifetimeDays ca digest
      minimumRemainingDays) := by
  refine .bind' (.modify' _) fun _ => .bind' (.modify' _) fun _ => .bind' attached_retrieveAndValidateCsr
    fun _ => .bind' (.result' _) fun _ => .bind' (.modify' _) fun _ => .bind' (.modify' _) fun _ => ?_
  exact .bind' attached_validateIssuedCertificate fun _ => .bind' attached_verifyIssuedCertificateTrust fun _ =>
    .bind' (.call fun _ => rfl) fun _ => .bind' (.result' _) fun _ => .bind' (.modify' _) fun _ =>
    .bind' (.modify' _) fun _ => .pure' _

theorem attached_installOverConnection {name certificatePem digest : Text} {settings : CsrSettings}
    {lifetimeDays : Nat} {ca : VerificationCaSnapshot} {minimumRemainingDays : Option Nat} :
    Attached (installOverConnection P switch name certificatePem settings lifetimeDays ca digest
      minimumRemainingDays) :=
  .bind' (.bind' attached_sendCommand fun _ => .result' _) fun _ =>
    .bind' (.outer' attached_validateForInstallation) fun _ => .bind' attached_installSignedCertificate fun _ =>
    .bind' (.assign' _) fun _ => .pure' _

theorem attached_requestJson {method path : Text} {payload : Option Json} {onDispatch : Act Log Unit}
    (hd : Attached onDispatch) : Attached (requestJson P method path payload onDispatch) :=
  .bind' (.result' _) fun _ => .bind' (.handle' (.bind' hd fun _ => .within' (.ask' fun _ => rfl)
    (fun _ _ => .ask' fun _ => rfl) fun _ => .ask' fun _ => rfl) fun _ => .throw' _) fun _ => .result' _

theorem attached_getCertificate {uuid : Text} : Attached (getCertificate P uuid) := by
  unfold getCertificate
  split
  · exact .throw' _
  · exact .bind' (attached_requestJson (.pure' _)) fun _ => .result' _

theorem attached_obtainCertificate {csr : Csr} {identities : CertificateIdentities} {description : Text}
    {opnsense : OpnsenseSettings} :
    Attached (obtainCertificate P csr identities description opnsense) := by
  refine .bind' (.modify' _) fun _ => .bind' silent_openOpnsenseClient.attached fun _ => .bind' ?_ fun _ =>
    .bind' ?_ fun _ => .bind' (.modify' _) fun _ => .bind' attached_getCertificate fun _ =>
    .bind' (.modify' _) fun _ => .pure' _
  · exact .bind' (.result' _) fun _ => .bind' (attached_requestJson (.pure' _)) fun _ => .result' _
  · exact .bind' (.result' _) fun _ => .bind' (attached_requestJson (.modify' _)) fun _ => .result' _

end attached

/-! ## Connections to one host -/

def openedDevice : Event World → Option Device
  | ⟨.connect d, .ok _⟩ => some d
  | _ => none

/-- The switch the last connection was opened to. -/
def lastDevice (h : History World) : Option Device := h.findSome? openedDevice

def ConnectedTo (host : Text) (h : History World) : Prop := ∃ d, lastDevice h = some d ∧ d.host = host

theorem ConnectedTo.cons {host : Text} {h : History World} (hc : ConnectedTo host h) {c : Call}
    (hno : c.opensSession = false) (r : Call.Ans c) : ConnectedTo host (⟨c, r⟩ :: h) := by
  have hnone : openedDevice ⟨c, r⟩ = none := by
    cases c with
    | connect d => cases hno
    | _ => rfl
  obtain ⟨d, hd, hhost⟩ := hc
  refine ⟨d, ?_, hhost⟩
  rw [lastDevice, List.findSome?_cons, hnone]
  exact hd

/-- What an operation on one switch may call. -/
structure Working (host : Text) (h : History World) (c : Call) : Prop where
  unlocked : c.group ≠ .lock
  device : ∀ d, c = .connect d → d.host = host
  connected : ¬ c.Harmless → ConnectedTo host h

section working
variable {σ α : Type} {host : Text} {h : History World} {c : Call} {x : Act σ α} {s : σ}

theorem Call.Unmarked.working (hc : c.Unmarked) : Working host h c where
  unlocked hlock := by
    rw [hc.1] at hlock
    cases hlock
  device d hd := by
    subst hd
    cases hc.2
  connected hmutates := absurd (harmless_of_none hc.2) hmutates

theorem working_of_idle (hc : c.idle = true) : Working host h c := by
  obtain ⟨hmark, hlock, -⟩ := idle_iff.mp hc
  refine ⟨hlock, fun d hd => ?_, fun hmutates => absurd (harmless_of_none hmark) hmutates⟩
  subst hd
  cases hmark

theorem working_connect {d : Device} (hd : d.host = host) : Working host h (.connect d) where
  unlocked hlock := by cases hlock
  device d' hd' := (Call.connect.inj hd').symm ▸ hd
  connected hmutates := absurd (harmless_connect _) hmutates

theorem working_of_attached (hc : c.attached = true) (hto : ConnectedTo host h) : Working host h c := by
  simp only [Call.attached, Bool.and_eq_true, beq_iff_eq, Bool.not_eq_true'] at hc
  refine ⟨fun hlock => ?_, fun d hd => ?_, fun _ => hto⟩
  · rw [hc.1] at hlock
    cases hlock
  · subst hd
    cases hc.2

theorem Silent.working (hx : Silent x) : Obeys (Working host) x :=
  Obeys.mono hx.makes fun _ _ => Call.Unmarked.working

/-- Once a connection to the host was opened, attached calls may be made, and the host stays. -/
theorem Attached.wpy_working (hx : Attached x) (hto : ConnectedTo host h) :
    wpy (Working host) x (fun _ _ h' => ConnectedTo host h') s h := by
  have hkeep : ∀ h c r, ConnectedTo host h → c.attached = true → ConnectedTo host (⟨c, r⟩ :: h) := by
    intro h c r hto hc
    simp only [Call.attached, Bool.and_eq_true, Bool.not_eq_true'] at hc
    exact hto.cons hc.2 r
  exact wp_mono (wp_invariant (hx s h) hkeep hto) (fun _ _ hc => working_of_attached hc.2 hc.1)
    fun _ _ hq => hq.1

/-- What a body's result says once a connection to the switch was opened, the result of the connection
    says. -/
theorem wpy_connection {G : History World → Call → Prop} {switch : Switch} {credentials : Credentials}
    {R : α → History World → Prop} (hidle : ∀ h c, c.idle = true → G h c)
    (hdevice : ∀ h d, d.host = switch.host → G h (.connect d))
    (hR : ∀ a h c r, R a h → c.opensSession = false → R a (⟨c, r⟩ :: h))
    (hx : ∀ s h, ConnectedTo switch.host h → wpy G x (fun r _ h' => ∀ a, r = .ok a → R a h') s h) :
    wpy G (sshConnection switch credentials x) (fun r _ h' => ∀ a, r = .ok a → R a h') s h := by
  have hkeep : ∀ {y : Act σ Unit} {a : α} {s : σ} {h : History World}, Idle y → R a h →
      wpy (fun _ _ => True) y (fun _ _ h' => R a h') s h := fun {y a s h} hy h₀ =>
    hy.keeping (fun _ _ _ => trivial) (fun h c r hr hc => hR a h c r hr (opensSession_of_idle hc)) h₀
  have hremove : ∀ {directory : Text} {f : Option Exc}, Idle (removeSnapshot directory f : Act σ Unit) := by
    refine .handle' (.ask' fun _ => rfl) fun e => ?_
    split
    · exact .raiseIf' _ _
    · exact .throw' _
  have hconnected : ∀ (snapshot : Text) (s : σ) (h : History World), wpy G
      (within (ask (.connect (getDeviceParameters switch credentials snapshot)) fun r => r)
        (fun _ inFlight => ask (.disconnect inFlight) fun r => r) fun _ => x)
      (fun r _ h' => ∀ a, r = .ok a → R a h') s h := by
    intro snapshot s h
    refine wpy_within.mpr (wpy_ask.mpr ⟨hdevice _ _ rfl, fun r => ?_⟩)
    cases r with
    | error e => exact fun _ he => by cases he
    | ok _ =>
      rw [liftStd_ok, either_ok]
      refine wpy_post (hx s _ ⟨_, rfl, rfl⟩) fun r s₁ t hr => ?_
      refine wpy_ask.mpr ⟨hidle _ _ rfl, fun v a ha => ?_⟩
      cases r with
      | error e => cases v <;> cases ha
      | ok b =>
        cases v with
        | error e => cases ha
        | ok _ => exact Except.ok.inj ha ▸ hR b _ _ _ (hr b rfl) rfl
  refine wpy_then_ok (Obeys.mono passwordless_readKnownHosts.idle hidle) fun contents s h => ?_
  refine wpy_within_ok (.ask' fun _ => hidle _ _ rfl) (fun _ _ => Obeys.mono hremove hidle)
    (fun _ _ _ _ _ => hkeep hremove) fun directory s h => ?_
  exact wpy_then_ok (.ask' fun _ => hidle _ _ rfl) fun _ _ _ => wpy_then_ok (.raiseIf' _ _) fun _ _ _ =>
    wpy_then_ok (.ask' fun _ => hidle _ _ rfl) fun _ _ _ => hconnected _ _ _

/-- A connection whose body makes attached calls. -/
theorem Attached.wpy_connection {switch : Switch} {credentials : Credentials} (hx : Attached x) :
    wpy (Working switch.host) (sshConnection switch credentials x)
      (fun r _ h' => ∀ a, r = .ok a → ConnectedTo switch.host h') s h :=
  ArubaCertRenewer.wpy_connection (R := fun _ => ConnectedTo switch.host) (fun _ _ => working_of_idle)
    (fun _ _ => working_connect) (fun _ _ _ r hto hno => hto.cons hno r)
    fun _ _ hto => wpy_post (hx.wpy_working hto) fun _ _ _ hto' _ _ => hto'

end working

/-! ## The operations -/

section operations
variable {σ : Type} {P : Platform} {switch : Switch} {credentials : Credentials} {settings : CsrSettings}
  {opnsense : OpnsenseSettings} {ca : VerificationCaSnapshot} {minimumRemainingDays : Option Nat}

/-- What is done over one connection. -/
theorem Attached.working {α : Type} {x : Act σ α} (hx : Attached x) :
    Obeys (Working switch.host) (sshConnection switch credentials x) := fun s h =>
  wpy_post (hx.wpy_connection (s := s) (h := h)) fun _ _ _ _ => trivial

theorem working_checkSwitch {warningDays : Nat} :
    Obeys (Working switch.host) (checkSwitch switch credentials warningDays : Act σ Status) := by
  refine .bind' (.attempt' (Attached.working ?_)) fun certOutput => ?_
  · exact .bind' attached_sendCommand fun _ => .bind' (.result' _) fun _ => .bind' attached_sendCommand fun _ =>
      .bind' (.result' _) fun _ => .pure' _
  cases certOutput with
  | error e => exact .pure' _
  | ok certOutput =>
    dsimp only
    split
    · split
      · exact .pure' _
      · exact .throw' _
    · exact .bind' (.call fun _ => Call.Unmarked.working ⟨rfl, rfl⟩) fun _ => .pure' _

theorem working_generateCsr {name : Text} :
    Obeys (Working switch.host) (generateCsr P switch credentials name settings : Act σ Text) :=
  .bind' (.result' _) fun _ => .alone' (.handle' (Attached.working attached_generateOnSwitch) fun _ =>
    .bind' .get' fun _ => .throw' _)

theorem connected_retrieveCsr {name : Text} {s : Log} {h : History World} :
    wpy (Working switch.host) (retrieveCsr P switch credentials name settings)
      (fun r _ h' => ∀ a, r = .ok a → ConnectedTo switch.host h') s h := by
  refine wpy_bind_result (fun _ _ => ?_) fun _ _ _ he => by cases he
  have hbody : Attached (do
      let summaryOutput ← readSummary
      let _ ← result (requirePendingWebCertificate summaryOutput name)
      progress .pendingCsrObserved
      retrieveAndValidateCsr P switch name settings) :=
    .bind' attached_sendCommand fun _ => .bind' (.result' _) fun _ => .bind' (.modify' _) fun _ =>
      attached_retrieveAndValidateCsr
  refine wpy_handle.mpr (wpy_post hbody.wpy_connection fun r _ _ hr => ?_)
  cases r with
  | ok a => exact fun _ _ => hr a rfl
  | error e => exact fun _ he => by cases he

theorem working_retrieveCsr {name : Text} :
    Obeys (Working switch.host) (retrieveCsr P switch credentials name settings) := fun _ _ =>
  wpy_post connected_retrieveCsr fun _ _ _ _ => trivial

/-- The certificate authority is only asked after the request was read over a connection. -/
theorem working_signPendingCsr {name : Text} :
    Obeys (Working switch.host)
      (signPendingCsr P switch credentials name settings opnsense minimumRemainingDays) := by
  refine .bind' (.result' _) fun identities s h => ?_
  have hread : wpy (Working switch.host) (retrievePendingCsr P switch credentials name settings)
      (fun r _ h' => ∀ a, r = .ok a → ConnectedTo switch.host h') s h := by
    rw [retrievePendingCsr, wpy_bind_progress]
    refine wpy_seq connected_retrieveCsr (fun csrPem s₂ t hto => ?_) fun _ _ _ _ _ he => by cases he
    refine wpy_bind_result (fun _ _ => ?_) fun _ _ _ he => by cases he
    exact fun _ _ => hto csrPem rfl
  refine wpy_seq hread (fun csr s₁ t hto => ?_) fun _ _ _ _ => trivial
  have hrest : Attached (do
      let certificatePem ← obtainCertificate P csr identities
        (buildOpnsenseCertificateDescription name identities.commonName) opnsense
      let _ ← validateIssuedCertificate P certificatePem csr switch opnsense.lifetimeDays opnsense.digest
        true minimumRemainingDays
      progress .issuedValidated
      return certificatePem) :=
    .bind' attached_obtainCertificate fun _ => .bind' attached_validateIssuedCertificate fun _ =>
      .bind' (.modify' _) fun _ => .pure' _
  exact wpy_post (hrest.wpy_working (hto csr rfl)) fun _ _ _ _ => trivial

theorem working_installPendingCertificate {name certificatePem digest : Text} {lifetimeDays : Nat} :
    Obeys (Working switch.host) (installPendingCertificate P switch credentials name certificatePem settings
      lifetimeDays ca digest minimumRemainingDays) :=
  .bind' (.result' _) fun _ => .bind' (.result' _) fun _ => .withVars' (.handle'
    (Attached.working attached_installOverConnection) fun _ => .bind' .locals' fun _ => .throw' _)

theorem working_verifyLiveHttpsCertificate {expected : Certificate} :
    Obeys (Working switch.host) (verifyLiveHttpsCertificate P switch ca expected : Act σ Unit) := fun s h =>
  wpy_mono (verifyLiveHttpsCertificate_spec P switch ca expected s h)
    (fun _ _ => Call.Unmarked.working) fun _ _ _ _ => trivial

theorem working_reraiseAs {α : Type} {host : Text} {wrap : Text → Exc} {keep : Exc → Bool} {x : Act σ α}
    (hx : Obeys (Working host) x) : Obeys (Working host) (reraiseAs wrap keep x) :=
  .handle' hx fun _ => .throw' _

theorem working_renewCertificate :
    Obeys (Working switch.host)
      (renewCertificate P switch credentials settings opnsense ca minimumRemainingDays) := by
  refine .bind' ?_ fun _ => .bind' (.modify' _) fun _ => .bind' (working_reraiseAs working_generateCsr) fun _ =>
    .bind' (.modify' _) fun _ => .bind' (working_reraiseAs working_signPendingCsr) fun _ =>
    .bind' (working_reraiseAs working_installPendingCertificate) fun _ => .bind' (.modify' _) fun _ =>
    .bind' (working_reraiseAs working_verifyLiveHttpsCertificate) fun _ => .bind' (.modify' _) fun _ => .pure' _
  refine .handle' (.bind' (Attached.working attached_sendCommand) fun _ => .bind' (.result' _) fun _ =>
    .bind' (.call fun _ => Call.Unmarked.working ⟨rfl, rfl⟩) fun _ => .bind' (.result' _) fun _ => .pure' _)
    fun _ => .throw' _

end operations

end ArubaCertRenewer
