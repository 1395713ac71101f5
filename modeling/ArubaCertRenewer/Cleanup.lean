import ArubaCertRenewer.Whole

/- What the cleanups of `generate_csr` and `install_signed_certificate` do.

   Both leave configuration mode with `end` unless the connection is poisoned,
   and both report a failure by whether the dialogue had begun. A run of
   `install_signed_certificate` is a list of steps, each with how it ended;
   the first that failed is what it reports. -/
namespace ArubaCertRenewer
open PyText Effects Effects.Py

/-- A call of the recovery: the question whether the connection is poisoned, and `end`. -/
def Call.recovers : Call → Bool
  | .poisoned | .exitConfigMode => true
  | _ => false

/-- Only calls that are not of the recovery. -/
abbrev Ordinary {σ α : Type} (x : Act σ α) : Prop := Only (fun c => c.recovers = false) x

/-- The connection was asked, and is not poisoned. -/
def NotPoisoned (h : History World) : Prop := ⟨.poisoned, false⟩ ∈ h ∧ ⟨.poisoned, true⟩ ∉ h

/-- `end` is sent only after the connection said that it is not poisoned. -/
def endGate (h : History World) (c : Call) : Prop := c = .exitConfigMode → NotPoisoned h

section ordinary
variable {σ α : Type}

theorem only_withReadBudget {K : Call → Prop} {limit : Nat} {command : Text} {extra : Nat}
    {body : Act σ α} (hp : K .basePrompt) (he : ∀ n, K (.enterReadBudget n))
    (hx : ∀ f, K (.exitReadBudget f)) (hb : Only K body) :
    Only K (withReadBudget limit command extra body) :=
  .bind' (.call hp) fun _ => .within' (.ask' (he _)) (fun _ _ => .ask' (hx _)) fun _ => hb

theorem ordinary_withReadBudget {limit : Nat} {command : Text} {extra : Nat} {body : Act σ α}
    (hb : Ordinary body) : Ordinary (withReadBudget limit command extra body) :=
  only_withReadBudget rfl (fun _ => rfl) (fun _ => rfl) hb

theorem ordinary_sendCommand {command : Text} {limit : Nat} :
    Ordinary (sendCommand command limit : Act σ Text) :=
  ordinary_withReadBudget (.ask' rfl)

theorem ordinary_sendCommandTiming {command : Text} {limit : Nat} :
    Ordinary (sendCommandTiming command limit : Act σ Text) :=
  ordinary_withReadBudget (.ask' rfl)

theorem ordinary_configMode : Ordinary (configMode : Act σ Unit) :=
  ordinary_withReadBudget (.ask' rfl)

theorem ordinary_retrieveAndValidateCsr {P : Platform} {switch : Switch} {certificateName : Text}
    {settings : CsrSettings} :
    Ordinary (retrieveAndValidateCsr P switch certificateName settings : Act σ Text) :=
  .bind' ordinary_sendCommand fun _ => .bind' (.result' _) fun _ => .bind' (.result' _) fun _ =>
    .bind' (.result' _) fun _ => .pure' _

theorem ordinary_readKnownHosts {switch : Switch} : Ordinary (readKnownHosts switch : Act σ Bytes) := by
  apply Only.bind'
  · apply Only.handle'
    · exact .within' (.ask' rfl) (fun _ _ => .ask' rfl) fun _ => .ask' rfl
    · exact fun _ => .throw' _
  · exact fun _ => .bind' (.raiseIf' _ _) fun _ => .pure' _

theorem ordinary_removeSnapshot {directory : Text} {f : Option Exc} :
    Ordinary (removeSnapshot directory f : Act σ Unit) := by
  apply Only.handle'
  · exact .ask' rfl
  intro e
  by_cases he : e.isOsError = true
  · simp only [he, if_true]
    exact .raiseIf' _ _
  · simp only [he]
    exact .throw' _

/-- `end` itself asks nothing. -/
theorem exitConfigMode_asks_nothing : Only (· ≠ .poisoned) (exitConfigMode : Act σ Unit) :=
  only_withReadBudget (by simp) (by simp) (by simp) (.ask' (by simp))

end ordinary

section gates
variable {σ α : Type} {s : σ} {h : History World}

theorem endGate_of_ne {c : Call} (hc : c ≠ .exitConfigMode) : endGate h c := fun he => absurd he hc

theorem endGate_of_ordinary {c : Call} (hc : c.recovers = false) : endGate h c := by
  apply endGate_of_ne
  intro he
  rw [he] at hc
  cases hc

/-- A history of ordinary calls has not asked whether the connection is poisoned. -/
theorem poisoned_not_mem {t : History World} (ht : ∀ ev ∈ t, ev.call.recovers = false) (b : Bool) :
    (⟨.poisoned, b⟩ : Event World) ∉ t := fun hm => by cases ht _ hm

theorem Only.wpy_endGate {x : Act σ α} {Q : Except Exc α → σ → History World → Prop}
    (hx : Ordinary x) (hQ : ∀ r t, (∀ ev ∈ t, ev.call.recovers = false) → Q r s (t ++ h)) :
    wpy endGate x Q s h :=
  hx.wpy_of (fun _ _ _ hc => endGate_of_ordinary hc) hQ

/-- The cleanup of the creation: the question, and `end` when the answer allows it. -/
theorem leave_endGate (hh : ∀ b, (⟨.poisoned, b⟩ : Event World) ∉ h) :
    wpy endGate (do if !(← connectionPoisoned) then exitConfigMode : Act σ Unit)
      (fun _ _ _ => True) s h := by
  rw [connectionPoisoned]
  refine wpy_call.mpr ⟨endGate_of_ne (by simp), fun (poisoned : Bool) => ?_⟩
  cases poisoned with
  | true => exact trivial
  | false =>
    refine exitConfigMode_asks_nothing.wpy_of (fun t c ht _ _ => ⟨by simp, fun hm => ?_⟩)
      fun _ _ _ => trivial
    obtain hm | hm := List.mem_append.mp hm
    · exact ht _ hm rfl
    · obtain hm | hm := List.mem_cons.mp hm
      · cases hm
      · exact hh true hm

theorem createCsr_endGate {command : Text} {attempted : Bool}
    (hh : ∀ b, (⟨.poisoned, b⟩ : Event World) ∉ h) :
    wpy endGate (createCsr command) (fun _ _ _ => True) attempted h := by
  rw [createCsr, wpy_bind]
  apply ordinary_configMode.wpy_endGate
  intro r t ht
  cases r with
  | error e => exact trivial
  | ok _ =>
    have hsend : Ordinary (do
        let createOutput ← sendCommandTiming command maxCsrCreateOutputBytes
        result (checkOutputSize createOutput maxCsrCreateOutputBytes "CSR creation") :
          Act Bool Unit) := .bind' ordinary_sendCommandTiming fun _ => .result' _
    rw [either_ok, wpy_andFinally, wpy_bind_set]
    apply hsend.wpy_endGate
    intro r u hu
    apply leave_endGate
    intro b hm
    obtain hm | hm := List.mem_append.mp hm
    · exact poisoned_not_mem hu b hm
    obtain hm | hm := List.mem_append.mp hm
    · exact poisoned_not_mem ht b hm
    · exact hh b hm

/-- A connection sends no `end` of its own. -/
theorem sshConnection_endGate {switch : Switch} {credentials : Credentials} {body : Act σ α}
    (hb : ∀ t, (∀ ev ∈ t, ev.call.recovers = false) → wpy endGate body (fun _ _ _ => True) s t) :
    wpy endGate (sshConnection switch credentials body) (fun _ _ _ => True) s [] := by
  rw [sshConnection, snapshotKnownHosts, wpy_bind]
  apply ordinary_readKnownHosts.wpy_endGate
  intro r t ht
  cases r with
  | error e => exact trivial
  | ok contents =>
    rw [either_ok]
    refine wpy_within.mpr (wpy_ask.mpr ⟨endGate_of_ordinary rfl, fun made => ?_⟩)
    cases made with
    | error e => exact trivial
    | ok directory =>
      rw [liftStd_ok, either_ok]
      refine wpy_post (Q := fun _ _ _ => True) ?_ fun r s' u _ =>
        ordinary_removeSnapshot.wpy_endGate fun _ _ _ => trivial
      refine wpy_bind_ask (endGate_of_ordinary rfl) (fun a permissions _ => ?_) fun _ _ _ => trivial
      refine wpy_bind_raiseIf (fun _ => trivial) fun _ => ?_
      refine wpy_bind_ask (endGate_of_ordinary rfl) (fun b _ _ => ?_) fun _ _ _ => trivial
      refine wpy_within.mpr (wpy_ask.mpr ⟨endGate_of_ordinary rfl, fun opened => ?_⟩)
      cases opened with
      | error e => exact trivial
      | ok _ =>
        rw [liftStd_ok, either_ok]
        refine wpy_post (hb _ ?_) fun r s' v _ => wpy_ask.mpr
          ⟨endGate_of_ordinary rfl, fun _ => trivial⟩
        simpa [Call.recovers] using ht

theorem generateOnSwitch_endGate {P : Platform} {switch : Switch} {certificateName : Text}
    {settings : CsrSettings} {attempted : Bool} (hh : ∀ ev ∈ h, ev.call.recovers = false) :
    wpy endGate (generateOnSwitch P switch certificateName settings) (fun _ _ _ => True)
      attempted h := by
  rw [generateOnSwitch, wpy_bind, readSummary]
  apply ordinary_sendCommand.wpy_endGate
  intro r t ht
  cases r with
  | error e => exact trivial
  | ok summaryOutput =>
    rw [either_ok]
    refine wpy_bind_result (fun command _ => ?_) fun _ _ => trivial
    rw [wpy_bind]
    refine wpy_post (createCsr_endGate fun b hm => ?_) fun r attempted' u _ => ?_
    · obtain hm | hm := List.mem_append.mp hm
      · exact poisoned_not_mem ht b hm
      · exact poisoned_not_mem hh b hm
    cases r with
    | error e => exact trivial
    | ok _ =>
      rw [either_ok, wpy_handle]
      apply ordinary_retrieveAndValidateCsr.wpy_endGate
      intro r v hv
      cases r <;> exact trivial

theorem generateCsr_endGate {P : Platform} {switch : Switch} {credentials : Credentials}
    {certificateName : Text} {settings : CsrSettings} (s : σ) :
    wpy endGate (generateCsr P switch credentials certificateName settings)
      (fun _ _ _ => True) s [] := by
  refine wpy_bind_result (fun _ _ => ?_) fun _ _ => trivial
  rw [wpy_alone, wpy_handle]
  refine wpy_post (sshConnection_endGate fun t ht => generateOnSwitch_endGate ht) fun r _ _ _ => ?_
  cases r <;> exact trivial

end gates

/-! What the errors of `generate_csr` say. -/

/-- A create command that was sent ends in a `CSRGenerationError` or in a CSR that passed its checks,
and `end` goes only to a connection that is not poisoned. -/
theorem csr_errors_truthful (P : Platform) (switch : Switch) (credentials : Credentials)
    (settings : CsrSettings) :
    (∀ {σ : Type} {s : σ} {certificateName : Text} {t : History World},
      Reaches ((generateCsr P switch credentials certificateName settings).prog s) [] t →
      (∀ post x pre, t = post ++ ⟨.exitConfigMode, x⟩ :: pre → NotPoisoned pre) ∧
      ∀ r s', Ends (generateCsr P switch credentials certificateName settings) s [] r s' t →
        (∀ csrPem, r = .ok csrPem →
          ∃ csr, validateCsrPem P csrPem switch settings = .ok csr) ∧
        ∀ e, r = .error e → (∃ command, Mark.createCsr command ∈ marks t) →
          e.isCsrGenerationError = true ∧ e.isCsrGenerationPreAttemptError = false) ∧
    ∀ {opnsense : OpnsenseSettings} {ca : VerificationCaSnapshot} {minimumRemainingDays : Option Nat}
      {log log' : Log} {t : History World} {e : Exc},
      Ends (renewCertificate P switch credentials settings opnsense ca minimumRemainingDays) log []
        (.error e) log' t →
      e.isCsrGenerationPreAttemptError = true → ∀ command, Mark.createCsr command ∉ marks t := by
  constructor
  · intro σ s certificateName t hr
    constructor
    · intro post x pre ht
      exact wp_reaches (generateCsr_endGate s) hr ht (Nat.zero_le _) rfl
    intro r s' hend
    obtain ⟨-, hg⟩ := wpy_ends (generateCsr_spec credentials s) hend
    cases r with
    | ok csrPem =>
      refine ⟨fun csrPem' hc => ?_, fun e he => by cases he⟩
      obtain ⟨_, _, csr, _, _, _, hv⟩ := hg
      cases hc
      exact ⟨csr, hv⟩
    | error e =>
      refine ⟨fun csrPem hc => (nomatch hc), fun e' he hm => ?_⟩
      cases he
      obtain ⟨command, hm⟩ := hm
      have hcls : e.isCsrGenerationError = true := by
        by_contra hno
        obtain ht | ht := hg (by simpa using hno) <;> simp [ht] at hm
      refine ⟨hcls, ?_⟩
      cases hpre : e.isCsrGenerationPreAttemptError with
      | false => rfl
      | true => cases Exc.isOwn_unique hcls hpre
  · intro opnsense ca minimum log log' t e hr hcls command hm
    have hmem : ∀ {u : History World}, Mark.createCsr command ∈ marks u →
        Mark.createCsr command ∈ mutations u := fun hu => List.mem_filter.mpr ⟨hu, rfl⟩
    have hother : ∀ {c : OwnError}, e.isOwn c = true → c = .csrGenerationPreAttempt :=
      fun hc => Exc.isOwn_unique hc hcls
    have hplain : ¬e.Plain := by
      intro hp
      obtain ⟨e', rfl⟩ := hp
      cases hcls
    cases renewal_failed P switch credentials settings opnsense ca minimum hr with
    | preflight _ hm' _ =>
      have hm := hmem hm
      rw [hm'] at hm
      cases hm
    | issuance t₁ t₂ ht hm₁ hf =>
      obtain ⟨_, ⟨hc, _⟩ | ⟨_, hnone⟩⟩ | ⟨_, _, hc | hp, _⟩ := hf
      · cases hother hc
      · have hm := hmem hm
        rw [ht, mutations_append, hm₁, hnone] at hm
        cases hm
      · cases hother hc
      · exact hplain hp
    | installation name pem command payload t₁ t₂ ht hm hs hf =>
      obtain ⟨_, hc | ⟨hc | hp, _⟩⟩ | ⟨_, _, hc | hp, _⟩ := hf
      · cases hother hc
      · cases hother hc
      · exact hplain hp
      · cases hother hc
      · exact hplain hp

/-- Nothing fails but configuration mode. -/
def unconfigurable : Environment World := fun h c =>
  match c with
  | .configMode => .error { message := "refused", os := some {} }
  | c => site.calm h c

def siteGenerate : Act Unit Text :=
  generateCsr (sitePlatform certificatePemText) siteSwitch siteCredentials "webcert-20200101-01"
    siteCsrSettings

def siteUnconfigurable :=
  play unconfigurable ((renewCertificate (sitePlatform certificatePemText) siteSwitch siteCredentials
    siteCsrSettings siteOpnsense siteCa none).prog []) []

theorem siteUnconfigurable_ends : ∃ e log', e.isCsrGenerationPreAttemptError = true ∧
    Ends (renewCertificate (sitePlatform certificatePemText) siteSwitch siteCredentials
      siteCsrSettings siteOpnsense siteCa none) [] [] (.error e) log' siteUnconfigurable.2 := by
  obtain ⟨e, he, hcls⟩ : ∃ e, siteUnconfigurable.1.bind raised = some e ∧
      e.isCsrGenerationPreAttemptError = true :=
    (Option.any_eq_true _ _).mp (by decide)
  obtain ⟨log', hend⟩ := play_ends_error unconfigurable he
  exact ⟨e, log', hcls, hend⟩

theorem csr_errors_truthful_site :
    (∃ csr, validateCsrPem (sitePlatform certificatePemText) csrPemText siteSwitch siteCsrSettings =
      .ok csr) ∧
    ∀ command, Mark.createCsr command ∉ marks siteUnconfigurable.2 := by
  have htruthful := csr_errors_truthful (sitePlatform certificatePemText) siteSwitch siteCredentials
    siteCsrSettings
  obtain ⟨s', hend⟩ : ∃ s', Ends siteGenerate () [] (.ok csrPemText) s'
      (play site.calm (siteGenerate.prog ()) []).2 :=
    play_ends_result site.calm (by decide)
  obtain ⟨e, log', hcls, hend'⟩ := siteUnconfigurable_ends
  exact ⟨((htruthful.1 hend.reaches).2 _ _ hend).1 _ rfl, htruthful.2 hend' hcls⟩

/-! Checks and computations that raise no exception of the program's own. -/

/-- An error of `x` is of a class that the program does not define. -/
def PlainResult {α : Type} (x : Except Exc α) : Prop := ∀ e, x = .error e → e.Plain

/-- An exception `x` ends with is of a class that the program does not define. -/
def PlainlyRaises {σ α : Type} (x : Act σ α) : Prop :=
  ∀ s h, wpy (fun _ _ => True) x (fun r _ _ => PlainResult r) s h

section plain
variable {σ α β : Type}

theorem plain_ok (a : α) : PlainResult (.ok a) := fun _ he => nomatch he

theorem plain_std (e : StdError) : PlainResult (α := α) (.error (.std e)) :=
  fun _ he => ⟨e, (Except.error.inj he).symm⟩

theorem plain_raiseWhen (b : Bool) (m : Text) : PlainResult (raiseWhen b (valueError m)) := by
  cases b
  · exact plain_ok ()
  · exact plain_std _

theorem plain_bind {x : Except Exc α} {f : α → Except Exc β} (hx : PlainResult x)
    (hf : ∀ a, PlainResult (f a)) : PlainResult (x >>= f) := by
  cases x with
  | ok a => exact hf a
  | error e => exact fun e' he => hx e' (by cases he; rfl)

theorem plainlyRaises_result {x : Except Exc α} (hx : PlainResult x) :
    PlainlyRaises (result x : Act σ α) := fun _ _ => hx

theorem plainlyRaises_ask {c : Call} {view : Call.Ans c → Except StdError α} :
    PlainlyRaises (ask c view : Act σ α) := by
  intro s h
  refine wpy_ask.mpr ⟨trivial, fun r => ?_⟩
  cases view r with
  | ok a => exact plain_ok a
  | error e => exact plain_std e

theorem plainlyRaises_bind {x : Act σ α} {f : α → Act σ β} (hx : PlainlyRaises x)
    (hf : ∀ a, PlainlyRaises (f a)) : PlainlyRaises (x >>= f) := by
  intro s h
  refine wpy_seq (hx s h) (fun a s' t _ => hf a s' _) ?_
  intro e s' t he e' he'
  cases he'
  exact he e rfl

theorem plainlyRaises_withReadBudget {limit : Nat} {command : Text} {extra : Nat} {body : Act σ α}
    (hb : PlainlyRaises body) : PlainlyRaises (withReadBudget limit command extra body) := by
  intro s h
  refine wpy_call.mpr ⟨trivial, fun prompt => wpy_within.mpr (wpy_ask.mpr ⟨trivial, fun entered => ?_⟩)⟩
  cases entered with
  | error e => exact plain_std e
  | ok _ =>
    rw [liftStd_ok, either_ok]
    refine wpy_post (hb s _) fun r s' t hr => ?_
    refine wpy_ask.mpr ⟨trivial, fun exited => ?_⟩
    cases exited with
    | error e => exact plain_std e
    | ok _ => exact hr

theorem plain_validateCliIdentifier (t label : Text) : PlainResult (validateCliIdentifier t label) :=
  plain_raiseWhen _ _

theorem plain_checkSummarySize (output : Text) : PlainResult (checkSummarySize output) :=
  plain_raiseWhen _ _

theorem plain_requirePendingWebCertificate (output certificateName : Text) :
    PlainResult (requirePendingWebCertificate output certificateName) := by
  apply plain_bind
  · apply plain_bind (plain_checkSummarySize _)
    intro _
    apply plain_bind (plain_validateCliIdentifier _ _)
    intro _
    split
    · exact plain_std _
    · exact plain_ok _
    · exact plain_std _
  · exact fun _ => plain_bind (plain_raiseWhen _ _) fun _ => plain_bind (plain_raiseWhen _ _) fun _ =>
      plain_ok _

theorem plain_requireSameProfile (output certificateName expectedProfile : Text) :
    PlainResult (requireSameProfile output certificateName expectedProfile) :=
  plain_bind (plain_checkSummarySize _) fun _ =>
    plain_bind (plain_requirePendingWebCertificate _ _) fun _ => plain_raiseWhen _ _

end plain

/-! The steps of `install_signed_certificate`. -/

/-- `prepare` reads the summary and enters configuration mode, `prompts` is the dialogue, `exit` the
`end` after it, `verify` the checks of what the switch then shows. -/
inductive InstallStep where
  | prepare | prompts | exit | verify
  deriving DecidableEq

/-- What comes before the first prompt. -/
def prepareInstall (certificateName expectedProfile : Text) : Act InstallFlags Unit := do
  let summaryOutput ← readSummary
  result (requireSameProfile summaryOutput certificateName expectedProfile)
  configMode

/-- What a step that failed makes of its exception. -/
def reported : InstallStep → Exc → Exc
  | .prepare, e => e
  | .prompts, e => certificateInstallationAttemptError
      ("Certificate installation may already have changed the switch: " ++ e.str)
  | .exit, e => certificateInstallationAttemptError
      ("Certificate installation may already have changed the switch, " ++
        "and config mode could not be exited: " ++ e.str)
  | .verify, e =>
    if e.isCertificateInstallationAttemptError then e
    else certificateInstallationAttemptError
      ("Certificate installation may already have changed the switch, but " ++
        "post-install Aruba verification failed: " ++ e.str)

theorem reported_attempt (step : InstallStep) (hs : step ≠ .prepare) (e : Exc) :
    (reported step e).isCertificateInstallationAttemptError = true := by
  cases step with
  | prepare => exact absurd rfl hs
  | prompts => rfl
  | exit => rfl
  | verify =>
    by_cases he : e.isCertificateInstallationAttemptError = true
    · simp [reported, he]
    · simp only [reported, he]
      rfl

abbrev Steps := List (InstallStep × Except Exc Unit)

/-- The first step that failed decides. -/
def outcome : Steps → Except Exc Unit
  | [] => .ok ()
  | (_, .ok _) :: steps => outcome steps
  | (step, .error e) :: _ => .error (reported step e)

theorem installDialogue_eq (certificateName certificatePem expectedProfile : Text) :
    installDialogue certificateName certificatePem expectedProfile = (do
      prepareInstall certificateName expectedProfile
      modify fun f => { f with enteredConfigMode := true }
      modify fun f => { f with attempted := true }
      installPrompts certificatePem
      modify fun f => { f with dialogueCompleted := true }) := by
  simp only [installDialogue, prepareInstall, bind_assoc]

section steps
variable (certificateName certificatePem expectedProfile : Text)

def InstallStep.act : InstallStep → Act InstallFlags Unit
  | .prepare => prepareInstall certificateName expectedProfile
  | .prompts => installPrompts certificatePem
  | .exit => exitConfigMode
  | .verify => verifyInstalled certificateName expectedProfile

/-- The steps taken, in order, make up the history, but for the question before the exit. -/
inductive Performed : Steps → History World → Prop where
  | start : Performed [] []
  | asked {steps : Steps} {t : History World} (b : Bool) :
      Performed steps t → Performed steps (⟨.poisoned, b⟩ :: t)
  | step {steps : Steps} {t t' : History World} {f : InstallFlags} (step : InstallStep)
      (r : Except Exc Unit) : Performed steps t →
      Ends (step.act certificateName certificatePem expectedProfile) f t r f t' →
      Performed (steps ++ [(step, r)]) t'

/-- The steps a run takes: `asked` is the answer to the question whether the connection is
poisoned, if it was asked. -/
inductive Scheduled : Option Bool → Steps → Prop where
  | unprepared (e : Exc) : Scheduled none [(.prepare, .error e)]
  | refused (e : Exc) : Scheduled (some true) [(.prepare, .ok ()), (.prompts, .error e)]
  | refusedAndLeft (e : Exc) (r : Except Exc Unit) :
      Scheduled (some false) [(.prepare, .ok ()), (.prompts, .error e), (.exit, r)]
  | stuck (e : Exc) :
      Scheduled (some false) [(.prepare, .ok ()), (.prompts, .ok ()), (.exit, .error e)]
  | verifiedInside (r : Except Exc Unit) :
      Scheduled (some true) [(.prepare, .ok ()), (.prompts, .ok ()), (.verify, r)]
  | verified (r : Except Exc Unit) :
      Scheduled (some false) [(.prepare, .ok ()), (.prompts, .ok ()), (.exit, .ok ()), (.verify, r)]

/-- What a history says of the question and of `end`. -/
def Asked : Option Bool → History World → Prop
  | none, t => ∀ ev ∈ t, ev.call.recovers = false
  | some true, t => ⟨.poisoned, true⟩ ∈ t ∧ ∀ ev ∈ t, ev.call ≠ .exitConfigMode
  | some false, t => ⟨.poisoned, true⟩ ∉ t

/-- How the cleanup goes: not asked for, not possible, or one exit. -/
inductive Left (f : InstallFlags) (t : History World) : Steps → History World → Prop where
  | notEntered : f.enteredConfigMode = false → Left f t [] t
  | poisoned : f.enteredConfigMode = true → Left f t [] (⟨.poisoned, true⟩ :: t)
  | exited {t' : History World} (r : Except Exc Unit) : f.enteredConfigMode = true →
      Ends (exitConfigMode : Act InstallFlags Unit) f (⟨.poisoned, false⟩ :: t) r f t' →
      Left f t [(.exit, r)] t'

end steps

theorem ordinary_prepareInstall {certificateName expectedProfile : Text} :
    Ordinary (prepareInstall certificateName expectedProfile) :=
  .bind' ordinary_sendCommand fun _ => .bind' (.result' _) fun _ => ordinary_configMode

theorem ordinary_installPrompts {σ : Type} {certificatePem : Text} :
    Ordinary (installPrompts certificatePem : Act σ Unit) :=
  .bind' ordinary_sendCommandTiming fun _ => .bind' (.result' _) fun _ =>
    .bind' (ordinary_withReadBudget (.bind' (.ask' rfl) fun _ => .bind' (.ask' rfl) fun _ =>
      .ask' rfl)) fun _ =>
    .bind' (.result' _) fun _ => .bind' ordinary_sendCommandTiming fun _ => .result' _

theorem ordinary_verifyInstalled {σ : Type} {certificateName expectedProfile : Text} :
    Ordinary (verifyInstalled certificateName expectedProfile : Act σ Unit) :=
  .bind' ordinary_sendCommand fun _ => .bind' (.result' _) fun _ =>
    .bind' ordinary_sendCommand fun _ => .result' _

/-- The cleanup swallows the exception of an exit after a dialogue that failed. -/
theorem left_of_ends {f f' : InstallFlags} {t t' : History World} {u : Except Exc Unit}
    (hr : Ends leaveDialogue f t u f' t') :
    f' = f ∧ ∃ steps, Left f t steps t' ∧
      u = if f.dialogueCompleted then outcome steps else .ok () := by
  rw [leaveDialogue] at hr
  obtain ⟨flags, f₁, t₁, hget, hrest⟩ | ⟨e, -, hget⟩ := ends_bind.mp hr
  swap
  · cases (ends_get.mp hget).1
  obtain ⟨hflags, rfl, rfl⟩ := ends_get.mp hget
  obtain rfl : flags = f₁ := Except.ok.inj hflags
  cases hentered : flags.enteredConfigMode with
  | false =>
    rw [hentered] at hrest
    obtain ⟨rfl, rfl, rfl⟩ := ends_pure.mp hrest
    exact ⟨rfl, [], .notEntered hentered, by simp [outcome]⟩
  | true =>
    rw [hentered, if_pos rfl] at hrest
    obtain ⟨b, f₂, t₂, hasked, hleave⟩ | ⟨e, -, hasked⟩ := ends_bind.mp hrest
    swap
    · cases (ends_perform.mp hasked).choose_spec.1
    obtain ⟨poisoned, hb, rfl, rfl⟩ := ends_perform.mp hasked
    cases hb
    cases b with
    | true =>
      obtain ⟨rfl, rfl, rfl⟩ := ends_pure.mp hleave
      exact ⟨rfl, [], .poisoned hentered, by simp [outcome]⟩
    | false =>
      obtain ⟨a, rfl, hexit⟩ | ⟨e, f₃, t₃, hexit, hraise⟩ := ends_handle.mp hleave
      · obtain rfl := (silent_exitConfigMode.ends hexit).1
        exact ⟨rfl, _, .exited (.ok a) hentered hexit, by simp [outcome]⟩
      · obtain rfl := (silent_exitConfigMode.ends hexit).1
        cases hdone : f₃.dialogueCompleted with
        | true =>
          rw [hdone] at hraise
          obtain ⟨rfl, rfl, rfl⟩ := ends_throw.mp hraise
          exact ⟨rfl, _, .exited (.error e) hentered hexit, rfl⟩
        | false =>
          rw [hdone] at hraise
          obtain ⟨rfl, rfl, rfl⟩ := ends_pure.mp hraise
          exact ⟨rfl, _, .exited (.error e) hentered hexit, rfl⟩

section run
variable {certificateName certificatePem expectedProfile : Text}

/-- The flags once configuration mode was entered, and once the dialogue was completed. -/
def enteredFlags : InstallFlags := { enteredConfigMode := true, attempted := true }
def completedFlags : InstallFlags := { enteredFlags with dialogueCompleted := true }

/-- The dialogue failed before configuration mode, or in its prompts, or went through. -/
theorem dialogue_ends {r : Except Exc Unit} {f : InstallFlags} {t : History World}
    (hr : Ends (installDialogue certificateName certificatePem expectedProfile) {} [] r f t) :
    (∃ e, r = .error e ∧ f = {} ∧
      Ends (prepareInstall certificateName expectedProfile) {} [] (.error e) {} t) ∨
    ∃ t₀, Ends (prepareInstall certificateName expectedProfile) {} [] (.ok ()) {} t₀ ∧
      Ends (installPrompts certificatePem) enteredFlags t₀ r enteredFlags t ∧
      f = if r = .ok () then completedFlags else enteredFlags := by
  rw [installDialogue_eq] at hr
  obtain ⟨_, f₁, t₁, hprepare, hrest⟩ | ⟨e, he, hprepare⟩ := ends_bind.mp hr
  swap
  · obtain rfl := (ordinary_prepareInstall.ends hprepare).1
    exact .inl ⟨e, he, rfl, hprepare⟩
  obtain rfl := (ordinary_prepareInstall.ends hprepare).1
  obtain ⟨_, f₂, t₂, hset, hrest'⟩ | ⟨e, -, hset⟩ := ends_bind.mp hrest
  swap
  · cases (ends_modify.mp hset).1
  obtain ⟨-, rfl, rfl⟩ := ends_modify.mp hset
  obtain ⟨_, f₃, t₃, hset', hprompts⟩ | ⟨e, -, hset'⟩ := ends_bind.mp hrest'
  swap
  · cases (ends_modify.mp hset').1
  obtain ⟨-, rfl, rfl⟩ := ends_modify.mp hset'
  refine .inr ⟨t₃, hprepare, ?_⟩
  obtain ⟨_, f₄, t₄, hp, hdone⟩ | ⟨e, rfl, hp⟩ := ends_bind.mp hprompts
  · obtain rfl := (ordinary_installPrompts.ends hp).1
    obtain ⟨rfl, rfl, rfl⟩ := ends_modify.mp hdone
    exact ⟨hp, rfl⟩
  · obtain rfl := (ordinary_installPrompts.ends hp).1
    exact ⟨hp, rfl⟩

theorem Performed.two {t₀ t : History World} {r : Except Exc Unit}
    (hprepare : Ends (prepareInstall certificateName expectedProfile) {} [] (.ok ()) {} t₀)
    (hprompts : Ends (installPrompts certificatePem) enteredFlags t₀ r enteredFlags t) :
    Performed certificateName certificatePem expectedProfile [(.prepare, .ok ()), (.prompts, r)] t :=
  (Performed.start.step .prepare (.ok ()) hprepare).step .prompts r hprompts

/-- The events of a history of ordinary calls, after others. -/
theorem asked_append {asked : Option Bool} {t u : History World} (ha : Asked asked t)
    (hu : ∀ ev ∈ u, ev.call.recovers = false) : Asked asked (u ++ t) := by
  have hne : ∀ ev ∈ u, ev.call ≠ .exitConfigMode := by
    intro ev hev he
    have := hu ev hev
    rw [he] at this
    cases this
  cases asked with
  | none =>
    intro ev hev
    obtain hev | hev := List.mem_append.mp hev
    · exact hu ev hev
    · exact ha ev hev
  | some b =>
    cases b with
    | true =>
      refine ⟨List.mem_append_right _ ha.1, fun ev hev => ?_⟩
      obtain hev | hev := List.mem_append.mp hev
      · exact hne ev hev
      · exact ha.2 ev hev
    | false =>
      intro hm
      obtain hm | hm := List.mem_append.mp hm
      · exact poisoned_not_mem hu true hm
      · exact ha hm

/-- The cleanup after the prompts: what it asks, and the steps it adds. -/
theorem Left.performed {steps exits : Steps} {f : InstallFlags} {t t' : History World}
    (hl : Left f t exits t') (hf : f.enteredConfigMode = true)
    (hp : Performed certificateName certificatePem expectedProfile steps t)
    (ht : ∀ ev ∈ t, ev.call.recovers = false) :
    Performed certificateName certificatePem expectedProfile (steps ++ exits) t' ∧
      ((exits = [] ∧ Asked (some true) t') ∨
        ∃ r, exits = [(.exit, r)] ∧ Asked (some false) t') := by
  cases hl with
  | notEntered hf' => simp [hf] at hf'
  | poisoned _ =>
    refine ⟨?_, .inl ⟨rfl, List.mem_cons_self, fun ev hev he => ?_⟩⟩
    · rw [List.append_nil]
      exact hp.asked true
    · obtain rfl | hev := List.mem_cons.mp hev
      · cases he
      · have := ht ev hev
        rw [he] at this
        cases this
  | exited r _ hexit =>
    refine ⟨(hp.asked false).step .exit r hexit, .inr ⟨r, rfl, fun hm => ?_⟩⟩
    obtain ⟨-, u, rfl, hu⟩ := exitConfigMode_asks_nothing.ends hexit
    obtain hm | hm := List.mem_append.mp hm
    · exact hu _ hm rfl
    obtain hm | hm := List.mem_cons.mp hm
    · cases hm
    · exact poisoned_not_mem ht true hm

/-- The `try` of the dialogue, with its `except` clause. -/
theorem guarded_ends {r : Except Exc Unit} {f : InstallFlags} {t : History World}
    (hr : Ends (handle (installDialogue certificateName certificatePem expectedProfile) fun e => do
        throw (if (← get).attempted then certificateInstallationAttemptError
          ("Certificate installation may already have changed the switch: " ++ e.str) else e))
      {} [] r f t) :
    (∃ e, r = .error e ∧ f = {} ∧
      Ends (prepareInstall certificateName expectedProfile) {} [] (.error e) {} t) ∨
    ∃ t₀ prompted, Ends (prepareInstall certificateName expectedProfile) {} [] (.ok ()) {} t₀ ∧
      Ends (installPrompts certificatePem) enteredFlags t₀ prompted enteredFlags t ∧
      f = (if prompted = .ok () then completedFlags else enteredFlags) ∧
      r = outcome [(.prompts, prompted)] := by
  obtain ⟨a, rfl, hd⟩ | ⟨e, f₁, t₁, hd, hthrow⟩ := ends_handle.mp hr
  · obtain ⟨e, he, _⟩ | ⟨t₀, hprepare, hprompts, hf⟩ := dialogue_ends hd
    · cases he
    · exact .inr ⟨t₀, _, hprepare, hprompts, hf, rfl⟩
  · obtain ⟨flags, f₂, t₂, hget, hthrow⟩ | ⟨e', -, hget⟩ := ends_bind.mp hthrow
    swap
    · cases (ends_get.mp hget).1
    obtain ⟨hflags, rfl, rfl⟩ := ends_get.mp hget
    obtain rfl := Except.ok.inj hflags
    obtain ⟨rfl, rfl, rfl⟩ := ends_throw.mp hthrow
    obtain ⟨e', he, rfl, hprepare⟩ | ⟨t₀, hprepare, hprompts, hf⟩ := dialogue_ends hd
    · cases he
      exact .inl ⟨e, rfl, rfl, hprepare⟩
    · have hf' : f = enteredFlags := by simpa using hf
      refine .inr ⟨t₀, _, hprepare, hprompts, hf, ?_⟩
      rw [hf']
      rfl

/-- The `try` of the checks, with its `except` clauses. -/
theorem verified_ends {r : Except Exc Unit} {f f' : InstallFlags} {t t' : History World}
    (hr : Ends (handle (verifyInstalled certificateName expectedProfile) fun e =>
        throw (if e.isCertificateInstallationAttemptError then e
          else certificateInstallationAttemptError
            ("Certificate installation may already have changed the switch, but " ++
              "post-install Aruba verification failed: " ++ e.str))) f t r f' t') :
    ∃ checked, Ends (verifyInstalled certificateName expectedProfile) f t checked f t' ∧
      r = outcome [(.verify, checked)] := by
  obtain ⟨a, rfl, hv⟩ | ⟨e, f₁, t₁, hv, hthrow⟩ := ends_handle.mp hr
  · obtain rfl := (ordinary_verifyInstalled.ends hv).1
    exact ⟨.ok a, hv, rfl⟩
  · obtain ⟨rfl, rfl, rfl⟩ := ends_throw.mp hthrow
    obtain rfl := (ordinary_verifyInstalled.ends hv).1
    exact ⟨.error e, hv, rfl⟩

/-- Every run takes its steps, and reports the first that failed. -/
theorem installSignedCertificate_steps {σ : Type} {s s' : σ} {r : Except Exc Unit}
    {t : History World}
    (hr : Ends (installSignedCertificate certificateName certificatePem expectedProfile) s [] r s'
      t) :
    ∃ steps asked, Performed certificateName certificatePem expectedProfile steps t ∧
      Scheduled asked steps ∧ Asked asked t ∧ r = outcome steps := by
  obtain ⟨-, f, hr⟩ := ends_alone.mp hr
  obtain ⟨r₁, f₁, t₁, u, hguarded, f₂, t₂, hleave, hlast⟩ : ∃ r₁ f₁ t₁ u,
      Ends (handle (installDialogue certificateName certificatePem expectedProfile) fun e => do
        throw (if (← get).attempted then certificateInstallationAttemptError
          ("Certificate installation may already have changed the switch: " ++ e.str) else e))
        {} [] r₁ f₁ t₁ ∧
      ∃ f₂ t₂, Ends leaveDialogue f₁ t₁ u f₂ t₂ ∧
        ((∃ e, after u r₁ = .error e ∧ r = .error e ∧ t = t₂) ∨
          after u r₁ = .ok () ∧ ∃ checked,
            Ends (verifyInstalled certificateName expectedProfile) f₂ t₂ checked f₂ t ∧
            r = outcome [(.verify, checked)]) := by
    obtain ⟨_, f₂, t₂, hdialogue, hverify⟩ | ⟨e, rfl, hdialogue⟩ := ends_bind.mp hr
    · obtain ⟨r₁, f₁, t₁, u, hd, hl, he⟩ := ends_andFinally.mp hdialogue
      exact ⟨r₁, f₁, t₁, u, hd, f₂, t₂, hl, .inr ⟨he.symm, verified_ends hverify⟩⟩
    · obtain ⟨r₁, f₁, t₁, u, hd, hl, he⟩ := ends_andFinally.mp hdialogue
      exact ⟨r₁, f₁, t₁, u, hd, f, t, hl, .inl ⟨e, he.symm, rfl, rfl⟩⟩
  obtain ⟨rfl, exits, hleft, hu⟩ := left_of_ends hleave
  obtain ⟨e, rfl, rfl, hprepare⟩ | ⟨t₀, prompted, hprepare, hprompts, hf, rfl⟩ :=
    guarded_ends hguarded
  · -- configuration mode was not entered, so there is nothing to leave
    obtain rfl : t₂ = t₁ := by
      cases hleft with
      | notEntered _ => rfl
      | poisoned hf => cases hf
      | exited _ hf _ => cases hf
    obtain rfl : u = .ok () := hu
    obtain ⟨e', he, rfl, rfl⟩ | ⟨he, _⟩ := hlast
    · cases he
      refine ⟨_, none, Performed.start.step .prepare (.error e) hprepare, .unprepared e, ?_, rfl⟩
      obtain ⟨-, v, hv, hquiet⟩ := ordinary_prepareInstall.ends hprepare
      rw [List.append_nil] at hv
      rw [hv]
      exact hquiet
    · cases he
  have hquiet : ∀ ev ∈ t₁, ev.call.recovers = false := by
    obtain ⟨-, v, rfl, hv⟩ := ordinary_installPrompts.ends hprompts
    obtain ⟨-, w, rfl, hw⟩ := ordinary_prepareInstall.ends hprepare
    intro ev hev
    simp only [List.append_nil, List.mem_append] at hev
    exact hev.elim (hv ev) (hw ev)
  have hentered : f₂.enteredConfigMode = true := by
    rw [hf]
    split <;> rfl
  obtain ⟨hp, hexits⟩ := hleft.performed hentered (.two hprepare hprompts) hquiet
  cases prompted with
  | error e =>
    obtain rfl : f₂ = enteredFlags := by simpa using hf
    obtain rfl : u = .ok () := hu
    obtain ⟨e', he, rfl, rfl⟩ | ⟨he, _⟩ := hlast
    · cases he
      obtain ⟨rfl, hasked⟩ | ⟨r, rfl, hasked⟩ := hexits
      · exact ⟨_, _, hp, .refused e, hasked, rfl⟩
      · exact ⟨_, _, hp, .refusedAndLeft e r, hasked, rfl⟩
    · cases he
  | ok _ =>
    obtain rfl : f₂ = completedFlags := by simpa using hf
    obtain rfl : u = outcome exits := hu
    have hverify : ∀ {checked}, Ends (verifyInstalled certificateName expectedProfile)
        completedFlags t₂ checked completedFlags t → ∀ {asked}, Asked asked t₂ → Asked asked t := by
      intro checked hv asked ha
      obtain ⟨-, v, rfl, hquiet⟩ := ordinary_verifyInstalled.ends hv
      exact asked_append ha hquiet
    obtain ⟨rfl, hasked⟩ | ⟨left, rfl, hasked⟩ := hexits
    · obtain ⟨e', he, _⟩ | ⟨_, checked, hv, rfl⟩ := hlast
      · cases he
      · exact ⟨_, _, hp.step .verify checked hv, .verifiedInside checked, hverify hv hasked, rfl⟩
    · cases left with
      | error e =>
        obtain ⟨e', he, rfl, rfl⟩ | ⟨he, _⟩ := hlast
        · cases he
          exact ⟨_, _, hp, .stuck e, hasked, rfl⟩
        · cases he
      | ok _ =>
        obtain ⟨e', he, _⟩ | ⟨_, checked, hv, rfl⟩ := hlast
        · cases he
        · exact ⟨_, _, hp.step .verify checked hv, .verified checked, hverify hv hasked, rfl⟩

theorem plainlyRaises_prepareInstall :
    PlainlyRaises (prepareInstall certificateName expectedProfile) :=
  plainlyRaises_bind (plainlyRaises_withReadBudget plainlyRaises_ask) fun _ =>
    plainlyRaises_bind (plainlyRaises_result (plain_requireSameProfile _ _ _)) fun _ =>
      plainlyRaises_withReadBudget plainlyRaises_ask

theorem silent_step {step : InstallStep} (hs : step ≠ .prompts) :
    Silent (step.act certificateName certificatePem expectedProfile) := by
  cases step with
  | prepare =>
    exact .bind' (silent_withReadBudget (.ask' ⟨rfl, commandMark_summary⟩)) fun _ =>
      .bind' (.result' _) fun _ => silent_configMode
  | prompts => exact absurd rfl hs
  | exit => exact silent_exitConfigMode
  | verify =>
    exact .bind' (silent_withReadBudget (.ask' ⟨rfl, commandMark_summary⟩)) fun _ =>
      .bind' (.result' _) fun _ =>
        .bind' (silent_withReadBudget (.ask' ⟨rfl, commandMark_detail _⟩)) fun _ => .result' _

variable {steps : Steps} {t : History World}

theorem Performed.plain
    (hp : Performed certificateName certificatePem expectedProfile steps t) {e : Exc}
    (he : (.prepare, .error e) ∈ steps) : e.Plain := by
  induction hp with
  | start => cases he
  | asked b _ ih => exact ih he
  | step step r _ hr ih =>
    obtain he | he := List.mem_append.mp he
    · exact ih he
    · cases List.mem_singleton.mp he
      exact wpy_ends (plainlyRaises_prepareInstall _ _) hr e rfl

/-- Without the prompts no mark is made. -/
theorem Performed.marks
    (hp : Performed certificateName certificatePem expectedProfile steps t)
    (hs : .prompts ∉ steps.map Prod.fst) : marks t = [] := by
  induction hp with
  | start => rfl
  | asked b _ ih => exact ih hs
  | step step r _ hr ih =>
    rw [List.map_append, List.mem_append, not_or] at hs
    obtain ⟨-, u, rfl, hu⟩ := (silent_step (by simpa [eq_comm] using hs.2)).ends hr
    rw [marks_append, ih hs.1, List.append_nil]
    exact List.filterMap_eq_nil_iff.mpr fun ev hev => (hu ev hev).2

end run

/-- A run of `install_signed_certificate`: what it reports of its steps, and how it leaves
configuration mode. -/
theorem install_signed_certificate_run {σ : Type} {s s' : σ}
    {certificateName certificatePem expectedProfile : Text} {r : Except Exc Unit}
    {t : History World}
    (hr : Ends (installSignedCertificate certificateName certificatePem expectedProfile) s [] r s'
      t) :
    ∃ steps asked, Performed certificateName certificatePem expectedProfile steps t ∧
      Scheduled asked steps ∧ r = outcome steps ∧
      -- the class of the exception
      ((∃ e, r = .error e ∧ e.isCertificateInstallationAttemptError = true) ↔
        (.prepare, .ok ()) ∈ steps ∧ ∃ q ∈ steps, q.2 ≠ .ok ()) ∧
      (∀ e, r = .error e → e.isCertificateInstallationAttemptError = false →
        steps = [(.prepare, .error e)]) ∧
      (Mark.install ∈ marks t → (.prepare, .ok ()) ∈ steps) ∧
      -- the exit
      ((.prepare, .ok ()) ∈ steps → ⟨.poisoned, true⟩ ∉ t →
        (steps.map Prod.fst).count .exit = 1) ∧
      ((.prepare, .ok ()) ∉ steps ∨ ⟨.poisoned, true⟩ ∈ t →
        .exit ∉ steps.map Prod.fst ∧ ∀ ev ∈ t, ev.call ≠ .exitConfigMode) ∧
      -- the normal return
      (r = .ok () ↔ (.verify, .ok ()) ∈ steps ∧ ∀ q ∈ steps, q.2 = .ok ()) := by
  obtain ⟨steps, asked, hp, hs, ha, rfl⟩ := installSignedCertificate_steps hr
  refine ⟨steps, asked, hp, hs, rfl, ?_⟩
  have hprompts := reported_attempt .prompts (by decide)
  have hexit := reported_attempt .exit (by decide)
  have hverify := reported_attempt .verify (by decide)
  cases hs with
  | unprepared e =>
    have hplain : e.isCertificateInstallationAttemptError = false := by
      obtain ⟨e', rfl⟩ := hp.plain (List.mem_singleton.mpr rfl)
      rfl
    have hquiet : ∀ ev ∈ t, ¬ev.call = .exitConfigMode := by
      intro ev hev he
      have := ha ev hev
      rw [he] at this
      cases this
    have hreported : reported .prepare e = e := rfl
    simpa [outcome, hreported, hplain, hp.marks] using hquiet
  | refused e => simpa [outcome, hprompts, ha.1] using ha.2
  | refusedAndLeft e r =>
    have hno : ⟨.poisoned, true⟩ ∉ t := ha
    simp [outcome, hprompts, hno]
  | stuck e =>
    have hno : ⟨.poisoned, true⟩ ∉ t := ha
    simp [outcome, hexit, hno]
  | verifiedInside r => cases r <;> simpa [outcome, hverify, ha.1] using ha.2
  | verified r =>
    have hno : ⟨.poisoned, true⟩ ∉ t := ha
    cases r <;> simp [outcome, hverify, hno]

def siteDialogue : Act Unit Unit :=
  installSignedCertificate "webcert-20200101-01" certificatePemText "default-ta"

theorem siteDialogue_ends : ∃ s', Ends siteDialogue () [] (.ok ()) s'
    (play pendingSite.calm (siteDialogue.prog ()) []).2 :=
  play_ends_result pendingSite.calm (by decide)

theorem install_signed_certificate_run_site : ∃ steps : Steps, (.verify, .ok ()) ∈ steps ∧
    Performed "webcert-20200101-01" certificatePemText "default-ta" steps
      (play pendingSite.calm (siteDialogue.prog ()) []).2 := by
  obtain ⟨s', hend⟩ := siteDialogue_ends
  obtain ⟨steps, _, hp, _, _, _, _, _, _, _, hok⟩ := install_signed_certificate_run hend
  exact ⟨steps, (hok.mp rfl).1, hp⟩

/-- Once configuration mode was entered, no read budget is granted. -/
def budgetless : Environment World := fun h c =>
  match c with
  | .enterReadBudget _ =>
    if h.any fun ev => match ev.call with | .configMode => true | _ => false
    then .error { message := "no budget" } else .ok ()
  | c => pendingSite.calm h c

theorem siteDialogue_budgetless :
    (∃ s', Ends siteDialogue () []
      (.error (certificateInstallationAttemptError
        "Certificate installation may already have changed the switch: no budget")) s'
      (play budgetless (siteDialogue.prog ()) []).2) ∧
    ¬ (marks (play budgetless (siteDialogue.prog ()) []).2).any Mark.isInstall = true := by
  have hrun : (play budgetless (siteDialogue.prog ()) []).1.bind raised =
        some (certificateInstallationAttemptError
          "Certificate installation may already have changed the switch: no budget") ∧
      ¬ (marks (play budgetless (siteDialogue.prog ()) []).2).any Mark.isInstall = true := by
    decide
  exact ⟨play_ends_error budgetless hrun.1, hrun.2⟩

/-- An installation attempt is reported of a run that never handed the install command over. -/
theorem attempt_without_command :
    ¬∀ (certificateName certificatePem expectedProfile : Text) (e : Exc) (t : History World),
      Ends (installSignedCertificate certificateName certificatePem expectedProfile) () []
        (.error e) () t →
      e.isCertificateInstallationAttemptError = true → Mark.install ∈ marks t := by
  intro hall
  obtain ⟨⟨s', hend⟩, hnone⟩ := siteDialogue_budgetless
  have hm : Mark.install ∈ marks (play budgetless (siteDialogue.prog ()) []).2 :=
    hall _ _ _ _ _ hend rfl
  exact hnone (List.any_eq_true.mpr ⟨_, hm, rfl⟩)

end ArubaCertRenewer
