import ArubaCertRenewer.Signing

/- What an installation sends to the switch, and when: the guarded prompts, the
   dialogue around them and the verification after it.

   An exception that is not a `CertificateInstallationAttemptError` leaves
   `install_signed_certificate` only before the install command was sent. -/
namespace ArubaCertRenewer
open PyText Effects Effects.Py

variable {σ : Type}

/-- Everything a complete dialogue sends, newest first. -/
def installMarks (certificatePem : Text) : List Mark :=
  [.confirm, .paste "\n", .paste certificatePem, .install]

/-- The answer to the install command was the paste prompt. -/
def PastePrompted (h : History World) : Prop :=
  ∃ out, ⟨.sendCommandTiming installCommand, .ok out⟩ ∈ h ∧ checkPastePrompt out = .ok ()

/-- The answer to the pasted certificate was the replacement prompt. -/
def ReplacementPrompted (h : History World) : Prop :=
  ∃ out, ⟨.readChannelTiming, .ok out⟩ ∈ h ∧ checkReplacementPrompt out = .ok ()

/-- The summary showed the name pending with the expected profile. -/
def PendingSeen (certificateName expectedProfile : Text) (h : History World) : Prop :=
  ∃ out, ⟨.sendCommand summaryCommand, .ok out⟩ ∈ h ∧
    requireSameProfile out certificateName expectedProfile = .ok ()

/-- The summary and the details showed the certificate installed. -/
def InstalledSeen (certificateName expectedProfile : Text) (h : History World) : Prop :=
  (∃ out, ⟨.sendCommand summaryCommand, .ok out⟩ ∈ h ∧
    checkInstalledEntry out certificateName expectedProfile = .ok ()) ∧
  ∃ out, ⟨.sendCommand (detailCommand certificateName), .ok out⟩ ∈ h ∧
    checkInstalledDetails out = .ok ()

/-- That was seen after the whole dialogue. -/
def InstallConfirmed (certificateName certificatePem expectedProfile : Text) (h : History World) :
    Prop :=
  ∃ u v, h = u ++ v ∧ installMarks certificatePem <+: marks v ∧
    InstalledSeen certificateName expectedProfile u

/-- When a mark of the dialogue is made; `start` is what the install command is sent after. -/
def dialogueGate (start : History World → Prop) (certificatePem : Text) (h : History World) :
    Mark → Prop
  | .install => marks h = [] ∧ start h
  | .paste text => (text = certificatePem ∧ marks h = [.install] ∧ PastePrompted h) ∨
      (text = "\n" ∧ marks h = [.paste certificatePem, .install])
  | .confirm => marks h = [.paste "\n", .paste certificatePem, .install] ∧ ReplacementPrompted h
  | _ => False

/-! Commands. -/

theorem commandMark_install : commandMark installCommand = some .install := rfl

theorem commandMark_confirm : commandMark confirmCommand = some .confirm := rfl

/-! The prompts. -/

variable {G : History World → Call → Prop} {s : σ} {h : History World}

theorem wpy_sendCertificatePem {certificatePem : Text} {Q : Except Exc Text → σ → History World → Prop}
    (hG : Lenient G)
    (hpem : ∀ t, marks t = [] → G (t ++ h) (.writeChannel certificatePem))
    (hend : ∀ t, marks t = [.paste certificatePem] → G (t ++ h) (.writeChannel "\n"))
    (hok : ∀ out t, ⟨.readChannelTiming, .ok out⟩ ∈ t →
      marks t = [.paste "\n", .paste certificatePem] → Q (.ok out) s (t ++ h))
    (herr : ∀ e t, Q (.error e) s (t ++ h)) :
    wpy G (sendCertificatePem certificatePem) Q s h := by
  refine wpy_withReadBudget hG (fun e t _ => herr _ t) fun t ht => ?_
  have hfail : ∀ e r' t' u, Overridden (.error e) r' → Q r' s (u ++ (t' ++ h)) := by
    intro e r' t' u ho
    rw [← List.append_assoc]
    cases r' with
    | ok a => cases ho.ok
    | error e' => exact herr e' _
  have ht₁ : ∀ r, marks (⟨.writeChannel certificatePem, r⟩ :: t) = [.paste certificatePem] := by
    intro r
    rw [marks_cons, ht]
    rfl
  refine wpy_bind_ask (hpem t ht) (fun r _ _ => ?_) fun r e _ r' u ho _ => hfail _ r' (_ :: t) u ho
  refine wpy_bind_ask (hend _ (ht₁ r)) (fun r' _ _ => ?_)
    fun _ e _ r' u ho _ => hfail _ r' (_ :: _ :: t) u ho
  refine wpy_ask.mpr ⟨hG _ _ rfl rfl, fun reply r'' u ho hu => ?_⟩
  cases reply with
  | error e => exact hfail _ r'' (_ :: _ :: _ :: t) u ho
  | ok out =>
    cases r'' with
    | error e => exact hfail e _ (_ :: _ :: _ :: t) u (.refl _)
    | ok out' =>
      obtain rfl : out = out' := by simpa using ho.ok
      have hm : marks (u ++ ⟨.readChannelTiming, .ok out⟩ :: ⟨.writeChannel "\n", r'⟩ ::
          ⟨.writeChannel certificatePem, r⟩ :: t) = [.paste "\n", .paste certificatePem] := by
        rw [marks_append, hu, marks_cons_quiet rfl, marks_cons, ht₁]
        rfl
      have hq := hok out _ (by simp) hm
      rwa [List.append_assoc] at hq

theorem PastePrompted.append {t : History World} (hp : PastePrompted t) : PastePrompted (t ++ h) := by
  obtain ⟨out, hm, hc⟩ := hp
  exact ⟨out, List.mem_append_left _ hm, hc⟩

theorem ReplacementPrompted.append {t : History World} (hp : ReplacementPrompted t) :
    ReplacementPrompted (t ++ h) := by
  obtain ⟨out, hm, hc⟩ := hp
  exact ⟨out, List.mem_append_left _ hm, hc⟩

/-- The dialogue's gate on top of a history without marks. -/
theorem dialogueGate_append {start start' : History World → Prop} {certificatePem : Text}
    {t : History World} {m : Mark} (hm : marks h = []) (hs : start t → start' (t ++ h))
    (hg : dialogueGate start certificatePem t m) :
    dialogueGate start' certificatePem (t ++ h) m := by
  cases m with
  | install => exact ⟨by simp [hg.1, hm], hs hg.2⟩
  | paste text =>
    obtain ⟨ht, hmt, hp⟩ | ⟨ht, hmt⟩ := hg
    · exact .inl ⟨ht, by simp [hmt, hm], hp.append⟩
    · exact .inr ⟨ht, by simp [hmt, hm]⟩
  | confirm => exact ⟨by simp [hg.1, hm], hg.2.append⟩
  | connect => exact hg.elim
  | createCsr command => exact hg.elim
  | certAdd payload => exact hg.elim

/-- The prompts: each answer is checked before the next thing is sent. -/
theorem installPrompts_spec (certificatePem : Text) (s : σ) :
    wpy (gate (dialogueGate (fun _ => True) certificatePem)) (installPrompts certificatePem)
      (fun r s' t => s' = s ∧ either (fun _ => marks t = installMarks certificatePem)
        (fun _ => True) r) s [] := by
  rw [installPrompts, wpy_bind]
  refine wpy_sendCommandTiming lenient_gate commandMark_install ?_ ?_ fun _ _ => ⟨rfl, trivial⟩
  · intro t ht
    refine ⟨rfl, fun m hm => ?_⟩
    obtain rfl : Mark.install = m := by simpa [Call.mark?, commandMark_install] using hm
    exact ⟨by simpa using ht, trivial⟩
  intro pastePrompt t₁ hp₁ ht₁
  rw [either_ok]
  refine wpy_bind_result (fun _ hc₁ => ?_) fun _ _ => ⟨rfl, trivial⟩
  rw [wpy_bind]
  have hprompted : ∀ h, PastePrompted (h ++ (t₁ ++ [])) := fun h =>
    ⟨pastePrompt, by simp [hp₁], hc₁⟩
  refine wpy_sendCertificatePem lenient_gate ?_ ?_ ?_ fun _ _ => ⟨rfl, trivial⟩
  · intro t ht
    refine ⟨rfl, fun m hm => ?_⟩
    obtain rfl : Mark.paste certificatePem = m := by simpa [Call.mark?] using hm
    exact .inl ⟨rfl, by simp [ht, ht₁], hprompted t⟩
  · intro t ht
    refine ⟨rfl, fun m hm => ?_⟩
    obtain rfl : Mark.paste "\n" = m := by simpa [Call.mark?] using hm
    exact .inr ⟨rfl, by simp [ht, ht₁]⟩
  intro replacementPrompt t₂ hp₂ ht₂
  rw [either_ok]
  refine wpy_bind_result (fun _ hc₂ => ?_) fun _ _ => ⟨rfl, trivial⟩
  rw [wpy_bind]
  refine wpy_sendCommandTiming lenient_gate commandMark_confirm ?_ ?_ fun _ _ => ⟨rfl, trivial⟩
  · intro t ht
    refine ⟨rfl, fun m hm => ?_⟩
    obtain rfl : Mark.confirm = m := by simpa [Call.mark?, commandMark_confirm] using hm
    exact ⟨by simp [ht, ht₁, ht₂], replacementPrompt, by simp [hp₂], hc₂⟩
  intro confirmationOutput t₃ _ ht₃
  rw [either_ok]
  refine wpy_result.mpr ⟨rfl, ?_⟩
  cases checkConfirmation confirmationOutput with
  | ok _ => simp [ht₁, ht₂, ht₃, installMarks]
  | error e => trivial

/-! The dialogue, its end and the verification. -/

/-- What the flags say: nothing was sent before `attempted`, all of it once `dialogueCompleted`. -/
def DialogueEnd (certificatePem : Text) (r : Except Exc Unit) (f : InstallFlags) (h : History World) :
    Prop :=
  either (fun _ => f.dialogueCompleted = true ∧ marks h = installMarks certificatePem)
    (fun _ => f.dialogueCompleted = false ∧ (f.attempted = false → marks h = [])) r

theorem installDialogue_spec (certificateName certificatePem expectedProfile : Text) :
    wpy (gate (dialogueGate (PendingSeen certificateName expectedProfile) certificatePem))
      (installDialogue certificateName certificatePem expectedProfile)
      (DialogueEnd certificatePem) {} [] := by
  rw [installDialogue, wpy_bind, readSummary]
  refine wpy_sendCommand lenient_gate commandMark_summary ?_ ?_
  swap
  · exact fun e t ht => ⟨rfl, fun _ => by simp [ht]⟩
  intro summaryOutput t₁ hp ht₁
  rw [either_ok]
  refine wpy_bind_result (fun _ hc => ?_) fun e _ => ⟨rfl, fun _ => by simp [ht₁]⟩
  have hseen : ∀ t, PendingSeen certificateName expectedProfile (t ++ (t₁ ++ [])) := fun t =>
    ⟨summaryOutput, by simp [hp], hc⟩
  rw [wpy_bind]
  refine silent_configMode.wpy_of lenient_gate ?_
  rintro (e | _) t₂ ht₂
  · exact ⟨rfl, fun _ => by simp [ht₁, ht₂]⟩
  rw [either_ok]
  rw [wpy_bind_modify, wpy_bind_modify]
  have hm : marks (t₂ ++ (t₁ ++ [])) = [] := by simp [ht₁, ht₂]
  rw [wpy_bind]
  refine wpy_use (installPrompts_spec certificatePem _) ?_ ?_
  · refine fun t c hg => ⟨hg.1, fun m hc => dialogueGate_append hm (fun _ => ?_) (hg.2 m hc)⟩
    rw [← List.append_assoc]
    exact hseen _
  rintro (e | _) f t₃ ⟨rfl, ht₃⟩
  · exact ⟨rfl, fun hf => by cases hf⟩
  · exact ⟨rfl, by rw [marks_append, hm, List.append_nil]; exact ht₃⟩

theorem wpy_leaveDialogue {G : History World → Call → Prop} {f : InstallFlags} {h : History World}
    {Q : Except Exc Unit → InstallFlags → History World → Prop} (hG : Lenient G)
    (hok : ∀ t, marks t = [] → Q (.ok ()) f (t ++ h))
    (herr : f.dialogueCompleted = true → ∀ e t, e.isCertificateInstallationAttemptError = true →
      marks t = [] → Q (.error e) f (t ++ h)) :
    wpy G leaveDialogue Q f h := by
  rw [leaveDialogue, wpy_bind_get]
  cases f.enteredConfigMode with
  | false => exact hok [] rfl
  | true =>
    refine wpy_call.mpr ⟨hG _ _ rfl rfl, fun poisoned => ?_⟩
    cases poisoned with
    | true => exact hok [_] rfl
    | false =>
      refine wpy_handle.mpr (silent_exitConfigMode.wpy_of hG ?_)
      intro r t ht
      have ht' : marks (t ++ [⟨.poisoned, false⟩]) = [] := by simp [ht, marks_cons, Call.mark?]
      rw [List.append_cons]
      cases r with
      | ok _ => exact hok _ ht'
      | error exitError =>
        rw [either_error, wpy_raiseIf]
        exact ⟨fun hf => herr hf _ _ rfl ht', fun _ => hok _ ht'⟩

theorem wpy_verifyInstalled {certificateName expectedProfile : Text}
    {Q : Except Exc Unit → σ → History World → Prop} (hG : Lenient G)
    (hok : ∀ t, marks t = [] → InstalledSeen certificateName expectedProfile t → Q (.ok ()) s (t ++ h))
    (herr : ∀ e t, marks t = [] → Q (.error e) s (t ++ h)) :
    wpy G (verifyInstalled certificateName expectedProfile) Q s h := by
  rw [verifyInstalled, wpy_bind, readSummary]
  refine wpy_sendCommand hG commandMark_summary ?_ herr
  intro summaryOutput t₁ hp₁ ht₁
  rw [either_ok]
  refine wpy_bind_result (fun _ hc₁ => ?_) fun e _ => herr e t₁ ht₁
  rw [wpy_bind]
  refine wpy_sendCommand hG (commandMark_detail _) ?_ ?_
  swap
  · intro e t₂ ht₂
    rw [← List.append_assoc]
    exact herr e _ (by simp [ht₁, ht₂])
  intro detailsOutput t₂ hp₂ ht₂
  rw [either_ok, ← List.append_assoc, wpy_result]
  have ht : marks (t₂ ++ t₁) = [] := by simp [ht₁, ht₂]
  cases hc₂ : checkInstalledDetails detailsOutput with
  | error e => exact herr e _ ht
  | ok _ =>
    exact hok _ ht ⟨⟨summaryOutput, by simp [hp₁], hc₁⟩, detailsOutput, by simp [hp₂], hc₂⟩

/-- How `install_signed_certificate` ends: an exception of another class came before the command. -/
def InstallEnd (certificateName certificatePem expectedProfile : Text) (r : Except Exc Unit)
    (h : History World) : Prop :=
  either
    (fun _ => marks h = installMarks certificatePem ∧
      InstallConfirmed certificateName certificatePem expectedProfile h)
    (fun e => e.isCertificateInstallationAttemptError = false → marks h = []) r

theorem InstallConfirmed.append {certificateName certificatePem expectedProfile : Text}
    {t u : History World} (hp : InstallConfirmed certificateName certificatePem expectedProfile t) :
    InstallConfirmed certificateName certificatePem expectedProfile (u ++ t ++ h) := by
  obtain ⟨u', v, rfl, hm, ⟨out₁, hm₁, hc₁⟩, out₂, hm₂, hc₂⟩ := hp
  refine ⟨u ++ u', v ++ h, by simp, ?_, ⟨out₁, List.mem_append_right _ hm₁, hc₁⟩, out₂,
    List.mem_append_right _ hm₂, hc₂⟩
  rw [marks_append]
  exact hm.trans (List.prefix_append _ _)

theorem installSignedCertificate_spec (certificateName certificatePem expectedProfile : Text) (s : σ) :
    wpy (gate (dialogueGate (PendingSeen certificateName expectedProfile) certificatePem))
      (installSignedCertificate certificateName certificatePem expectedProfile)
      (fun r s' t => s' = s ∧ InstallEnd certificateName certificatePem expectedProfile r t) s [] := by
  rw [installSignedCertificate, wpy_alone, wpy_bind, wpy_andFinally, wpy_handle]
  refine wpy_post (installDialogue_spec certificateName certificatePem expectedProfile) ?_
  rintro (e | _) f t₁ ⟨hf, hd⟩
  · -- the exit cannot hide the exception: the dialogue was not completed
    rw [either_error, wpy_bind_get, wpy_throw]
    refine wpy_leaveDialogue lenient_gate (fun t ht => ⟨rfl, fun hcls => ?_⟩) fun hc => ?_
    · cases ha : f.attempted with
      | true => simp [ha] at hcls; cases hcls
      | false => rw [marks_append, ht, hd ha]; rfl
    · rw [hf] at hc
      cases hc
  · rw [either_ok]
    refine wpy_leaveDialogue lenient_gate (fun t ht => ?_) fun _ e t he _ =>
      ⟨rfl, fun hcls => by rw [he] at hcls; cases hcls⟩
    rw [after_ok, either_ok]
    refine wpy_handle.mpr (wpy_verifyInstalled lenient_gate ?_ ?_)
    · intro t' ht' hseen
      refine ⟨rfl, by rw [marks_append, marks_append, ht, ht', hd]; rfl, t', _, rfl, ?_, hseen⟩
      rw [marks_append, ht]
      exact hd ▸ List.prefix_rfl
    · refine fun e t' _ => ⟨rfl, fun hcls => ?_⟩
      cases he : e.isCertificateInstallationAttemptError <;> simp [he] at hcls
      cases hcls

/-! `install_pending_certificate`. -/

section pending
variable (P : Platform) (switch : Switch) (certificateName certificatePem : Text)
  (settings : CsrSettings) (lifetimeDays : Nat) (ca : VerificationCaSnapshot) (digest : Text)
  (minimumRemainingDays : Option Nat)

/-- The certificate was checked against the CSR on the switch and against the verification CA. -/
structure Validated (certificate : Certificate) (h : History World) : Prop where
  csr : ∃ csrPem csr, CsrRead P switch certificateName settings csrPem csr h ∧
    matchIssuedCertificate P certificatePem csr switch = .ok certificate
  times : ∃ now : Int, ⟨.utcNow, now⟩ ∈ h ∧
    checkIssuedTimes certificate lifetimeDays digest now false minimumRemainingDays = .ok ()
  trust : ∃ trusted expected, loadTrusted P ca = .ok trusted ∧
    serverName switch.host = .ok expected ∧
    ⟨.verifyServer trusted expected certificate, .ok none⟩ ∈ h

/-- What the install command is sent after: the name pending at both reads of the summary with
one profile, and the certificate validated. -/
def ReadyToInstall (h : History World) : Prop :=
  ∃ u v out entry certificate, h = u ++ v ∧ ⟨.sendCommand summaryCommand, .ok out⟩ ∈ v ∧
    requirePendingWebCertificate out certificateName = .ok entry ∧
    PendingSeen certificateName entry.profile u ∧
    Validated P switch certificateName certificatePem settings lifetimeDays ca digest
      minimumRemainingDays certificate h

/-- The gate of `install_pending_certificate`: one connection, and the dialogue in its session. -/
def pendingGate (h : History World) : Mark → Prop
  | .connect => marks h = []
  | m => marks h = marks (session h) ++ [.connect] ∧
      dialogueGate (ReadyToInstall P switch certificateName certificatePem settings lifetimeDays ca
        digest minimumRemainingDays) certificatePem (session h) m

end pending

/-- What `install_pending_certificate` reports, in order. -/
def installProgress : Log :=
  [.pendingCsrObserved, .csrRetrievalStarted, .csrRetrieved, .issuedValidationStarted,
    .issuedValidated, .installationPrepared]

/-- While an exception was leaving the connection, closing it or removing its snapshot raised. -/
def ClosingRaised (h : History World) : Prop :=
  ∃ directory y f x t, h = ⟨.rmtree directory, y⟩ :: ⟨.disconnect (some f), x⟩ :: t ∧ Replaces x y

theorem closingRaised_iff {directory : Text} {f : Option Exc} {x y : Except StdError Unit}
    {t : History World} :
    ClosingRaised (⟨.rmtree directory, y⟩ :: ⟨.disconnect f, x⟩ :: t) ↔ f.isSome ∧ Replaces x y := by
  constructor
  · rintro ⟨_, _, _, _, _, he, hr⟩
    cases he
    exact ⟨rfl, hr⟩
  · rintro ⟨hf, hr⟩
    obtain ⟨e, rfl⟩ := Option.isSome_iff_exists.mp hf
    exact ⟨_, _, _, _, _, rfl, hr⟩

theorem wpy_verifyIssuedCertificateTrust {P : Platform} {certificate : Certificate} {switch : Switch}
    {snapshot : VerificationCaSnapshot} {Q : Except Exc Unit → σ → History World → Prop}
    (hG : Lenient G)
    (hok : ∀ trusted expected t, marks t = [] → loadTrusted P snapshot = .ok trusted →
      serverName switch.host = .ok expected →
      ⟨.verifyServer trusted expected certificate, .ok none⟩ ∈ t → Q (.ok ()) s (t ++ h))
    (herr : ∀ e t, marks t = [] → Q (.error e) s (t ++ h)) :
    wpy G (verifyIssuedCertificateTrust P certificate switch snapshot) Q s h := by
  refine wpy_bind_result (fun trusted ht => ?_) fun e _ => herr e [] rfl
  refine wpy_bind_result (fun expected he => ?_) fun e _ => herr e [] rfl
  refine wpy_bind_ask (hG _ _ rfl rfl) ?_ fun r e _ => herr _ [_] rfl
  rintro r (_ | reason) rfl
  · exact hok trusted expected [_] rfl ht he (by simp)
  · exact herr _ [_] rfl

theorem wpy_validateForInstallation {P : Platform} {switch : Switch}
    {certificateName certificatePem : Text} {settings : CsrSettings} {lifetimeDays : Nat}
    {ca : VerificationCaSnapshot} {digest : Text} {minimumRemainingDays : Option Nat} {log : Log}
    {Q : Except Exc Certificate → Log → History World → Prop} (hG : Lenient G)
    (hok : ∀ certificate t, marks t = [] → Validated P switch certificateName certificatePem settings
      lifetimeDays ca digest minimumRemainingDays certificate t →
      Q (.ok certificate) (log ++ installProgress) (t ++ h))
    (herr : ∀ e k t, marks t = [] → Q (.error e) (log ++ installProgress.take k) (t ++ h)) :
    wpy G (validateForInstallation P switch certificateName certificatePem settings lifetimeDays ca
      digest minimumRemainingDays) Q log h := by
  rw [validateForInstallation, wpy_bind_progress, wpy_bind_progress, wpy_bind]
  have hlog : ∀ k log', log' = log ++ installProgress.take k → ∀ e t, marks t = [] →
      Q (.error e) log' (t ++ h) := by
    rintro k log' rfl e t ht
    exact herr e k t ht
  have hread := hlog 2 (log ++ [.pendingCsrObserved] ++ [.csrRetrievalStarted])
    (List.append_assoc _ _ _)
  refine wpy_retrieveAndValidateCsr hG ?_ hread
  intro csrPem csr' t₁ ht₁ hcsr'
  rw [either_ok]
  refine wpy_bind_result (fun csr hcsr => ?_) fun e _ => hread e t₁ ht₁
  obtain rfl : csr = csr' := by
    obtain ⟨_, _, _, hv⟩ := hcsr'
    exact Except.ok.inj (hcsr.symm.trans hv)
  rw [wpy_bind_progress, wpy_bind_progress, wpy_bind]
  have hvalidate := hlog 4 (log ++ [.pendingCsrObserved] ++ [.csrRetrievalStarted] ++
    [.csrRetrieved] ++ [.issuedValidationStarted]) (by simp [installProgress])
  refine wpy_validateIssuedCertificate hG ?_ ?_
  swap
  · intro e t₂ ht₂
    rw [← List.append_assoc]
    exact hvalidate e _ (by simp [ht₁, ht₂])
  intro certificate now hmatch htimes
  rw [either_ok, wpy_bind]
  refine wpy_verifyIssuedCertificateTrust hG ?_ ?_
  swap
  · intro e t₂ ht₂
    rw [← List.cons_append, ← List.append_assoc]
    exact hvalidate e _ (by simp [marks_cons, Call.mark?, ht₁, ht₂])
  intro trusted expected t₂ ht₂ htrusted hexpected hverified
  rw [either_ok]
  refine wpy_call.mpr ⟨hG _ _ rfl rfl, fun later => ?_⟩
  have hm : marks (⟨.utcNow, later⟩ :: t₂ ++ ⟨.utcNow, now⟩ :: t₁) = [] := by
    simp [marks_cons, Call.mark?, ht₁, ht₂]
  refine wpy_bind_result (fun _ _ => ?_) fun e _ => ?_
  · have hq := hok certificate _ hm ⟨⟨csrPem, csr, ?_, hmatch⟩, ⟨now, by simp, htimes⟩,
      trusted, expected, htrusted, hexpected, by simp [hverified]⟩
    · rw [wpy_bind_progress, wpy_bind_progress, wpy_pure]
      simpa [installProgress] using hq
    · obtain ⟨out, ho, hc⟩ := hcsr'
      exact ⟨out, by simp [ho], hc⟩
  · have hq := hvalidate e _ hm
    simpa using hq

/-- How the body of the connection of `install_pending_certificate` ends. -/
def PendingBodyEnd (P : Platform) (switch : Switch) (certificateName certificatePem : Text)
    (settings : CsrSettings) (lifetimeDays : Nat) (ca : VerificationCaSnapshot) (digest : Text)
    (minimumRemainingDays : Option Nat) (log : Log) (r : Except Exc Certificate) (v : Log × Bool)
    (t : History World) : Prop :=
  (∃ k, v.1 = log ++ installProgress.take k) ∧
  either
    (fun certificate => v.2 = true ∧ v.1 = log ++ installProgress ∧
      marks t = installMarks certificatePem ∧
      Validated P switch certificateName certificatePem settings lifetimeDays ca digest
        minimumRemainingDays certificate t ∧
      ∃ profile, InstallConfirmed certificateName certificatePem profile t)
    (fun e => v.2 = false ∧ (e.isCertificateInstallationAttemptError = false → marks t = [])) r

/-- How `install_pending_certificate` ends. -/
def PendingEnd (P : Platform) (switch : Switch) (certificateName certificatePem : Text)
    (settings : CsrSettings) (lifetimeDays : Nat) (ca : VerificationCaSnapshot) (digest : Text)
    (minimumRemainingDays : Option Nat) (log : Log) (r : Except Exc Certificate) (log' : Log)
    (t : History World) : Prop :=
  (∃ k, log' = log ++ installProgress.take k) ∧
  either
    (fun certificate => log' = log ++ installProgress ∧
      marks t = installMarks certificatePem ++ [.connect] ∧
      Validated P switch certificateName certificatePem settings lifetimeDays ca digest
        minimumRemainingDays certificate (session t) ∧
      (∃ profile, InstallConfirmed certificateName certificatePem profile (session t)) ∧
      ¬ClosingRaised t)
    (fun e => e.isCertificateInstallationAttemptError = false ∧ Mark.install ∈ marks t ↔
      Mark.install ∈ marks t ∧ ClosingRaised t) r

theorem wpy_readPendingEntry {certificateName : Text} {Q : Except Exc SummaryEntry → σ → History World → Prop}
    (hG : Lenient G)
    (hok : ∀ out entry t, marks t = [] → ⟨.sendCommand summaryCommand, .ok out⟩ ∈ t →
      requirePendingWebCertificate out certificateName = .ok entry → Q (.ok entry) s (t ++ h))
    (herr : ∀ e t, marks t = [] → Q (.error e) s (t ++ h)) :
    wpy G (readPendingEntry certificateName) Q s h := by
  rw [readPendingEntry, wpy_bind, readSummary]
  refine wpy_sendCommand hG commandMark_summary ?_ herr
  intro out t hp ht
  rw [either_ok, wpy_result]
  cases hc : checkSummarySize out with
  | error e => exact herr e t ht
  | ok _ =>
    cases hr : requirePendingWebCertificate out certificateName with
    | error e => exact herr e t ht
    | ok entry => exact hok out entry t ht hp hr

section pending
variable {P : Platform} {switch : Switch} {certificateName certificatePem : Text}
  {settings : CsrSettings} {lifetimeDays : Nat} {ca : VerificationCaSnapshot} {digest : Text}
  {minimumRemainingDays : Option Nat}

theorem Validated.append {certificate : Certificate} {t u : History World}
    (hv : Validated P switch certificateName certificatePem settings lifetimeDays ca digest
      minimumRemainingDays certificate t) :
    Validated P switch certificateName certificatePem settings lifetimeDays ca digest
      minimumRemainingDays certificate (u ++ t ++ h) where
  csr := by
    obtain ⟨csrPem, csr, ⟨out, hm, hc⟩, hmatch⟩ := hv.csr
    exact ⟨csrPem, csr, ⟨out, by simp [hm], hc⟩, hmatch⟩
  times := by
    obtain ⟨now, hm, hc⟩ := hv.times
    exact ⟨now, by simp [hm], hc⟩
  trust := by
    obtain ⟨trusted, expected, ht, he, hm⟩ := hv.trust
    exact ⟨trusted, expected, ht, he, by simp [hm]⟩

theorem installOverConnection_spec (log : Log) :
    wpy (gate (dialogueGate (ReadyToInstall P switch certificateName certificatePem settings
        lifetimeDays ca digest minimumRemainingDays) certificatePem))
      (installOverConnection P switch certificateName certificatePem settings lifetimeDays ca digest
        minimumRemainingDays)
      (PendingBodyEnd P switch certificateName certificatePem settings lifetimeDays ca digest
        minimumRemainingDays log) (log, false) [] := by
  rw [installOverConnection, wpy_bind]
  refine wpy_readPendingEntry lenient_gate ?_ fun e t ht => ⟨⟨0, by simp⟩, rfl, fun _ => by simp [ht]⟩
  intro out entry t₁ ht₁ hp hentry
  rw [either_ok, wpy_bind, wpy_outer]
  refine wpy_validateForInstallation lenient_gate ?_ fun e k t ht =>
    ⟨⟨k, rfl⟩, rfl, fun _ => by simp [ht, ht₁]⟩
  intro certificate t₂ ht₂ hv
  rw [either_ok, wpy_bind]
  have hm : marks (t₂ ++ (t₁ ++ [])) = [] := by simp [ht₁, ht₂]
  refine wpy_use (installSignedCertificate_spec certificateName certificatePem entry.profile _) ?_ ?_
  · refine fun t c hg => ⟨hg.1, fun m hc => dialogueGate_append hm (fun hseen => ?_) (hg.2 m hc)⟩
    have hv' := hv.append (u := t) (h := t₁ ++ [])
    rw [List.append_assoc] at hv'
    exact ⟨t, _, out, entry, certificate, rfl, by simp [hp], hentry, hseen, hv'⟩
  rintro (e | _) v t₃ ⟨rfl, hend⟩
  · exact ⟨⟨6, rfl⟩, rfl, fun hcls => by rw [marks_append, hm, hend hcls]; rfl⟩
  · have hv' := hv.append (u := t₃) (h := t₁ ++ [])
    rw [List.append_assoc] at hv'
    rw [either_ok]
    have hi := hend.2.append (u := []) (h := t₂ ++ (t₁ ++ []))
    exact ⟨⟨6, rfl⟩, rfl, rfl, by rw [marks_append, hm, hend.1]; rfl, hv', _, hi⟩

/-- Over the connection of a call, the gate of the body is the gate of the call. -/
theorem pendingGate_of_dialogue {d : Device} {x : Except StdError Unit} {t u : History World} {c : Call}
    (hu : marks u = [])
    (hg : gate (dialogueGate (ReadyToInstall P switch certificateName certificatePem settings
      lifetimeDays ca digest minimumRemainingDays) certificatePem) t c) :
    gate (pendingGate P switch certificateName certificatePem settings lifetimeDays ca digest
      minimumRemainingDays) (t ++ ⟨.connect d, x⟩ :: u) c := by
  refine ⟨hg.1, fun m hc => ?_⟩
  have hd := hg.2 m hc
  have hopen : marks (⟨.connect d, x⟩ :: u) = [.connect] := by rw [marks_cons, hu]; rfl
  have hsession : ∀ ms, marks t = ms → Mark.connect ∉ ms →
      session (t ++ ⟨.connect d, x⟩ :: u) = t := fun ms ht hn => session_opened (by rwa [ht])
  cases m with
  | connect => exact hd.elim
  | createCsr command => exact hd.elim
  | certAdd payload => exact hd.elim
  | install =>
    have hs := hsession _ hd.1 (by simp)
    exact ⟨by rw [hs, marks_append, hopen], by rw [hs]; exact hd⟩
  | confirm =>
    have hs := hsession _ hd.1 (by simp)
    exact ⟨by rw [hs, marks_append, hopen], by rw [hs]; exact hd⟩
  | paste text =>
    have hs : session (t ++ ⟨.connect d, x⟩ :: u) = t := by
      obtain ⟨_, ht, _⟩ | ⟨_, ht⟩ := hd
      · exact hsession _ ht (by simp)
      · exact hsession _ ht (by simp)
    exact ⟨by rw [hs, marks_append, hopen], by rw [hs]; exact hd⟩

/-- A failure after a completed installation is always reported as an attempt. -/
theorem installPendingError_completed (e : Exc) :
    (installPendingError true e).isCertificateInstallationAttemptError = true := by
  unfold installPendingError
  split
  · assumption
  · repeat' split
    all_goals first | rfl | contradiction

/-- A package's exception before that never is. -/
theorem installPendingError_std (e : StdError) :
    (installPendingError false (.std e)).isCertificateInstallationAttemptError = false := by
  unfold installPendingError
  repeat' split
  all_goals first | rfl | contradiction

theorem installPendingError_attempt {e : Exc} (he : e.isCertificateInstallationAttemptError = true) :
    installPendingError false e = e := by
  simp [installPendingError, he]

theorem installPendingCertificate_spec (credentials : Credentials) (log : Log) :
    wpy (gate (pendingGate P switch certificateName certificatePem settings lifetimeDays ca digest
        minimumRemainingDays))
      (installPendingCertificate P switch credentials certificateName certificatePem settings
        lifetimeDays ca digest minimumRemainingDays)
      (PendingEnd P switch certificateName certificatePem settings lifetimeDays ca digest
        minimumRemainingDays log) log [] := by
  have hearly : ∀ e t, (marks t = [] ∨ marks t = [.connect]) →
      PendingEnd P switch certificateName certificatePem settings lifetimeDays ca digest
        minimumRemainingDays log (.error e) log t := by
    intro e t ht
    have hno : Mark.install ∉ marks t := by obtain ht | ht := ht <;> simp [ht]
    exact ⟨⟨0, by simp⟩, by simp [hno]⟩
  refine wpy_bind_result (fun _ _ => ?_) fun e _ => hearly e [] (.inl rfl)
  refine wpy_bind_result (fun _ _ => ?_) fun e _ => hearly e [] (.inl rfl)
  rw [wpy_withVars, wpy_handle]
  refine wpy_sshConnection lenient_gate ?_ ?_ ?_
  · refine fun d t ht => ⟨rfl, fun m hm => ?_⟩
    obtain rfl : Mark.connect = m := by simpa [Call.mark?] using hm
    simpa [pendingGate] using ht
  · exact fun e t ht => hearly _ _ (by simpa using ht)
  intro d u hu
  refine wpy_use (installOverConnection_spec log) (fun t c hg => ?_) ?_
  · exact pendingGate_of_dialogue (by simpa using hu) hg
  rintro r ⟨log', completed⟩ t ⟨hlog, hend⟩ x y directory
  have hm : marks (⟨.rmtree directory, y⟩ :: ⟨.disconnect (inFlight r), x⟩ ::
      (t ++ ⟨.connect d, .ok ()⟩ :: (u ++ []))) = marks t ++ [.connect] := by
    simp [marks_cons, Call.mark?, hu]
  cases r with
  | ok certificate =>
    obtain ⟨hcompleted, hfull, hmarks, hv, profile, hseen⟩ := hend
    change completed = true at hcompleted
    subst hcompleted
    have hclosing : ¬ClosingRaised (⟨.rmtree directory, y⟩ :: ⟨.disconnect none, x⟩ ::
        (t ++ ⟨.connect d, .ok ()⟩ :: (u ++ []))) := by simp [closingRaised_iff]
    cases hr : closed (.ok certificate) x y with
    | error e =>
      refine ⟨hlog, Iff.intro (fun hcls => ?_) fun hc => absurd hc.2 hclosing⟩
      rw [installPendingError_completed] at hcls
      cases hcls.1
    | ok certificate' =>
      obtain rfl : certificate = certificate' := closed_ok hr
      have hsession : session (⟨.rmtree directory, y⟩ :: ⟨.disconnect none, x⟩ ::
          (t ++ ⟨.connect d, .ok ()⟩ :: (u ++ []))) =
          [⟨.rmtree directory, y⟩, ⟨.disconnect none, x⟩] ++ t ++ [] := by
        refine .trans (session_opened (t := ⟨.rmtree directory, y⟩ :: ⟨.disconnect none, x⟩ :: t) ?_)
          (List.append_nil _).symm
        simp [marks_cons, Call.mark?, hmarks, installMarks]
      refine ⟨hlog, hfull, hm.trans (by rw [hmarks]), ?_, ⟨profile, ?_⟩, hclosing⟩
      · exact hsession ▸ hv.append
      · exact hsession ▸ hseen.append
  | error e =>
    obtain ⟨hcompleted, hcls⟩ := hend
    change completed = false at hcompleted
    subst hcompleted
    have hclosing : ClosingRaised (⟨.rmtree directory, y⟩ :: ⟨.disconnect (some e), x⟩ ::
        (t ++ ⟨.connect d, .ok ()⟩ :: (u ++ []))) ↔ (some e).isSome ∧ Replaces x y :=
      closingRaised_iff
    by_cases hxy : Replaces x y
    · obtain ⟨e', he'⟩ := closed_of_replaces (r := (.error e : Except Exc Certificate)) hxy
      rw [he']
      refine ⟨hlog, Iff.intro (fun hcls => ⟨hcls.2, hclosing.mpr ⟨rfl, hxy⟩⟩) fun hc => ?_⟩
      exact ⟨installPendingError_std e', hc.1⟩
    · rw [closed_error_of_not_replaces hxy]
      refine ⟨hlog, Iff.intro (fun hno => ?_) fun hc => absurd (hclosing.mp hc.2).2 hxy⟩
      exfalso
      cases he : e.isCertificateInstallationAttemptError with
      | true =>
        rw [installPendingError_attempt he, he] at hno
        cases hno.1
      | false =>
        have hnone : Mark.install ∉ marks (⟨.rmtree directory, y⟩ ::
            ⟨.disconnect (inFlight (Except.error e : Except Exc Certificate)), x⟩ ::
              (t ++ ⟨.connect d, .ok ()⟩ :: (u ++ []))) := by
          rw [hm, hcls he]
          simp
        exact hnone hno.2

end pending

end ArubaCertRenewer
