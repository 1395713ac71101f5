import ArubaCertRenewer.Installation
import ArubaCertRenewer.LiveMatch
import ArubaCertRenewer.Surroundings

/- A whole renewal: its three parts (the preflight, the issuance, the
   installation), when each of its marks is made, and how it can end.

   The certificate name is chosen in the first part, the certificate text is known
   after the second; what is said of every mark is said of that name and text. -/
namespace ArubaCertRenewer
open PyText Effects Effects.Py

/-- `reraiseAs`, on the exception. -/
def reraised (wrap : Text → Exc) (keep : Exc → Bool) (e : Exc) : Exc :=
  if keep e then e else if e.isValueError || e.isOsError then wrap e.str else e

/-- An exception that is not of the program's own classes. -/
def Exc.Plain (e : Exc) : Prop := ∃ e', e = .std e'

theorem Exc.plain_of_not {e : Exc} (he : (e.isValueError || e.isOsError) = false) : e.Plain := by
  cases e with
  | std e' => exact ⟨e', rfl⟩
  | own c m => cases he

theorem reraised_cases (wrap : Text → Exc) (keep : Exc → Bool) (e : Exc) :
    (keep e = true ∧ reraised wrap keep e = e) ∨
      (keep e = false ∧ ∃ m, reraised wrap keep e = wrap m) ∨
      (keep e = false ∧ (reraised wrap keep e).Plain) := by
  unfold reraised
  cases hk : keep e with
  | true => exact .inl ⟨rfl, rfl⟩
  | false =>
    cases hv : e.isValueError || e.isOsError with
    | true => exact .inr (.inl ⟨rfl, e.str, rfl⟩)
    | false => exact .inr (.inr ⟨rfl, Exc.plain_of_not hv⟩)

section rules
variable {σ α : Type} {G : History World → Call → Prop} {s : σ} {h : History World}

theorem wpy_reraiseAs {wrap : Text → Exc} {keep : Exc → Bool} {x : Act σ α}
    {Q : Except Exc α → σ → History World → Prop} :
    wpy G (reraiseAs wrap keep x) Q s h ↔
      wpy G x (fun r s' h' => Q (r.mapError (reraised wrap keep)) s' h') s h := by
  refine wpy_handle.trans ?_
  constructor
  · refine fun hw => wpy_post hw ?_
    rintro (e | a) s' t hq
    · exact hq
    · exact hq
  · refine fun hw => wpy_post hw ?_
    rintro (e | a) s' t hq
    · exact hq
    · exact hq

end rules

/-! Gates over a run so far. -/

/-- Every mark made since `h₀` was made where `φ` allows it. -/
def Gated (φ : History World → Mark → Prop) (h₀ h : History World) : Prop :=
  ∀ post ev pre, h = post ++ ev :: pre → h₀.length ≤ pre.length →
    ∀ m, ev.call.mark? = some m → φ pre m

section gated
variable {φ : History World → Mark → Prop} {h₀ h₁ h : History World}

theorem gated_of_reaches {σ α : Type} {x : Act σ α} {Q : Except Exc α → σ → History World → Prop}
    {s : σ} (hw : wpy (gate φ) x Q s h₀) (hr : Reaches (x.prog s) h₀ h) : Gated φ h₀ h :=
  fun _ _ _ hs hn => (wp_reaches hw hr hs hn).2

theorem Gated.trans (hg : Gated φ h₀ h₁) (hg' : Gated φ h₁ h) (hs : h₁ <:+ h) : Gated φ h₀ h := by
  intro post ev pre he hn
  by_cases hlt : h₁.length ≤ pre.length
  · exact hg' post ev pre he hlt
  · -- the event is one of the first part
    have hpre : ev :: pre <:+ h := ⟨post, he.symm⟩
    have hlen : (ev :: pre).length ≤ h₁.length := by
      rw [List.length_cons]
      omega
    obtain ⟨post', hp⟩ := List.suffix_of_suffix_length_le hpre hs hlen
    exact hg post' ev pre hp.symm hn

theorem Gated.tail {ev : Event World} (hg : Gated φ [] (ev :: h)) : Gated φ [] h :=
  fun post ev' pre he hn => hg (ev :: post) ev' pre (by rw [he]; rfl) hn

theorem Gated.head {ev : Event World} (hg : Gated φ [] (ev :: h)) :
    ∀ m, ev.call.mark? = some m → φ h m :=
  hg [] ev h rfl (Nat.zero_le _)

end gated

/-! The three parts. -/

section parts
variable (P : Platform) (switch : Switch) (credentials : Credentials) (settings : CsrSettings)
  (opnsense : OpnsenseSettings) (ca : VerificationCaSnapshot) (minimumRemainingDays : Option Nat)
  (certificateName certificatePem : Text)

/-- From the preflight to the certificate text. -/
def issueCertificate : Act Log Text := do
  progress .preflightConfirmed
  let _ ← reraiseAs (.own .csrGenerationPreAttempt) Exc.isCsrGenerationError
    (generateCsr P switch credentials certificateName settings)
  progress .csrConfirmed
  reraiseAs (fun e => .own .csrSigning (pendingRemains e)) (fun _ => false)
    (signPendingCsr P switch credentials certificateName settings opnsense minimumRemainingDays)

/-- From the certificate text to the end. -/
def installIssued : Act Log Text := do
  let certificate ← reraiseAs (fun e => .own .certificatePreInstallation (pendingRemains e))
    Exc.isCertificateInstallationAttemptError
    (installPendingCertificate P switch credentials certificateName certificatePem settings
      opnsense.lifetimeDays ca opnsense.digest minimumRemainingDays)
  progress (.installationConfirmed certificate)
  reraiseAs (.own .liveHttpsVerification) (fun _ => false)
    (verifyLiveHttpsCertificate P switch ca certificate)
  progress .liveTlsConfirmed
  return certificateName

theorem renewCertificate_eq :
    renewCertificate P switch credentials settings opnsense ca minimumRemainingDays =
      renewalPreflight switch credentials >>= fun preflight =>
        issueCertificate P switch credentials settings opnsense minimumRemainingDays
            preflight.newCertificateName >>= fun certificatePem =>
          installIssued P switch credentials settings opnsense ca minimumRemainingDays
            preflight.newCertificateName certificatePem := by
  simp only [renewCertificate, issueCertificate, installIssued, bind_assoc]

/-- When a renewal for one name, with one certificate text, makes each of its marks. -/
def renewalGate (h : History World) : Mark → Prop
  | .connect => True
  | .createCsr command => mutations h = [] ∧
      NameWasFree switch certificateName settings command (session h)
  | .certAdd payload => ∃ command csrPem csr, mutations h = [.createCsr command] ∧
      CsrRead P switch certificateName settings csrPem csr h ∧
      SigningRequest switch certificateName opnsense csr payload
  | .install => ∃ command payload, mutations h = [.certAdd payload, .createCsr command] ∧
      ReadyToInstall P switch certificateName certificatePem settings opnsense.lifetimeDays ca
        opnsense.digest minimumRemainingDays (session h)
  | .paste text => ∃ command payload,
      (text = certificatePem ∧ PastePrompted (session h) ∧
        mutations h = [.install, .certAdd payload, .createCsr command]) ∨
      (text = "\n" ∧
        mutations h = [.paste certificatePem, .install, .certAdd payload, .createCsr command])
  | .confirm => ∃ command payload, ReplacementPrompted (session h) ∧
      mutations h = [.paste "\n", .paste certificatePem, .install, .certAdd payload,
        .createCsr command]

/-- Everything a renewal sends that changes something, newest first. -/
def renewalMutations (command : Text) (payload : Option Json) (certificatePem : Text) : List Mark :=
  installMarks certificatePem ++ [.certAdd payload, .createCsr command]

end parts

variable {P : Platform} {switch : Switch} {credentials : Credentials} {settings : CsrSettings}
  {opnsense : OpnsenseSettings} {ca : VerificationCaSnapshot} {minimumRemainingDays : Option Nat}
  {certificateName certificatePem : Text} {log : Log} {h h₀ : History World}

/-- So what a renewal sent is always the first of that, in order and nothing twice. -/
theorem mutations_of_gated
    (hg : Gated (renewalGate P switch settings opnsense ca minimumRemainingDays certificateName
      certificatePem) [] h) :
    ∃ command payload, mutations h <:+ renewalMutations command payload certificatePem := by
  induction h with
  | nil => exact ⟨[], none, List.nil_suffix⟩
  | cons ev h ih =>
    have hcons : mutations (ev :: h) = (ev.call.mark?.toList.filter Mark.mutates) ++ mutations h := by
      simp [mutations, marks_cons]
    cases hm : ev.call.mark? with
    | none =>
      rw [hcons, hm]
      exact ih hg.tail
    | some m =>
      have hgate := hg.head m hm
      rw [hcons, hm]
      cases m with
      | connect => exact ih hg.tail
      | createCsr command => exact ⟨command, none, by rw [hgate.1]; exact ⟨_ :: _ :: _ :: _ :: [_], rfl⟩⟩
      | certAdd payload =>
        obtain ⟨command, _, _, hmut, _⟩ := hgate
        exact ⟨command, payload, by rw [hmut]; exact ⟨[_, _, _, _], rfl⟩⟩
      | install =>
        obtain ⟨command, payload, hmut, _⟩ := hgate
        exact ⟨command, payload, by rw [hmut]; exact ⟨[_, _, _], rfl⟩⟩
      | paste text =>
        obtain ⟨command, payload, ⟨rfl, _, hmut⟩ | ⟨rfl, hmut⟩⟩ := hgate
        · exact ⟨command, payload, by rw [hmut]; exact ⟨[_, _], rfl⟩⟩
        · exact ⟨command, payload, by rw [hmut]; exact ⟨[_], rfl⟩⟩
      | confirm =>
        obtain ⟨command, payload, _, hmut⟩ := hgate
        exact ⟨command, payload, by rw [hmut]; exact ⟨[], rfl⟩⟩

/-! The preflight. -/

theorem renewalPreflightError_cases (e : Exc) :
    (renewalPreflightError e).isRenewalPreflightError = true ∨ (renewalPreflightError e).Plain := by
  unfold renewalPreflightError
  split
  · exact .inl ‹_›
  split
  · exact .inl rfl
  split
  · exact .inl rfl
  split
  · exact .inl rfl
  · exact .inr (Exc.plain_of_not (Bool.eq_false_iff.mpr ‹_›))

theorem wpy_renewalPreflight {σ : Type} {s : σ} {G : History World → Call → Prop}
    {Q : Except Exc Preflight → σ → History World → Prop} (hG : Lenient G)
    (hconnect : ∀ d t, marks t = [] → G (t ++ h) (.connect d))
    (hok : ∀ preflight t, mutations t = [] → Q (.ok preflight) s (t ++ h))
    (herr : ∀ e t, mutations t = [] → (e.isRenewalPreflightError = true ∨ e.Plain) →
      Q (.error e) s (t ++ h)) :
    wpy G (renewalPreflight switch credentials) Q s h := by
  have hraise : ∀ e t, (marks t = [] ∨ marks t = [.connect]) →
      Q (.error (renewalPreflightError e)) s (t ++ h) := by
    intro e t ht
    refine herr _ t ?_ (renewalPreflightError_cases e)
    obtain ht | ht := ht <;> rw [mutations, ht] <;> rfl
  rw [renewalPreflight, wpy_handle, wpy_bind]
  refine wpy_connected hG hconnect hraise ?_
  intro d u hu
  have hm : ∀ t v, marks t = [] → marks v = [] →
      marks (v ++ (t ++ ⟨.connect d, .ok ()⟩ :: u)) = [.connect] := by
    intro t v ht hv
    simp [marks_cons, Call.mark?, ht, hv, hu]
  rw [readSummary]
  refine wpy_sendCommand hG commandMark_summary ?_ ?_
  · intro out t _ ht r' v hv _
    have ht' := hm t v ht hv
    cases r' with
    | error e => simpa using hraise e _ (.inr ht')
    | ok out' =>
      rw [either_ok]
      refine wpy_bind_result (fun active _ => ?_) fun e _ => by simpa using hraise e _ (.inr ht')
      refine wpy_call.mpr ⟨hG _ _ rfl rfl, fun now => ?_⟩
      refine wpy_bind_result (fun name _ => ?_) fun e _ => by
        simpa using hraise e (⟨.utcNow, now⟩ :: _) (.inr ht')
      have hq := hok ⟨active.name, active.profile, name⟩ (⟨.utcNow, now⟩ :: _)
        (by rw [mutations, marks_cons_quiet rfl, ht']; rfl)
      simpa using hq
  · intro e t ht r' v hv hr
    cases r' with
    | ok a => cases hr a rfl
    | error e' => simpa using hraise e' _ (.inr (hm t v ht hv))

/-! The issuance. -/

/-- What the issuance reports, in order. -/
def issueProgress : Log := [.preflightConfirmed, .csrConfirmed] ++ signProgress

/-- The creation of the CSR failed: nothing was sent, unless it says that a CSR may be there. -/
def GenerationFailed (log : Log) (e : Exc) (log' : Log) (t : History World) : Prop :=
  log' = log ++ [.preflightConfirmed] ∧
    (e.isCsrGenerationError = true ∧ (∀ m ∈ mutations t, m.isCreateCsr = true) ∨
      (e.isCsrGenerationPreAttemptError = true ∨ e.Plain) ∧ mutations t = [])

/-- The signing failed, having reported the first `k` of its progress. -/
def SigningFailed (P : Platform) (log : Log) (e : Exc) (log' : Log) (t : History World) : Prop :=
  ∃ k, log' = log ++ [.preflightConfirmed, .csrConfirmed] ++ signProgress.take k ∧
    (e.isCsrSigningError = true ∨ e.Plain) ∧ (6 ≤ k → IssuanceSaved P t) ∧
    ∃ command, mutations t = [.createCsr command] ∨
      5 ≤ k ∧ ∃ payload, mutations t = [.certAdd payload, .createCsr command]

def IssueEnd (P : Platform) (log : Log) (r : Except Exc Text) (log' : Log) (t : History World) :
    Prop :=
  either
    (fun certificatePem => log' = log ++ issueProgress ∧ IssuanceSaved P t ∧
      CertificateAnswered P certificatePem t ∧
      ∃ command payload, mutations t = [.certAdd payload, .createCsr command])
    (fun e => GenerationFailed log e log' t ∨ SigningFailed P log e log' t) r

/-- Every mark of `generate_csr` is a connection or a create command. -/
theorem generateCsr_marks (s : Log) :
    wpy (gate (generateGate switch certificateName settings))
      (generateCsr P switch credentials certificateName settings)
      (fun r s' t => (s' = s ∧ GenerateEnd P switch certificateName settings r t) ∧
        ∀ m ∈ (marks t).filter Mark.mutates, m.isCreateCsr = true) s [] := by
  refine wpy_marks (I := fun ms => ∀ m ∈ ms.filter Mark.mutates, m.isCreateCsr = true)
    (generateCsr_spec credentials s) (fun h m hg hms => ?_) (by simp)
  cases m with
  | connect => exact hms
  | createCsr command => simpa [Mark.mutates, Mark.isCreateCsr] using hms
  | _ => exact hg.elim

theorem issueCertificate_spec (ca : VerificationCaSnapshot) (certificatePem : Text)
    (h₀ : History World) (hm₀ : mutations h₀ = []) :
    wpy (gate (renewalGate P switch settings opnsense ca minimumRemainingDays certificateName
        certificatePem))
      (issueCertificate P switch credentials settings opnsense minimumRemainingDays
        certificateName)
      (fun r log' h => ∃ t, h = t ++ h₀ ∧ IssueEnd P log r log' t) log h₀ := by
  rw [issueCertificate, wpy_bind_progress, wpy_bind, wpy_reraiseAs]
  refine wpy_use (generateCsr_marks _) ?_ ?_
  · refine fun t c hg => ⟨hg.1, fun m hc => ?_⟩
    have hgate := hg.2 m hc
    cases m with
    | connect => trivial
    | createCsr command =>
      obtain ⟨ht, hfree⟩ := hgate
      refine ⟨by rw [mutations_append, hm₀, mutations, ht]; rfl, ?_⟩
      rwa [session_append_of_connect (by simp [ht])]
    | _ => exact hgate.elim
  rintro (e | csrPem) log₁ t₁ ⟨⟨rfl, hend⟩, hmarks⟩
  · refine ⟨t₁, rfl, .inl ⟨rfl, ?_⟩⟩
    have hnone : e.isCsrGenerationError = false → mutations t₁ = [] := by
      intro hcls
      obtain ht | ht := hend hcls <;> rw [mutations, ht] <;> rfl
    obtain ⟨hk, he⟩ | ⟨hk, m, he⟩ | ⟨hk, hp⟩ :=
      reraised_cases (.own .csrGenerationPreAttempt) Exc.isCsrGenerationError e
    · rw [he]
      exact .inl ⟨hk, hmarks⟩
    · rw [he]
      exact .inr ⟨.inl rfl, hnone hk⟩
    · exact .inr ⟨.inr hp, hnone hk⟩
  obtain ⟨command, ht₁, _⟩ := hend
  have hmut₁ : mutations (t₁ ++ h₀) = [.createCsr command] := by
    rw [mutations_append, hm₀, mutations, ht₁]
    rfl
  rw [Except.mapError, either_ok, wpy_bind_progress, wpy_reraiseAs]
  refine wpy_use signPendingCsr_spec ?_ ?_
  · refine fun t c hg => ⟨hg.1, fun m hc => ?_⟩
    have hgate := hg.2 m hc
    cases m with
    | connect => trivial
    | certAdd payload =>
      obtain ⟨ht, csrPem, csr, hcsr, hreq⟩ := hgate
      refine ⟨command, csrPem, csr, ?_, hcsr.mono (List.subset_append_left _ _), hreq⟩
      rw [mutations_append, hmut₁, mutations, ht]
      rfl
    | _ => exact hgate.elim
  rintro r log₂ t₂ ⟨k, rfl, hm, hsaved, hr⟩
  have hmut : ∀ ms, marks t₂ = ms → mutations (t₂ ++ t₁) = ms.filter Mark.mutates ++ [.createCsr command] := by
    rintro ms rfl
    rw [mutations_append, mutations, mutations, ht₁]
    rfl
  refine ⟨t₂ ++ t₁, by rw [List.append_assoc], ?_⟩
  cases r with
  | error e =>
    refine .inr ⟨k, by simp, ?_, fun hk => (hsaved hk).append (u := []), command, ?_⟩
    · obtain ⟨hk, _⟩ | ⟨_, m, he⟩ | ⟨_, hp⟩ :=
        reraised_cases (fun e => .own .csrSigning (pendingRemains e)) (fun _ => false) e
      · cases hk
      · rw [he]
        exact .inl rfl
      · exact .inr hp
    · obtain hm | hm | ⟨hk, payload, hm⟩ := hm
      · exact .inl (hmut _ hm)
      · exact .inl (hmut _ hm)
      · exact .inr ⟨hk, payload, hmut _ hm⟩
  | ok pem =>
    obtain ⟨rfl, hanswered, payload, hm⟩ := hr
    exact ⟨by simp [issueProgress, signProgress, exchangeProgress],
      (hsaved (by omega)).append (u := []), hanswered.append (u := []), command, payload, hmut _ hm⟩

/-! The installation. -/

/-- The certificate was validated, and seen installed, in the last session. -/
def Installed (P : Platform) (switch : Switch) (settings : CsrSettings) (opnsense : OpnsenseSettings)
    (ca : VerificationCaSnapshot) (minimumRemainingDays : Option Nat)
    (certificateName certificatePem : Text) (certificate : Certificate) (t : History World) : Prop :=
  mutations t = installMarks certificatePem ∧ Mark.connect ∈ marks t ∧
    Validated P switch certificateName certificatePem settings opnsense.lifetimeDays ca
      opnsense.digest minimumRemainingDays certificate (session t) ∧
    ∃ profile, InstallConfirmed certificateName certificatePem profile (session t)

/-- The installation failed: an exception of another class than a
`CertificateInstallationAttemptError` comes after the install command only if it replaced one. -/
def InstallationFailed (log : Log) (e : Exc) (log' : Log) (t : History World) : Prop :=
  (∃ k, log' = log ++ installProgress.take k) ∧
    (e.isCertificateInstallationAttemptError = true ∨
      (e.isCertificatePreInstallationError = true ∨ e.Plain) ∧
        (Mark.install ∈ marks t → ClosingRaised t))

section
variable (P : Platform) (switch : Switch) (settings : CsrSettings) (opnsense : OpnsenseSettings)
  (ca : VerificationCaSnapshot) (minimumRemainingDays : Option Nat)
  (certificateName certificatePem : Text)

/-- The live verification failed, after the installation. -/
def VerificationFailed (log : Log) (e : Exc) (log' : Log) (t : History World) : Prop :=
  ∃ certificate, log' = log ++ installProgress ++ [.installationConfirmed certificate] ∧
    (e.isLiveHttpsVerificationError = true ∨ e.Plain) ∧
    Installed P switch settings opnsense ca minimumRemainingDays certificateName certificatePem
      certificate t

def InstallIssuedEnd (log : Log) (r : Except Exc Text) (log' : Log) (t : History World) : Prop :=
  either
    (fun name => name = certificateName ∧ ∃ certificate,
      log' = log ++ installProgress ++ [.installationConfirmed certificate, .liveTlsConfirmed] ∧
      Installed P switch settings opnsense ca minimumRemainingDays certificateName certificatePem
        certificate t ∧ Presented certificate.der t)
    (fun e => InstallationFailed log e log' t ∨
      VerificationFailed P switch settings opnsense ca minimumRemainingDays certificateName
        certificatePem log e log' t) r

end

theorem Installed.append {certificate : Certificate} {t u : History World}
    (hi : Installed P switch settings opnsense ca minimumRemainingDays certificateName
      certificatePem certificate t) (hu : marks u = []) :
    Installed P switch settings opnsense ca minimumRemainingDays certificateName certificatePem
      certificate (u ++ t) := by
  obtain ⟨hm, ho, hv, profile, hc⟩ := hi
  have hs : session (u ++ t) = u ++ session t ++ [] := by
    rw [session_append_of_quiet (by simp [hu]), List.append_nil]
  refine ⟨by rw [mutations_append, hm, mutations, hu]; rfl, by simp [ho], ?_, profile, ?_⟩
  · exact hs ▸ hv.append
  · exact hs ▸ hc.append

theorem installIssued_spec (h₀ : History World) {command : Text} {payload : Option Json}
    (hm₀ : mutations h₀ = [.certAdd payload, .createCsr command]) :
    wpy (gate (renewalGate P switch settings opnsense ca minimumRemainingDays certificateName
        certificatePem))
      (installIssued P switch credentials settings opnsense ca minimumRemainingDays
        certificateName certificatePem)
      (fun r log' h => ∃ t, h = t ++ h₀ ∧ InstallIssuedEnd P switch settings opnsense ca
        minimumRemainingDays certificateName certificatePem log r log' t) log h₀ := by
  rw [installIssued, wpy_bind, wpy_reraiseAs]
  refine wpy_use (installPendingCertificate_spec credentials log) ?_ ?_
  · refine fun t c hg => ⟨hg.1, fun m hc => ?_⟩
    have hgate := hg.2 m hc
    cases m with
    | connect => trivial
    | createCsr command => exact hgate.2.elim
    | certAdd payload => exact hgate.2.elim
    | install =>
      obtain ⟨ht, hmt, hready⟩ := hgate
      have hs : session (t ++ h₀) = session t := session_append_of_connect (by simp [ht])
      refine ⟨command, payload, ?_, hs.symm ▸ hready⟩
      rw [mutations_append, hm₀, mutations, ht, hmt]
      rfl
    | paste text =>
      obtain ⟨ht, hd⟩ := hgate
      have hs : session (t ++ h₀) = session t := session_append_of_connect (by simp [ht])
      refine ⟨command, payload, ?_⟩
      obtain ⟨htext, hmt, hp⟩ | ⟨htext, hmt⟩ := hd
      · exact .inl ⟨htext, hs.symm ▸ hp, by rw [mutations_append, hm₀, mutations, ht, hmt]; rfl⟩
      · exact .inr ⟨htext, by rw [mutations_append, hm₀, mutations, ht, hmt]; rfl⟩
    | confirm =>
      obtain ⟨ht, hmt, hp⟩ := hgate
      have hs : session (t ++ h₀) = session t := session_append_of_connect (by simp [ht])
      refine ⟨command, payload, hs.symm ▸ hp, ?_⟩
      rw [mutations_append, hm₀, mutations, ht, hmt]
      rfl
  rintro (e | certificate) log₁ t₁ ⟨hlog, hend⟩
  · refine ⟨t₁, rfl, .inl ⟨hlog, ?_⟩⟩
    have hclosing : e.isCertificateInstallationAttemptError = false → Mark.install ∈ marks t₁ →
        ClosingRaised t₁ := fun hcls hi => (hend.mp ⟨hcls, hi⟩).2
    obtain ⟨hk, he⟩ | ⟨hk, m, he⟩ | ⟨hk, hp⟩ :=
      reraised_cases (fun e => .own .certificatePreInstallation (pendingRemains e))
        Exc.isCertificateInstallationAttemptError e
    · exact .inl (by rw [he]; exact hk)
    · exact .inr ⟨.inl (by rw [he]; rfl), hclosing hk⟩
    · exact .inr ⟨.inr hp, hclosing hk⟩
  obtain ⟨rfl, hm₁, hv, hc, _⟩ := hend
  have hi : Installed P switch settings opnsense ca minimumRemainingDays certificateName
      certificatePem certificate t₁ :=
    ⟨by rw [mutations, hm₁]; rfl, by simp [hm₁], hv, hc⟩
  rw [Except.mapError, either_ok, wpy_bind_progress, wpy_bind, wpy_reraiseAs]
  refine wpy_verifyLiveHttpsCertificate lenient_gate ?_ ?_
  · intro t₂ ht₂ hp
    rw [Except.mapError, either_ok, wpy_bind_progress, wpy_pure]
    refine ⟨t₂ ++ t₁, by rw [List.append_assoc], rfl, certificate, by simp, hi.append ht₂, ?_⟩
    exact List.mem_append_left _ hp
  · intro e t₂ ht₂
    refine ⟨t₂ ++ t₁, by rw [List.append_assoc], .inr ⟨certificate, rfl, ?_, hi.append ht₂⟩⟩
    obtain ⟨hk, _⟩ | ⟨_, m, he⟩ | ⟨_, hp⟩ :=
      reraised_cases (.own .liveHttpsVerification) (fun _ => false) e
    · cases hk
    · exact .inl (by rw [he]; rfl)
    · exact .inr hp

/-! The whole run. -/

section run
variable (P switch credentials settings opnsense ca minimumRemainingDays)

theorem preflight_gated (certificateName certificatePem : Text) (s : Log) :
    wpy (gate (renewalGate P switch settings opnsense ca minimumRemainingDays certificateName
        certificatePem)) (renewalPreflight switch credentials)
      (fun r s' h => mutations h = [] ∧ s' = s ∧
        ∀ e, r = .error e → e.isRenewalPreflightError = true ∨ e.Plain) s [] := by
  refine wpy_renewalPreflight lenient_gate ?_ ?_ ?_
  · refine fun d t _ => ⟨rfl, fun m hm => ?_⟩
    obtain rfl : Mark.connect = m := by simpa [Call.mark?] using hm
    trivial
  · exact fun _ t ht => ⟨by simpa using ht, rfl, fun e he => by cases he⟩
  · refine fun e t ht hcls => ⟨by simpa using ht, rfl, fun e' he => ?_⟩
    cases he
    exact hcls

/-- Every mark of a renewal so far was made where the gate of one name and one text allows it. -/
theorem renewal_gated {t : History World}
    (hr : Reaches ((renewCertificate P switch credentials settings opnsense ca
      minimumRemainingDays).prog log) [] t) :
    ∃ certificateName certificatePem, Gated (renewalGate P switch settings opnsense ca
      minimumRemainingDays certificateName certificatePem) [] t := by
  rw [renewCertificate_eq] at hr
  obtain hr | ⟨preflight, log₁, h₁, hp, hr⟩ := reaches_bind_py hr
  · exact ⟨[], [], gated_of_reaches (preflight_gated ..) hr⟩
  have hm₁ := (wpy_ends (preflight_gated P switch credentials settings opnsense ca
    minimumRemainingDays preflight.newCertificateName [] log) hp).1
  have hg₁ := fun certificatePem => gated_of_reaches (preflight_gated P switch credentials settings
    opnsense ca minimumRemainingDays preflight.newCertificateName certificatePem log) hp.reaches
  obtain hr | ⟨certificatePem, log₂, h₂, hi, hr⟩ := reaches_bind_py hr
  · exact ⟨preflight.newCertificateName, [], (hg₁ []).trans
      (gated_of_reaches (issueCertificate_spec ca [] h₁ hm₁) hr) hr.suffix⟩
  refine ⟨preflight.newCertificateName, certificatePem, ?_⟩
  have hg₂ := (hg₁ certificatePem).trans
    (gated_of_reaches (issueCertificate_spec ca certificatePem h₁ hm₁) hi.reaches) hi.suffix
  obtain ⟨t₂, rfl, _, _, _, command, payload, hm⟩ := wpy_ends (issueCertificate_spec ca certificatePem h₁ hm₁) hi
  have hm₂ : mutations (t₂ ++ h₁) = [.certAdd payload, .createCsr command] := by
    rw [mutations_append, hm, hm₁]
    rfl
  exact hg₂.trans (gated_of_reaches (installIssued_spec _ hm₂) hr) hr.suffix

/-- What a renewal that returns has sent, and what it has seen. -/
def Renewed (certificateName certificatePem : Text) (t : History World) : Prop :=
  (∃ command payload, mutations t = renewalMutations command payload certificatePem) ∧
    ∃ certificate, Validated P switch certificateName certificatePem settings opnsense.lifetimeDays
      ca opnsense.digest minimumRemainingDays certificate (session t) ∧
    (∃ profile, InstallConfirmed certificateName certificatePem profile (session t)) ∧
    Presented certificate.der t

theorem renewed_gated {name : Text} {log' : Log} {t : History World}
    (hr : Ends (renewCertificate P switch credentials settings opnsense ca minimumRemainingDays) log
      [] (.ok name) log' t) :
    ∃ certificatePem, Gated (renewalGate P switch settings opnsense ca minimumRemainingDays name
        certificatePem) [] t ∧
      Renewed P switch settings opnsense ca minimumRemainingDays name certificatePem t := by
  rw [renewCertificate_eq] at hr
  obtain ⟨preflight, log₁, h₁, hp, hr⟩ | ⟨_, hr, _⟩ := ends_bind.mp hr
  swap
  · cases hr
  obtain ⟨certificatePem, log₂, h₂, hi, hr⟩ | ⟨_, hr, _⟩ := ends_bind.mp hr
  swap
  · cases hr
  have hm₁ := (wpy_ends (preflight_gated P switch credentials settings opnsense ca
    minimumRemainingDays preflight.newCertificateName certificatePem log) hp).1
  obtain ⟨t₂, rfl, _, _, _, command, payload, hm⟩ := wpy_ends (issueCertificate_spec ca certificatePem h₁ hm₁) hi
  have hm₂ : mutations (t₂ ++ h₁) = [.certAdd payload, .createCsr command] := by
    rw [mutations_append, hm, hm₁]
    rfl
  obtain ⟨t₃, rfl, rfl, certificate, _, ⟨hm₃, ho, hv, hc⟩, hl⟩ := wpy_ends (installIssued_spec _ hm₂) hr
  refine ⟨certificatePem, ?_, ⟨command, payload, ?_⟩, certificate, ?_, ?_, ?_⟩
  · exact ((gated_of_reaches (preflight_gated ..) hp.reaches).trans
      (gated_of_reaches (issueCertificate_spec ca certificatePem h₁ hm₁) hi.reaches) hi.suffix).trans
      (gated_of_reaches (installIssued_spec _ hm₂) hr.reaches) hr.suffix
  · rw [mutations_append, hm₂, hm₃]
    rfl
  · exact (session_append_of_connect ho).symm ▸ hv
  · exact (session_append_of_connect ho).symm ▸ hc
  · exact List.mem_append_left _ hl

/-- A whole renewal, as far as it has come: one name and one text, each mark where its gate allows
it, no change sent twice or out of order, and everything done and seen if it returned. -/
theorem renewal_run {t : History World}
    (hr : Reaches ((renewCertificate P switch credentials settings opnsense ca
      minimumRemainingDays).prog log) [] t) :
    ∃ certificateName certificatePem,
      Gated (renewalGate P switch settings opnsense ca minimumRemainingDays certificateName
        certificatePem) [] t ∧
      (∃ command payload, mutations t <:+ renewalMutations command payload certificatePem) ∧
      ∀ name log', Ends (renewCertificate P switch credentials settings opnsense ca
        minimumRemainingDays) log [] (.ok name) log' t → name = certificateName ∧
          Renewed P switch settings opnsense ca minimumRemainingDays certificateName
            certificatePem t := by
  by_cases hok : ∃ name log', Ends (renewCertificate P switch credentials settings opnsense ca
      minimumRemainingDays) log [] (.ok name) log' t
  · obtain ⟨name, log', hend⟩ := hok
    obtain ⟨certificatePem, hg, hd⟩ := renewed_gated P switch credentials settings opnsense ca
      minimumRemainingDays hend
    refine ⟨name, certificatePem, hg, mutations_of_gated hg, fun name' log'' hend' => ⟨?_, hd⟩⟩
    exact Except.ok.inj (hend'.unique hend List.suffix_rfl List.suffix_rfl).1
  · obtain ⟨certificateName, certificatePem, hg⟩ := renewal_gated P switch credentials settings
      opnsense ca minimumRemainingDays hr
    exact ⟨certificateName, certificatePem, hg, mutations_of_gated hg, fun name log' hend =>
      absurd ⟨name, log', hend⟩ hok⟩

/-- How a renewal fails: in one of its three parts. -/
inductive RenewalFailed (log : Log) (e : Exc) (log' : Log) (t : History World) : Prop where
  | preflight (hlog : log' = log) (hm : mutations t = [])
      (he : e.isRenewalPreflightError = true ∨ e.Plain)
  | issuance (t₁ t₂ : History World) (ht : t = t₂ ++ t₁) (hm : mutations t₁ = [])
      (hf : GenerationFailed log e log' t₂ ∨ SigningFailed P log e log' t₂)
  | installation (certificateName certificatePem command : Text) (payload : Option Json)
      (t₁ t₂ : History World) (ht : t = t₂ ++ t₁)
      (hm : mutations t₁ = [.certAdd payload, .createCsr command]) (hs : IssuanceSaved P t₁)
      (hf : InstallationFailed (log ++ issueProgress) e log' t₂ ∨
        VerificationFailed P switch settings opnsense ca minimumRemainingDays certificateName
          certificatePem (log ++ issueProgress) e log' t₂)

theorem renewal_failed {e : Exc} {log' : Log} {t : History World}
    (hr : Ends (renewCertificate P switch credentials settings opnsense ca minimumRemainingDays) log
      [] (.error e) log' t) :
    RenewalFailed P switch settings opnsense ca minimumRemainingDays log e log' t := by
  rw [renewCertificate_eq] at hr
  obtain ⟨preflight, log₁, h₁, hp, hrest⟩ | ⟨e', he, hp⟩ := ends_bind.mp hr
  swap
  · cases he
    obtain ⟨hm, rfl, hcls⟩ := wpy_ends (preflight_gated P switch credentials settings opnsense ca
      minimumRemainingDays [] [] log) hp
    exact .preflight rfl hm (hcls e rfl)
  obtain ⟨hm₁, hlog, _⟩ := wpy_ends (preflight_gated P switch credentials settings opnsense ca
    minimumRemainingDays [] [] log) hp
  subst hlog
  obtain ⟨certificatePem, log₂, h₂, hi, hlast⟩ | ⟨e', he, hi⟩ := ends_bind.mp hrest
  swap
  · cases he
    obtain ⟨t₂, ht₂, hf⟩ := wpy_ends (issueCertificate_spec ca [] h₁ hm₁) hi
    exact .issuance h₁ t₂ ht₂ hm₁ hf
  obtain ⟨t₂, ht₂, hlog, hs, _, command, payload, hm⟩ :=
    wpy_ends (issueCertificate_spec ca certificatePem h₁ hm₁) hi
  subst ht₂ hlog
  have hm₂ : mutations (t₂ ++ h₁) = [.certAdd payload, .createCsr command] := by
    rw [mutations_append, hm, hm₁]
    rfl
  obtain ⟨t₃, ht₃, hf⟩ := wpy_ends (installIssued_spec _ hm₂) hlast
  exact .installation preflight.newCertificateName certificatePem command payload (t₂ ++ h₁) t₃ ht₃
    hm₂ (hs.append (u := [])) hf

end run

/-- The run of a renewal at the site. -/
def siteRenewal :=
  play site.calm ((renewCertificate (sitePlatform certificatePemText) siteSwitch siteCredentials
    siteCsrSettings siteOpnsense siteCa none).prog []) []

theorem siteRenewal_ends : ∃ log', Ends (renewCertificate (sitePlatform certificatePemText)
    siteSwitch siteCredentials siteCsrSettings siteOpnsense siteCa none) [] []
      (.ok "webcert-20200101-01") log' siteRenewal.2 :=
  play_ends_result site.calm (by decide +kernel)

theorem renewal_run_site : ∃ certificatePem, Renewed (sitePlatform certificatePemText) siteSwitch
    siteCsrSettings siteOpnsense siteCa none "webcert-20200101-01" certificatePem siteRenewal.2 := by
  obtain ⟨log', hend⟩ := siteRenewal_ends
  obtain ⟨name, certificatePem, _, _, hr⟩ := renewal_run (sitePlatform certificatePemText) siteSwitch
    siteCredentials siteCsrSettings siteOpnsense siteCa none hend.reaches
  obtain ⟨rfl, hd⟩ := hr _ log' hend
  exact ⟨certificatePem, hd⟩

/-! What the error of an installation that failed says. -/

theorem Exc.isOwn_unique {e : Exc} {c c' : OwnError} (hc : e.isOwn c = true)
    (hc' : e.isOwn c' = true) : c = c' := by
  cases e with
  | std e => cases hc
  | own c'' m => exact (eq_of_beq hc).symm.trans (eq_of_beq hc')

/-- Somewhere in the history, after the install command, closing a connection raised while an
exception was leaving it. -/
def Masked (h : History World) : Prop :=
  ∃ post pre, h = post ++ pre ∧ Mark.install ∈ marks pre ∧ ClosingRaised pre

/-- An error of `install_pending_certificate` that is not an attempt is true unless closing the
connection raised over an exception; and then so is what a renewal reports of it. -/
theorem installation_error_truthful_iff (P : Platform) (switch : Switch) (credentials : Credentials)
    (settings : CsrSettings) (ca : VerificationCaSnapshot) (minimumRemainingDays : Option Nat) :
    (∀ {certificateName certificatePem : Text} {lifetimeDays : Nat} {digest : Text} {log log' : Log}
      {h t : History World} {r : Except Exc Certificate},
      Ends (installPendingCertificate P switch credentials certificateName certificatePem settings
        lifetimeDays ca digest minimumRemainingDays) log h r log' (t ++ h) →
      ((∀ e, r = .error e → e.isCertificateInstallationAttemptError = false →
        Mark.install ∉ marks t) ↔ ¬(Mark.install ∈ marks t ∧ ClosingRaised t))) ∧
    ∀ {opnsense : OpnsenseSettings} {log log' : Log} {h t : History World} {e : Exc},
      Ends (renewCertificate P switch credentials settings opnsense ca minimumRemainingDays) log h
        (.error e) log' (t ++ h) →
      ¬Masked t → e.isCertificatePreInstallationError = true → Mark.install ∉ marks t := by
  constructor
  · intro name pem lifetimeDays digest log log' h t r hr
    obtain ⟨_, hend⟩ := wpy_ends (installPendingCertificate_spec credentials log) hr.own
    cases r with
    | ok certificate =>
      refine ⟨fun _ hc => hend.2.2.2.2 hc.2, fun _ e he => by cases he⟩
    | error e =>
      constructor
      · intro htrue hc
        obtain ⟨hcls, hi⟩ := hend.mpr hc
        exact htrue e rfl hcls hi
      · intro hc e' he hcls hi
        cases he
        exact hc (hend.mp ⟨hcls, hi⟩)
  · intro opnsense log log' h t e hr hmask hcls hi
    have hmem : ∀ {u : History World}, Mark.install ∈ marks u → Mark.install ∈ mutations u :=
      fun hm => List.mem_filter.mpr ⟨hm, rfl⟩
    cases renewal_failed P switch credentials settings opnsense ca minimumRemainingDays hr.own with
    | preflight _ hm _ =>
      have := hmem hi
      rw [hm] at this
      cases this
    | issuance t₁ t₂ ht hm hf =>
      have hi' := hmem hi
      rw [ht, mutations_append, hm, List.append_nil] at hi'
      obtain ⟨_, ⟨_, hcreate⟩ | ⟨_, hnone⟩⟩ | ⟨_, _, _, _, command, hsent⟩ := hf
      · cases hcreate _ hi'
      · rw [hnone] at hi'
        cases hi'
      · obtain hsent | ⟨_, payload, hsent⟩ := hsent <;> simp [hsent] at hi'
    | installation name pem command payload t₁ t₂ ht hm hs hf =>
      have hi' := hmem hi
      rw [ht, mutations_append, hm, List.mem_append] at hi'
      have hi₂ : Mark.install ∈ marks t₂ :=
        List.mem_of_mem_filter (hi'.resolve_right (by simp))
      obtain ⟨_, hattempt | ⟨_, hclosing⟩⟩ | ⟨_, _, hlive | ⟨e', rfl⟩, _⟩ := hf
      · exact absurd (Exc.isOwn_unique hattempt hcls) (by decide)
      · refine hmask ⟨[], t, rfl, hi, ?_⟩
        obtain ⟨directory, y, f, x, u, rfl, hreplaced⟩ := hclosing hi₂
        exact ⟨directory, y, f, x, u ++ t₁, ht, hreplaced⟩
      · exact absurd (Exc.isOwn_unique hlive hcls) (by decide)
      · cases hcls

/-- A site at which the certificate is pending. -/
def pendingSite : Site where
  summary h :=
    if (marks h).any Mark.isInstall then activeRow ++ installedRow else activeRow ++ pendingRow
  details := site.details
  response _ := []
  leaf := [7]
  now := site.now
  day := site.day

def siteInstall : Act Log Certificate :=
  installPendingCertificate (sitePlatform certificatePemText) siteSwitch siteCredentials
    "webcert-20200101-01" certificatePemText siteCsrSettings 365 siteCa "sha256" none

/-- The switch stops answering after the certificate was pasted, and closing the connection fails. -/
def closingFails : Environment World := fun h c =>
  match c with
  | .readChannelTiming => .error { message := "lost" }
  | .disconnect (some _) => .error { message := "not closed" }
  | c => pendingSite.calm h c

/-- Nothing fails, but the verification CA does not vouch for the certificate. -/
def distrusting : Environment World := fun h c =>
  match c with
  | .verifyServer _ _ _ => .ok (some "unknown issuer")
  | c => site.calm h c

def siteDistrusted :=
  play distrusting ((renewCertificate (sitePlatform certificatePemText) siteSwitch siteCredentials
    siteCsrSettings siteOpnsense siteCa none).prog []) []

theorem siteInstall_masked :
    (∃ log', Ends siteInstall [] []
      (.error (valueError "SSH operation failed before certificate installation was attempted")) log'
        (play closingFails (siteInstall.prog []) []).2) ∧
      Mark.install ∈ marks (play closingFails (siteInstall.prog []) []).2 := by
  have hrun : (play closingFails (siteInstall.prog []) []).1.bind raised = some (valueError
        "SSH operation failed before certificate installation was attempted") ∧
      (marks (play closingFails (siteInstall.prog []) []).2).any Mark.isInstall = true := by
    decide
  exact ⟨play_ends_error closingFails hrun.1, mem_of_any_isInstall hrun.2⟩

theorem siteDistrusted_ends : ∃ e log', e.isCertificatePreInstallationError = true ∧
    Ends (renewCertificate (sitePlatform certificatePemText) siteSwitch siteCredentials
      siteCsrSettings siteOpnsense siteCa none) [] [] (.error e) log' siteDistrusted.2 ∧
    Mark.install ∉ marks siteDistrusted.2 := by
  have hrun : (siteDistrusted.1.bind raised).any Exc.isCertificatePreInstallationError = true ∧
      ¬ (marks siteDistrusted.2).any Mark.isInstall = true := by
    decide +kernel
  obtain ⟨e, he, hcls⟩ := (Option.any_eq_true _ _).mp hrun.1
  obtain ⟨log', hend⟩ := play_ends_error distrusting he
  refine ⟨e, log', hcls, hend, ?_⟩
  intro hm
  exact hrun.2 (List.any_eq_true.mpr ⟨_, hm, rfl⟩)

theorem installation_error_truthful_site :
    (Mark.install ∈ marks (play closingFails (siteInstall.prog []) []).2 ∧
      ClosingRaised (play closingFails (siteInstall.prog []) []).2) ∧
    Mark.install ∉ marks siteDistrusted.2 := by
  obtain ⟨⟨log', hend⟩, hinstalled⟩ := siteInstall_masked
  obtain ⟨e, log'', hcls, hend', hnone⟩ := siteDistrusted_ends
  have htruthful := installation_error_truthful_iff (sitePlatform certificatePemText) siteSwitch
    siteCredentials siteCsrSettings siteCa none
  have hiff := htruthful.1
    ((List.append_nil (play closingFails (siteInstall.prog []) []).2).symm ▸ hend)
  refine ⟨?_, ?_⟩
  · by_contra hnot
    exact hiff.mpr hnot _ rfl rfl hinstalled
  · refine htruthful.2 ((List.append_nil siteDistrusted.2).symm ▸ hend') ?_ hcls
    intro hclosing
    obtain ⟨post, pre, ht, hm, _⟩ := hclosing
    apply hnone
    rw [ht]
    simp [marks_append, hm]

/-- The certificate was handed over, and the error that comes out says that it was not. -/
theorem installation_error_masked :
    ¬∀ (P : Platform) (switch : Switch) (credentials : Credentials)
      (certificateName certificatePem : Text) (settings : CsrSettings) (lifetimeDays : Nat)
      (ca : VerificationCaSnapshot) (digest : Text) (minimumRemainingDays : Option Nat)
      (log log' : Log) (t : History World) (e : Exc),
      Ends (installPendingCertificate P switch credentials certificateName certificatePem settings
        lifetimeDays ca digest minimumRemainingDays) log [] (.error e) log' t →
      e.isCertificateInstallationAttemptError = false → Mark.install ∉ marks t := by
  intro hall
  obtain ⟨⟨log', hend⟩, hinstalled⟩ := siteInstall_masked
  exact hall _ _ _ _ _ _ _ _ _ _ _ _ _ _ hend rfl hinstalled

end ArubaCertRenewer
