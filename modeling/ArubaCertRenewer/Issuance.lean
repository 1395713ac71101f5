import ArubaCertRenewer.Session

/- What the creation of a CSR and its signature send, and when.

   `generate_csr` sends one create command, after a summary in which the name was
   free; a failure after it is a `CSRGenerationError`. `sign_pending_csr` makes one
   `cert/add` request, for a CSR the switch had under the name, and what it
   reported when it ends is the first of `signProgress`. -/
namespace ArubaCertRenewer
open PyText Effects Effects.Py

variable {σ : Type} {P : Platform} {switch : Switch} {certificateName : Text}
  {settings : CsrSettings}

/-! `generate_csr`. -/

section generate

/-- The create command was made from a summary that shows one installed Web certificate, no
pending one, and not the command's name. -/
def NameWasFree (switch : Switch) (certificateName : Text) (settings : CsrSettings)
    (command : Text) (h : History World) : Prop :=
  ∃ out certificates active, ⟨.sendCommand summaryCommand, .ok out⟩ ∈ h ∧
    parseWebCertificates out = .ok certificates ∧
    certificates.filter (·.pending) = [] ∧ certificates.filter (fun c => !c.pending) = [active] ∧
    certificateNameExists out certificateName = .ok false ∧
    buildCsrCommand switch certificateName active.profile settings = .ok command

/-- When `generate_csr` makes its marks: one connection, and one command in its session. -/
def generateGate (switch : Switch) (certificateName : Text) (settings : CsrSettings)
    (h : History World) : Mark → Prop
  | .connect => marks h = []
  | .createCsr command => marks h = [.connect] ∧
      NameWasFree switch certificateName settings command (session h)
  | _ => False

theorem of_getActiveWebCertificate {certificates : List WebCertificate} {active : WebCertificate}
    (ha : getActiveWebCertificate certificates = .ok active) :
    certificates.filter (·.pending) = [] ∧ certificates.filter (fun c => !c.pending) = [active] := by
  unfold getActiveWebCertificate at ha
  simp only at ha
  split at ha
  · cases ha
  · rename_i hp
    refine ⟨by simpa using hp, ?_⟩
    split at ha
    · cases ha
    · rename_i c hc
      cases ha
      exact hc
    · cases ha

/-- What a create command was made from. -/
theorem of_prepared {out command : Text}
    (hp : prepareCsrCommand switch certificateName settings out = .ok command) :
    ∃ certificates active, parseWebCertificates out = .ok certificates ∧
      getActiveWebCertificate certificates = .ok active ∧
      certificateNameExists out certificateName = .ok false ∧
      buildCsrCommand switch certificateName active.profile settings = .ok command := by
  simp only [prepareCsrCommand, bind_eq_ok, raiseWhen_eq_ok] at hp
  obtain ⟨certificates, hc, active, ha, _, _, exist, he, _, rfl, hb⟩ := hp
  exact ⟨certificates, active, hc, ha, he, hb⟩

theorem nameWasFree_of_prepared {out command : Text} {h : History World}
    (hm : ⟨.sendCommand summaryCommand, .ok out⟩ ∈ h)
    (hp : prepareCsrCommand switch certificateName settings out = .ok command) :
    NameWasFree switch certificateName settings command h := by
  obtain ⟨certificates, active, hc, ha, he, hb⟩ := of_prepared hp
  obtain ⟨hpending, hinstalled⟩ := of_getActiveWebCertificate ha
  exact ⟨out, certificates, active, hm, hc, hpending, hinstalled, he, hb⟩

theorem buildCsrCommand_prefix {taProfile command : Text}
    (hb : buildCsrCommand switch certificateName taProfile settings = .ok command) :
    ∃ rest, command = createCsrCommand ++ rest := by
  simp only [buildCsrCommand, bind_eq_ok] at hb
  obtain ⟨_, _, _, _, identities, _, _, _, o, _, u, _, l, _, s, _, hb⟩ := hb
  exact ⟨_, (Except.ok.inj hb).symm⟩

theorem commandMark_of_prepared {out command : Text}
    (hp : prepareCsrCommand switch certificateName settings out = .ok command) :
    commandMark command = some (.createCsr command) := by
  obtain ⟨_, active, _, _, _, hb⟩ := of_prepared hp
  obtain ⟨rest, rfl⟩ := buildCsrCommand_prefix hb
  have hpre : createCsrCommand.isPrefixOf (createCsrCommand ++ rest) = true :=
    List.isPrefixOf_iff_prefix.mpr (List.prefix_append _ _)
  rw [commandMark, if_pos hpre]

/-- How the body of the connection of `generate_csr` ends. -/
def GenerateBodyEnd (P : Platform) (switch : Switch) (certificateName : Text)
    (settings : CsrSettings) (r : Except Exc Text) (attempted : Bool) (t : History World) : Prop :=
  either
    (fun csrPem => attempted = true ∧ ∃ command, marks t = [.createCsr command] ∧
      ∃ csr, CsrRead P switch certificateName settings csrPem csr t)
    (fun _ => attempted = false → marks t = []) r

/-- How `generate_csr` ends. -/
def GenerateEnd (P : Platform) (switch : Switch) (certificateName : Text)
    (settings : CsrSettings) (r : Except Exc Text) (t : History World) : Prop :=
  either
    (fun csrPem => ∃ command, marks t = [.createCsr command, .connect] ∧
      ∃ csr, CsrRead P switch certificateName settings csrPem csr t)
    (fun e => e.isCsrGenerationError = false → marks t = [] ∨ marks t = [.connect]) r

theorem generateCsrError_attempted (e : Exc) :
    (generateCsrError true e).isCsrGenerationError = true := by
  unfold generateCsrError
  split
  · assumption
  · repeat' split
    all_goals first | rfl | contradiction

/-- The create command, once; whatever fails after it was tried, it was tried. -/
theorem wpy_createCsr {G : History World → Call → Prop} {command : Text} {attempted : Bool}
    {h : History World} {Q : Except Exc Unit → Bool → History World → Prop} (hG : Lenient G)
    (hm : commandMark command = some (.createCsr command))
    (hc : ∀ t, marks t = [] → G (t ++ h) (.sendCommandTiming command))
    (hok : ∀ t, marks t = [.createCsr command] → Q (.ok ()) true (t ++ h))
    (hsent : ∀ e t, Q (.error e) true (t ++ h))
    (hunsent : ∀ e t, marks t = [] → Q (.error e) attempted (t ++ h)) :
    wpy G (createCsr command) Q attempted h := by
  rw [createCsr, wpy_bind]
  refine silent_configMode.wpy_of hG ?_
  rintro (e | _) t₁ ht₁
  · exact hunsent e t₁ ht₁
  rw [either_ok, wpy_andFinally, wpy_bind_set, wpy_bind]
  have hleave : Silent (do if !(← connectionPoisoned) then exitConfigMode : Act Bool Unit) :=
    .bind' (.call ⟨rfl, rfl⟩) fun poisoned => by
      cases poisoned
      · exact silent_exitConfigMode
      · exact .pure' _
  have hfail : ∀ e t, wpy G (do if !(← connectionPoisoned) then exitConfigMode)
      (fun u s'' h'' => Q (after u (.error e)) s'' h'') true (t ++ h) := by
    intro e t
    refine hleave.wpy_of hG ?_
    rintro (e' | _) u _
    · exact List.append_assoc u t h ▸ hsent e' (u ++ t)
    · exact List.append_assoc u t h ▸ hsent e (u ++ t)
  refine wpy_sendCommandTiming hG hm ?_ ?_ ?_
  · intro t₂ ht₂
    exact List.append_assoc t₂ t₁ h ▸ hc (t₂ ++ t₁) (by simp [ht₁, ht₂])
  swap
  · intro e t₂
    exact List.append_assoc t₂ t₁ h ▸ hfail e (t₂ ++ t₁)
  intro out t₂ _ ht₂
  rw [either_ok, wpy_result, ← List.append_assoc]
  cases checkOutputSize out maxCsrCreateOutputBytes "CSR creation" with
  | error e => exact hfail e (t₂ ++ t₁)
  | ok _ =>
    refine hleave.wpy_of hG ?_
    rintro (e | _) t₃ ht₃
    · exact List.append_assoc t₃ (t₂ ++ t₁) h ▸ hsent e (t₃ ++ (t₂ ++ t₁))
    · exact List.append_assoc t₃ (t₂ ++ t₁) h ▸ hok (t₃ ++ (t₂ ++ t₁)) (by simp [ht₁, ht₂, ht₃])

/-- The gate in the session of `generate_csr`. -/
def createGate (switch : Switch) (certificateName : Text) (settings : CsrSettings)
    (h : History World) : Mark → Prop
  | .createCsr command => marks h = [] ∧ NameWasFree switch certificateName settings command h
  | _ => False

theorem generateOnSwitch_spec :
    wpy (gate (createGate switch certificateName settings))
      (generateOnSwitch P switch certificateName settings)
      (GenerateBodyEnd P switch certificateName settings) false [] := by
  rw [generateOnSwitch, wpy_bind, readSummary]
  refine wpy_sendCommand lenient_gate commandMark_summary ?_ fun e t ht _ => by simp [ht]
  intro summaryOutput t₁ hp ht₁
  rw [either_ok]
  refine wpy_bind_result (fun command hcommand => ?_) fun e _ _ => by simp [ht₁]
  rw [wpy_bind]
  have hmark := commandMark_of_prepared hcommand
  refine wpy_createCsr lenient_gate hmark ?_ ?_ ?_ ?_
  · refine fun t ht => ⟨rfl, fun m hm => ?_⟩
    obtain rfl : Mark.createCsr command = m := by simpa [Call.mark?, hmark] using hm
    exact ⟨by simp [ht, ht₁], nameWasFree_of_prepared (by simp [hp]) hcommand⟩
  · intro t₂ ht₂
    rw [either_ok]
    refine wpy_handle.mpr (wpy_retrieveAndValidateCsr lenient_gate ?_ ?_)
    · intro csrPem csr t₃ ht₃ hcsr
      exact ⟨rfl, command, by simp [ht₁, ht₂, ht₃], csr, hcsr.mono (List.subset_append_left _ _)⟩
    · exact fun e t₃ _ hf => by cases hf
  · exact fun e t hf => by cases hf
  · exact fun e t ht _ => by simp [ht, ht₁]

theorem generateCsr_spec (credentials : Credentials) (s : σ) :
    wpy (gate (generateGate switch certificateName settings))
      (generateCsr P switch credentials certificateName settings)
      (fun r s' t => s' = s ∧ GenerateEnd P switch certificateName settings r t) s [] := by
  refine wpy_bind_result (fun _ _ => ?_) fun e _ => ⟨rfl, fun _ => .inl rfl⟩
  rw [wpy_alone, wpy_handle]
  refine wpy_connected lenient_gate ?_ ?_ ?_
  · refine fun d t ht => ⟨rfl, fun m hm => ?_⟩
    obtain rfl : Mark.connect = m := by simpa [Call.mark?] using hm
    simpa [generateGate] using ht
  · exact fun e t ht => ⟨rfl, fun _ => by simpa using ht⟩
  intro d u hu
  have hopen : marks (⟨.connect d, .ok ()⟩ :: (u ++ [])) = [.connect] := by
    simp [marks_cons, Call.mark?, hu]
  refine wpy_use generateOnSwitch_spec ?_ ?_
  · refine fun t c hg => ⟨hg.1, fun m hm => ?_⟩
    cases m with
    | createCsr command =>
      obtain ⟨ht, hfree⟩ := hg.2 _ hm
      have hs : session (t ++ ⟨.connect d, .ok ()⟩ :: (u ++ [])) = t :=
        session_opened (by simp [ht])
      refine ⟨?_, ?_⟩
      · rw [marks_append, ht]
        exact hopen
      · exact hs.symm ▸ hfree
    | _ => exact (hg.2 _ hm).elim
  rintro r attempted t hend r' v hv hr
  have hm : marks (v ++ (t ++ ⟨.connect d, .ok ()⟩ :: (u ++ []))) = marks t ++ [.connect] := by
    simp [marks_cons, Call.mark?, hu, hv]
  cases r' with
  | ok csrPem =>
    obtain rfl := hr csrPem rfl
    obtain ⟨_, command, ht, csr, hcsr⟩ := hend
    refine ⟨rfl, command, hm.trans (by rw [ht]; rfl), csr, ?_⟩
    exact hcsr.mono fun ev hev => by simp [hev]
  | error e =>
    refine ⟨rfl, fun hcls => ?_⟩
    cases attempted with
    | true =>
      rw [generateCsrError_attempted] at hcls
      cases hcls
    | false =>
      cases r with
      | ok _ => cases hend.1
      | error e' => exact .inr (hm.trans (by rw [hend rfl]; rfl))

end generate

/-! `retrieve_csr`. -/

section retrieve
variable {G : History World → Call → Prop} {credentials : Credentials} {log : Log}
  {h : History World}

theorem wpy_bind_progress {event : Progress} {α : Type} {f : PUnit → Act Log α}
    {Q : Except Exc α → Log → History World → Prop} :
    wpy G (progress event >>= f) Q log h ↔ wpy G (f ⟨⟩) Q (log ++ [event]) h := Iff.rfl

theorem wpy_retrieveCsr {Q : Except Exc Text → Log → History World → Prop} (hG : Lenient G)
    (hconnect : ∀ d t, marks t = [] → G (t ++ h) (.connect d))
    (hok : ∀ csrPem csr t, marks t = [.connect] →
      CsrRead P switch certificateName settings csrPem csr t →
      Q (.ok csrPem) (log ++ [.pendingCsrObserved]) (t ++ h))
    (herr : ∀ e k t, (marks t = [] ∨ marks t = [.connect]) →
      Q (.error e) (log ++ [Progress.pendingCsrObserved].take k) (t ++ h)) :
    wpy G (retrieveCsr P switch credentials certificateName settings) Q log h := by
  have hearly : ∀ e t, (marks t = [] ∨ marks t = [.connect]) → Q (.error e) log (t ++ h) := by
    intro e t ht
    simpa using herr e 0 t ht
  refine wpy_bind_result (fun _ _ => ?_) fun e _ => hearly e [] (.inl rfl)
  rw [wpy_handle]
  refine wpy_connected hG hconnect (fun e t ht => hearly _ t ht) ?_
  intro d u hu
  rw [wpy_bind, readSummary]
  have hm : ∀ t v, marks t = [] → marks v = [] →
      marks (v ++ (t ++ ⟨.connect d, .ok ()⟩ :: u)) = [.connect] := by
    intro t v ht hv
    simp [marks_cons, Call.mark?, ht, hv, hu]
  have hread : ∀ e k t, marks t = [] → ∀ (r' : Except Exc Text) v, marks v = [] →
      (∀ a, r' = .ok a → (.error e : Except Exc Text) = .ok a) →
      either (fun a => Q (.ok a) (log ++ [Progress.pendingCsrObserved].take k)
          (v ++ (t ++ (⟨.connect d, .ok ()⟩ :: u ++ h))))
        (fun e => Q (.error (netmikoAsValueError e)) (log ++ [Progress.pendingCsrObserved].take k)
          (v ++ (t ++ (⟨.connect d, .ok ()⟩ :: u ++ h)))) r' := by
    intro e k t ht r' v hv hr
    cases r' with
    | ok a => cases hr a rfl
    | error e' =>
      have hq := herr (netmikoAsValueError e') k _ (.inr (hm t v ht hv))
      simpa using hq
  refine wpy_sendCommand hG commandMark_summary ?_ fun e t ht => by simpa using hread e 0 t ht
  intro summaryOutput t₁ _ ht₁
  rw [either_ok]
  refine wpy_bind_result (fun _ _ => ?_) fun e _ => by simpa using hread e 0 t₁ ht₁
  rw [wpy_bind_progress]
  refine wpy_retrieveAndValidateCsr hG ?_ ?_
  · intro csrPem csr t₂ ht₂ hcsr r' v hv hr
    have hq := hok csrPem csr (v ++ (t₂ ++ t₁ ++ ⟨.connect d, .ok ()⟩ :: u))
      (hm _ v (by simp [ht₁, ht₂]) hv) (hcsr.mono fun ev hev => by simp [hev])
    cases r' with
    | ok a =>
      obtain rfl := Except.ok.inj (hr a rfl)
      simpa using hq
    | error e =>
      have hq := herr (netmikoAsValueError e) 1 _ (.inr (hm (t₂ ++ t₁) v (by simp [ht₁, ht₂]) hv))
      simpa using hq
  · intro e t₂ ht₂
    have hq := hread e 1 (t₂ ++ t₁) (by simp [ht₁, ht₂])
    simpa using hq

end retrieve

/-! The issued certificate. -/

theorem wpy_validateIssuedCertificate {G : History World → Call → Prop} {s : σ} {h : History World}
    {certificatePem digest : Text} {csr : Csr} {lifetimeDays : Nat} {requireFreshIssuance : Bool}
    {minimumRemainingDays : Option Nat} {Q : Except Exc Certificate → σ → History World → Prop}
    (hG : Lenient G)
    (hok : ∀ certificate now, matchIssuedCertificate P certificatePem csr switch = .ok certificate →
      checkIssuedTimes certificate lifetimeDays digest now requireFreshIssuance
        minimumRemainingDays = .ok () → Q (.ok certificate) s (⟨.utcNow, now⟩ :: h))
    (herr : ∀ e t, marks t = [] → Q (.error e) s (t ++ h)) :
    wpy G (validateIssuedCertificate P certificatePem csr switch lifetimeDays digest
      requireFreshIssuance minimumRemainingDays) Q s h := by
  refine wpy_bind_result (fun certificate hm => ?_) fun e _ => herr e [] rfl
  refine wpy_call.mpr ⟨hG _ _ rfl rfl, fun now => ?_⟩
  refine wpy_bind_result (fun _ ht => ?_) fun e _ => herr e [_] rfl
  exact hok certificate now hm ht
end ArubaCertRenewer
