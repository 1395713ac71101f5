import ArubaCertRenewer.Issuance

/- What the signing of a CSR sends to OPNsense, and when.

   `sign_pending_csr` makes one `cert/add` request, for a CSR the switch had under
   the name. What it has reported when it ends is the first of `signProgress`, and
   that tells how far it came. -/
namespace ArubaCertRenewer
open PyText Effects Effects.Py

variable {P : Platform} {switch : Switch} {credentials : Credentials} {certificateName : Text}
  {settings : CsrSettings} {opnsense : OpnsenseSettings} {minimumRemainingDays : Option Nat}
  {G : History World → Call → Prop} {log : Log} {h : History World}

/-! Requests. -/

/-- A request was answered with a JSON object. -/
def Answered (P : Platform) (method path : Text) (payload : Option Json)
    (response : List (Text × Json)) (h : History World) : Prop :=
  ∃ limit data u v, parseResponse P data = .ok response ∧
    h = u ++ ⟨.readResponse limit, .ok data⟩ :: ⟨.openUrl method path payload, .ok ()⟩ :: v

/-- OPNsense answered that it saved a certificate, with a valid UUID. -/
def IssuanceSaved (P : Platform) (h : History World) : Prop :=
  ∃ payload response certificateUuid, Answered P "POST" certAddPath (some payload) response h ∧
    savedUuid response = .ok certificateUuid

/-- OPNsense answered with the text of a certificate. -/
def CertificateAnswered (P : Platform) (certificatePem : Text) (h : History World) : Prop :=
  ∃ uuid response, Answered P "POST" (certificatePath uuid) (some (.obj [])) response h ∧
    certificatePayload response = .ok certificatePem

theorem Answered.append {method path : Text} {payload : Option Json}
    {response : List (Text × Json)} {t u : History World}
    (ha : Answered P method path payload response t) :
    Answered P method path payload response (u ++ t ++ h) := by
  obtain ⟨limit, data, u', v, hp, rfl⟩ := ha
  exact ⟨limit, data, u ++ u', v ++ h, hp, by simp⟩

theorem IssuanceSaved.append {t u : History World} (hs : IssuanceSaved P t) :
    IssuanceSaved P (u ++ t ++ h) := by
  obtain ⟨payload, response, certificateUuid, ha, hu⟩ := hs
  exact ⟨payload, response, certificateUuid, ha.append, hu⟩

theorem CertificateAnswered.append {certificatePem : Text} {t u : History World}
    (hc : CertificateAnswered P certificatePem t) :
    CertificateAnswered P certificatePem (u ++ t ++ h) := by
  obtain ⟨uuid, response, ha, hp⟩ := hc
  exact ⟨uuid, response, ha.append, hp⟩

/-- One request; `events` is what is reported right before it is made. -/
theorem wpy_requestJson {method path : Text} {payload : Option Json} {onDispatch : Act Log Unit}
    (events : Log) {Q : Except Exc (List (Text × Json)) → Log → History World → Prop}
    (hG : Lenient G)
    (hd : ∀ {β : Type} (f : Unit → Act Log β) Q,
      wpy G (onDispatch >>= f) Q log h ↔ wpy G (f ()) Q (log ++ events) h)
    (hc : G h (.openUrl method path payload))
    (hok : ∀ response t, marks t = (Call.openUrl method path payload).mark?.toList →
      Answered P method path payload response t → Q (.ok response) (log ++ events) (t ++ h))
    (hearly : ∀ e, Q (.error e) log h)
    (herr : ∀ e t, marks t = (Call.openUrl method path payload).mark?.toList →
      Q (.error e) (log ++ events) (t ++ h)) :
    wpy G (requestJson P method path payload onDispatch) Q log h := by
  refine wpy_bind_result (fun _ _ => ?_) fun e _ => hearly e
  rw [wpy_bind, wpy_handle, hd]
  have hmark : ∀ x, marks [(⟨.openUrl method path payload, x⟩ : Event World)] =
      (Call.openUrl method path payload).mark?.toList := by
    intro x
    simp [marks_cons]
  refine wpy_within.mpr (wpy_ask.mpr ⟨hc, ?_⟩)
  rintro (e | _)
  · exact herr _ [_] (hmark _)
  rw [liftStd_ok, either_ok]
  refine wpy_ask.mpr ⟨hG _ _ rfl rfl, fun read => wpy_ask.mpr ⟨hG _ _ rfl rfl, fun closing => ?_⟩⟩
  have hm : ∀ f, marks [(⟨.closeResponse f, closing⟩ : Event World),
      ⟨.readResponse (maxResponseBytes + 1), read⟩, ⟨.openUrl method path payload, .ok ()⟩] =
        (Call.openUrl method path payload).mark?.toList :=
    fun _ => hmark (.ok ())
  cases closing with
  | error e => exact herr _ [_, _, _] (hm _)
  | ok _ =>
    cases read with
    | error e => exact herr _ [_, _, _] (hm _)
    | ok data =>
      change wpy G (result (parseResponse P data)) Q (log ++ events) _
      rw [wpy_result]
      cases hp : parseResponse P data with
      | error e => exact herr e [_, _, _] (hm _)
      | ok response => exact hok response [_, _, _] (hm _) ⟨_, data, [_], [], hp, rfl⟩

/-! The exchange. -/

theorem silent_openOpnsenseClient {σ : Type} : Silent (openOpnsenseClient opnsense : Act σ Unit) :=
  .bind' (.result' _) fun _ => .bind' (.ask' ⟨rfl, rfl⟩) fun _ =>
    .bind' (.bind' (.ask' ⟨rfl, rfl⟩) fun _ => .bind' (.raiseIf' _ _) fun _ => .pure' _)
      fun _ => .pure' _

theorem wpy_resolveCa {description : Text} {Q : Except Exc Text → Log → History World → Prop}
    (hG : Lenient G) (hok : ∀ caref t, marks t = [] → Q (.ok caref) log (t ++ h))
    (herr : ∀ e t, marks t = [] → Q (.error e) log (t ++ h)) :
    wpy G (resolveCa P description) Q log h := by
  refine wpy_bind_result (fun _ _ => ?_) fun e _ => herr e [] rfl
  rw [wpy_bind]
  refine wpy_requestJson [] hG (fun f Q => by rw [List.append_nil]; exact Iff.rfl)
    (hG _ _ rfl rfl) ?_ (fun e => herr e [] rfl) fun e t ht => by rw [List.append_nil]; exact herr e t ht
  intro response t ht _
  rw [either_ok, wpy_result, List.append_nil]
  cases caReferenceOf description response with
  | ok caref => exact hok caref t ht
  | error e => exact herr e t ht

/-- What the exchange reports, in order. -/
def exchangeProgress : Log :=
  [.signingPreparation, .issuanceDispatched, .issuanceConfirmed, .certificateRetrieved]

theorem certificatePath_ne (uuid : Text) : (certificatePath uuid == certAddPath) = false := rfl

theorem wpy_signCsr {csrPem caref description : Text} {dnsNames ipAddresses : List Text}
    {Q : Except Exc Text → Log → History World → Prop} (hG : Lenient G)
    (hadd : ∀ payload, signRequest csrPem caref opnsense dnsNames ipAddresses description =
      .ok payload → G h (.openUrl "POST" certAddPath (some payload)))
    (hok : ∀ uuid payload t, marks t = [.certAdd (some payload)] → IssuanceSaved P t →
      Q (.ok uuid) (log ++ [.issuanceDispatched]) (t ++ h))
    (hearly : ∀ e, Q (.error e) log h)
    (herr : ∀ e payload t, marks t = [.certAdd (some payload)] →
      Q (.error e) (log ++ [.issuanceDispatched]) (t ++ h)) :
    wpy G (signCsr P csrPem caref opnsense dnsNames ipAddresses description) Q log h := by
  refine wpy_bind_result (fun payload hp => ?_) fun e _ => hearly e
  rw [wpy_bind]
  refine wpy_requestJson [.issuanceDispatched] hG (fun f Q => Iff.rfl) (hadd payload hp) ?_ hearly
    fun e t ht => herr e payload t ht
  intro response t ht ha
  rw [either_ok, wpy_result]
  cases hs : savedUuid response with
  | ok uuid => exact hok uuid payload t ht ⟨payload, response, uuid, ha, hs⟩
  | error e => exact herr e payload t ht

theorem wpy_getCertificate {certificateUuid : Text}
    {Q : Except Exc Text → Log → History World → Prop} (hG : Lenient G)
    (hok : ∀ certificatePem t, marks t = [] → CertificateAnswered P certificatePem t →
      Q (.ok certificatePem) log (t ++ h))
    (herr : ∀ e t, marks t = [] → Q (.error e) log (t ++ h)) :
    wpy G (getCertificate P certificateUuid) Q log h := by
  unfold getCertificate
  cases canonicalUuid certificateUuid with
  | none => exact herr _ [] rfl
  | some uuid =>
    have hmark : (Call.openUrl "POST" (certificatePath uuid) (some (.obj []))).mark? = none := by
      simp [Call.mark?, certificatePath_ne]
    simp only
    rw [wpy_bind]
    refine wpy_requestJson [] hG (fun f Q => by rw [List.append_nil]; exact Iff.rfl)
      (hG _ _ rfl hmark) ?_ (fun e => herr e [] rfl) ?_
    · intro response t ht ha
      rw [either_ok, wpy_result, List.append_nil]
      rw [hmark] at ht
      cases hc : certificatePayload response with
      | ok certificatePem => exact hok certificatePem t ht ⟨uuid, response, ha, hc⟩
      | error e => exact herr e t ht
    · intro e t ht
      rw [List.append_nil]
      rw [hmark] at ht
      exact herr e t ht

/-- How far the exchange came: `k` is how much of its progress was reported. -/
def Exchanged (P : Platform) (k : Nat) (t : History World) : Prop :=
  (marks t = [] ∨ 2 ≤ k ∧ ∃ payload, marks t = [.certAdd (some payload)]) ∧
    (3 ≤ k → IssuanceSaved P t)

theorem wpy_obtainCertificate {csr : Csr} {identities : CertificateIdentities} {description : Text}
    {Q : Except Exc Text → Log → History World → Prop} (hG : Lenient G)
    (hadd : ∀ caref payload t, marks t = [] → signRequest csr.pem caref opnsense
      identities.dnsNames identities.ipAddresses description = .ok payload →
      G (t ++ h) (.openUrl "POST" certAddPath (some payload)))
    (hok : ∀ certificatePem payload t, marks t = [.certAdd (some payload)] → IssuanceSaved P t →
      CertificateAnswered P certificatePem t →
      Q (.ok certificatePem) (log ++ exchangeProgress) (t ++ h))
    (herr : ∀ e k t, Exchanged P k t →
      Q (.error e) (log ++ exchangeProgress.take k) (t ++ h)) :
    wpy G (obtainCertificate P csr identities description opnsense) Q log h := by
  rw [obtainCertificate, wpy_bind_progress, wpy_bind]
  have hbefore : ∀ e t, marks t = [] → Q (.error e) (log ++ [.signingPreparation]) (t ++ h) :=
    fun e t ht => herr e 1 t ⟨.inl ht, by omega⟩
  refine silent_openOpnsenseClient.wpy_of hG ?_
  rintro (e | _) t₁ ht₁
  · exact hbefore e t₁ ht₁
  rw [either_ok, wpy_bind]
  refine wpy_resolveCa hG ?_ ?_
  swap
  · intro e t₂ ht₂
    rw [← List.append_assoc]
    exact hbefore e _ (by simp [ht₁, ht₂])
  intro caref t₂ ht₂
  rw [either_ok, wpy_bind, ← List.append_assoc]
  have ht : marks (t₂ ++ t₁) = [] := by simp [ht₁, ht₂]
  refine wpy_signCsr hG (hadd caref · _ ht) ?_ (fun e => hbefore e _ ht) ?_
  swap
  · intro e payload t₃ ht₃
    rw [← List.append_assoc]
    have hq := herr e 2 (t₃ ++ (t₂ ++ t₁)) ⟨.inr ⟨le_rfl, payload, by simp [ht, ht₃]⟩, by omega⟩
    simpa [exchangeProgress] using hq
  intro uuid payload t₃ ht₃ hsaved
  rw [either_ok, wpy_bind_progress, wpy_bind, ← List.append_assoc]
  have hm : marks (t₃ ++ (t₂ ++ t₁)) = [.certAdd (some payload)] := by simp [ht, ht₃]
  refine wpy_getCertificate hG ?_ ?_
  · intro certificatePem t₄ ht₄ hanswered
    rw [either_ok, wpy_bind_progress, wpy_pure, ← List.append_assoc]
    have hs := hsaved.append (u := t₄) (h := t₂ ++ t₁)
    have hc := hanswered.append (u := []) (h := t₃ ++ (t₂ ++ t₁))
    rw [List.append_assoc] at hs
    have hq := hok certificatePem payload (t₄ ++ (t₃ ++ (t₂ ++ t₁))) (by rw [marks_append, ht₄, hm]; rfl)
      hs hc
    simpa [exchangeProgress] using hq
  · intro e t₄ ht₄
    rw [← List.append_assoc]
    have hs := hsaved.append (u := t₄) (h := t₂ ++ t₁)
    rw [List.append_assoc] at hs
    have hq := herr e 3 (t₄ ++ (t₃ ++ (t₂ ++ t₁)))
      ⟨.inr ⟨by omega, payload, by rw [marks_append, ht₄, hm]; rfl⟩, fun _ => hs⟩
    simpa [exchangeProgress] using hq

/-! `sign_pending_csr`. -/

/-- What `sign_pending_csr` reports, in order. -/
def signProgress : Log :=
  [.csrRetrievalStarted, .pendingCsrObserved, .csrRetrieved] ++ exchangeProgress ++
    [.issuedValidated]

/-- The payload asks for the signature of the CSR. -/
def SigningRequest (switch : Switch) (certificateName : Text) (opnsense : OpnsenseSettings)
    (csr : Csr) (payload : Option Json) : Prop :=
  ∃ identities caref request, validateSwitchSigningIdentity switch = .ok identities ∧
    signRequest csr.pem caref opnsense identities.dnsNames identities.ipAddresses
      (buildOpnsenseCertificateDescription certificateName identities.commonName) = .ok request ∧
    payload = some request

/-- When `sign_pending_csr` makes its marks: a connection that reads the CSR, then one request. -/
def signGate (P : Platform) (switch : Switch) (certificateName : Text) (settings : CsrSettings)
    (opnsense : OpnsenseSettings) (h : History World) : Mark → Prop
  | .connect => marks h = []
  | .certAdd payload => marks h = [.connect] ∧ ∃ csrPem csr,
      CsrRead P switch certificateName settings csrPem csr h ∧
      SigningRequest switch certificateName opnsense csr payload
  | _ => False

/-- How `sign_pending_csr` ends. -/
def SignEnd (P : Platform) (log : Log) (r : Except Exc Text) (log' : Log) (t : History World) :
    Prop :=
  ∃ k, log' = log ++ signProgress.take k ∧
    (marks t = [] ∨ marks t = [.connect] ∨
      5 ≤ k ∧ ∃ payload, marks t = [.certAdd (some payload), .connect]) ∧
    (6 ≤ k → IssuanceSaved P t) ∧
    either (fun certificatePem => k = 8 ∧ CertificateAnswered P certificatePem t ∧
      ∃ payload, marks t = [.certAdd (some payload), .connect]) (fun _ => True) r

theorem signPendingCsr_spec :
    wpy (gate (signGate P switch certificateName settings opnsense))
      (signPendingCsr P switch credentials certificateName settings opnsense minimumRemainingDays)
      (SignEnd P log) log [] := by
  have hquiet : ∀ e k t, k ≤ 5 → (marks t = [] ∨ marks t = [.connect]) →
      SignEnd P log (.error e) (log ++ signProgress.take k) t :=
    fun e k t hk ht => ⟨k, rfl, ht.imp_right .inl, by omega, trivial⟩
  have hnone : ∀ e, SignEnd P log (.error e) log [] := fun e => by
    simpa using hquiet e 0 [] (by omega) (.inl rfl)
  rw [signPendingCsr]
  refine wpy_bind_result (fun identities hi => ?_) fun e _ => hnone e
  rw [wpy_bind, retrievePendingCsr, wpy_bind_progress, wpy_bind]
  refine wpy_retrieveCsr lenient_gate ?_ ?_ ?_
  · refine fun d t ht => ⟨rfl, fun m hm => ?_⟩
    obtain rfl : Mark.connect = m := by simpa [Call.mark?] using hm
    simpa [signGate] using ht
  swap
  · intro e k t ht
    have hq := hquiet e (1 + min k 1) (t ++ []) (by omega) (by simpa using ht)
    cases k with
    | zero => simpa [signProgress] using hq
    | succ k => simpa [signProgress] using hq
  intro csrPem csr' t₁ ht₁ hcsr
  rw [either_ok]
  have hlog : log ++ [.csrRetrievalStarted] ++ [.pendingCsrObserved] =
      log ++ signProgress.take 2 := by simp [signProgress]
  rw [hlog]
  refine wpy_bind_result (fun csr hv => ?_) fun e _ => hquiet e 2 _ (by omega) (by simp [ht₁])
  obtain rfl : csr = csr' := by
    obtain ⟨_, _, _, hv'⟩ := hcsr
    exact Except.ok.inj (hv.symm.trans hv')
  rw [wpy_bind_progress, wpy_pure, either_ok, wpy_bind]
  refine wpy_obtainCertificate lenient_gate ?_ ?_ ?_
  · refine fun caref request t ht hr => ⟨rfl, fun m hm => ?_⟩
    obtain rfl : Mark.certAdd (some request) = m := by simpa [Call.mark?] using hm
    refine ⟨by simp [ht, ht₁], csrPem, csr, hcsr.mono (by simp), identities, caref, request, hi, hr, rfl⟩
  swap
  · intro e k t ht
    obtain ⟨hm, hs⟩ := ht
    refine ⟨3 + min k 4, ?_, ?_, fun hk => ?_, trivial⟩
    · obtain rfl | rfl | rfl | rfl | hk : k = 0 ∨ k = 1 ∨ k = 2 ∨ k = 3 ∨ 4 ≤ k := by omega
      all_goals simp [signProgress, exchangeProgress]
      rw [List.take_of_length_le (by simpa using hk), Nat.min_eq_right hk]
      simp
    · obtain hm | ⟨hk, payload, hm⟩ := hm
      · exact .inr (.inl (by simp [hm, ht₁]))
      · exact .inr (.inr ⟨by omega, payload, by simp [hm, ht₁]⟩)
    · exact (hs (by omega)).append (u := []) (h := t₁ ++ [])
  intro certificatePem payload t₂ ht₂ hsaved hanswered
  rw [either_ok, wpy_bind]
  have hm : marks (t₂ ++ (t₁ ++ [])) = [.certAdd (some payload), .connect] := by simp [ht₁, ht₂]
  have hs : IssuanceSaved P (t₂ ++ (t₁ ++ [])) := hsaved.append (u := [])
  have ha : CertificateAnswered P certificatePem (t₂ ++ (t₁ ++ [])) := hanswered.append (u := [])
  refine wpy_validateIssuedCertificate lenient_gate ?_ ?_
  · intro certificate now _ _
    refine ⟨8, by simp [signProgress, exchangeProgress], .inr (.inr ⟨by omega, payload, hm⟩), fun _ => ?_, rfl, ?_,
      payload, hm⟩
    · simpa using hs.append (u := [⟨.utcNow, now⟩]) (h := [])
    · simpa using ha.append (u := [⟨.utcNow, now⟩]) (h := [])
  · intro e t₃ ht₃
    refine ⟨7, by simp [signProgress, exchangeProgress], .inr (.inr ⟨by omega, payload, ?_⟩),
      fun _ => ?_, trivial⟩
    · rw [marks_append, ht₃, hm]
      rfl
    · simpa using hs.append (u := t₃) (h := [])

end ArubaCertRenewer
