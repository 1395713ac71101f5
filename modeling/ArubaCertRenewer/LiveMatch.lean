import ArubaCertRenewer.Gate

/- The live verification changes nothing, and it succeeds only on a leaf
   certificate that the endpoint presented and that is the expected one. -/
namespace ArubaCertRenewer
open PyText Effects Effects.Py

variable {σ : Type} {s : σ} {h : History World} {host : Text} {deadline socketTimeout : Rat}

/-- The live endpoint presented this leaf certificate. -/
def Presented (der : Bytes) (h : History World) : Prop := ⟨.getPeerCert, .ok der⟩ ∈ h

theorem Presented.append {der : Bytes} {t : History World} (hp : Presented der h) :
    Presented der (t ++ h) :=
  List.mem_append_right _ hp

theorem silent_monotonic : Silent (monotonic : Act σ Rat) := .call ⟨rfl, rfl⟩

theorem silent_liveHttpsTimeout : Silent (liveHttpsTimeout deadline socketTimeout : Act σ Rat) :=
  .bind' silent_monotonic fun _ => .bind' (.raiseIf' _ _) fun _ => .pure' _

theorem silent_resolveLiveHttpsAddresses :
    Silent (resolveLiveHttpsAddresses host deadline : Act σ (List SocketAddress)) := by
  unfold resolveLiveHttpsAddresses
  cases IpAddress.ofText host with
  | some address => cases address <;> exact .pure' _
  | none =>
    exact .bind' silent_monotonic fun _ => .bind' (.raiseIf' _ _) fun _ =>
      .bind' (.ask' ⟨rfl, rfl⟩) fun _ => .bind' (.raiseIf' _ _) fun _ =>
        .bind' silent_monotonic fun _ => .bind' (.raiseIf' _ _) fun _ => .pure' _

/-- A reading of the endpoint: silent, and what it returns was presented. -/
def ReadsLeaf (x : Act σ Bytes) : Prop :=
  ∀ s h, wpy unmarked x (fun r s' h' => s' = s ∧ ∀ der, r = .ok der → Presented der h') s h

namespace ReadsLeaf
variable {α : Type}

theorem getPeerCert : ReadsLeaf (ask .getPeerCert fun r => r : Act σ Bytes) := by
  refine fun s h => wpy_ask.mpr ⟨⟨rfl, rfl⟩, fun r => ⟨rfl, fun der hr => ?_⟩⟩
  cases r with
  | error e => cases hr
  | ok der' =>
    cases hr
    exact List.mem_cons_self

theorem throw' (e : Exc) : ReadsLeaf (throw e : Act σ Bytes) := fun _ _ => ⟨rfl, fun _ hr => by cases hr⟩

theorem silent_bind {x : Act σ α} {f : α → Act σ Bytes} (hx : Silent x)
    (hf : ∀ a, ReadsLeaf (f a)) : ReadsLeaf (x >>= f) := by
  refine fun s h => wpy_bind.mpr (hx.wpy_of lenient_unmarked ?_)
  rintro (e | a) t _
  · exact ⟨rfl, fun der hr => by cases hr⟩
  · exact hf a s _

theorem bind_silent {x : Act σ Bytes} {y : Act σ α} (hx : ReadsLeaf x) (hy : Silent y) :
    ReadsLeaf (do let der ← x; let _ ← y; return der) := by
  refine fun s h => wpy_bind.mpr (wpy_post (hx s h) ?_)
  rintro (e | der) s' t ⟨rfl, hr⟩
  · exact ⟨rfl, fun der hr => by cases hr⟩
  rw [either_ok, wpy_bind]
  refine hy.wpy_of lenient_unmarked ?_
  rintro (e | _) t' _
  · exact ⟨rfl, fun der hr => by cases hr⟩
  · refine ⟨rfl, fun der' hr' => ?_⟩
    cases hr'
    exact (hr der rfl).append

theorem within {enter : Act σ α} {leave : α → Option Exc → Act σ Unit} {body : α → Act σ Bytes}
    (he : Silent enter) (hl : ∀ c f, Silent (leave c f)) (hb : ∀ c, ReadsLeaf (body c)) :
    ReadsLeaf (within enter leave body) := by
  refine fun s h => wpy_within.mpr (he.wpy_of lenient_unmarked ?_)
  rintro (e | c) t _
  · exact ⟨rfl, fun der hr => by cases hr⟩
  rw [either_ok]
  refine wpy_post (hb c s _) ?_
  rintro r s' t' ⟨rfl, hr⟩
  refine (hl c _).wpy_of lenient_unmarked ?_
  rintro (e | _) u _
  · exact ⟨rfl, fun der hr => by cases hr⟩
  · exact ⟨rfl, fun der hd => (hr der hd).append⟩

end ReadsLeaf

theorem readsLeaf_readLeafFrom (address : SocketAddress) :
    ReadsLeaf (readLeafFrom address host deadline socketTimeout : Act σ Bytes) :=
  .bind_silent
    (.within (.ask' ⟨rfl, rfl⟩) (fun _ _ => .ask' ⟨rfl, rfl⟩) fun _ =>
      .silent_bind silent_liveHttpsTimeout fun _ => .silent_bind (.ask' ⟨rfl, rfl⟩) fun _ =>
        .silent_bind (.ask' ⟨rfl, rfl⟩) fun _ => .silent_bind silent_liveHttpsTimeout fun _ =>
          .silent_bind (.ask' ⟨rfl, rfl⟩) fun _ =>
            .within (.ask' ⟨rfl, rfl⟩) (fun _ _ => .ask' ⟨rfl, rfl⟩) fun _ => .getPeerCert)
    silent_liveHttpsTimeout

/-- Over the addresses: the certificate of the first one that could be read. -/
theorem readsLeaf_readLiveHttpsLeaf :
    ∀ (addresses : List SocketAddress) (lastError : Exc),
      ReadsLeaf (readLiveHttpsLeaf host deadline socketTimeout lastError addresses : Act σ Bytes)
  | [], lastError => .throw' lastError
  | address :: addresses, lastError => by
    refine fun s h => wpy_bind.mpr (wpy_attempt.mpr ?_)
    refine wpy_post (readsLeaf_readLeafFrom address s h) ?_
    rintro (e | der) s' t ⟨rfl, hr⟩
    · exact ReadsLeaf.silent_bind (.raiseIf' _ _) (fun _ => .silent_bind silent_monotonic fun _ =>
        .silent_bind (.raiseIf' _ _) fun _ => readsLeaf_readLiveHttpsLeaf addresses e) s' _
    · exact ⟨rfl, hr⟩

/-- What `judgeLeaf` takes for a match is the expected certificate. -/
theorem judgeLeaf_match {expectedDer : Bytes} {leaf : Except Exc Bytes}
    (hj : judgeLeaf expectedDer leaf = .ok none) : leaf = .ok expectedDer := by
  cases leaf with
  | ok peerDer =>
    by_cases he : (peerDer == expectedDer) = true
    · rw [eq_of_beq he]
    · simp [judgeLeaf, he] at hj
  | error e =>
    simp only [judgeLeaf] at hj
    repeat' split at hj
    all_goals cases hj

/-- The loop: one more attempt, or an end. -/
theorem awaitLiveCertificate_spec (times : LiveTimes) (expectedDer : Bytes) (addresses : List SocketAddress) :
    ∀ (n : Nat) (lastError : Text) (s : σ) (h : History World),
      wpy unmarked (awaitLiveCertificate times host deadline expectedDer addresses n lastError)
        (fun r s' h' => s' = s ∧ (r = .ok () → Presented expectedDer h')) s h
  | 0, _, _, _ => trivial
  | n + 1, lastError, s, h => by
    rw [awaitLiveCertificate, wpy_bind]
    refine silent_monotonic.wpy_of lenient_unmarked ?_
    rintro (e | now) t _
    · exact ⟨rfl, fun hr => by cases hr⟩
    rw [either_ok]
    refine wpy_bind_raiseIf (fun _ => ⟨rfl, fun hr => by cases hr⟩) fun _ => ?_
    rw [wpy_bind, wpy_attempt]
    refine wpy_post (readsLeaf_readLiveHttpsLeaf addresses timeoutError s _) ?_
    rintro leaf s' t' ⟨rfl, hr⟩
    rw [either_ok]
    refine wpy_bind_result (fun judged hj => ?_) fun e _ => ⟨rfl, fun hr => by cases hr⟩
    cases judged with
    | none =>
      have hp := hr expectedDer (judgeLeaf_match hj)
      simp only
      rw [wpy_bind]
      refine silent_monotonic.wpy_of lenient_unmarked ?_
      rintro (e | now') u _
      · exact ⟨rfl, fun hr => by cases hr⟩
      rw [either_ok, wpy_raiseIf]
      exact ⟨fun _ => ⟨rfl, fun hr => by cases hr⟩, fun _ => ⟨rfl, fun _ => hp.append⟩⟩
    | some lastError' =>
      simp only
      rw [wpy_bind]
      refine silent_monotonic.wpy_of lenient_unmarked ?_
      rintro (e | now') u _
      · exact ⟨rfl, fun hr => by cases hr⟩
      rw [either_ok]
      refine wpy_bind_raiseIf (fun _ => ⟨rfl, fun hr => by cases hr⟩) fun _ => ?_
      exact wpy_call.mpr ⟨⟨rfl, rfl⟩, fun _ =>
        awaitLiveCertificate_spec times expectedDer addresses n lastError' s' _⟩

theorem silent_createClientTlsContext {cadata : Option Text} :
    Silent (createClientTlsContext cadata : Act σ TlsContext) :=
  .bind' (.ask' ⟨rfl, rfl⟩) fun _ => .bind' (.raiseIf' _ _) fun _ => .pure' _

theorem silent_verificationContext {snapshot : VerificationCaSnapshot} :
    Silent (verificationContext snapshot : Act σ TlsContext) :=
  .handle' (.bind' (.result' _) fun _ => silent_createClientTlsContext) fun _ => .throw' _

theorem verifyLiveHttpsCertificate_spec (P : Platform) (switch : Switch)
    (snapshot : VerificationCaSnapshot) (expected : Certificate) (s : σ) (h : History World) :
    wpy unmarked (verifyLiveHttpsCertificate P switch snapshot expected)
      (fun r s' h' => s' = s ∧ (r = .ok () → Presented expected.der h')) s h := by
  have herr : ∀ e t, (s = s ∧ ((.error e : Except Exc Unit) = .ok () → Presented expected.der t)) :=
    fun e t => ⟨rfl, fun hr => by cases hr⟩
  refine wpy_bind_raiseIf (fun _ => herr _ _) fun _ => ?_
  refine wpy_bind_raiseIf (fun _ => herr _ _) fun _ => ?_
  refine wpy_bind_raiseIf (fun _ => herr _ _) fun _ => ?_
  refine wpy_bind_result (fun identities _ => ?_) fun e _ => herr e _
  rw [wpy_bind]
  refine silent_verificationContext.wpy_of lenient_unmarked ?_
  rintro (e | context) t₁ _
  · exact herr e _
  rw [either_ok]
  refine wpy_bind_raiseIf (fun _ => herr _ _) fun _ => ?_
  rw [wpy_bind]
  refine silent_monotonic.wpy_of lenient_unmarked ?_
  rintro (e | now) t₂ _
  · exact herr e _
  rw [either_ok, wpy_bind]
  refine silent_resolveLiveHttpsAddresses.wpy_of lenient_unmarked ?_
  rintro (e | addresses) t₃ _
  · exact herr e _
  · exact awaitLiveCertificate_spec liveTimes expected.der addresses P.liveAttempts notReady s _

theorem wpy_verifyLiveHttpsCertificate {G : History World → Call → Prop} {P : Platform}
    {switch : Switch} {snapshot : VerificationCaSnapshot} {expected : Certificate}
    {Q : Except Exc Unit → σ → History World → Prop} (hG : Lenient G)
    (hok : ∀ t, marks t = [] → Presented expected.der t → Q (.ok ()) s (t ++ h))
    (herr : ∀ e t, marks t = [] → Q (.error e) s (t ++ h)) :
    wpy G (verifyLiveHttpsCertificate P switch snapshot expected) Q s h := by
  refine wpy_of_unmarked (verifyLiveHttpsCertificate_spec P switch snapshot expected s []) hG ?_
  rintro (e | _) t ht hp
  · exact herr e t ht
  · exact hok t ht (hp rfl)

end ArubaCertRenewer
