import ArubaCertRenewer.RecordConsistency

/- What the record of a switch tells of what was done to it.

   The milestones move with the progress reports, and the reports are made by the
   functions that act, some layers down. `Telling` says which of the changes a
   history may hold under a record, and what a confirmed milestone was seen by. It is
   shown for the run of each operation, and an exception that ends one keeps it. -/
namespace ArubaCertRenewer
open PyText Effects Effects.Py

/-- What a record tells of the history of its switch. -/
structure Telling (P : Platform) (item : SwitchResult) (t : History World) : Prop where
  undone : jsonFailureOutcome item = .failurePreAttempt → mutations t = [] ∨ Masked t
  csr : item.milestones.csr = .notAttempted → ∀ command, .createCsr command ∉ marks t
  issuance : item.milestones.issuance = .notAttempted → ∀ payload, .certAdd payload ∉ marks t
  installation : item.milestones.installation = .notAttempted → .install ∉ marks t ∨ Masked t
  issued : item.milestones.issuance = .confirmed → IssuanceSaved P t
  installed : .confirmed ∈
      [item.milestones.installation, item.milestones.activation, item.milestones.liveTls] →
    ∃ certificate name certificatePem profile, item.certificate = some (jsonCertificate certificate) ∧
      InstallConfirmed name certificatePem profile (session t) ∧
      (item.milestones.liveTls = .confirmed → Presented certificate.der t)

/-! ## Reports -/

section reports
variable {item : SwitchResult} {log : Log}

/-- What a report does to the milestone of the issuance. -/
def Progress.issuance : Milestone → Progress → Milestone
  | _, .issuanceDispatched => .uncertain
  | _, .issuanceConfirmed => .confirmed
  | m, _ => m

/-- What a report does to the change. -/
def Progress.change : Change → Progress → Change
  | _, .csrConfirmed | _, .issuanceConfirmed | _, .installationConfirmed _ => .confirmed
  | _, .issuanceDispatched => .possible
  | c, _ => c

/-- A report of what comes before the installation. -/
def Progress.early : Progress → Bool
  | .installationConfirmed _ | .liveTlsConfirmed => false
  | _ => true

/-- Nothing is said of the installation yet. -/
structure Uninstalled (item : SwitchResult) : Prop where
  installation : item.milestones.installation = .notAttempted
  activation : item.milestones.activation = .notAttempted
  liveTls : item.milestones.liveTls = .notAttempted

theorem Uninstalled.progress (hu : Uninstalled item) {p : Progress} (hp : p.early = true) :
    Uninstalled (jsonProgress item p) := by
  obtain ⟨hinstallation, hactivation, hlive⟩ := hu
  cases p with
  | csrRetrievalStarted =>
    by_cases hcsr : item.milestones.csr = .notAttempted
    · exact ⟨by simpa [jsonProgress, hcsr] using hinstallation,
        by simpa [jsonProgress, hcsr] using hactivation, by simpa [jsonProgress, hcsr] using hlive⟩
    · exact ⟨by simpa [jsonProgress, hcsr] using hinstallation,
        by simpa [jsonProgress, hcsr] using hactivation, by simpa [jsonProgress, hcsr] using hlive⟩
  | installationConfirmed certificate | liveTlsConfirmed => cases hp
  | _ => exact ⟨hinstallation, hactivation, hlive⟩

theorem Uninstalled.foldl (hu : Uninstalled item) (hlog : log.all Progress.early = true) :
    Uninstalled (log.foldl jsonProgress item) := by
  induction log generalizing item with
  | nil => exact hu
  | cons p log ih =>
    rw [List.all_cons, Bool.and_eq_true] at hlog
    exact ih (hu.progress hlog.1) hlog.2

/-- Something was done, and the record has it. -/
structure Begun (item : SwitchResult) : Prop where
  change : item.change ≠ .none
  csr : item.milestones.csr ≠ .notAttempted

theorem Begun.progress (hb : Begun item) (p : Progress) : Begun (jsonProgress item p) := by
  obtain ⟨hchange, hcsr⟩ := hb
  cases p with
  | csrConfirmed => exact ⟨fun h => (by cases h), fun h => by cases h⟩
  | issuanceDispatched | issuanceConfirmed | installationConfirmed _ =>
    exact ⟨fun h => (by cases h), hcsr⟩
  | csrRetrieved => exact ⟨hchange, fun h => by cases h⟩
  | csrRetrievalStarted => exact ⟨hchange, by simp [jsonProgress, hcsr]⟩
  | _ => exact ⟨hchange, hcsr⟩

theorem Begun.foldl (hb : Begun item) : Begun (log.foldl jsonProgress item) := by
  induction log generalizing item with
  | nil => exact hb
  | cons p log ih => exact ih (hb.progress p)

theorem jsonFailureOutcome_of_change (hc : item.change ≠ .none) :
    jsonFailureOutcome item ≠ .failurePreAttempt := by
  obtain ⟨h, -⟩ | ⟨h, -⟩ | ⟨-, h, -⟩ := jsonFailureOutcome_cases item
  · rw [h]
    decide
  · rw [h]
    decide
  · exact absurd h hc

end reports

/-! ## What keeps a record telling -/

section telling
variable {P : Platform} {item item' : SwitchResult} {t u g : History World}

theorem Masked.append (hm : Masked t) : Masked (u ++ t ++ g) := by
  obtain ⟨post, pre, rfl, hi, directory, y, f, x, v, rfl, hr⟩ := hm
  refine ⟨u ++ post, ⟨.rmtree directory, y⟩ :: ⟨.disconnect (some f), x⟩ :: v ++ g, by simp, ?_,
    directory, y, f, x, v ++ g, rfl, hr⟩
  rw [marks_append]
  exact List.mem_append_left _ hi

theorem not_mem_marks {m : Mark} (ht : mutations t = []) (hm : m.mutates = true) : m ∉ marks t := by
  intro hmem
  have hin : m ∈ mutations t := List.mem_filter.mpr ⟨hmem, hm⟩
  rw [ht] at hin
  cases hin

/-- What happens before that changes nothing, and after without a mark, does not matter. -/
theorem Telling.append (ht : Telling P item t) (hu : marks u = []) (hg : mutations g = []) :
    Telling P item (u ++ t ++ g) := by
  have hsession : ∃ v, session (u ++ t ++ g) = u ++ session t ++ v := by
    by_cases hc : Mark.connect ∈ marks t
    · exact ⟨[], by rw [List.append_assoc, session_append_of_quiet (by simp [hu]),
        session_append_of_connect hc, List.append_nil]⟩
    · refine ⟨session g, ?_⟩
      have hnil := session_append_of_quiet (h := []) hc
      rw [List.append_nil] at hnil
      rw [session_append_of_quiet (by simp [hu, hc]), hnil, show session [] = [] from rfl,
        List.append_nil]
  have hmem : ∀ {m : Mark}, m.mutates = true → m ∉ marks t → m ∉ marks (u ++ t ++ g) := by
    intro m hm hnot hin
    rw [marks_append, marks_append, hu, List.nil_append] at hin
    exact (List.mem_append.mp hin).elim hnot (not_mem_marks hg hm)
  refine ⟨fun h => ?_, fun h _ => hmem rfl (ht.csr h _), fun h _ => hmem rfl (ht.issuance h _),
    fun h => (ht.installation h).imp (hmem rfl) Masked.append, fun h => (ht.issued h).append,
    fun h => ?_⟩
  · refine (ht.undone h).imp (fun hm => ?_) Masked.append
    rw [mutations_append, mutations_append, hm, hg, mutations, hu]
    rfl
  · obtain ⟨certificate, name, certificatePem, profile, hcert, hseen, hlive⟩ := ht.installed h
    obtain ⟨v, hv⟩ := hsession
    refine ⟨certificate, name, certificatePem, profile, hcert, hv ▸ hseen.append, fun hl => ?_⟩
    exact List.mem_append_left _ (hlive hl).append

/-- Nothing was changed, and nothing is said to have been. -/
theorem Telling.of_unchanged (hm : mutations t = []) (hissuance : item.milestones.issuance ≠ .confirmed)
    (hu : Uninstalled item) : Telling P item t := by
  refine ⟨fun _ => .inl hm, fun _ _ => not_mem_marks hm rfl, fun _ _ => not_mem_marks hm rfl,
    fun _ => .inl (not_mem_marks hm rfl), fun h => absurd h hissuance, fun h => ?_⟩
  rw [hu.installation, hu.activation, hu.liveTls] at h
  exact absurd h (by decide)

/-- A record that says no less of what was done, and claims no more to be confirmed. -/
theorem Telling.weaken (ht : Telling P item t)
    (hout : jsonFailureOutcome item' = .failurePreAttempt → jsonFailureOutcome item = .failurePreAttempt)
    (hcsr : item'.milestones.csr = .notAttempted → item.milestones.csr = .notAttempted)
    (hissuance : item'.milestones.issuance = item.milestones.issuance)
    (hinstallation : item'.milestones.installation = item.milestones.installation ∨
      item'.milestones.installation = .uncertain)
    (hactivation : item'.milestones.activation = item.milestones.activation)
    (hlive : item'.milestones.liveTls = item.milestones.liveTls ∨ item'.milestones.liveTls = .failed)
    (hcertificate : item'.certificate = item.certificate) : Telling P item' t := by
  refine ⟨fun h => ht.undone (hout h), fun h => ht.csr (hcsr h), fun h => ht.issuance (hissuance ▸ h),
    fun h => ?_, fun h => ht.issued (hissuance ▸ h), fun h => ?_⟩
  · obtain hsame | huncertain := hinstallation
    · exact ht.installation (hsame ▸ h)
    · cases huncertain.symm.trans h
  · have hconfirmed : .confirmed ∈
        [item.milestones.installation, item.milestones.activation, item.milestones.liveTls] := by
      simp only [List.mem_cons, List.not_mem_nil, or_false] at h ⊢
      obtain h | h | h := h
      · obtain hsame | huncertain := hinstallation
        · exact .inl (hsame ▸ h)
        · cases huncertain.symm.trans h.symm
      · exact .inr (.inl (hactivation ▸ h))
      · obtain hsame | hfailed := hlive
        · exact .inr (.inr (hsame ▸ h))
        · cases hfailed.symm.trans h.symm
    obtain ⟨certificate, name, certificatePem, profile, hcert, hseen, hlive'⟩ := ht.installed hconfirmed
    refine ⟨certificate, name, certificatePem, profile, hcertificate.trans hcert, hseen, fun hl => ?_⟩
    obtain hsame | hfailed := hlive
    · exact hlive' (hsame ▸ hl)
    · cases hfailed.symm.trans hl

/-- A record of which the change and the milestones are those of another. -/
theorem Telling.same (ht : Telling P item t) (hchange : item'.change = item.change)
    (hmilestones : item'.milestones = item.milestones) (hcertificate : item'.certificate = item.certificate) :
    Telling P item' t := by
  refine ht.weaken (fun h => ?_) (fun h => hmilestones ▸ h) (by rw [hmilestones]) (.inl (by rw [hmilestones]))
    (by rw [hmilestones]) (.inl (by rw [hmilestones])) hcertificate
  rw [jsonFailureOutcome, hchange, hmilestones] at h
  exact h

/-- Whatever exception ends an operation: a record that told of it tells of it still. -/
theorem Telling.jsonFailure (ht : Telling P item t) (e : Exc) :
    Telling P (ArubaCertRenewer.jsonFailure item e) t := by
  have hpossible : ∀ {item' : SwitchResult}, item'.change = .possible →
      jsonFailureOutcome item' ≠ .failurePreAttempt := by
    intro item' hc
    exact jsonFailureOutcome_of_change (by rw [hc]; decide)
  unfold ArubaCertRenewer.jsonFailure
  split
  · exact ht.same rfl rfl rfl
  split
  · exact ht.same rfl rfl rfl
  split
  · exact ht.same rfl rfl rfl
  split
  · exact ht.weaken (fun h => absurd h (hpossible rfl)) (fun h => by cases h) rfl (.inl rfl) rfl
      (.inl rfl) rfl
  split
  · exact ht.same rfl rfl rfl
  split
  · exact ht.same rfl rfl rfl
  split
  · exact ht.weaken (fun h => absurd h (hpossible rfl)) id rfl (.inr rfl) rfl (.inl rfl) rfl
  split
  · -- the last milestone has no part in the outcome
    exact ht.weaken id id rfl (.inl rfl) rfl (.inr rfl) rfl
  · exact ht.same rfl rfl rfl

theorem Telling.explicitFailure (ht : Telling P item t) (operation : Operation) :
    Telling P (ArubaCertRenewer.explicitFailure operation item) t := by
  have hgeneral : ∀ reason : Reason, Telling P
      (if jsonFailureOutcome item == .failurePreAttempt then { item with
        outcome := jsonFailureOutcome item, reasonCode := some reason
        message := "Operation failed before a new certificate state change."
        manualRecoveryRequired := item.milestones.csr == .confirmed || item.pendingCsrObserved }
      else { item with
        outcome := jsonFailureOutcome item, reasonCode := some reason
        message := "Operation failed after a state change; inspect switch."
        manualRecoveryRequired := true }) t := by
    intro reason
    split <;> exact ht.same rfl rfl rfl
  cases operation with
  | generateCsr name csr csrOutput =>
    show Telling P (if _ then _ else _) t
    split
    · exact ht.same rfl rfl rfl
    · exact hgeneral .csrFailed
  | signCsr name csr opnsense certificateOutput => exact ht.jsonFailure _
  | install name csr opnsense ca certificatePem => exact hgeneral .validationFailed
  | inspect => exact hgeneral .csrFailed
  | renewNow csr opnsense ca => exact hgeneral .csrFailed
  | renewDue csr opnsense ca => exact hgeneral .csrFailed
  | retrieveCsr name csr csrOutput => exact hgeneral .csrFailed

/-- A failed attempt at the installation, of which nothing was told. -/
theorem Telling.attempted {e : Exc} (he : e.isCertificateInstallationAttemptError = true)
    (hu : Uninstalled item) (hcsr : item.milestones.csr = .notAttempted → ∀ command, .createCsr command ∉ marks t)
    (hissuance : item.milestones.issuance = .notAttempted → ∀ payload, .certAdd payload ∉ marks t)
    (hissued : item.milestones.issuance = .confirmed → IssuanceSaved P t) :
    Telling P (ArubaCertRenewer.jsonFailure item e) t := by
  obtain ⟨x, rfl⟩ : ∃ m, e = .own .certificateInstallationAttempt m := by
    cases e with
    | std x => cases he
    | own c m => exact ⟨m, by rw [eq_of_beq he]⟩
  refine ⟨fun h => absurd h (jsonFailureOutcome_of_change fun hc => (by cases hc)), hcsr, hissuance,
    fun h => (by cases h), hissued, fun h => ?_⟩
  obtain ⟨-, hactivation, hlive⟩ := hu
  simp only [List.mem_cons, List.not_mem_nil, or_false] at h
  obtain h | h | h := h
  · cases h
  · cases h.trans hactivation
  · cases h.trans hlive

end telling

/-! ## How an operation leaves its record -/

/-- As what it says, unless an exception that is not the program's own leaves the operation. -/
structure LeftRecord (P : Platform) (operation : Operation) (r : Except Exc Unit) (item : SwitchResult)
    (t : History World) : Prop where
  steady : Steady item
  telling : Telling P item t
  plain : ∀ e, r = .error e → e.Plain
  consistent : ∀ u, r = .ok u → SelfConsistent operation.renews item

section left
variable {P : Platform} {operation : Operation} {item : SwitchResult} {t : History World} {e : Exc}

theorem Unstarted.steady (hu : Unstarted item) : Steady item where
  changed h := by cases hu.change.symm.trans h
  activation := by simp [hu.milestones]
  liveTls := by simp [hu.milestones]

theorem Unstarted.uninstalled (hu : Unstarted item) : Uninstalled item where
  installation := by simp [hu.milestones]
  activation := by simp [hu.milestones]
  liveTls := by simp [hu.milestones]

theorem Unstarted.telling (hu : Unstarted item) (hm : mutations t = []) : Telling P item t :=
  .of_unchanged hm (by simp [hu.milestones]) hu.uninstalled

end left

end ArubaCertRenewer
