import ArubaCertRenewer.Aggregation
import ArubaCertRenewer.JsonRuns
import ArubaCertRenewer.Whole

/- What the fields of a final record say of one another.

   While an operation runs its record is `Steady`: a confirmed change has a confirmed
   milestone before the last one, and the last two are never uncertain. Every progress
   report keeps it so, in whatever order they come. What ends the operation then makes
   the record `SelfConsistent`: an outcome that is computed from such a record agrees with
   it, and the outcomes that are set outright are set where the record is as it was. -/
namespace ArubaCertRenewer
open PyText Effects Effects.Py

def Milestones.all (m : Milestones) : List Milestone :=
  [m.csr, m.issuance, m.installation, m.activation, m.liveTls]

def Operation.renews : Operation → Bool
  | .renewNow .. | .renewDue .. => true
  | _ => false

/-- The record of a switch agrees with itself. -/
structure SelfConsistent (renews : Bool) (item : SwitchResult) : Prop where
  ambiguous : item.outcome = .failureAmbiguous → item.change = .possible ∨
    .uncertain ∈ [item.milestones.csr, item.milestones.issuance, item.milestones.installation]
  partly : item.outcome = .failurePartial → item.change = .confirmed ∨
    .confirmed ∈ [item.milestones.issuance, item.milestones.installation, item.milestones.activation]
  preAttempt : item.outcome = .failurePreAttempt →
    item.change = .none ∧ .uncertain ∉ item.milestones.all ∧ .confirmed ∉
      [item.milestones.issuance, item.milestones.installation, item.milestones.activation]
  changed : item.change = .confirmed → .confirmed ∈ item.milestones.all
  recovery : item.outcome = .failurePartial ∨ item.outcome = .failureAmbiguous →
    item.manualRecoveryRequired = true
  installed : item.outcome = .successChanged → item.milestones.installation = .confirmed ∧
    item.milestones.activation = .confirmed ∧ item.milestones.liveTls = .confirmed ∧
    item.certificate.isSome = true
  renewed : renews = true → item.outcome = .successChanged →
    ∀ m ∈ item.milestones.all, m = .confirmed
  success : item.outcome.isSuccess = true →
    item.reasonCode = none ∧ item.manualRecoveryRequired = false

/-! ## While an operation runs -/

/-- What every progress report keeps. -/
structure Steady (item : SwitchResult) : Prop where
  changed : item.change = .confirmed → .confirmed ∈ [item.milestones.csr, item.milestones.issuance,
    item.milestones.installation, item.milestones.activation]
  activation : item.milestones.activation ≠ .uncertain
  liveTls : item.milestones.liveTls ≠ .uncertain

/-- Nothing was done to the switch yet. -/
structure Unstarted (item : SwitchResult) : Prop where
  change : item.change = .none
  milestones : item.milestones = {}

/-- Nothing was made of the record yet. -/
structure Open (item : SwitchResult) : Prop where
  outcome : item.outcome = .failurePreAttempt
  reasonCode : item.reasonCode = none
  recovery : item.manualRecoveryRequired = false

section progress
variable {item : SwitchResult} {log : Log}

theorem Steady.progress (hs : Steady item) (p : Progress) : Steady (jsonProgress item p) := by
  obtain ⟨hchanged, hactivation, hlive⟩ := hs
  cases p with
  | csrRetrievalStarted =>
    refine ⟨fun hc => ?_, ?_, ?_⟩
    · have hm := hchanged hc
      by_cases hnot : item.milestones.csr = .notAttempted
      · simpa [jsonProgress, hnot] using hm
      · simpa [jsonProgress, hnot] using hm
    · by_cases hnot : item.milestones.csr = .notAttempted <;> simpa [jsonProgress, hnot] using hactivation
    · by_cases hnot : item.milestones.csr = .notAttempted <;> simpa [jsonProgress, hnot] using hlive
  | issuanceDispatched => exact ⟨fun hc => (by cases hc), hactivation, hlive⟩
  | csrRetrieved | csrConfirmed => exact ⟨fun _ => List.mem_cons_self, hactivation, hlive⟩
  | issuanceConfirmed => exact ⟨fun _ => (by simp [jsonProgress]), hactivation, hlive⟩
  | installationConfirmed certificate =>
    exact ⟨fun _ => (by simp [jsonProgress]), fun hu => (by cases hu), hlive⟩
  | liveTlsConfirmed => exact ⟨hchanged, hactivation, fun hu => by cases hu⟩
  | preflightConfirmed | pendingCsrObserved | signingPreparation | certificateRetrieved
  | issuedValidationStarted | issuedValidated | installationPrepared =>
    exact ⟨hchanged, hactivation, hlive⟩

theorem Steady.foldl (hs : Steady item) : Steady (log.foldl jsonProgress item) := by
  induction log generalizing item with
  | nil => exact hs
  | cons p log ih => exact ih (hs.progress p)

theorem Open.progress (ho : Open item) (p : Progress) : Open (jsonProgress item p) := by
  obtain ⟨hout, hreason, hrecovery⟩ := ho
  cases p <;> exact ⟨hout, hreason, hrecovery⟩

theorem Open.foldl (ho : Open item) : Open (log.foldl jsonProgress item) := by
  induction log generalizing item with
  | nil => exact ho
  | cons p log ih => exact ih (ho.progress p)

end progress

/-! ## Failures -/

section failure
variable {operation : Operation} {renews : Bool} {item : SwitchResult}

theorem jsonFailureOutcome_cases (item : SwitchResult) :
    (jsonFailureOutcome item = .failureAmbiguous ∧ (item.change = .possible ∨ .uncertain ∈
      [item.milestones.csr, item.milestones.issuance, item.milestones.installation])) ∨
    (jsonFailureOutcome item = .failurePartial ∧ (item.change = .confirmed ∨ .confirmed ∈
      [item.milestones.issuance, item.milestones.installation, item.milestones.activation])) ∨
    (jsonFailureOutcome item = .failurePreAttempt ∧ item.change = .none ∧
      .uncertain ∉ [item.milestones.csr, item.milestones.issuance, item.milestones.installation] ∧
      .confirmed ∉
        [item.milestones.issuance, item.milestones.installation, item.milestones.activation]) := by
  unfold jsonFailureOutcome
  dsimp only
  split
  · next h =>
    rw [Bool.or_eq_true, beq_iff_eq, List.contains_iff_mem] at h
    exact .inl ⟨rfl, h⟩
  · next h =>
    rw [Bool.or_eq_true, beq_iff_eq, List.contains_iff_mem, not_or] at h
    split
    · next h' =>
      rw [Bool.or_eq_true, beq_iff_eq, List.contains_iff_mem] at h'
      exact .inr (.inl ⟨rfl, h'⟩)
    · next h' =>
      rw [Bool.or_eq_true, beq_iff_eq, List.contains_iff_mem, not_or] at h'
      refine .inr (.inr ⟨rfl, ?_, h.2, h'.2⟩)
      cases hc : item.change with
      | none => rfl
      | confirmed => exact absurd hc h'.1
      | possible => exact absurd hc h.1

/-- A record whose outcome is the one of a steady record that is like it. -/
theorem Steady.consistent (hs : Steady item) (hout : item.outcome = jsonFailureOutcome item)
    (hrecovery : item.outcome ≠ .failurePreAttempt → item.manualRecoveryRequired = true) :
    SelfConsistent renews item := by
  have hnot : item.outcome ≠ .successChanged ∧ item.outcome.isSuccess ≠ true := by
    obtain ⟨h, -⟩ | ⟨h, -⟩ | ⟨h, -⟩ := jsonFailureOutcome_cases item <;> rw [hout, h] <;> decide
  refine ⟨fun h => ?_, fun h => ?_, fun h => ?_, fun h => ?_, fun h => ?_, fun h => absurd h hnot.1,
    fun _ h => absurd h hnot.1, fun h => absurd h hnot.2⟩
  · obtain ⟨-, hwhy⟩ | ⟨h', -⟩ | ⟨h', -⟩ := jsonFailureOutcome_cases item
    · exact hwhy
    · cases h.symm.trans (hout.trans h')
    · cases h.symm.trans (hout.trans h')
  · obtain ⟨h', -⟩ | ⟨-, hwhy⟩ | ⟨h', -⟩ := jsonFailureOutcome_cases item
    · cases h.symm.trans (hout.trans h')
    · exact hwhy
    · cases h.symm.trans (hout.trans h')
  · obtain ⟨h', -⟩ | ⟨h', -⟩ | ⟨-, hnone, hcertain, hundone⟩ := jsonFailureOutcome_cases item
    · cases h.symm.trans (hout.trans h')
    · cases h.symm.trans (hout.trans h')
    · refine ⟨hnone, fun hu => ?_, hundone⟩
      simp only [Milestones.all, List.mem_cons, List.not_mem_nil, or_false] at hu hcertain
      obtain hu | hu | hu | hu | hu := hu
      · exact hcertain (.inl hu)
      · exact hcertain (.inr (.inl hu))
      · exact hcertain (.inr (.inr hu))
      · exact hs.activation hu.symm
      · exact hs.liveTls hu.symm
  · have hm := hs.changed h
    simp only [Milestones.all, List.mem_cons, List.not_mem_nil, or_false] at hm ⊢
    obtain hm | hm | hm | hm := hm
    · exact .inl hm
    · exact .inr (.inl hm)
    · exact .inr (.inr (.inl hm))
    · exact .inr (.inr (.inr (.inl hm)))
  · apply hrecovery
    obtain h | h := h <;> rw [h] <;> decide

/-- A failure before anything was done. -/
theorem Unstarted.consistent (hu : Unstarted item) (hout : item.outcome = .failurePreAttempt) :
    SelfConsistent renews item where
  ambiguous h := by cases hout.symm.trans h
  partly h := by cases hout.symm.trans h
  preAttempt _ := ⟨hu.change, (by rw [hu.milestones]; decide), (by rw [hu.milestones]; decide)⟩
  changed h := by cases hu.change.symm.trans h
  recovery h := by
    obtain h | h := h
    · cases hout.symm.trans h
    · cases hout.symm.trans h
  installed h := by cases hout.symm.trans h
  renewed _ h := by cases hout.symm.trans h
  success h := by
    rw [hout] at h
    cases h

/-- A failure after which a change is possible. -/
theorem consistent_possible (hchange : item.change = .possible)
    (hout : item.outcome = .failureAmbiguous) (hrecovery : item.manualRecoveryRequired = true) :
    SelfConsistent renews item where
  ambiguous _ := .inl hchange
  partly h := by cases hout.symm.trans h
  preAttempt h := by cases hout.symm.trans h
  changed h := by cases hchange.symm.trans h
  recovery _ := hrecovery
  installed h := by cases hout.symm.trans h
  renewed _ h := by cases hout.symm.trans h
  success h := by
    rw [hout] at h
    cases h

theorem recoveryNeeded_of_ne {outcome : Outcome} (h : outcome ≠ .failurePreAttempt) :
    recoveryNeeded item outcome = true := by
  simp [recoveryNeeded, h]

/-- The same, for a record with the change and the milestones of a steady one. -/
theorem Steady.computed {item' : SwitchResult} (hs : Steady item) (hchange : item'.change = item.change)
    (hmilestones : item'.milestones = item.milestones) (hout : item'.outcome = jsonFailureOutcome item)
    (hrecovery : item'.outcome ≠ .failurePreAttempt → item'.manualRecoveryRequired = true) :
    SelfConsistent renews item' := by
  refine Steady.consistent ⟨?_, ?_, ?_⟩ ?_ hrecovery
  · rw [hchange, hmilestones]
    exact hs.changed
  · rw [hmilestones]
    exact hs.activation
  · rw [hmilestones]
    exact hs.liveTls
  · rw [hout, jsonFailureOutcome, jsonFailureOutcome, hchange, hmilestones]

/-- `_json_failure`: the errors that say that nothing was done need a record that says so too. -/
theorem Steady.jsonFailure (hs : Steady item) {e : Exc}
    (hu : e.isRenewalPreflightError = true ∨ e.isCsrGenerationPreAttemptError = true → Unstarted item) :
    SelfConsistent renews (jsonFailure item e) := by
  unfold ArubaCertRenewer.jsonFailure
  split
  · next h =>
    have hnone := hu (.inl (by rw [Exc.isRenewalPreflightError, h, Bool.or_true]))
    exact Unstarted.consistent ⟨hnone.change, hnone.milestones⟩ rfl
  split
  · next h =>
    have hnone := hu (.inl h)
    exact Unstarted.consistent ⟨hnone.change, hnone.milestones⟩ rfl
  split
  · next h =>
    have hnone := hu (.inr h)
    exact Unstarted.consistent ⟨hnone.change, hnone.milestones⟩ rfl
  split
  · exact consistent_possible rfl rfl rfl
  split
  · exact hs.computed rfl rfl rfl fun h => recoveryNeeded_of_ne h
  split
  · exact hs.computed rfl rfl rfl fun _ => rfl
  split
  · exact consistent_possible rfl rfl rfl
  split
  · -- the last milestone has no part in the outcome
    exact Steady.consistent ⟨hs.changed, hs.activation, fun h => (by cases h)⟩ rfl fun _ => rfl
  · exact hs.computed rfl rfl rfl fun h => recoveryNeeded_of_ne h

theorem Exc.Plain.not_own {e : Exc} (he : e.Plain) :
    ¬ (e.isRenewalPreflightError = true ∨ e.isCsrGenerationPreAttemptError = true) := by
  obtain ⟨x, rfl⟩ := he
  intro h
  obtain h | h := h <;> cases h

/-- What the `except` of an explicit operation makes of a failure that is not of a CSR at hand. -/
theorem Steady.general (hs : Steady item) (reason : Reason) : SelfConsistent renews
    (if jsonFailureOutcome item == .failurePreAttempt then { item with
      outcome := jsonFailureOutcome item, reasonCode := some reason
      message := "Operation failed before a new certificate state change."
      manualRecoveryRequired := item.milestones.csr == .confirmed || item.pendingCsrObserved }
    else { item with
      outcome := jsonFailureOutcome item, reasonCode := some reason
      message := "Operation failed after a state change; inspect switch."
      manualRecoveryRequired := true }) := by
  split
  · next h => exact hs.computed rfl rfl rfl fun hne => absurd (eq_of_beq h) hne
  · exact hs.computed rfl rfl rfl fun _ => rfl

/-- `except (ValueError, OSError)` of an explicit operation. -/
theorem Steady.explicitFailure (hs : Steady item)
    (hcsr : item.milestones.csr = .confirmed → ∀ name csr csrOutput,
      operation = .generateCsr name csr csrOutput → item.change = .confirmed) :
    SelfConsistent renews (explicitFailure operation item) := by
  cases operation with
  | generateCsr name csr csrOutput =>
    show SelfConsistent _ (if _ then _ else _)
    split
    · next h =>
      have hchange := hcsr (eq_of_beq h) name csr csrOutput rfl
      exact ⟨fun h => (by cases h), fun _ => .inl hchange, fun h => (by cases h),
        fun _ => List.mem_cons.mpr (.inl (eq_of_beq h).symm), fun _ => rfl, fun h => (by cases h),
        fun _ h => (by cases h), fun h => (by cases h)⟩
    · exact hs.general .csrFailed
  | signCsr name csr opnsense certificateOutput =>
    exact hs.jsonFailure fun h => by obtain h | h := h <;> cases h
  | install name csr opnsense ca certificatePem => exact hs.general .validationFailed
  | inspect => exact hs.general .csrFailed
  | renewNow csr opnsense ca => exact hs.general .csrFailed
  | renewDue csr opnsense ca => exact hs.general .csrFailed
  | retrieveCsr name csr csrOutput => exact hs.general .csrFailed

/-- What leaves the lock after the operation ended. -/
theorem Steady.jsonEscape (hs : Steady item) {e : Exc}
    (he : e = releaseError ∧ SelfConsistent renews item ∨ e.Plain) :
    SelfConsistent renews (jsonEscape e item) := by
  obtain ⟨rfl, hitem⟩ | hplain := he
  · show SelfConsistent _ (lockReleaseFailure item)
    unfold lockReleaseFailure
    split
    · next h =>
      rw [Bool.and_eq_true] at h
      have hnot : item.outcome.isSuccess ≠ true := by
        cases hout : item.outcome <;> rw [hout] at h <;> first | decide | cases h.1
      exact ⟨hitem.ambiguous, hitem.partly, hitem.preAttempt, hitem.changed, fun _ => rfl,
        hitem.installed, hitem.renewed, fun hsuccess => absurd hsuccess hnot⟩
    · exact hs.computed rfl rfl rfl fun _ => rfl
  · have hfailure : SelfConsistent renews (ArubaCertRenewer.jsonFailure item e) :=
      hs.jsonFailure fun h => absurd h hplain.not_own
    obtain ⟨x, rfl⟩ := hplain
    exact hfailure

end failure

end ArubaCertRenewer
