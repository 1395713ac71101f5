import ArubaCertRenewer.RecordRuns

/- The runs of the operations of `--output json`, one by one, as their records tell of
   them, and from these the run for one switch and for all of them. -/
namespace ArubaCertRenewer
open PyText Effects Effects.Py

/-! ## Calls that change nothing -/

def Call.Harmless (c : Call) : Prop := ∀ m, c.mark? = some m → m.mutates = false

theorem harmless_of_none {c : Call} (hc : c.mark? = none) : c.Harmless := by
  intro m hm
  rw [hc] at hm
  cases hm

theorem harmless_connect (d : Device) : (Call.connect d).Harmless := by
  intro m hm
  obtain rfl : Mark.connect = m := by simpa [Call.mark?] using hm
  rfl

theorem lenient_harmless : Lenient fun _ c => c.Harmless := fun _ _ _ hm => harmless_of_none hm

section inspection
variable {σ : Type} {switch : Switch} {credentials : Credentials} {warningDays : Nat}

theorem harmless_inspectSwitch :
    Only Call.Harmless (inspectSwitch switch credentials : Act σ Text) := by
  intro s h
  refine wpy_connected lenient_harmless (fun d _ _ => harmless_connect d) (fun _ _ _ => rfl) ?_
  intro d t _
  refine wpy_bind.mpr (wpy_sendCommand lenient_harmless rfl ?_ fun _ _ _ _ _ _ _ => rfl)
  intro out u _ _
  rw [either_ok]
  refine wpy_bind_result (fun _ _ => ?_) fun _ _ _ _ _ _ => rfl
  rw [readSummary]
  refine wpy_bind.mpr (wpy_sendCommand lenient_harmless commandMark_summary ?_ fun _ _ _ _ _ _ _ => rfl)
  intro summary v _ _
  rw [either_ok]
  exact wpy_bind_result (fun _ _ _ _ _ _ => rfl) fun _ _ _ _ _ _ => rfl

theorem harmless_checkSwitch :
    Only Call.Harmless (checkSwitch switch credentials warningDays : Act σ Status) := by
  refine .bind' (.attempt' harmless_inspectSwitch) fun r => ?_
  cases r with
  | error e => exact .pure' _
  | ok certOutput =>
    dsimp only
    cases activeExpiration certOutput with
    | error e =>
      dsimp only
      split
      · exact .pure' _
      · exact .throw' e
    | ok expiration => exact .bind' (.call (harmless_of_none rfl)) fun _ => .pure' _

end inspection

/-! ## A renewal -/

section renewal
variable {P : Platform} {switch : Switch} {credentials : Credentials} {csr : CsrSettings}
  {opnsense : OpnsenseSettings} {ca : VerificationCaSnapshot} {minimum : Option Nat}
  {operation : Operation} {item : SwitchResult} {log : Log} {t : History World}

theorem Telling.after {u : History World} (ht : Telling P item t) (hu : mutations u = []) :
    Telling P item (t ++ u) :=
  ht.append (u := []) rfl hu

theorem Uninstalled.not_mem (hu : Uninstalled item) : .confirmed ∉
    [item.milestones.installation, item.milestones.activation, item.milestones.liveTls] := by
  rw [hu.installation, hu.activation, hu.liveTls]
  decide

end renewal

/-! ## The explicit operations -/

section explicit
variable {P : Platform} {switch : Switch} {credentials : Credentials} {name : Text} {csr : CsrSettings}
  {opnsense : OpnsenseSettings} {ca : VerificationCaSnapshot} {operation : Operation}
  {item : SwitchResult}

theorem LeftRecord.staged {t : History World} (hl : LeftRecord P operation (.ok ()) item t) (stage : Stage) :
    LeftRecord P operation (.ok ()) { item with stage } t := by
  obtain ⟨hs, ht, -, hconsistent⟩ := hl
  have hc := hconsistent () rfl
  exact ⟨⟨hs.changed, hs.activation, hs.liveTls⟩, ht.same rfl rfl rfl, fun _ hr => (by cases hr),
    fun _ _ => ⟨hc.ambiguous, hc.partly, hc.preAttempt, hc.changed, hc.recovery, hc.installed,
      hc.renewed, hc.success⟩⟩

/-- The record of a certificate that was issued and read. -/
def certified (item : SwitchResult) (certificate : Option CertificateRecord) : SwitchResult :=
  { item with milestones := { item.milestones with csr := .confirmed }, certificate }

/-- The certificate of a record is looked at once it is installed. -/
theorem Telling.certified {certificate : Option CertificateRecord} {t : History World}
    (ht : Telling P item t) (hu : Uninstalled item) (hchange : item.change = .confirmed) :
    Telling P (certified item certificate) t :=
  ⟨fun h => absurd h (jsonFailureOutcome_of_change fun hc => (by cases hchange.symm.trans hc)),
    fun h => (by cases h), ht.issuance, ht.installation, ht.issued, fun h => absurd h hu.not_mem⟩

theorem Steady.certified {certificate : Option CertificateRecord} (hs : Steady item) :
    Steady (certified item certificate) :=
  ⟨fun _ => List.mem_cons_self, hs.activation, hs.liveTls⟩

end explicit

end ArubaCertRenewer
