import ArubaCertRenewer.JsonRuns
import ArubaCertRenewer.Surroundings

/- What the two renewal operations report of a switch that has a pending CSR.

   The preflight of a renewal tells a pending CSR from other failures. The inspection,
   which `--renew-due` begins with, does not: every failure is one status to it. -/
namespace ArubaCertRenewer
open PyText Effects Effects.Py

/-- At least one certificate of the summary is a pending CSR. -/
def HasPending (summary : Text) : Prop :=
  ∃ certificates, parseWebCertificates summary = .ok certificates ∧
    certificates.any (·.pending) = true

/-- The report that a pending CSR is to be looked into. -/
structure ReportsPending (item : SwitchResult) : Prop where
  outcome : item.outcome = .failurePreAttempt
  reasonCode : item.reasonCode = some .pendingState
  recovery : item.manualRecoveryRequired = true

/-- The report of an inspection that failed. -/
structure ReportsInspection (item : SwitchResult) : Prop where
  outcome : item.outcome = .failurePreAttempt
  reasonCode : item.reasonCode = some .inspectionFailed
  recovery : item.manualRecoveryRequired = false

section reads
variable (P : Platform) (configFile : Text) (switch : Switch) (summary : Text)

/-- The credentials and the lock were had, and what is read next was read. -/
def ReadUnderLock (read : Credentials → History World → History World → Prop)
    (h h' : History World) : Prop :=
  ∃ credentials h₁ held fds h₂,
    Ends (getSwitchCredentials P switch configFile false : Act Unit Credentials) () h
      (.ok credentials) () h₁ ∧
    Ends (acquireLock P switch.host) {} h₁ (.ok held) fds h₂ ∧ read credentials h₂ h'

/-- The preflight of `--renew` got as far as the summary. -/
def PreflightRead : History World → History World → Prop :=
  ReadUnderLock P configFile switch fun credentials h h' =>
    Ends (sshConnection switch credentials readSummary : Act Log Text) [] h (.ok summary) [] h'

/-- The inspection of `--renew-due` got as far as the summary. -/
def InspectionRead : History World → History World → Prop :=
  ReadUnderLock P configFile switch fun credentials h h' =>
    Ends (inspectSwitch switch credentials : Act Unit Text) () h (.ok summary) () h'

end reads

section pending
variable {P : Platform} {configFile : Text} {warningDays : Nat} {csr : CsrSettings}
  {opnsense : OpnsenseSettings} {ca : VerificationCaSnapshot} {switch : Switch}
  {credentials : Credentials} {summary : Text} {item item' : SwitchResult}
  {g h h' : History World} {r : Except Exc Unit}

theorem activeExpiration_pending (hpending : HasPending summary) :
    ∃ message, activeExpiration summary = .error (valueError message) := by
  obtain ⟨certificates, hparse, hany⟩ := hpending
  have hfilter : (!(certificates.filter (·.pending)).isEmpty) = true := by
    simpa using hany
  refine ⟨"Found pending Web CSR: " ++ pendingNames certificates, ?_⟩
  rw [activeExpiration, hparse]
  show (getActiveWebCertificate certificates >>= _) = _
  rw [getActiveWebCertificate, if_pos hfilter]
  rfl

theorem activeForRenewal_pending (hpending : HasPending summary) :
    ∃ message, activeForRenewal summary = .error (.own .pendingCsrPreflight message) := by
  obtain ⟨certificates, hparse, hany⟩ := hpending
  have hraise : ∀ message, (raiseWhen (certificates.any (·.pending))
      (.own .pendingCsrPreflight message) >>= fun _ => getActiveWebCertificate certificates) =
        .error (.own .pendingCsrPreflight message) := by
    intro message
    rw [hany]
    rfl
  rw [activeForRenewal, hparse]
  exact ⟨_, hraise _⟩

/-- The inspection of a switch with a pending CSR is an error like any other. -/
theorem checkSwitch_pending (hpending : HasPending summary)
    (hread : Ends (inspectSwitch switch credentials : Act Unit Text) () h (.ok summary) () h') :
    Ends (checkSwitch switch credentials warningDays : Act Unit Status) () h (.ok .error) () h' := by
  obtain ⟨message, herror⟩ := activeExpiration_pending hpending
  refine ends_bind.mpr (.inl ⟨.ok summary, (), h', ends_attempt.mpr ⟨_, rfl, hread⟩, ?_⟩)
  dsimp only
  rw [herror]
  exact ends_pure.mpr ⟨rfl, rfl, rfl⟩

/-- The preflight of a renewal tells of the pending CSR. -/
theorem renewCertificate_pending {minimum : Option Nat} (hpending : HasPending summary)
    (hread : Ends (sshConnection switch credentials readSummary : Act Log Text) [] h (.ok summary)
      [] h') :
    ∃ message, Ends (renewCertificate P switch credentials csr opnsense ca minimum) [] h
      (.error (.own .pendingCsrPreflight message)) [] h' := by
  obtain ⟨message, herror⟩ := activeForRenewal_pending hpending
  have hpreflight : Ends (renewalPreflight switch credentials : Act Log Preflight) [] h
      (.error (.own .pendingCsrPreflight message)) [] h' := by
    refine ends_handle.mpr (.inr ⟨.own .pendingCsrPreflight message, [], h', ?_,
      ends_throw.mpr ⟨rfl, rfl, rfl⟩⟩)
    refine ends_bind.mpr (.inl ⟨summary, [], h', hread, ?_⟩)
    rw [herror]
    exact ends_bind.mpr (.inr ⟨_, rfl, ends_result.mpr ⟨rfl, rfl, rfl⟩⟩)
  exact ⟨message, ends_bind.mpr (.inr ⟨_, rfl, hpreflight⟩)⟩

/-- The record of a renewal that met a pending CSR. -/
def pendingRecord (item : SwitchResult) : SwitchResult := { item with
  outcome := .failurePreAttempt, stage := .preflight, reasonCode := some .pendingState
  message := "A pending CSR requires manual investigation.", manualRecoveryRequired := true }

/-- The record of an inspection that failed. -/
def inspectionRecord (item : SwitchResult) : SwitchResult := { item with
  stage := .inspection, reasonCode := some .inspectionFailed
  message := "Switch certificate inspection failed." }

theorem renewNow_pending (hpending : HasPending summary)
    (hread : Ends (sshConnection switch credentials readSummary : Act Log Text) [] h (.ok summary)
      [] h') :
    Ends (jsonProcessTarget P switch credentials warningDays (.renewNow csr opnsense ca)) item h
      (.ok ()) (pendingRecord item) h' := by
  have hrenew : ∃ message, Ends (renewCertificate P switch credentials csr opnsense ca none) [] h
      (.error (.own .pendingCsrPreflight message)) [] h' := renewCertificate_pending hpending hread
  obtain ⟨message, hrenew⟩ := hrenew
  refine ends_bind.mpr (.inl ⟨(), _, h, ends_modify.mpr ⟨rfl, rfl, rfl⟩, ?_⟩)
  refine ends_bind.mpr (.inl ⟨_, _, h', ends_attempt.mpr ⟨_, rfl, ends_observed.mpr
    ⟨[], hrenew, rfl⟩⟩, ?_⟩)
  exact ends_modify.mpr ⟨rfl, rfl, rfl⟩

theorem renewDue_pending (hpending : HasPending summary)
    (hread : Ends (inspectSwitch switch credentials : Act Unit Text) () h (.ok summary) () h') :
    Ends (jsonProcessTarget P switch credentials warningDays (.renewDue csr opnsense ca)) item h
      (.ok ()) (inspectionRecord item) h' := by
  have hcheck : Ends (checkSwitch switch credentials warningDays : Act Unit Status) () h
      (.ok .error) () h' := checkSwitch_pending hpending hread
  refine ends_bind.mpr (.inl ⟨(), _, h, ends_modify.mpr ⟨rfl, rfl, rfl⟩, ?_⟩)
  refine ends_bind.mpr (.inl ⟨.error, _, h', ends_alone.mpr ⟨rfl, (), hcheck⟩, ?_⟩)
  exact ends_modify.mpr ⟨rfl, rfl, rfl⟩

/-- The release of a lock none of whose calls failed. -/
theorem releaseLock_fine {held : LockFds} {raised : Option Exc} {u : Except Exc Unit}
    (hrun : Ends (releaseLock held raised : Act Unit Unit) () h u () h')
    (hfine : closeFailures h' = []) : u = .ok () := by
  obtain ⟨rel, rfl, -, hend⟩ := wpy_ends (releaseLock_closes held raised () h) hrun
  have hnone : closeFailures rel = [] := by
    rw [closeFailures, List.filterMap_append] at hfine
    exact (List.append_eq_nil_iff.mp hfine).1
  obtain ⟨-, -, hu⟩ := hend (by rw [hnone]; exact fun e he => by cases he)
  rw [hu, if_neg fun hfailed => hfailed.1 hnone]

/-- The record of an operation whose part under the lock is known. -/
theorem record_of_read {operation : Operation} {record : SwitchResult → SwitchResult}
    {read : Credentials → History World → History World → Prop} (hlocked : operation.locked = true)
    (hprocess : ∀ credentials item h h', read credentials h h' →
      Ends (jsonProcessTarget P switch credentials warningDays operation) item h (.ok ())
        (record item) h')
    (hrun : Ends (jsonSwitch P configFile warningDays operation switch) item h r item' h')
    (hread : ReadUnderLock P configFile switch read h g) (hs : g <:+ h')
    (hfine : closeFailures h' = []) : item' = record item := by
  obtain ⟨credentials, h₁, held, fds, h₂, hcredentials, hacquire, hsummary⟩ := hread
  have hdone := hprocess credentials item h₂ g hsummary
  obtain ⟨r₁, item₁, h₃, u, hprocess, hrelease, rfl⟩ := ends_jsonSwitch_held hlocked hrun hcredentials
    hacquire (hdone.suffix.trans hs) (List.suffix_refl _)
  obtain ⟨rfl, rfl, -⟩ := hprocess.unique hdone hrelease.suffix hs
  rw [releaseLock_fine hrelease hfine]
  rfl

end pending

/-- One summary with a pending CSR, and the two operations report it apart: only `--renew` says
what it is, and that it is to be looked into. -/
theorem pending_csr_reported_apart (P : Platform) (configFile : Text) (warningDays : Nat)
    (csr : CsrSettings) (opnsense : OpnsenseSettings) (ca : VerificationCaSnapshot) (switch : Switch)
    (summary : Text) (item item' : SwitchResult) (r r' : Except Exc Unit)
    (h h₁ h' g g₁ g' : History World) (hpending : HasPending summary)
    (hrenew : Ends (jsonSwitch P configFile warningDays (.renewNow csr opnsense ca) switch)
      { target := switch.name } h r item h')
    (hread : PreflightRead P configFile switch summary h h₁) (hs : h₁ <:+ h')
    (hfine : closeFailures h' = [])
    (hdue : Ends (jsonSwitch P configFile warningDays (.renewDue csr opnsense ca) switch)
      { target := switch.name } g r' item' g')
    (hread' : InspectionRead P configFile switch summary g g₁) (hs' : g₁ <:+ g')
    (hfine' : closeFailures g' = []) :
    ReportsPending item ∧ ReportsInspection item' ∧ ¬ ReportsPending item' := by
  have hpreflight : item = pendingRecord { target := switch.name } :=
    record_of_read rfl (fun _ _ _ _ hsummary => renewNow_pending hpending hsummary) hrenew hread hs hfine
  have hinspection : item' = inspectionRecord { target := switch.name } :=
    record_of_read rfl (fun _ _ _ _ hsummary => renewDue_pending hpending hsummary) hdue hread' hs' hfine'
  rw [hpreflight, hinspection]
  refine ⟨⟨rfl, rfl, rfl⟩, ⟨rfl, rfl, rfl⟩, fun hsame => ?_⟩
  have hno := hsame.reasonCode
  cases hno

/-! ## A site whose switch shows a pending CSR -/

deriving instance DecidableEq for Credentials
deriving instance DecidableEq for LockFds

def csrSite : Site := { site with summary := fun _ => activeRow ++ pendingRow }

def pendingPlatform : Platform := sitePlatform certificatePemText

/-- What has happened at the site once a computation ended. -/
def atSite {σ α : Type} (x : Act σ α) (s : σ) (h : History World) : History World :=
  (play csrSite.calm (x.prog s) h).2

theorem hasPending_site : HasPending (activeRow ++ pendingRow) := by
  have hany : (parseWebCertificates (activeRow ++ pendingRow)).map (·.any (·.pending)) = .ok true := by
    decide +kernel
  cases hparse : parseWebCertificates (activeRow ++ pendingRow) with
  | error e =>
    rw [hparse] at hany
    cases hany
  | ok certificates =>
    rw [hparse] at hany
    exact ⟨certificates, hparse, Except.ok.inj hany⟩

def siteLoaded : History World :=
  atSite (getSwitchCredentials pendingPlatform siteSwitch "config.toml" false : Act Unit Credentials) () []

def siteLocked : History World := atSite (acquireLock pendingPlatform siteSwitch.host) {} siteLoaded

def pendingPreflight : History World :=
  atSite (sshConnection siteSwitch siteCredentials readSummary : Act Log Text) [] siteLocked

def pendingInspection : History World :=
  atSite (inspectSwitch siteSwitch siteCredentials : Act Unit Text) () siteLocked

def siteFds : LockFds := ⟨some 3, some 4⟩

/-- The history once the lock is given back. -/
def siteReleased (h : History World) : History World :=
  atSite (releaseLock siteFds none : Act Unit Unit) () h

theorem siteLoaded_ends : Ends (getSwitchCredentials pendingPlatform siteSwitch "config.toml" false :
    Act Unit Credentials) () [] (.ok siteCredentials) () siteLoaded :=
  play_ends csrSite.calm (by decide +kernel)

theorem siteLocked_ends : Ends (acquireLock pendingPlatform siteSwitch.host) {} siteLoaded
    (.ok siteFds) siteFds siteLocked :=
  play_ends csrSite.calm (by decide +kernel)

theorem pendingPreflight_ends : Ends (sshConnection siteSwitch siteCredentials readSummary : Act Log Text)
    [] siteLocked (.ok (activeRow ++ pendingRow)) [] pendingPreflight :=
  play_ends csrSite.calm (by rfl)

theorem pendingInspection_ends : Ends (inspectSwitch siteSwitch siteCredentials : Act Unit Text) ()
    siteLocked (.ok (activeRow ++ pendingRow)) () pendingInspection :=
  play_ends csrSite.calm (by decide +kernel)

theorem siteReleased_ends (h : History World) : Ends (releaseLock siteFds none : Act Unit Unit) () h
    (.ok ()) () (siteReleased h) := play_ends csrSite.calm (by rfl)

theorem pending_csr_reported_apart_site :
    ReportsPending (pendingRecord { target := "lab" }) ∧
      ReportsInspection (inspectionRecord { target := "lab" }) ∧
      ¬ ReportsPending (inspectionRecord { target := "lab" }) :=
  pending_csr_reported_apart pendingPlatform "config.toml" 30 siteCsrSettings siteOpnsense siteCa
    siteSwitch (activeRow ++ pendingRow) _ _ (.ok ()) (.ok ()) [] pendingPreflight
    (siteReleased pendingPreflight) [] pendingInspection (siteReleased pendingInspection) hasPending_site
    (ends_jsonSwitch_of_held rfl siteLoaded_ends siteLocked_ends
      (renewNow_pending hasPending_site pendingPreflight_ends) (siteReleased_ends _))
    ⟨siteCredentials, siteLoaded, siteFds, siteFds, siteLocked, siteLoaded_ends, siteLocked_ends,
      pendingPreflight_ends⟩ (siteReleased_ends _).suffix (by decide +kernel)
    (ends_jsonSwitch_of_held rfl siteLoaded_ends siteLocked_ends
      (renewDue_pending hasPending_site pendingInspection_ends) (siteReleased_ends _))
    ⟨siteCredentials, siteLoaded, siteFds, siteFds, siteLocked, siteLoaded_ends, siteLocked_ends,
      pendingInspection_ends⟩ (siteReleased_ends _).suffix (by decide +kernel)

/-- Both operations at the site, played. -/
def playedRecord (operation : Operation) : Option SwitchResult :=
  (play csrSite.calm ((jsonSwitch pendingPlatform "config.toml" 30 operation siteSwitch).prog
    { target := "lab" }) []).1.map Prod.snd

theorem pending_csr_unreported :
    playedRecord (.renewNow siteCsrSettings siteOpnsense siteCa) =
        some (pendingRecord { target := "lab" }) ∧
      playedRecord (.renewDue siteCsrSettings siteOpnsense siteCa) =
        some (inspectionRecord { target := "lab" }) ∧
      (inspectionRecord { target := "lab" }).manualRecoveryRequired = false := by
  refine ⟨?_, ?_, rfl⟩
  · decide +kernel
  · decide +kernel

end ArubaCertRenewer
