import ArubaCertRenewer.Surroundings

/- The warning window, from both of its sides: a renewal accepts a certificate by
   its exact time, the inspection decides by its date. -/
namespace ArubaCertRenewer
open PyText Effects Effects.Py

variable {σ : Type} {switch : Switch} {credentials : Credentials} {warningDays : Nat}

theorem statusOf_eq_ok {daysRemaining : Int} :
    statusOf daysRemaining warningDays = .ok ↔ warningDays < daysRemaining := by
  unfold statusOf
  split
  · simp
    omega
  split
  · simp
    omega
  · simp
    omega

/-- An accepted certificate is valid for longer than the window. -/
theorem lt_notValidAfter_of_accepted {certificate : Certificate} {now : Int}
    (ha : requireCurrentCertificateValidity certificate now (some warningDays) = .ok ()) :
    now + warningDays * dayMicros < certificate.notValidAfterUtc := by
  unfold requireCurrentCertificateValidity plusDays at ha
  simp only [bind_eq_ok, raiseWhen_eq_ok] at ha
  obtain ⟨_, _, _, _, later, ⟨_, _, _, _, hl⟩, hn⟩ := ha
  obtain rfl := Except.ok.inj hl
  simpa using hn

theorem utcDate_add_days (now : Int) (days : Nat) :
    utcDate (now + days * dayMicros) = utcDate now + days :=
  Int.add_mul_ediv_right _ _ (by decide)

/-- So its last day is the last day of the window at the earliest. -/
theorem window_le_utcDate {certificate : Certificate} {now : Int}
    (ha : requireCurrentCertificateValidity certificate now (some warningDays) = .ok ()) :
    utcDate now + warningDays ≤ utcDate certificate.notValidAfterUtc := by
  rw [← utcDate_add_days]
  exact Int.ediv_le_ediv (by decide) (lt_notValidAfter_of_accepted ha).le

/-- What `check_switch` decides once it has read the summary. -/
theorem ends_checkSwitch {s : σ} {h h₁ : History World} {certOutput : Text} {expiration : Int}
    (day : Int) (hi : Ends (inspectSwitch switch credentials) s h (.ok certOutput) s h₁)
    (he : activeExpiration certOutput = .ok expiration) :
    Ends (checkSwitch switch credentials warningDays) s h
      (.ok (statusOf (expiration - day) warningDays)) s (⟨.today, day⟩ :: h₁) := by
  refine ends_bind.mpr (.inl ⟨_, s, h₁, ends_attempt.mpr ⟨_, rfl, hi⟩, ?_⟩)
  simp only [he]
  exact .call .ret

/-- `check_switch` takes its decision on the day of `now`, on a summary that shows the date on
which the certificate expires. -/
def DecidedOn (switch : Switch) (credentials : Credentials) (warningDays : Nat)
    (certificate : Certificate) (now : Int) (s : σ) (h : History World) (r : Except Exc Status) :
    Prop :=
  ∃ certOutput h₁, Ends (inspectSwitch switch credentials) s h (.ok certOutput) s h₁ ∧
    activeExpiration certOutput = .ok (utcDate certificate.notValidAfterUtc) ∧
    Ends (checkSwitch switch credentials warningDays) s h r s (⟨.today, utcDate now⟩ :: h₁)

theorem DecidedOn.eq {certificate : Certificate} {now : Int} {s : σ} {h : History World}
    {r : Except Exc Status}
    (hd : DecidedOn switch credentials warningDays certificate now s h r) :
    r = .ok (statusOf (utcDate certificate.notValidAfterUtc - utcDate now) warningDays) := by
  obtain ⟨certOutput, h₁, hi, he, hr⟩ := hd
  exact (hr.unique (ends_checkSwitch _ hi he) List.suffix_rfl List.suffix_rfl).1

/-- An accepted certificate leaves the window unless it expires on the window's last day. -/
theorem accepted_ok_iff {certificate : Certificate} {now : Int}
    (ha : requireCurrentCertificateValidity certificate now (some warningDays) = .ok ())
    {s : σ} {h : History World} {r : Except Exc Status}
    (hd : DecidedOn switch credentials warningDays certificate now s h r) :
    r = .ok .ok ↔ utcDate certificate.notValidAfterUtc ≠ utcDate now + warningDays := by
  have hw := window_le_utcDate ha
  rw [hd.eq, Except.ok.injEq, statusOf_eq_ok]
  omega

/-- The site's switch shows a certificate that expires on 2020-01-31. -/
theorem site_inspected :
    Ends (inspectSwitch siteSwitch siteCredentials) () [] (.ok activeRow) ()
      (play site.calm ((inspectSwitch siteSwitch siteCredentials).prog ()) []).2 :=
  play_ends _ (by decide)

theorem activeExpiration_activeRow : activeExpiration activeRow = .ok (newYear + 30) := by
  decide

/-- The site's certificate, if it were valid for 30 and a half days. -/
def shortCertificate : Certificate :=
  { siteCertificate with notValidAfterUtc := (newYear + 30) * dayMicros + dayMicros / 2 }

theorem site_decided (warningDays : Nat) :
    DecidedOn siteSwitch siteCredentials warningDays shortCertificate (newYear * dayMicros) ()
      [] (.ok (statusOf 30 warningDays)) :=
  ⟨activeRow, _, site_inspected, activeExpiration_activeRow,
    ends_checkSwitch newYear site_inspected activeExpiration_activeRow⟩

theorem accepted_ok_iff_site :
    requireCurrentCertificateValidity shortCertificate (newYear * dayMicros) (some 29) = .ok () ∧
      ((.ok .ok : Except Exc Status) = .ok .ok ↔
        utcDate shortCertificate.notValidAfterUtc ≠ utcDate (newYear * dayMicros) + (29 : Nat)) :=
  ⟨by decide, accepted_ok_iff (by decide) (site_decided 29)⟩

/-- An accepted certificate of which the inspection says, on the same day, that it is due. -/
theorem accepted_and_due :
    ¬∀ (certificate : Certificate) (now : Int) (warningDays : Nat),
      requireCurrentCertificateValidity certificate now (some warningDays) = .ok () →
      ∀ (switch : Switch) (credentials : Credentials) (h : History World) (r : Except Exc Status),
        DecidedOn switch credentials warningDays certificate now () h r → r = .ok .ok := by
  intro hall
  have hok := hall shortCertificate (newYear * dayMicros) 30 (by decide) _ _ _ _
    (site_decided 30)
  cases hok

end ArubaCertRenewer
