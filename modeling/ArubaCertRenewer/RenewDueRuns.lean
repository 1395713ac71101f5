import ArubaCertRenewer.Driver
import ArubaCertRenewer.LockPaths

/- The loop of `renew_due_certificates`: what becomes of one switch does not keep a
   later one from its turn.

   A turn ends with one result when nothing but lock errors leaves the lock. The lock
   turns the `OSError`s of its calls into these; it has no name for a host that is not
   ASCII, and says so with a `ValueError`. -/
namespace ArubaCertRenewer
open PyText Effects Effects.Py

/-! ## One switch -/

section turn
variable (P : Platform) (configFile : Text) (warningDays : Nat) (csr : CsrSettings)
  (opnsense : OpnsenseSettings) (ca : VerificationCaSnapshot)

/-- `renew_certificate` was called and returned normally. -/
def RenewalReturned (switch : Switch) (credentials : Credentials) (h h' : History World) : Prop :=
  ∃ status h₁ name log, Ends (checkSwitch switch credentials warningDays : Act Unit Status) () h
      (.ok status) () h₁ ∧ (status = .renewalDue ∨ status = .expired) ∧
    Ends (renewCertificate P switch credentials csr opnsense ca (some warningDays)) [] h₁
      (.ok name) log h'

/-- `renew_certificate` returned normally, and the lock was released without error. -/
def TurnRenewed (switch : Switch) (h h' : History World) : Prop :=
  ∃ credentials h₁ held fds h₂ h₃,
    Ends (getSwitchCredentials P switch configFile true : Act Unit Credentials) () h
      (.ok credentials) () h₁ ∧
    Ends (acquireLock P switch.host) {} h₁ (.ok held) fds h₂ ∧
    RenewalReturned P warningDays csr opnsense ca switch credentials h₂ h₃ ∧
    Ends (releaseLock held none : Act Unit Unit) () h₃ (.ok ()) () h'

/-- The turns of switches in order, each with one result after the results so far. -/
inductive Turns : List RenewalStatus → List Switch → History World → List RenewalStatus →
    History World → Prop where
  | done {results : List RenewalStatus} {h : History World} : Turns results [] h results h
  | turn {results results' : List RenewalStatus} {switch : Switch} {switches : List Switch}
      {status : RenewalStatus} {h h₁ h' : History World} :
      Ends (renewDueSwitch P configFile warningDays csr opnsense ca switch) results h (.ok ())
        (results ++ [status]) h₁ →
      (status = .renewed ↔ TurnRenewed P configFile warningDays csr opnsense ca switch h h₁) →
      Turns (results ++ [status]) switches h₁ results' h' →
      Turns results (switch :: switches) h results' h'

end turn

section loop
variable {σ : Type} {P : Platform} {configFile : Text} {warningDays : Nat} {csr : CsrSettings}
  {opnsense : OpnsenseSettings} {ca : VerificationCaSnapshot} {switch : Switch}
  {switches : List Switch} {h h' : History World} {results results' : List RenewalStatus}

theorem Turns.length_eq
    (hturns : Turns P configFile warningDays csr opnsense ca results switches h results' h') :
    results'.length = results.length + switches.length := by
  induction hturns with
  | done => rfl
  | turn _ _ _ ih =>
    rw [ih, List.length_append, List.length_singleton, List.length_cons]
    omega

theorem RenewalReturned.suffix {credentials : Credentials}
    (hreturned : RenewalReturned P warningDays csr opnsense ca switch credentials h h') : h <:+ h' := by
  obtain ⟨_, _, _, _, hcheck, -, hrenew⟩ := hreturned
  exact hcheck.suffix.trans hrenew.suffix

theorem RenewalReturned.ends {credentials : Credentials} {s : σ}
    (hreturned : RenewalReturned P warningDays csr opnsense ca switch credentials h h') :
    Ends (renewDueLocked P warningDays csr opnsense ca switch credentials) s h (.ok .renewed) s h' := by
  obtain ⟨status, h₁, name, log, hcheck, hdue, hrenew⟩ := hreturned
  refine ends_bind.mpr (.inl ⟨_, s, h₁, ends_attempt.mpr ⟨_, rfl, ends_alone.mpr ⟨rfl, (), hcheck⟩⟩, ?_⟩)
  have hend : Ends (attempt (unobserved (renewCertificate P switch credentials csr opnsense ca
      (some warningDays)) : Act σ Text)) s h₁ (.ok (.ok name)) s h' :=
    ends_attempt.mpr ⟨_, rfl, ends_alone.mpr ⟨rfl, log, hrenew⟩⟩
  obtain rfl | rfl := hdue
  · exact ends_bind.mpr (.inl ⟨_, s, h', hend, ends_pure.mpr ⟨rfl, rfl, rfl⟩⟩)
  · exact ends_bind.mpr (.inl ⟨_, s, h', hend, ends_pure.mpr ⟨rfl, rfl, rfl⟩⟩)

end loop

end ArubaCertRenewer
