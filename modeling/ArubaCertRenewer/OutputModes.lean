import ArubaCertRenewer.Lockstep
import ArubaCertRenewer.RecordTruth

/- The human driver and the driver of `--output json`.

   The two are written apart, with exception lists of their own, and put
   different things on record. They make the same calls, and unless an exception
   escapes from the human one they end with the same code. -/
namespace ArubaCertRenewer
open PyText Effects Effects.Py

/-! ## Failed records -/

section records
variable {item : SwitchResult} {operation : Operation} {e : Exc}

theorem isFailure_jsonFailureOutcome : (jsonFailureOutcome item).isFailure = true := by
  unfold jsonFailureOutcome
  dsimp only
  split
  · rfl
  split <;> rfl

theorem isFailure_jsonFailure : (jsonFailure item e).outcome.isFailure = true := by
  unfold jsonFailure
  repeat' split
  all_goals first | rfl | exact isFailure_jsonFailureOutcome

theorem isFailure_jsonEscape : (jsonEscape e item).outcome.isFailure = true := by
  unfold jsonEscape
  split
  · unfold lockReleaseFailure
    split
    · next h => exact (Bool.and_eq_true_iff.mp h).1
    · exact isFailure_jsonFailureOutcome
  split
  · rfl
  · exact isFailure_jsonFailure

end records

/-! ## The lock -/

section lock
variable {σ τ α β : Type} {P : Platform} {host : Text} {x : Act σ α} {y : Act τ β} {s : σ} {t : τ}
  {R S : Except Exc α → σ → Except Exc β → τ → Prop}

end lock

/-! ## One switch -/

/-- No prompt is needed: the environment has a username and a password. -/
structure Unattended (P : Platform) : Prop where
  username : given (P.environ "ARUBA_SSH_USERNAME") = true
  password : given (P.environ "ARUBA_SSH_PASSWORD") = true

theorem Unattended.credentials {σ : Type} {P : Platform} (hu : Unattended P) (switch : Switch) (configFile : Text) :
    (getSwitchCredentials P switch configFile true : Act σ Credentials) =
      getSwitchCredentials P switch configFile false := by
  have hgiven : given (firstGiven switch.username (P.environ "ARUBA_SSH_USERNAME")) = true := by
    unfold firstGiven
    split
    · assumption
    · exact hu.username
  unfold getSwitchCredentials
  simp only [hgiven, hu.password, if_true]

section switch
variable {σ τ : Type} {P : Platform} {configFile : Text} {warningDays : Nat} {switch : Switch}
  {credentials : Credentials} {operation : Operation} {item : SwitchResult} {s : σ} {t : τ}

/-- The status of a switch and its record say the same. -/
inductive StatusAgrees : Status → SwitchResult → Prop where
  | ok {item : SwitchResult} : item.outcome = .successNoChange → StatusAgrees .ok item
  | renewalDue {item : SwitchResult} : item.outcome = .attentionDue → StatusAgrees .renewalDue item
  | expired {item : SwitchResult} : item.outcome = .attentionDue → StatusAgrees .expired item
  | error {item : SwitchResult} : item.outcome.isFailure = true → StatusAgrees .error item

/-- A body that failed and one that did not, and what `--output json` made of the same. -/
def Agrees (failed : Prop) (q : Except Exc Unit) (item : SwitchResult) : Prop :=
  failed ∧ (q = .ok () → item.outcome.isFailure = true) ∨
    ¬ failed ∧ q = .ok () ∧ item.outcome.isFailure = false

theorem Agrees.settled {failed : Prop} {q : Except Exc Unit} (h : Agrees failed q item) :
    failed ↔ (settled item q).outcome.isFailure = true := by
  obtain ⟨hfailed, hout⟩ | ⟨hfine, rfl, hout⟩ := h
  · refine iff_of_true hfailed ?_
    cases q with
    | ok u => exact hout rfl
    | error e => exact isFailure_jsonEscape
  · refine iff_of_false hfine ?_
    simp [ArubaCertRenewer.settled, hout]

section renew
variable {csr : CsrSettings} {opnsense : OpnsenseSettings} {ca : VerificationCaSnapshot}

end renew

end switch

/-! ## The fleet -/

section fleet
variable {σ τ : Type} {P : Platform} {configFile : Text} {warningDays : Nat} {s : σ} {t : τ}

theorem StatusAgrees.isFailure {status : Status} {item : SwitchResult} (h : StatusAgrees status item) :
    status = .error ↔ item.outcome.isFailure = true := by
  cases h with
  | ok h => simp [h, Outcome.isFailure]
  | renewalDue h => simp [h, Outcome.isFailure]
  | expired h => simp [h, Outcome.isFailure]
  | error h => simp [h]

end fleet

end ArubaCertRenewer
