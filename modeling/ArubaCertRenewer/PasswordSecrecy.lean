import ArubaCertRenewer.DriverCalls
import ArubaCertRenewer.Mirror
import ArubaCertRenewer.MutualExclusion
import ArubaCertRenewer.RunReport
import ArubaCertRenewer.SecretFiles
import ArubaCertRenewer.SessionCalls

/- What a run does with an SSH password: it opens a connection with it, and nothing else.

   Two runs are compared whose passwords differ, in the environment, at the prompt and in
   the files, and whose calls are answered alike otherwise. Each function that is given the
   credentials hands them to `ssh_connection`, so the two make the same calls, but for the
   password of the device, and end alike. -/
namespace ArubaCertRenewer
open PyText Effects Effects.Py

/-- Another choice of passwords. An empty one stays empty, and a file that holds one holds one. -/
structure PasswordChange where
  text : Text → Text
  bytes : Bytes → Bytes
  isEmpty_text : ∀ password, (text password).isEmpty = password.isEmpty
  passwordOfBytes_bytes : ∀ passwordFile data,
    passwordOfBytes passwordFile (bytes data) = (passwordOfBytes passwordFile data).map text

variable {σ : Type} {P : Platform} {τ : PasswordChange}

def Device.withPassword (τ : PasswordChange) (d : Device) : Device := { d with password := τ.text d.password }

def Credentials.withPassword (τ : PasswordChange) (c : Credentials) : Credentials :=
  { c with password := τ.text c.password }

def Platform.withPassword (τ : PasswordChange) (P : Platform) : Platform :=
  { P with environ := fun name =>
      if name = "ARUBA_SSH_PASSWORD" then (P.environ name).map τ.text else P.environ name }

/-- The calls of the two runs: the same, but for the password that is handed over or answered. -/
inductive Changed (τ : PasswordChange) : Pairing World where
  | same {c : Call} : c.secret = false → Changed τ c c id
  | connect (d : Device) : Changed τ (.connect d) (.connect (d.withPassword τ)) fun r => r
  | getpass : Changed τ .getpass .getpass fun r => r.map τ.text
  | readPassword (limit : Nat) : Changed τ (.readPassword limit) (.readPassword limit) fun r => r.map τ.bytes

/-- Two computations that differ in the passwords only. -/
abbrev Unseeing {α : Type} (τ : PasswordChange) (x y : Act σ α) : Prop := Twin (Changed τ) Eq x y

/-! ## Calls without a password -/

section operations
variable {α : Type} {switch : Switch} {credentials : Credentials} {settings : CsrSettings}
  {opnsense : OpnsenseSettings} {ca : VerificationCaSnapshot} {minimumRemainingDays : Option Nat} {name : Text}

end operations

/-! ## The credentials -/

section credentials
variable {switch : Switch} {configFile : Text} {allowPrompt : Bool}

end credentials

/-! ## The drivers -/

section drivers
variable {α : Type} {switch : Switch} {credentials : Credentials} {configFile : Text} {warningDays : Nat}
  {operation : Operation} {csr : CsrSettings} {opnsense : OpnsenseSettings} {ca : VerificationCaSnapshot}

end drivers

/-! ## Whole runs -/

/-- The one history is the other, but for the passwords. -/
abbrev SameButPasswords (τ : PasswordChange) (h g : History World) : Prop := List.Forall₂ (Paired (Changed τ)) h g

theorem Unseeing.ends {α : Type} {x y : Act σ α} {s s' : σ} {h : History World} {r : Except Exc α}
    (hxy : Unseeing τ x y) (hr : Ends x s [] r s' h) : ∃ g, Ends y s [] r s' g ∧ SameButPasswords τ h g := by
  obtain ⟨r', g, hends, hpaired, halike⟩ := Twin.ends hxy hr .nil
  exact ⟨g, halike.eq ▸ hends, hpaired⟩

theorem Changed.opened {c c' : Call} {f : Call.Ans c → Call.Ans c'} (hc : Changed τ c c' f) (r : Call.Ans c) :
    openedDevice ⟨c', f r⟩ = (openedDevice ⟨c, r⟩).map (Device.withPassword τ) := by
  cases hc with
  | same hsecret =>
    cases c with
    | connect d => cases hsecret
    | _ => rfl
  | connect d => cases r <;> rfl
  | getpass => rfl
  | readPassword limit => rfl

/-- The last connection of the one is that of the other, with the other password. -/
theorem SameButPasswords.device {h g : History World} (hsame : SameButPasswords τ h g) :
    lastDevice g = (lastDevice h).map (Device.withPassword τ) := by
  induction hsame with
  | nil => rfl
  | cons hev _ ih =>
    obtain ⟨r, hc⟩ := hev
    rw [lastDevice, lastDevice, List.findSome?_cons, List.findSome?_cons, hc.opened r]
    cases openedDevice ⟨_, r⟩ with
    | none => exact ih
    | some d => rfl

end ArubaCertRenewer
