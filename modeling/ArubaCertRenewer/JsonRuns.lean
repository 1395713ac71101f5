import ArubaCertRenewer.JsonDriver
import ArubaCertRenewer.LockPaths

/- The runs of `--output json` for one switch, by their parts. -/
namespace ArubaCertRenewer
open PyText Effects Effects.Py

/-- The record once what left the operation, or its lock, was caught. -/
def settled (item : SwitchResult) : Except Exc Unit → SwitchResult
  | .ok _ => item
  | .error e => jsonEscape e item

/-- The record of a switch whose credentials could not be had. -/
def unloaded (item : SwitchResult) : SwitchResult :=
  { item with stage := .configuration, reasonCode := some .configInvalid
              message := "Switch credentials could not be loaded." }

section runs
variable {P : Platform} {configFile : Text} {warningDays : Nat} {operation : Operation}
  {switch : Switch} {credentials : Credentials} {item item' : SwitchResult} {h h' : History World}
  {r : Except Exc Unit}

theorem ends_observed {α : Type} {x : Act Log α} {r : Except Exc α} :
    Ends (observed x) item h r item' h' ↔
      ∃ log, Ends x [] h r log h' ∧ item' = log.foldl jsonProgress item := by
  refine Iff.trans (runs_bind (p := x.prog [])) ⟨fun hrun => ?_, fun hrun => ?_⟩
  · obtain ⟨⟨r₁, log⟩, h₁, hx, hend⟩ := hrun
    cases hend
    exact ⟨log, hx, rfl⟩
  · obtain ⟨log, hx, rfl⟩ := hrun
    exact ⟨(r, log), h', hx, .ret⟩

/-- A record is made whatever happens: nothing is raised for a switch. -/
theorem ends_jsonSwitch
    (hrun : Ends (jsonSwitch P configFile warningDays operation switch) item h r item' h') :
    r = .ok () ∧
      ((item' = unloaded item ∧ ∃ e, Ends (getSwitchCredentials P switch configFile false :
          Act Unit Credentials) () h (.error e) () h') ∨
        ∃ credentials h₁ r₁ item₁, Ends (getSwitchCredentials P switch configFile false :
            Act Unit Credentials) () h (.ok credentials) () h₁ ∧
          Ends (if operation.locked then lifecycleLock P switch.host
              (jsonProcessTarget P switch credentials warningDays operation)
            else jsonProcessTarget P switch credentials warningDays operation) item h₁ r₁ item₁ h' ∧
          item' = settled item₁ r₁) := by
  obtain ⟨found, s₁, h₁, hattempt, hrest⟩ | ⟨e, -, hattempt⟩ := ends_bind.mp hrun
  · obtain ⟨_, ⟨⟩, halone⟩ := ends_attempt.mp hattempt
    obtain ⟨rfl, ⟨⟩, hfound⟩ := ends_alone.mp halone
    cases found with
    | error e =>
      obtain ⟨rfl, rfl, rfl⟩ := ends_modify.mp hrest
      exact ⟨rfl, .inl ⟨rfl, e, hfound⟩⟩
    | ok credentials =>
      obtain ⟨_, rfl, hprocess⟩ | ⟨e, item₁, h₂, hprocess, hcaught⟩ := ends_handle.mp hrest
      · exact ⟨rfl, .inr ⟨credentials, h₁, .ok (), item', hfound, hprocess, rfl⟩⟩
      · obtain ⟨rfl, rfl, rfl⟩ := ends_modify.mp hcaught
        exact ⟨rfl, .inr ⟨credentials, h₁, .error e, item₁, hfound, hprocess, rfl⟩⟩
  · obtain ⟨_, ⟨⟩, _⟩ := ends_attempt.mp hattempt

/-- The run of an operation under its lock, when the lock is had. -/
theorem ends_jsonSwitch_held {h₁ h₂ g : History World} {held fds : LockFds}
    (hlocked : operation.locked = true)
    (hrun : Ends (jsonSwitch P configFile warningDays operation switch) item h r item' h')
    (hcredentials : Ends (getSwitchCredentials P switch configFile false : Act Unit Credentials) () h
      (.ok credentials) () h₁)
    (hacquire : Ends (acquireLock P switch.host) {} h₁ (.ok held) fds h₂)
    (hs : h₂ <:+ g) (hs' : h' <:+ g) :
    ∃ r₁ item₁ h₃ u, Ends (jsonProcessTarget P switch credentials warningDays operation) item h₂ r₁
        item₁ h₃ ∧ Ends (releaseLock held (inFlight r₁) : Act Unit Unit) () h₃ u () h' ∧
      item' = settled item₁ (after u r₁) := by
  obtain ⟨-, ⟨-, e, hno⟩ | ⟨credentials', h₁', r₁, item₁, hfound, hprocess, rfl⟩⟩ := ends_jsonSwitch hrun
  · obtain ⟨hcontra, -⟩ := hno.unique hcredentials hs' (hacquire.suffix.trans hs)
    cases hcontra
  · obtain ⟨⟨⟩, -, rfl⟩ :=
      hfound.unique hcredentials (hprocess.suffix.trans hs') (hacquire.suffix.trans hs)
    rw [if_pos hlocked] at hprocess
    obtain ⟨e, fds', rfl, rfl, hno⟩ | ⟨held', fds', h₂', r₂, h₃, u, hacquire', hbody, hrelease, rfl⟩ :=
      ends_lifecycleLock.mp hprocess
    · obtain ⟨hcontra, -⟩ := hno.unique hacquire hs' hs
      cases hcontra
    · obtain ⟨⟨⟩, -, rfl⟩ := hacquire'.unique hacquire
        (hbody.suffix.trans (hrelease.suffix.trans hs')) hs
      exact ⟨r₂, item₁, h₃, u, hbody, hrelease, rfl⟩

/-- The same, from its parts. -/
theorem ends_jsonSwitch_of_held {h₁ h₂ h₃ : History World} {held fds : LockFds} {r₁ u : Except Exc Unit}
    {item₁ : SwitchResult} (hlocked : operation.locked = true)
    (hcredentials : Ends (getSwitchCredentials P switch configFile false : Act Unit Credentials) () h
      (.ok credentials) () h₁)
    (hacquire : Ends (acquireLock P switch.host) {} h₁ (.ok held) fds h₂)
    (hprocess : Ends (jsonProcessTarget P switch credentials warningDays operation) item h₂ r₁ item₁ h₃)
    (hrelease : Ends (releaseLock held (inFlight r₁) : Act Unit Unit) () h₃ u () h') :
    Ends (jsonSwitch P configFile warningDays operation switch) item h (.ok ())
      (settled item₁ (after u r₁)) h' := by
  have hlock : Ends (lifecycleLock P switch.host
      (jsonProcessTarget P switch credentials warningDays operation)) item h₁ (after u r₁) item₁ h' :=
    ends_lifecycleLock.mpr (.inr ⟨held, fds, h₂, r₁, h₃, u, hacquire, hprocess, hrelease, rfl⟩)
  refine ends_bind.mpr (.inl ⟨.ok credentials, item, h₁, ends_attempt.mpr ⟨_, rfl,
    ends_alone.mpr ⟨rfl, (), hcredentials⟩⟩, ?_⟩)
  dsimp only
  rw [if_pos hlocked]
  cases hend : after u r₁ with
  | ok _ =>
    rw [hend] at hlock
    exact ends_handle.mpr (.inl ⟨(), rfl, hlock⟩)
  | error e =>
    rw [hend] at hlock
    exact ends_handle.mpr (.inr ⟨e, item₁, h', hlock, ends_modify.mpr ⟨rfl, rfl, rfl⟩⟩)

end runs

end ArubaCertRenewer
