import ArubaCertRenewer.StartupCalls

/- The drivers, for any condition on the history before a call.

   What a driver does besides its operations is idle. So where a condition allows
   idle calls and those of the operations, it allows the calls of a whole run; under
   the lifecycle lock another condition may stand, as `Governs` says. -/
namespace ArubaCertRenewer
open PyText Effects Effects.Py

/-- The calls of an operation on a switch are where `G` allows them. -/
def Allowed (G : History World → Call → Prop) (P : Platform) (switch : Switch) (credentials : Credentials)
    (warningDays : Nat) : Operation → Prop
  | .inspect => Obeys G (checkSwitch switch credentials warningDays : Act Unit Status)
  | .renewDue csr opnsense ca =>
    Obeys G (checkSwitch switch credentials warningDays : Act Unit Status) ∧
      Obeys G (renewCertificate P switch credentials csr opnsense ca (some warningDays))
  | .renewNow csr opnsense ca => Obeys G (renewCertificate P switch credentials csr opnsense ca none)
  | .generateCsr name csr _ => Obeys G (generateCsr P switch credentials name csr : Act Log Text)
  | .retrieveCsr name csr _ => Obeys G (retrieveCsr P switch credentials name csr)
  | .signCsr name csr opnsense _ => Obeys G (signPendingCsr P switch credentials name csr opnsense none)
  | .install name csr opnsense ca certificatePem =>
    Obeys G (installPendingCertificate P switch credentials name certificatePem csr opnsense.lifetimeDays ca
        opnsense.digest none) ∧
      ∀ expected, Obeys G (verifyLiveHttpsCertificate P switch ca expected : Act Log Unit)

/-! ## One switch -/

section switch
variable {σ : Type} {G : History World → Call → Prop} {P : Platform} {switch : Switch}
  {credentials : Credentials} {configFile : Text} {warningDays : Nat} {operation : Operation}
  {csr : CsrSettings} {opnsense : OpnsenseSettings} {ca : VerificationCaSnapshot}

theorem obeys_observed {α : Type} {x : Act Log α} (hx : Obeys G x) : Obeys G (observed x) :=
  fun _ h => (wp_bind _ _ (x.prog []) h).mpr (wp_mono (hx [] h) (fun _ _ hg => hg) fun _ _ _ => trivial)

theorem obeys_recording {item : SwitchResult} {x : Act SwitchResult Unit} (hx : Obeys G x) :
    Obeys G (recording item x : Act σ SwitchResult) :=
  fun _ h => (wp_bind _ _ (x.prog item) h).mpr (wp_mono (hx item h) (fun _ _ hg => hg) fun _ _ _ => trivial)

theorem obeys_reraiseAs {α : Type} {wrap : Text → Exc} {keep : Exc → Bool} {x : Act σ α} (hx : Obeys G x) :
    Obeys G (reraiseAs wrap keep x) := .handle' hx fun _ => .throw' _

theorem obeys_exitingOn {cls : Exc → Bool} {x : Act σ Nat} (hx : Obeys G x) : Obeys G (exitingOn cls x) := by
  refine .handle' hx fun e => ?_
  split
  · exact .pure' _
  · exact .throw' _

/-- What ends a driver early: a code for an exception it knows. -/
theorem obeys_exit {α : Type} {e : Exc} {a : α} :
    Obeys G (if e.isValueError then pure a else throw e : Act σ α) := by
  split
  · exact .pure' _
  · exact .throw' _

/-! Structured output. -/

theorem obeys_jsonRenew {minimum : Option Nat}
    (hr : Obeys G (renewCertificate P switch credentials csr opnsense ca minimum)) :
    Obeys G (jsonRenew P switch credentials csr opnsense ca minimum) := by
  refine .bind' (.modify' _) fun _ => .bind' (.attempt' (obeys_observed hr)) fun r => ?_
  cases r with
  | error e => exact .modify' _
  | ok name => exact .modify' _

theorem obeys_jsonInspect {due : Act SwitchResult Unit}
    (hcheck : Obeys G (checkSwitch switch credentials warningDays : Act Unit Status)) (hdue : Obeys G due) :
    Obeys G (jsonInspect switch credentials warningDays due) := by
  refine .bind' (.modify' _) fun _ => .bind' (.alone' hcheck) fun status => ?_
  cases status with
  | error => exact .modify' _
  | ok => exact .modify' _
  | renewalDue => exact .bind' (.modify' _) fun _ => hdue
  | expired => exact .bind' (.modify' _) fun _ => hdue

theorem obeys_completing {x : Act SwitchResult Unit} (hx : Obeys G x) : Obeys G (completing x) :=
  .bind' hx fun _ => .modify' _

theorem obeys_jsonExplicitError {e : Exc} : Obeys G (jsonExplicitError operation e) := by
  unfold jsonExplicitError
  split
  · exact .modify' _
  split
  · exact .modify' _
  · exact .throw' _

variable (hidle : ∀ h c, c.idle = true → G h c)
include hidle

theorem obeys_idle {α : Type} {x : Act σ α} (hx : Idle x) : Obeys G x := Obeys.mono hx hidle

theorem obeys_jsonExplicitBody (ha : Allowed G P switch credentials warningDays operation) :
    Obeys G (jsonExplicitBody P switch credentials operation) := by
  have hwrite : ∀ {text : Text} {path : Option Text},
      Obeys G (writeOutput text path : Act SwitchResult Unit) := obeys_idle hidle passwordless_writeOutput.idle
  cases operation with
  | generateCsr name csr csrOutput =>
    exact obeys_completing (.bind' (.modify' _) fun _ => .bind' (obeys_observed ha) fun _ =>
      .bind' (.modify' _) fun _ => .bind' hwrite fun _ => .modify' _)
  | retrieveCsr name csr csrOutput =>
    exact obeys_completing (.bind' (.modify' _) fun _ => .bind' (obeys_observed ha) fun _ =>
      .bind' (.modify' _) fun _ => .bind' hwrite fun _ => .modify' _)
  | signCsr name csr opnsense certificateOutput =>
    refine .bind' ?_ fun written => ?_
    · refine .bind' (.modify' _) fun _ => .bind' (obeys_observed ha) fun _ => .bind' (.modify' _) fun _ =>
        .bind' (.result' _) fun _ => .bind' (.modify' _) fun _ => .bind' (.attempt' hwrite) fun r => ?_
      cases r with
      | ok _ => exact .bind' (.modify' _) fun _ => .pure' _
      | error e =>
        dsimp only
        split
        · exact .bind' (.modify' _) fun _ => .pure' _
        · exact .throw' _
    · cases written
      · exact .pure' _
      · exact obeys_completing (.pure' _)
  | install name csr opnsense ca certificatePem =>
    exact obeys_completing (.bind' (.modify' _) fun _ => .bind' (obeys_observed ha.1) fun _ =>
      .bind' (.modify' _) fun _ => .bind' (.modify' _) fun _ =>
      .bind' (obeys_reraiseAs (obeys_observed (ha.2 _))) fun _ => .bind' (.modify' _) fun _ => .modify' _)
  | inspect | renewNow _ _ _ | renewDue _ _ _ => exact .pure' _

theorem obeys_jsonProcessTarget (ha : Allowed G P switch credentials warningDays operation) :
    Obeys G (jsonProcessTarget P switch credentials warningDays operation) := by
  have hexplicit : Obeys G (handle (jsonExplicitBody P switch credentials operation)
      (jsonExplicitError operation)) :=
    .handle' (obeys_jsonExplicitBody hidle ha) fun _ => obeys_jsonExplicitError
  cases operation with
  | inspect => exact obeys_jsonInspect ha (.modify' _)
  | renewDue csr opnsense ca => exact obeys_jsonInspect ha.1 (obeys_jsonRenew ha.2)
  | renewNow csr opnsense ca => exact obeys_jsonRenew ha
  | generateCsr _ _ _ | retrieveCsr _ _ _ | signCsr _ _ _ _ | install _ _ _ _ _ => exact hexplicit

/-! Human output. -/

omit hidle in
theorem obeys_renewDueLocked (ha : Allowed G P switch credentials warningDays (.renewDue csr opnsense ca)) :
    Obeys G (renewDueLocked P warningDays csr opnsense ca switch credentials : Act σ RenewalStatus) := by
  refine .bind' (.attempt' (.alone' ha.1)) fun r => ?_
  have hrenew : ∀ {f : Except Exc Text → Act σ RenewalStatus}, (∀ r, Obeys G (f r)) →
      Obeys G (attempt (unobserved
        (renewCertificate P switch credentials csr opnsense ca (some warningDays))) >>= f) :=
    fun hf => .bind' (.attempt' (.alone' ha.2)) hf
  cases r with
  | error e => exact .pure' _
  | ok status =>
    cases status with
    | ok => exact .pure' _
    | error => exact .pure' _
    | renewalDue => exact hrenew fun r => by cases r <;> exact .pure' _
    | expired => exact hrenew fun r => by cases r <;> exact .pure' _

theorem obeys_explicitBody (ha : Allowed G P switch credentials warningDays operation) :
    Obeys G (explicitBody P switch credentials operation : Act σ Nat) := by
  have hwrite : ∀ {text : Text} {path : Option Text}, Obeys G (writeOutput text path : Act σ Unit) :=
    obeys_idle hidle passwordless_writeOutput.idle
  cases operation with
  | renewNow csr opnsense ca => exact obeys_exitingOn (.bind' (.alone' ha) fun _ => .pure' _)
  | install name csr opnsense ca certificatePem =>
    exact obeys_exitingOn (.bind' (.alone' ha.1) fun _ => .bind' (.alone' (ha.2 _)) fun _ => .pure' _)
  | signCsr name csr opnsense certificateOutput =>
    exact obeys_exitingOn (.bind' (.alone' ha) fun _ => .bind' hwrite fun _ => .pure' _)
  | generateCsr name csr csrOutput =>
    exact obeys_exitingOn (.bind' (.alone' ha) fun _ => .bind' (.handle' hwrite fun _ => .throw' _) fun _ =>
      .pure' _)
  | retrieveCsr name csr csrOutput =>
    exact obeys_exitingOn (.bind' (.alone' ha) fun _ => .bind' (.handle' hwrite fun _ => .throw' _) fun _ =>
      .pure' _)
  | inspect | renewDue _ _ _ => exact .pure' _

theorem obeys_runExplicitOperation
    (ha : ∀ credentials, Allowed G P switch credentials 0 operation) :
    Obeys G (runExplicitOperation P configFile operation switch : Act σ Nat) := by
  refine .bind' (.attempt' (.alone' (obeys_idle hidle idle_getSwitchCredentials))) fun r => ?_
  cases r with
  | ok credentials => exact obeys_explicitBody hidle (ha credentials)
  | error e => exact obeys_exit

end switch

/-! ## Whole runs -/

/-- `G` allows the calls of every run of an operation in `good`, where `G'` is what the calls under
    the lifecycle lock of a host obey. -/
structure Governs (G : History World → Call → Prop) (G' : Text → History World → Call → Prop) (P : Platform)
    (good : Operation → Prop) : Prop where
  idle : ∀ h c, c.idle = true → G h c
  idle_locked : ∀ host h c, c.idle = true → G' host h c
  lock : ∀ {σ α : Type} {host : Text} {x : Act σ α}, Obeys (G' host) x → Obeys G (lifecycleLock P host x)
  free : ∀ {switch credentials warningDays operation}, good operation → operation.locked = false →
    Allowed G P switch credentials warningDays operation
  locked : ∀ {switch credentials warningDays operation}, good operation → operation.locked = true →
    Allowed (G' switch.host) P switch credentials warningDays operation

namespace Governs
variable {σ : Type} {G : History World → Call → Prop} {G' : Text → History World → Call → Prop} {P : Platform}
  {good : Operation → Prop} {configFile : Text} {warningDays : Nat} {operation : Operation}
  {csr : CsrSettings} {opnsense : OpnsenseSettings} {ca : VerificationCaSnapshot}

theorem jsonSwitch (hg : Governs G G' P good) (hop : good operation) {switch : Switch} :
    Obeys G (jsonSwitch P configFile warningDays operation switch) := by
  refine .bind' (.attempt' (.alone' (obeys_idle hg.idle idle_getSwitchCredentials))) fun r => ?_
  cases r with
  | error e => exact .modify' _
  | ok credentials =>
    refine .handle' ?_ fun _ => .modify' _
    by_cases hl : operation.locked = true
    · rw [if_pos hl]
      exact hg.lock (obeys_jsonProcessTarget (hg.idle_locked _) (hg.locked hop hl))
    · rw [if_neg hl]
      exact obeys_jsonProcessTarget hg.idle (hg.free hop (Bool.eq_false_iff.mpr hl))

theorem jsonSwitches (hg : Governs G G' P good) (hop : good operation) : ∀ switches : List Switch,
    Obeys G (jsonSwitches P configFile warningDays operation switches : Act σ _)
  | [] => .pure' _
  | _ :: switches => .bind' (obeys_recording (hg.jsonSwitch hop)) fun _ =>
      .bind' (jsonSwitches hg hop switches) fun _ => .pure' _

theorem renewDueSwitches (hg : Governs G G' P good) (hop : good (.renewDue csr opnsense ca)) :
    ∀ switches : List Switch, Obeys G (renewDueSwitches P configFile warningDays csr opnsense ca switches)
  | [] => .pure' _
  | switch :: switches => by
    refine .bind' (.withVars' (.andFinally' (.handle' ?_ fun e => ?_) ?_)) fun _ =>
      renewDueSwitches hg hop switches
    · refine .bind' (.attempt' (.alone' (obeys_idle hg.idle idle_getSwitchCredentials))) fun r => ?_
      cases r with
      | error e => exact .assign' _
      | ok credentials =>
        exact hg.lock (.bind' (obeys_renewDueLocked (hg.locked hop rfl)) fun _ => .assign' _)
    · split
      · exact .assign' _
      · exact .throw' _
    · refine .bind' .locals' fun status => ?_
      cases status with
      | some status => exact .outer' (.modify' _)
      | none => exact .pure' _

theorem explicitOperation (hg : Governs G G' P good) (hop : good operation) {switch : Switch} :
    Obeys G (explicitOperation P configFile operation switch : Act σ Nat) := by
  refine obeys_exitingOn ?_
  by_cases hl : operation.locked = true
  · rw [if_pos hl]
    exact hg.lock (obeys_runExplicitOperation (hg.idle_locked _) fun _ => hg.locked hop hl)
  · rw [if_neg hl]
    exact obeys_runExplicitOperation hg.idle fun _ => hg.free hop (Bool.eq_false_iff.mpr hl)

theorem inspectSwitches (hg : Governs G G' P good) (hop : good .inspect) : ∀ switches : List Switch,
    Obeys G (inspectSwitches P configFile warningDays switches : Act σ _)
  | [] => .pure' _
  | switch :: switches => by
    refine .bind' (.bind' (.attempt' (.alone' (obeys_idle hg.idle idle_getSwitchCredentials))) fun r => ?_) fun _ =>
      .bind' (inspectSwitches hg hop switches) fun _ => .pure' _
    cases r with
    | ok credentials => exact .handle' (.alone' (hg.free hop rfl)) fun e => obeys_exit
    | error e => exact obeys_exit

theorem runHuman (hg : Governs G G' P good) {s : Startup} (hop : good s.operation) :
    Obeys G (runHuman P configFile s : Act σ Nat) := by
  unfold ArubaCertRenewer.runHuman
  split
  · next he =>
    exact .alone' (.bind' (.result' _) fun _ => .bind' (.set' _) fun _ =>
      .bind' (hg.renewDueSwitches (he ▸ hop) s.switches) fun _ => .bind' .get' fun _ => .pure' _)
  · next he => exact .bind' (hg.inspectSwitches (he ▸ hop) s.switches) fun _ => .pure' _
  · split
    · exact hg.explicitOperation hop
    · exact .throw' _

end Governs

end ArubaCertRenewer
