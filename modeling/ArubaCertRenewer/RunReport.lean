import ArubaCertRenewer.Aggregation
import ArubaCertRenewer.CreateCommand
import ArubaCertRenewer.JsonRoundTrip
import ArubaCertRenewer.RequestSize
import ArubaCertRenewer.StartupCalls

/- The line that `--output json` prints, and what a consumer reads in it.

   `as_dict` and `to_json` are the code's; `RunReport.read` is a consumer that knows only
   the field tables of docs/run-result.md and looks its members up by name. -/
namespace ArubaCertRenewer
open PyText IpAddress Effects Effects.Py

/-! ## The values of the enumerations -/

def Outcome.value : Outcome → Text
  | .successChanged => "success_changed"
  | .successNoChange => "success_no_change"
  | .successPrepared => "success_prepared"
  | .attentionDue => "attention_due"
  | .failurePreAttempt => "failure_pre_attempt"
  | .failurePartial => "failure_partial"
  | .failureAmbiguous => "failure_ambiguous"

def Stage.value : Stage → Text
  | .startup => "startup"
  | .configuration => "configuration"
  | .lock => "lock"
  | .inspection => "inspection"
  | .decision => "decision"
  | .preflight => "preflight"
  | .csrGeneration => "csr_generation"
  | .csrRetrieval => "csr_retrieval"
  | .signing => "signing"
  | .issuedValidation => "issued_validation"
  | .installation => "installation"
  | .activation => "activation"
  | .liveVerification => "live_verification"
  | .finalization => "finalization"
  | .completed => "completed"

def Milestone.value : Milestone → Text
  | .notAttempted => "not_attempted"
  | .confirmed => "confirmed"
  | .failed => "failed"
  | .uncertain => "uncertain"

def Change.value : Change → Text
  | .none => "none"
  | .confirmed => "confirmed"
  | .possible => "possible"

def Reason.value : Reason → Text
  | .configInvalid => "config_invalid"
  | .lockBusy => "lock_busy"
  | .lockFailed => "lock_failed"
  | .pendingState => "pending_state"
  | .inspectionFailed => "inspection_failed"
  | .csrFailed => "csr_failed"
  | .signingFailed => "signing_failed"
  | .validationFailed => "validation_failed"
  | .installationFailed => "installation_failed"
  | .verificationFailed => "verification_failed"
  | .recoveryRequired => "recovery_required"
  | .unexpectedFailure => "unexpected_failure"

/-! ## The object -/

/-- `None` is written `null`. -/
def orNull {α : Type} (write : α → Json) : Option α → Json
  | none => .null
  | some a => write a

def CertificateRecord.asDict (certificate : CertificateRecord) : Json := .obj [
  ("fingerprint_sha256", .str certificate.fingerprintSha256),
  ("expiry_date", .str certificate.expiryDate)]

/-- The members in the order of `MILESTONE_NAMES`. -/
def Milestones.asDict (milestones : Milestones) : Json := .obj [
  ("csr", .str milestones.csr.value),
  ("issuance", .str milestones.issuance.value),
  ("installation", .str milestones.installation.value),
  ("activation", .str milestones.activation.value),
  ("live_tls", .str milestones.liveTls.value)]

/-- `SwitchResult.as_dict`. -/
def SwitchResult.asDict (item : SwitchResult) : Json := .obj [
  ("target", .str item.target),
  ("outcome", .str item.outcome.value),
  ("stage", .str item.stage.value),
  ("renewal_due", orNull .bool item.renewalDue),
  ("change", .str item.change.value),
  ("manual_recovery_required", .bool item.manualRecoveryRequired),
  ("reason_code", orNull (fun reason => .str reason.value) item.reasonCode),
  ("message", .str item.message),
  ("certificate", orNull CertificateRecord.asDict item.certificate),
  ("milestones", item.milestones.asDict)]

/-- What `uuid4` and the clock give a run: its identity, and when it started and finished. -/
structure Stamps where
  attemptId : Text
  startedAt : Text
  finishedAt : Option Text
  deriving DecidableEq, Repr

/-- `RunResult.as_dict`. -/
def RunResult.asDict (run : RunResult) (stamps : Stamps) : Json := .obj [
  ("schema_version", .int 1),
  ("product", .str "aruba"),
  ("operation", .str run.operation),
  ("attempt_id", .str stamps.attemptId),
  ("started_at", .str stamps.startedAt),
  ("finished_at", orNull .str stamps.finishedAt),
  ("outcome", .str run.outcome.value),
  ("stage", .str run.stage.value),
  ("manual_recovery_required", .bool run.manualRecoveryRequired),
  ("reason_code", orNull (fun reason => .str reason.value) run.reasonCode),
  ("message", .str run.message),
  ("results", .arr (run.results.map SwitchResult.asDict))]

/-- `RunResult.to_json`. -/
def RunResult.toJson (run : RunResult) (stamps : Stamps) : Text := (run.asDict stamps).dumps

/-! ## The consumer -/

namespace RunReport

/-- The member of an object under a name, as `read` takes it. -/
def field {α : Type} (j : Json) (key : Text) (read : Json → Option α) : Option α :=
  match j with
  | .obj members => (member members key).bind read
  | _ => none

def readBool : Json → Option Bool
  | .bool b => some b
  | _ => none

def readInt : Json → Option Int
  | .int n => some n
  | _ => none

def readNull {α : Type} (read : Json → Option α) : Json → Option (Option α)
  | .null => some none
  | j => (read j).map some

/-- One of the values of an enumeration. -/
def readValue {α : Type} (values : List α) (value : α → Text) (j : Json) : Option α :=
  j.asStr.bind fun t => values.find? (value · == t)

def readOutcome : Json → Option Outcome :=
  readValue [.successChanged, .successNoChange, .successPrepared, .attentionDue, .failurePreAttempt, .failurePartial,
    .failureAmbiguous] Outcome.value

def readStage : Json → Option Stage :=
  readValue [.startup, .configuration, .lock, .inspection, .decision, .preflight, .csrGeneration, .csrRetrieval,
    .signing, .issuedValidation, .installation, .activation, .liveVerification, .finalization, .completed] Stage.value

def readMilestone : Json → Option Milestone :=
  readValue [.notAttempted, .confirmed, .failed, .uncertain] Milestone.value

def readChange : Json → Option Change := readValue [.none, .confirmed, .possible] Change.value

def readReason : Json → Option Reason :=
  readValue [.configInvalid, .lockBusy, .lockFailed, .pendingState, .inspectionFailed, .csrFailed, .signingFailed,
    .validationFailed, .installationFailed, .verificationFailed, .recoveryRequired, .unexpectedFailure] Reason.value

def readCertificate (j : Json) : Option CertificateRecord := do
  let fingerprintSha256 ← field j "fingerprint_sha256" Json.asStr
  let expiryDate ← field j "expiry_date" Json.asStr
  return { fingerprintSha256, expiryDate }

def readMilestones (j : Json) : Option Milestones := do
  let csr ← field j "csr" readMilestone
  let issuance ← field j "issuance" readMilestone
  let installation ← field j "installation" readMilestone
  let activation ← field j "activation" readMilestone
  let liveTls ← field j "live_tls" readMilestone
  return { csr, issuance, installation, activation, liveTls }

def readSwitch (j : Json) : Option SwitchResult := do
  let target ← field j "target" Json.asStr
  let outcome ← field j "outcome" readOutcome
  let stage ← field j "stage" readStage
  let renewalDue ← field j "renewal_due" (readNull readBool)
  let change ← field j "change" readChange
  let manualRecoveryRequired ← field j "manual_recovery_required" readBool
  let reasonCode ← field j "reason_code" (readNull readReason)
  let message ← field j "message" Json.asStr
  let certificate ← field j "certificate" (readNull readCertificate)
  let milestones ← field j "milestones" readMilestones
  return { target, outcome, stage, renewalDue, change, manualRecoveryRequired, reasonCode, message, certificate,
           milestones }

def readSwitches : Json → Option (List SwitchResult)
  | .arr items => items.mapM readSwitch
  | _ => none

def readRun (j : Json) : Option (RunResult × Stamps) := do
  let version ← field j "schema_version" readInt
  let product ← field j "product" Json.asStr
  if version != 1 || product != "aruba" then none
  let operation ← field j "operation" Json.asStr
  let attemptId ← field j "attempt_id" Json.asStr
  let startedAt ← field j "started_at" Json.asStr
  let finishedAt ← field j "finished_at" (readNull Json.asStr)
  let outcome ← field j "outcome" readOutcome
  let stage ← field j "stage" readStage
  let manualRecoveryRequired ← field j "manual_recovery_required" readBool
  let reasonCode ← field j "reason_code" (readNull readReason)
  let message ← field j "message" Json.asStr
  let results ← field j "results" readSwitches
  return ({ operation, outcome, stage, manualRecoveryRequired, reasonCode, message, results },
    { attemptId, startedAt, finishedAt })

/-- What a consumer takes from a line that holds one object without a duplicate member. -/
def read (line : Text) : Option (RunResult × Stamps) := (Json.loadsUnique line).bind readRun

/-! ## What is read back -/

theorem readOutcome_value (outcome : Outcome) : readOutcome (.str outcome.value) = some outcome := by
  cases outcome <;> rfl

theorem readStage_value (stage : Stage) : readStage (.str stage.value) = some stage := by
  cases stage <;> rfl

theorem readMilestone_value (milestone : Milestone) : readMilestone (.str milestone.value) = some milestone := by
  cases milestone <;> rfl

theorem readChange_value (change : Change) : readChange (.str change.value) = some change := by
  cases change <;> rfl

theorem readReason_value (reason : Reason) : readReason (.str reason.value) = some reason := by
  cases reason <;> rfl

theorem readCertificate_asDict (certificate : CertificateRecord) :
    readCertificate certificate.asDict = some certificate := rfl

theorem readMilestones_asDict (milestones : Milestones) : readMilestones milestones.asDict = some milestones := by
  have hcsr : field milestones.asDict "csr" readMilestone = some milestones.csr := readMilestone_value _
  have hissuance : field milestones.asDict "issuance" readMilestone = some milestones.issuance := readMilestone_value _
  have hinstallation : field milestones.asDict "installation" readMilestone = some milestones.installation :=
    readMilestone_value _
  have hactivation : field milestones.asDict "activation" readMilestone = some milestones.activation :=
    readMilestone_value _
  have hlive : field milestones.asDict "live_tls" readMilestone = some milestones.liveTls := readMilestone_value _
  rw [readMilestones, hcsr, hissuance, hinstallation, hactivation, hlive]
  rfl

theorem readNull_orNull {α : Type} (read : Json → Option α) (write : α → Json)
    (hread : ∀ a, read (write a) = some a) (hnull : ∀ a, write a ≠ .null) (value : Option α) :
    readNull read (orNull write value) = some value := by
  cases value with
  | none => rfl
  | some a =>
    have hsome : readNull read (write a) = (read (write a)).map some := by
      cases hw : write a with
      | null => exact absurd hw (hnull a)
      | _ => rfl
    rw [orNull, hsome, hread]
    rfl

end RunReport

/-- The record as a consumer can know it, without what `as_dict` leaves out. -/
def SwitchResult.shown (item : SwitchResult) : SwitchResult := { item with pendingCsrObserved := false }

def RunResult.shown (run : RunResult) : RunResult := { run with results := run.results.map SwitchResult.shown }

namespace RunReport

theorem readReason_orNull (reason : Option Reason) :
    readNull readReason (orNull (fun reason => .str reason.value) reason) = some reason :=
  readNull_orNull readReason _ readReason_value (fun _ h => by cases h) reason

theorem readSwitch_asDict (item : SwitchResult) : readSwitch item.asDict = some item.shown := by
  have htarget : field item.asDict "target" Json.asStr = some item.target := rfl
  have houtcome : field item.asDict "outcome" readOutcome = some item.outcome := readOutcome_value _
  have hstage : field item.asDict "stage" readStage = some item.stage := readStage_value _
  have hdue : field item.asDict "renewal_due" (readNull readBool) = some item.renewalDue :=
    readNull_orNull readBool .bool (fun _ => rfl) (fun _ h => by cases h) _
  have hchange : field item.asDict "change" readChange = some item.change := readChange_value _
  have hrecovery : field item.asDict "manual_recovery_required" readBool = some item.manualRecoveryRequired := rfl
  have hreason : field item.asDict "reason_code" (readNull readReason) = some item.reasonCode := readReason_orNull _
  have hmessage : field item.asDict "message" Json.asStr = some item.message := rfl
  have hcertificate : field item.asDict "certificate" (readNull readCertificate) = some item.certificate :=
    readNull_orNull readCertificate _ readCertificate_asDict (fun _ h => by cases h) _
  have hmilestones : field item.asDict "milestones" readMilestones = some item.milestones := readMilestones_asDict _
  rw [readSwitch, htarget, houtcome, hstage, hdue, hchange, hrecovery, hreason, hmessage, hcertificate, hmilestones]
  rfl

theorem readSwitches_asDict (items : List SwitchResult) :
    readSwitches (.arr (items.map SwitchResult.asDict)) = some (items.map SwitchResult.shown) := by
  rw [readSwitches]
  induction items with
  | nil => rfl
  | cons item items ih =>
    rw [List.map_cons, List.mapM_cons, readSwitch_asDict, ih]
    rfl

theorem readRun_asDict (run : RunResult) (stamps : Stamps) :
    readRun (run.asDict stamps) = some (run.shown, stamps) := by
  have hfinished : field (run.asDict stamps) "finished_at" (readNull Json.asStr) = some stamps.finishedAt :=
    readNull_orNull Json.asStr .str (fun _ => rfl) (fun _ h => by cases h) _
  have houtcome : field (run.asDict stamps) "outcome" readOutcome = some run.outcome := readOutcome_value _
  have hstage : field (run.asDict stamps) "stage" readStage = some run.stage := readStage_value _
  have hrecovery : field (run.asDict stamps) "manual_recovery_required" readBool =
      some run.manualRecoveryRequired := rfl
  have hreason : field (run.asDict stamps) "reason_code" (readNull readReason) = some run.reasonCode :=
    readReason_orNull _
  have hmessage : field (run.asDict stamps) "message" Json.asStr = some run.message := rfl
  have hresults : field (run.asDict stamps) "results" readSwitches = some (run.results.map SwitchResult.shown) :=
    readSwitches_asDict _
  have hversion : field (run.asDict stamps) "schema_version" readInt = some 1 := rfl
  have hproduct : field (run.asDict stamps) "product" Json.asStr = some "aruba" := rfl
  have hoperation : field (run.asDict stamps) "operation" Json.asStr = some run.operation := rfl
  have hattempt : field (run.asDict stamps) "attempt_id" Json.asStr = some stamps.attemptId := rfl
  have hstarted : field (run.asDict stamps) "started_at" Json.asStr = some stamps.startedAt := rfl
  rw [readRun, hversion, hproduct, hoperation, hattempt, hstarted, hfinished, houtcome, hstage, hrecovery, hreason,
    hmessage, hresults]
  rfl

end RunReport

/-! ## The line's characters -/

theorem printable_hexDigit {n : Nat} (hn : n < 16) : isPrintable (Json.hexDigit n) = true := by
  have hall : ∀ n < 16, isPrintable (Json.hexDigit n) = true := by decide
  exact hall n hn

theorem printable_unicodeEscape (n : Nat) : (Json.unicodeEscape n).all isPrintable = true := by
  have hdigit : ∀ m, isPrintable (Json.hexDigit (m % 16)) = true := fun m =>
    printable_hexDigit (Nat.mod_lt m (by decide))
  have hsigns : isPrintable '\\' = true ∧ isPrintable 'u' = true := by decide
  simp only [Json.unicodeEscape, List.all_cons, List.all_nil, hdigit, hsigns, Bool.and_self]

theorem printable_escapeChar (c : Char) : (Json.escapeChar c).all isPrintable = true := by
  unfold Json.escapeChar
  dsimp only
  repeat' split
  all_goals try rfl
  · next h =>
    simp only [Bool.and_eq_true, decide_eq_true_eq] at h
    simp only [List.all_cons, List.all_nil, isPrintable, Bool.and_true, Bool.and_eq_true, decide_eq_true_eq]
    omega
  · exact printable_unicodeEscape _
  · rw [List.all_append, printable_unicodeEscape, printable_unicodeEscape]
    rfl

theorem printable_quote (t : Text) : (Json.quote t).all isPrintable = true := by
  have hescape : (t.flatMap Json.escapeChar).all isPrintable = true := by
    rw [List.all_flatMap, List.all_eq_true]
    exact fun c _ => printable_escapeChar c
  rw [Json.quote, List.all_append, List.all_append, hescape]
  rfl

theorem printable_ofInt (n : Int) : (ofInt n).all isPrintable = true := by
  have hdigits : ∀ m, (ofNat m).all isPrintable = true := by
    intro m
    rw [List.all_eq_true]
    intro c hc
    have hdigit := List.all_eq_true.mp (ofNat_dec m) c hc
    simp only [isDecDigit, Bool.and_eq_true, decide_eq_true_eq] at hdigit
    simp only [isPrintable, Bool.and_eq_true, decide_eq_true_eq]
    have hlow : 48 ≤ c.toNat := hdigit.1
    have hhigh : c.toNat ≤ 57 := hdigit.2
    omega
  cases n with
  | ofNat m => exact hdigits m
  | negSucc m =>
    have hwritten : ofInt (Int.negSucc m) = '-' :: ofNat (m + 1) := String.toList_append
    rw [hwritten, List.all_cons, hdigits]
    rfl

theorem printable_join {parts : List Text} (h : ∀ p ∈ parts, p.all isPrintable = true) :
    (join ", " parts).all isPrintable = true := by
  rw [List.all_eq_true]
  intro c hc
  obtain hc | ⟨p, hp, hc⟩ := mem_join hc
  · have hsep : (", ".toList).all isPrintable = true := by decide
    exact List.all_eq_true.mp hsep c hc
  · exact List.all_eq_true.mp (h p hp) c hc

mutual

/-- `ensure_ascii` leaves nothing that a terminal or a log would take as more than text. -/
theorem printable_dumps : ∀ j : Json, j.plain = true → j.dumps.all isPrintable = true
  | .null, _ | .bool true, _ | .bool false, _ => by decide
  | .int n, _ => printable_ofInt n
  | .str t, _ => printable_quote t
  | .float _, hj => by cases hj
  | .arr items, hj => by
    rw [Json.dumps, List.all_append, List.all_append, printable_join (printable_dumpsItems items hj)]
    rfl
  | .obj members, hj => by
    rw [Json.dumps, List.all_append, List.all_append, printable_join (printable_dumpsMembers members hj)]
    rfl

theorem printable_dumpsItems : ∀ items : List Json, Json.plainItems items = true →
    ∀ p ∈ Json.dumpsItems items, p.all isPrintable = true
  | [], _, p, hp => by cases hp
  | j :: js, hj, p, hp => by
    obtain ⟨hplain, hmore⟩ := Bool.and_eq_true_iff.mp hj
    obtain rfl | hp := List.mem_cons.mp hp
    · exact printable_dumps j hplain
    · exact printable_dumpsItems js hmore p hp

theorem printable_dumpsMembers : ∀ members : List (Text × Json), Json.plainMembers members = true →
    ∀ p ∈ Json.dumpsMembers members, p.all isPrintable = true
  | [], _, p, hp => by cases hp
  | (k, j) :: js, hj, p, hp => by
    obtain ⟨hplain, hmore⟩ := Bool.and_eq_true_iff.mp hj
    obtain rfl | hp := List.mem_cons.mp hp
    · rw [List.all_append, List.all_append, printable_quote, printable_dumps j hplain]
      rfl
    · exact printable_dumpsMembers js hmore p hp

end

theorem plain_switch (item : SwitchResult) : item.asDict.plain = true ∧ item.asDict.distinctKeys = true := by
  obtain ⟨target, outcome, stage, due, change, recovery, reason, message, certificate, pending, milestones⟩ := item
  cases due <;> cases reason <;> cases certificate <;> exact ⟨rfl, rfl⟩

theorem plain_switches (items : List SwitchResult) : Json.plainItems (items.map SwitchResult.asDict) = true ∧
    Json.distinctKeysItems (items.map SwitchResult.asDict) = true := by
  induction items with
  | nil => exact ⟨rfl, rfl⟩
  | cons item items ih =>
    obtain ⟨hplain, hkeys⟩ := plain_switch item
    rw [List.map_cons, Json.plainItems, Json.distinctKeysItems, hplain, hkeys]
    exact ih

/-- A result is written with no number but its version, and no member twice. -/
theorem plain_asDict (run : RunResult) (stamps : Stamps) :
    (run.asDict stamps).plain = true ∧ (run.asDict stamps).distinctKeys = true := by
  obtain ⟨operation, outcome, stage, recovery, reason, message, results⟩ := run
  obtain ⟨attemptId, startedAt, finishedAt⟩ := stamps
  obtain ⟨hplain, hkeys⟩ := plain_switches results
  cases reason <;> cases finishedAt <;>
    exact ⟨by simp only [RunResult.asDict, Json.plain, Json.plainMembers, orNull, hplain]; rfl,
      by simp only [RunResult.asDict, Json.distinctKeys, Json.distinctKeysMembers, orNull, hkeys]; rfl⟩

/-- The line of a result reads back as that result, whatever the names and messages in it. -/
theorem read_toJson (run : RunResult) (stamps : Stamps) :
    RunReport.read (run.toJson stamps) = some (run.shown, stamps) := by
  obtain ⟨hplain, hkeys⟩ := plain_asDict run stamps
  rw [RunReport.read, RunResult.toJson, Json.loadsUnique_dumps hplain hkeys, Option.bind_some,
    RunReport.readRun_asDict]

/-! ## The exit code -/

section runs
variable {σ : Type} {P : Platform} {a : Args}

theorem validateSwitches_ne_nil {knownHostsFile : Text} {entry : Toml} {entries : List Toml} {switches : List Switch}
    (h : validateSwitches knownHostsFile 1 [] (entry :: entries) = .ok switches) : switches ≠ [] := by
  cases entry with
  | table members =>
    simp only [validateSwitches, bind_eq_ok] at h
    obtain ⟨switch, -, -, -, more, -, hmade⟩ := h
    cases hmade
    exact List.cons_ne_nil _ _
  | _ => cases h

theorem validateConfig_ne_nil {config : List (Text × Toml)} {knownHostsFile : Text} {warningDays : Nat}
    {switches : List Switch} (h : validateConfig config knownHostsFile = .ok (warningDays, switches)) :
    switches ≠ [] := by
  simp only [validateConfig, bind_eq_ok] at h
  obtain ⟨days, -, h⟩ := h
  split at h
  · obtain ⟨accepted, haccepted, h⟩ := bind_eq_ok.mp h
    cases h
    exact validateSwitches_ne_nil haccepted
  · cases h

theorem selectSwitches_ne_nil {configured switches : List Switch} {name : Option Text} (hne : configured ≠ [])
    (h : selectSwitches configured name = .ok switches) : switches ≠ [] := by
  cases name with
  | none => exact Except.ok.inj h ▸ hne
  | some name =>
    rw [selectSwitches] at h
    split at h
    · cases h
    · next hmatching => exact Except.ok.inj h ▸ hmatching

/-- A run that gets to its switches has one. -/
theorem startup_switches {started : Startup} {s s' : σ} {h h' : History World}
    (hrun : Ends (startup P a) s h (.ok started) s' h') : started.switches ≠ [] := by
  have hspec : wpy (fun _ _ => True) (startup P a : Act σ Startup)
      (fun r _ _ => ∀ started, r = .ok started → started.switches ≠ []) s h := by
    refine wpy_then_ok .any fun _ _ _ => wpy_then_ok .any fun config _ _ => wpy_then_ok .any fun knownHosts _ _ => ?_
    rw [wpy_bind, wpy_result]
    cases hconfig : validateConfig config knownHosts with
    | error e => exact fun _ he => by cases he
    | ok configured =>
      obtain ⟨warningDays, configured⟩ := configured
      rw [either_ok, wpy_bind, wpy_result]
      cases hselect : selectSwitches configured a.switchName with
      | error e => exact fun _ he => by cases he
      | ok switches =>
        refine wpy_then_ok .any fun operation _ _ started he => ?_
        cases he
        exact selectSwitches_ne_nil (validateConfig_ne_nil hconfig) hselect
  exact wpy_ends hspec hrun started rfl

theorem jsonSwitches_ne_nil {warningDays : Nat} {operation : Operation} {switches : List Switch}
    {items : List SwitchResult} {s s' : σ} {h h' : History World} (hne : switches ≠ [])
    (hrun : Ends (jsonSwitches P a.config warningDays operation switches) s h (.ok items) s' h') : items ≠ [] := by
  cases switches with
  | nil => exact absurd rfl hne
  | cons switch switches =>
    have hspec : wpy (fun _ _ => True) (jsonSwitches P a.config warningDays operation (switch :: switches) : Act σ _)
        (fun r _ _ => ∀ items, r = .ok items → items ≠ []) s h := by
      refine wpy_then_ok .any fun item _ _ => wpy_then_ok .any fun items _ _ made he => ?_
      cases he
      exact List.cons_ne_nil _ _
    exact wpy_ends hspec hrun items rfl

/-- In every run the exit code is that of the result, also when the run does not get to its switches. -/
theorem exitAgrees_runJson {run : RunResult} {exitCode : Nat} {s s' : σ} {h h' : History World}
    (hrun : Ends (runJson P a) s h (.ok (run, exitCode)) s' h') : ExitAgrees run.finish.outcome exitCode := by
  have hspec : wpy (fun _ _ => True) (runJson P a : Act σ (RunResult × Nat)) (fun r _ _ =>
      ∀ p, r = .ok p → ExitAgrees p.1.finish.outcome p.2) s h := by
    simp only [runJson]
    rw [wpy_bind, wpy_attempt]
    refine wpy_of_ends fun started s₁ h₁ hstart => ?_
    cases started with
    | error e =>
      -- a startup that fails leaves no record, and the outcome is an error
      rw [either_ok]
      dsimp only
      split <;> exact fun p hp => Except.ok.inj hp ▸ exitAgrees_error rfl
    | ok started =>
      rw [either_ok]
      obtain ⟨-, s₂, hstart⟩ := ends_alone.mp hstart
      refine wpy_bind.mpr (wpy_of_ends fun r s₃ h₃ hswitches => ?_)
      cases r with
      | error e => exact fun _ he => by cases he
      | ok items =>
        intro p hp
        cases hp
        have hne := jsonSwitches_ne_nil (startup_switches hstart) hswitches
        have hagg : Aggregated items
            ({ operation := jsonOperation a, stage := .configuration, results := items } : RunResult).finish :=
          @aggregated_finish { operation := jsonOperation a, stage := .configuration, results := items } hne rfl
        refine exitAgrees_jsonExitCode hagg fun hop => ?_
        exact wpy_ends (notDue_jsonSwitches hop _ _ _) hswitches
  exact wpy_ends hspec hrun _ rfl

end runs

/-- Whatever an invocation with `--output json` ends with: what it prints is one line of printing ASCII,
from which a consumer that follows the documented fields reads the whole result back, every switch's
record in it; and its outcome is the one that the exit code stands for. -/
theorem json_report_read_back {σ : Type} (P : Platform) (a : Args) (s s' : σ) (h h' : History World) (run : RunResult)
    (exitCode : Nat) (hrun : Ends (jsonMain P a) s h (.ok (run, exitCode)) s' h') (stamps : Stamps) :
    (run.toJson stamps).all isPrintable = true ∧
      RunReport.read (run.toJson stamps) = some (run.shown, stamps) ∧ ExitAgrees run.outcome exitCode := by
  refine ⟨printable_dumps _ (plain_asDict run stamps).1, read_toJson run stamps, ?_⟩
  have hspec : wpy (fun _ _ => True) (jsonMain P a : Act σ (RunResult × Nat)) (fun r _ _ =>
      ∀ p, r = .ok p → ExitAgrees p.1.outcome p.2) s h := by
    unfold jsonMain
    have hagrees : wpy (fun _ _ => True) (within (ask .openDevnull fun r => r)
        (fun _ inFlight => ask (.closeDevnull inFlight) fun r => r) fun _ => runJson P a : Act σ (RunResult × Nat))
        (fun r _ _ => ∀ p, r = .ok p → ExitAgrees p.1.finish.outcome p.2) s h :=
      wpy_within_ok (Q := fun (p : RunResult × Nat) _ => ExitAgrees p.1.finish.outcome p.2) .any (fun _ _ => .any)
        (fun _ _ p _ _ hp => wpy_ask.mpr ⟨trivial, fun _ => hp⟩)
        fun _ _ _ => wpy_of_ends fun r _ _ hjson p hp => exitAgrees_runJson (hp ▸ hjson)
    refine wpy_bind.mpr (wpy_post hagrees fun r s₁ t hr => ?_)
    cases r with
    | error e => exact fun _ hno => by cases hno
    | ok p =>
      intro q hq
      cases hq
      exact hr p rfl
  exact wpy_ends hspec hrun _ rfl

def siteInspectionReport : Act Unit (RunResult × Nat) := jsonMain inspectPlatform { config := "/config" }

def siteStamps : Stamps := ⟨"22c3def5-60a7-42e1-af1c-f24be85e71ec", "2026-10-07T10:00:00Z", some "2026-10-07T10:00:01Z"⟩

theorem site_inspection_report_ends : ∃ s', Ends siteInspectionReport () [] (.ok (siteDue.finish, 1)) s'
    (play site.calm (siteInspectionReport.prog ()) []).2 :=
  play_ends_result site.calm (by decide)

theorem json_report_read_back_site :
    RunReport.read (siteDue.finish.toJson siteStamps) = some (siteDue.finish.shown, siteStamps) := by
  obtain ⟨s', hrun⟩ := site_inspection_report_ends
  exact (json_report_read_back inspectPlatform { config := "/config" } () s' [] _ siteDue.finish 1 hrun siteStamps).2.1

end ArubaCertRenewer
