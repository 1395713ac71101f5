import ArubaCertRenewer.Surroundings

/- The result of an invocation against the results of its switches.

   `finish` takes the first of the most severe results, and `_run_json` makes
   the exit code of the same list on its own. They agree because only an
   inspection ends a switch with `attention_due`. -/
namespace ArubaCertRenewer
open PyText Effects Effects.Py

def Outcome.isSuccess : Outcome → Bool
  | .successChanged | .successNoChange | .successPrepared => true
  | _ => false

theorem Outcome.severity_inj {a b : Outcome} (h : a.severity = b.severity) : a = b := by
  cases a <;> cases b <;> first | rfl | simp [Outcome.severity] at h

theorem Outcome.isSuccess_iff {a : Outcome} :
    a.isSuccess = true ↔ a.severity < Outcome.attentionDue.severity := by
  cases a <;> simp [Outcome.isSuccess, Outcome.severity]

theorem Outcome.isFailure_iff {a : Outcome} :
    a.isFailure = true ↔ Outcome.attentionDue.severity < a.severity := by
  cases a <;> simp [Outcome.isFailure, Outcome.severity]

/-! ## The most severe result -/

/-- The first of the most severe results of a list. -/
structure Chosen (results : List SwitchResult) (item : SwitchResult) : Prop where
  split : ∃ before after, results = before ++ item :: after ∧
    ∀ r ∈ before, r.outcome.severity < item.outcome.severity
  most : ∀ r ∈ results, r.outcome.severity ≤ item.outcome.severity

theorem Chosen.mem {results : List SwitchResult} {item : SwitchResult} (h : Chosen results item) :
    item ∈ results := by
  obtain ⟨before, after, rfl, -⟩ := h.split
  simp

/-- `max` over a list, after some results of which it holds the first of the most severe. -/
theorem chosen_mostSevere {items : List SwitchResult} :
    ∀ {before : List SwitchResult} {item : SwitchResult}, Chosen before item →
      Chosen (before ++ items) (mostSevere item items) := by
  induction items with
  | nil =>
    intro before item h
    simpa [mostSevere] using h
  | cons next items ih =>
    intro before item h
    rw [List.append_cons]
    simp only [mostSevere]
    apply ih
    by_cases hlt : item.outcome.severity < next.outcome.severity
    · simp only [hlt, if_true]
      have hbefore : ∀ r ∈ before, r.outcome.severity < next.outcome.severity := by
        intro r hr
        exact Nat.lt_of_le_of_lt (h.most r hr) hlt
      constructor
      · exact ⟨before, [], rfl, hbefore⟩
      · intro r hr
        rw [List.mem_append, List.mem_singleton] at hr
        obtain hr | rfl := hr
        · exact Nat.le_of_lt (hbefore r hr)
        · exact Nat.le_refl _
    · simp only [hlt, if_false]
      obtain ⟨first, after, rfl, hfirst⟩ := h.split
      constructor
      · exact ⟨first, after ++ [next], by simp, hfirst⟩
      · intro r hr
        rw [List.mem_append, List.mem_singleton] at hr
        obtain hr | rfl := hr
        · exact h.most r hr
        · exact Nat.not_lt.mp hlt

/-- What `finish` makes of the results. -/
structure Aggregated (results : List SwitchResult) (finished : RunResult) : Prop where
  chosen : ∃ item, Chosen results item ∧ finished.outcome = item.outcome ∧
    finished.reasonCode = item.reasonCode ∧ finished.message = item.message ∧
    finished.stage = if results.all (·.outcome.isSuccess) then .completed else item.stage
  recovery : finished.manualRecoveryRequired = results.any (·.manualRecoveryRequired)

theorem aggregated_finish {run : RunResult} (hne : run.results ≠ [])
    (hrec : run.manualRecoveryRequired = false) : Aggregated run.results run.finish := by
  cases hr : run.results with
  | nil => exact absurd hr hne
  | cons item items =>
    have hstart : Chosen [item] item :=
      ⟨⟨[], [], rfl, by simp⟩, by simp⟩
    have hchosen : Chosen (item :: items) (mostSevere item items) := chosen_mostSevere hstart
    have hstage : (if Outcome.attentionDue.severity ≤ (mostSevere item items).outcome.severity then
          (mostSevere item items).stage else .completed) =
        if (item :: items).all (·.outcome.isSuccess) then .completed
          else (mostSevere item items).stage := by
      by_cases hall : (item :: items).all (·.outcome.isSuccess) = true
      · have hlt := Outcome.isSuccess_iff.mp (List.all_eq_true.mp hall _ hchosen.mem)
        rw [if_pos hall, if_neg (Nat.not_le.mpr hlt)]
      · have hle : Outcome.attentionDue.severity ≤ (mostSevere item items).outcome.severity := by
          apply Nat.not_lt.mp
          intro hlt
          apply hall
          apply List.all_eq_true.mpr
          intro r hr
          exact Outcome.isSuccess_iff.mpr (Nat.lt_of_le_of_lt (hchosen.most r hr) hlt)
        rw [if_neg hall, if_pos hle]
    constructor
    · exact ⟨mostSevere item items, hchosen, by simp [RunResult.finish, hr],
        by simp [RunResult.finish, hr], by simp [RunResult.finish, hr],
        by simpa [RunResult.finish, hr] using hstage⟩
    · simp [RunResult.finish, hr, hrec]

/-- The exit code that goes with an outcome. -/
structure ExitAgrees (outcome : Outcome) (exitCode : Nat) : Prop where
  failure : exitCode = exitError ↔ outcome.isFailure = true
  warning : exitCode = exitWarning ↔ outcome = .attentionDue
  ok : exitCode = exitOk ↔ outcome.isSuccess = true

theorem exitAgrees_error {outcome : Outcome} (h : outcome.isFailure = true) :
    ExitAgrees outcome exitError := by
  cases outcome <;> first | exact ⟨by decide, by decide, by decide⟩ | cases h

theorem exitAgrees_ok {outcome : Outcome} (h : outcome.isSuccess = true) :
    ExitAgrees outcome exitOk := by
  cases outcome <;> first | exact ⟨by decide, by decide, by decide⟩ | cases h

/-- The exit code asks for any result of a kind, `finish` for the most severe one. -/
theorem exitAgrees_jsonExitCode {operation : Operation} {results : List SwitchResult}
    {finished : RunResult} (h : Aggregated results finished)
    (hdue : operation ≠ .inspect → ∀ item ∈ results, item.outcome ≠ .attentionDue) :
    ExitAgrees finished.outcome (jsonExitCode operation results) := by
  obtain ⟨item, hitem, ho, -⟩ := h.chosen
  rw [ho]
  by_cases hf : results.any (·.outcome.isFailure) = true
  · obtain ⟨r, hr, hrf⟩ := List.any_eq_true.mp hf
    have hlt := Nat.lt_of_lt_of_le (Outcome.isFailure_iff.mp hrf) (hitem.most r hr)
    have hcode : jsonExitCode operation results = exitError := by simp [jsonExitCode, hf]
    rw [hcode]
    exact exitAgrees_error (Outcome.isFailure_iff.mpr hlt)
  · have hle : item.outcome.severity ≤ Outcome.attentionDue.severity := by
      apply Nat.not_lt.mp
      intro hlt
      exact hf (List.any_eq_true.mpr ⟨item, hitem.mem, Outcome.isFailure_iff.mpr hlt⟩)
    obtain heq | hlt := Nat.eq_or_lt_of_le hle
    · -- the most severe result is a certificate that is due, so this is an inspection
      have hitemdue := Outcome.severity_inj heq
      have hop : operation = .inspect := by
        by_contra hop
        exact hdue hop item hitem.mem hitemdue
      have hany : results.any (·.outcome == .attentionDue) = true :=
        List.any_eq_true.mpr ⟨item, hitem.mem, by simp [hitemdue]⟩
      have hcode : jsonExitCode operation results = exitWarning := by
        simp [jsonExitCode, hf, hop, hany]
      rw [hcode, hitemdue]
      exact ⟨by decide, by decide, by decide⟩
    · have hnone : results.any (·.outcome == .attentionDue) = false := by
        apply List.any_eq_false.mpr
        intro r hr hrdue
        have hrle := hitem.most r hr
        rw [beq_iff_eq.mp hrdue] at hrle
        exact Nat.not_lt.mpr hrle hlt
      have hcode : jsonExitCode operation results = exitOk := by
        simp only [jsonExitCode, hf, hnone]
        cases operation <;> rfl
      rw [hcode]
      exact exitAgrees_ok (Outcome.isSuccess_iff.mpr hlt)

/-! ## The records of a run -/

/-- A computation on a record keeps `K` of it, however it ends. -/
def Holds {α : Type} (K : SwitchResult → Prop) (x : Act SwitchResult α) : Prop :=
  ∀ item h, K item → wpy (fun _ _ => True) x (fun _ item' _ => K item') item h

section holds
variable {K : SwitchResult → Prop} {α β γ : Type}

theorem wpy_true {σ : Type} (x : Act σ α) (s : σ) (h : History World) :
    wpy (fun _ _ => True) x (fun _ _ _ => True) s h := by
  show wp _ (x.prog s) _ h
  induction x.prog s generalizing h with
  | ret a => trivial
  | call c k ih => exact ⟨trivial, fun r => ih r _⟩
  | unfinished => trivial

theorem Holds.pure' {a : α} : Holds K (pure a) := fun _ _ hk => hk

theorem Holds.throw' {e : Exc} : Holds K (throw e : Act SwitchResult α) := fun _ _ hk => hk

theorem Holds.result' {x : Except Exc α} : Holds K (result x) := fun _ _ hk => hk

theorem Holds.modify' {f : SwitchResult → SwitchResult} (hf : ∀ item, K item → K (f item)) :
    Holds K (modify f) := fun item _ hk => hf item hk

theorem Holds.bind' {x : Act SwitchResult α} {f : α → Act SwitchResult β} (hx : Holds K x)
    (hf : ∀ a, Holds K (f a)) : Holds K (x >>= f) := by
  intro item h hk
  rw [wpy_bind]
  refine wpy_post (hx item h hk) fun r item' t hk' => ?_
  cases r with
  | ok a => exact hf a item' _ hk'
  | error e => exact hk'

theorem Holds.attempt' {x : Act SwitchResult α} (hx : Holds K x) : Holds K (attempt x) := by
  intro item h hk
  rw [wpy_attempt]
  exact hx item h hk

theorem Holds.handle' {x : Act SwitchResult α} {f : Exc → Act SwitchResult α} (hx : Holds K x)
    (hf : ∀ e, Holds K (f e)) : Holds K (handle x f) := by
  intro item h hk
  rw [wpy_handle]
  refine wpy_post (hx item h hk) fun r item' t hk' => ?_
  cases r with
  | ok a => exact hk'
  | error e => exact hf e item' _ hk'

theorem Holds.within' {enter : Act SwitchResult γ} {leave : γ → Option Exc → Act SwitchResult Unit}
    {body : γ → Act SwitchResult α} (he : Holds K enter) (hl : ∀ c e, Holds K (leave c e))
    (hb : ∀ c, Holds K (body c)) : Holds K (within enter leave body) := by
  intro item h hk
  rw [wpy_within]
  refine wpy_post (he item h hk) fun c item₁ t hk₁ => ?_
  cases c with
  | error e => exact hk₁
  | ok c =>
    rw [either_ok]
    refine wpy_post (hb c item₁ _ hk₁) fun r item₂ u hk₂ => ?_
    exact wpy_post (hl c _ item₂ _ hk₂) fun _ _ _ hk₃ => hk₃

theorem Holds.alone' {τ : Type} {t : τ} {x : Act τ α} : Holds K (alone t x) := by
  intro item h hk
  rw [wpy_alone]
  exact wpy_post (wpy_true x t h) fun _ _ _ _ => hk

theorem Holds.ask' {c : Call} {view : Call.Ans c → Except StdError α} : Holds K (ask c view) :=
  fun _ _ hk => ⟨trivial, fun _ => hk⟩

/-- A function with `_json_progress` as its callback changes the record by its reports only. -/
theorem Holds.observed' {x : Act Log α} (hp : ∀ item p, K item → K (jsonProgress item p)) :
    Holds K (observed x) := by
  intro item h hk
  have hfold : ∀ (log : Log) (item : SwitchResult), K item → K (log.foldl jsonProgress item) := by
    intro log
    induction log with
    | nil => exact fun _ hk => hk
    | cons p log ih => exact fun item hk => ih _ (hp item p hk)
  refine (wp_bind _ _ (x.prog []) h).mpr ?_
  exact wp_mono (wpy_true x [] h) (fun _ _ hg => hg) fun p _ _ => hfold p.2 item hk

theorem Holds.writeOutput' {text : Text} {path : Option Text} : Holds K (writeOutput text path) := by
  cases path with
  | none => exact .pure'
  | some path => exact .within' .ask' (fun _ _ => .ask') fun _ => .ask'

end holds

/-- A record that is not one of a certificate that is due. -/
def NotDue (item : SwitchResult) : Prop := item.outcome ≠ .attentionDue

theorem jsonFailureOutcome_isFailure (item : SwitchResult) :
    (jsonFailureOutcome item).isFailure = true := by
  simp only [jsonFailureOutcome]
  split
  · rfl
  · split <;> rfl

theorem notDue_jsonProgress (item : SwitchResult) (p : Progress) (h : NotDue item) :
    NotDue (jsonProgress item p) := by
  cases p <;> exact h

theorem notDue_of_isFailure {item : SwitchResult} (h : item.outcome.isFailure = true) :
    NotDue item := by
  intro hdue
  rw [hdue] at h
  cases h

/-- Whatever the exception, the record is one of a failure. -/
theorem jsonFailure_isFailure (item : SwitchResult) (e : Exc) :
    (jsonFailure item e).outcome.isFailure = true := by
  simp only [jsonFailure]
  repeat' split
  all_goals first | rfl | exact jsonFailureOutcome_isFailure item

theorem notDue_jsonFailure (item : SwitchResult) (e : Exc) : NotDue (jsonFailure item e) :=
  notDue_of_isFailure (jsonFailure_isFailure item e)

theorem notDue_explicitFailure (operation : Operation) (item : SwitchResult) :
    NotDue (explicitFailure operation item) := by
  have hout := jsonFailureOutcome_isFailure item
  have hgeneral : ∀ (reason : Reason) (message message' : Text) (recovery : Bool),
      NotDue (if jsonFailureOutcome item == .failurePreAttempt then
        { item with
          outcome := jsonFailureOutcome item, reasonCode := some reason
          message := message, manualRecoveryRequired := recovery }
        else { item with
          outcome := jsonFailureOutcome item, reasonCode := some reason
          message := message', manualRecoveryRequired := true }) := by
    intro reason message message' recovery
    split <;> exact notDue_of_isFailure hout
  cases operation with
  | generateCsr name csr csrOutput =>
    simp only [explicitFailure]
    split
    · exact notDue_of_isFailure rfl
    · exact hgeneral _ _ _ _
  | signCsr name csr opnsense certificateOutput => exact notDue_jsonFailure item _
  | install name csr opnsense ca certificatePem => exact hgeneral _ _ _ _
  | inspect => exact hgeneral _ _ _ _
  | retrieveCsr name csr csrOutput => exact hgeneral _ _ _ _
  | renewNow csr opnsense ca => exact hgeneral _ _ _ _
  | renewDue csr opnsense ca => exact hgeneral _ _ _ _

theorem notDue_jsonEscape (e : Exc) (item : SwitchResult) (h : NotDue item) :
    NotDue (jsonEscape e item) := by
  simp only [jsonEscape]
  split
  · simp only [lockReleaseFailure]
    split
    · exact h
    · exact notDue_of_isFailure (jsonFailureOutcome_isFailure item)
  · split
    · exact notDue_of_isFailure rfl
    · exact notDue_jsonFailure item e

section drivers
variable {P : Platform} {switch : Switch} {credentials : Credentials} {csr : CsrSettings}
  {opnsense : OpnsenseSettings} {ca : VerificationCaSnapshot}

theorem holds_jsonRenew {warningDays : Option Nat} :
    Holds NotDue (jsonRenew P switch credentials csr opnsense ca warningDays) := by
  apply Holds.bind'
  · exact .modify' fun _ h => h
  · intro _
    apply Holds.bind'
    · exact .attempt' (.observed' notDue_jsonProgress)
    · intro r
      cases r with
      | error e => exact .modify' fun item _ => notDue_jsonFailure item e
      | ok a => exact .modify' fun item _ => by simp [NotDue]

theorem holds_jsonGenerate {name : Text} {csrOutput : Option Text} :
    Holds NotDue (jsonGenerate P switch credentials name csr csrOutput) := by
  apply Holds.bind'
  · exact .modify' fun _ h => h
  · intro _
    apply Holds.bind' (.observed' notDue_jsonProgress)
    intro csrPem
    apply Holds.bind'
    · exact .modify' fun item h => notDue_jsonProgress item _ h
    · intro _
      exact .bind' .writeOutput' fun _ => .modify' fun item _ => by simp [NotDue]

theorem holds_jsonRetrieve {name : Text} {csrOutput : Option Text} :
    Holds NotDue (jsonRetrieve P switch credentials name csr csrOutput) := by
  apply Holds.bind'
  · exact .modify' fun item h => notDue_jsonProgress item _ h
  · intro _
    apply Holds.bind' (.observed' notDue_jsonProgress)
    intro csrPem
    apply Holds.bind'
    · exact .modify' fun item h => notDue_jsonProgress item _ h
    · intro _
      exact .bind' .writeOutput' fun _ => .modify' fun item _ => by simp [NotDue]

theorem holds_jsonSign {name certificateOutput : Text} :
    Holds NotDue (jsonSign P switch credentials name csr opnsense certificateOutput) := by
  apply Holds.bind'
  · exact .modify' fun _ h => h
  intro _
  apply Holds.bind' (.observed' notDue_jsonProgress)
  intro certificatePem
  apply Holds.bind'
  · exact .modify' fun _ h => h
  intro _
  apply Holds.bind' .result'
  intro certificate
  apply Holds.bind'
  · exact .modify' fun _ h => h
  intro _
  apply Holds.bind' (.attempt' .writeOutput')
  intro written
  cases written with
  | error e =>
    by_cases he : e.isOsError = true
    · simp only [he, if_true]
      exact .bind' (.modify' fun item _ => by simp [NotDue]) fun _ => .pure'
    · simp only [he]
      exact .throw'
  | ok u => exact .bind' (.modify' fun item _ => by simp [NotDue]) fun _ => .pure'

theorem holds_jsonInstall {name certificatePem : Text} :
    Holds NotDue (jsonInstall P switch credentials name csr opnsense ca certificatePem) := by
  apply Holds.bind'
  · exact .modify' fun _ h => h
  intro _
  apply Holds.bind' (.observed' notDue_jsonProgress)
  intro certificate
  apply Holds.bind'
  · exact .modify' fun item h => notDue_jsonProgress item _ h
  intro _
  apply Holds.bind'
  · exact .modify' fun _ h => h
  intro _
  apply Holds.bind'
  · apply Holds.handle' (.observed' notDue_jsonProgress)
    intro e
    split <;> exact .throw'
  intro _
  apply Holds.bind'
  · exact .modify' fun item h => notDue_jsonProgress item _ h
  · exact fun _ => .modify' fun item _ => by simp [NotDue]

theorem holds_completing {x : Act SwitchResult Unit} (hx : Holds NotDue x) :
    Holds NotDue (completing x) :=
  .bind' hx fun _ => .modify' fun _ h => h

theorem holds_jsonExplicitBody (operation : Operation) :
    Holds NotDue (jsonExplicitBody P switch credentials operation) := by
  cases operation with
  | generateCsr name csr csrOutput => exact holds_completing holds_jsonGenerate
  | retrieveCsr name csr csrOutput => exact holds_completing holds_jsonRetrieve
  | signCsr name csr opnsense certificateOutput =>
    apply Holds.bind' holds_jsonSign
    intro written
    cases written with
    | true => exact holds_completing .pure'
    | false => exact .pure'
  | install name csr opnsense ca certificatePem => exact holds_completing holds_jsonInstall
  | inspect => exact .pure'
  | renewNow csr opnsense ca => exact .pure'
  | renewDue csr opnsense ca => exact .pure'

theorem holds_jsonExplicitError (operation : Operation) (e : Exc) :
    Holds NotDue (jsonExplicitError operation e) := by
  simp only [jsonExplicitError]
  split
  · exact .modify' fun item _ => notDue_jsonFailure item e
  · split
    · exact .modify' fun item _ => notDue_explicitFailure operation item
    · exact .throw'

theorem holds_jsonInspect {warningDays : Nat} {due : Act SwitchResult Unit} (hdue : Holds NotDue due) :
    Holds NotDue (jsonInspect switch credentials warningDays due) := by
  apply Holds.bind'
  · exact .modify' fun _ h => h
  intro _
  apply Holds.bind' .alone'
  intro status
  cases status with
  | error => exact .modify' fun _ h => h
  | ok => exact .modify' fun item _ => by simp [NotDue]
  | renewalDue => exact .bind' (.modify' fun _ h => h) fun _ => hdue
  | expired => exact .bind' (.modify' fun _ h => h) fun _ => hdue

theorem holds_jsonProcessTarget {warningDays : Nat} {operation : Operation}
    (hop : operation ≠ .inspect) :
    Holds NotDue (jsonProcessTarget P switch credentials warningDays operation) := by
  have hexplicit : Holds NotDue (handle (jsonExplicitBody P switch credentials operation)
      (jsonExplicitError operation)) :=
    .handle' (holds_jsonExplicitBody operation) (holds_jsonExplicitError operation)
  cases operation with
  | inspect => exact absurd rfl hop
  | renewDue csr opnsense ca => exact holds_jsonInspect holds_jsonRenew
  | renewNow csr opnsense ca => exact holds_jsonRenew
  | generateCsr name csr csrOutput => exact hexplicit
  | retrieveCsr name csr csrOutput => exact hexplicit
  | signCsr name csr opnsense certificateOutput => exact hexplicit
  | install name csr opnsense ca certificatePem => exact hexplicit

/-- Only an inspection ends a switch with `attention_due`. -/
theorem holds_jsonSwitch {configFile : Text} {warningDays : Nat} {operation : Operation}
    (hop : operation ≠ .inspect) :
    Holds NotDue (jsonSwitch P configFile warningDays operation switch) := by
  apply Holds.bind' (.attempt' .alone')
  intro loaded
  cases loaded with
  | error e => exact .modify' fun _ h => h
  | ok credentials =>
    apply Holds.handle'
    · by_cases hl : operation.locked = true
      · simp only [hl, if_true]
        exact .within' .alone' (fun _ _ => .alone') fun _ => holds_jsonProcessTarget hop
      · simp only [hl]
        exact holds_jsonProcessTarget hop
    · exact fun e => .modify' fun item h => notDue_jsonEscape e item h

end drivers

/-! ## A run -/

/-- The records of the switches, when the run is not an inspection. -/
theorem notDue_jsonSwitches {σ : Type} {P : Platform} {configFile : Text} {warningDays : Nat}
    {operation : Operation} (hop : operation ≠ .inspect) (switches : List Switch) :
    ∀ (s : σ) (h : History World),
      wpy (fun _ _ => True) (jsonSwitches P configFile warningDays operation switches)
        (fun r _ _ => either (fun results => ∀ item ∈ results, NotDue item) (fun _ => True) r) s h := by
  induction switches with
  | nil =>
    intro s h item hitem
    cases hitem
  | cons switch switches ih =>
    intro s h
    have hswitch : wpy (fun _ _ => True) (recording { target := switch.name }
        (jsonSwitch P configFile warningDays operation switch) : Act σ SwitchResult)
        (fun r _ _ => either NotDue (fun _ => True) r) s h := by
      refine (wp_bind _ _ _ h).mpr ?_
      have hrecord : NotDue { target := switch.name } := by simp [NotDue]
      refine wp_mono (holds_jsonSwitch hop _ h hrecord) (fun _ _ hg => hg) fun p t hp => ?_
      obtain ⟨r, item⟩ := p
      cases r with
      | ok u => exact hp
      | error e => trivial
    refine wpy_seq hswitch (fun item s' t hitem => ?_) fun e s' t _ => trivial
    refine wpy_seq (ih s' _) (fun items s'' t' hitems => ?_) fun e s'' t' _ => trivial
    intro r hr
    rw [List.mem_cons] at hr
    obtain rfl | hr := hr
    · exact hitem
    · exact hitems r hr

/-- An inspection of `siteSwitch`, whose certificate is due. -/
def inspectPlatform : Platform :=
  { sitePlatform certificatePemText with
    tomlLoads := fun _ => some [("switches", .array [.table
      [("name", .string "lab"), ("host", .string "switch.example"), ("username", .string "admin")]]),
      ("ssh", .table [("known_hosts_file", .string "/known_hosts")])] }

def siteDue : RunResult where
  operation := "inspect"
  stage := .configuration
  results := [{
    target := "lab", outcome := .attentionDue, stage := .decision, renewalDue := some true
    message := "Certificate renewal attention is due." }]

end ArubaCertRenewer
