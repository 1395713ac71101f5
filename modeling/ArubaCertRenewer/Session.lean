import ArubaCertRenewer.Gate

/- The rules of the SSH layer: reads within a budget, and the connection.

   `closed` says how a connection ends once its body ended: what closing it and
   removing its known-hosts snapshot answered, and the exception that then
   leaves it. -/
namespace ArubaCertRenewer
open PyText Effects Effects.Py

section budgets
variable {σ α : Type} {G : History World → Call → Prop} {s : σ} {h : History World}

/-- A context may end a body otherwise than the body ended, with a package's exception. -/
def Overridden (r r' : Except Exc α) : Prop := r' = r ∨ ∃ e, r' = .error (.std e)

theorem Overridden.refl (r : Except Exc α) : Overridden r r := .inl rfl

theorem Overridden.std (r : Except Exc α) (e : StdError) : Overridden r (.error (.std e)) :=
  .inr ⟨e, rfl⟩

theorem Overridden.ok {r : Except Exc α} {a : α} (ho : Overridden r (.ok a)) : r = .ok a := by
  obtain h | ⟨e, h⟩ := ho
  · exact h.symm
  · cases h

theorem wpy_withReadBudget {limit : Nat} {command : Text} {extra : Nat} {body : Act σ α}
    {Q : Except Exc α → σ → History World → Prop} (hG : Lenient G)
    (hfail : ∀ e t, marks t = [] → Q (.error (.std e)) s (t ++ h))
    (hbody : ∀ t, marks t = [] → wpy G body
      (fun r s' h' => ∀ r' u, Overridden r r' → marks u = [] → Q r' s' (u ++ h')) s (t ++ h)) :
    wpy G (withReadBudget limit command extra body) Q s h := by
  refine wpy_call.mpr ⟨hG _ _ rfl rfl, fun prompt => ?_⟩
  refine wpy_within.mpr (wpy_ask.mpr ⟨hG _ _ rfl rfl, fun enter => ?_⟩)
  cases enter with
  | error e => exact hfail e [_, _] rfl
  | ok _ =>
    rw [liftStd_ok, either_ok]
    refine wpy_post (hbody [⟨.enterReadBudget _, .ok ()⟩, ⟨.basePrompt, prompt⟩] rfl) ?_
    intro r s' t hq
    refine wpy_ask.mpr ⟨hG _ _ rfl rfl, fun leave => ?_⟩
    cases leave with
    | ok _ => exact hq _ [_] (.refl _) rfl
    | error e => exact hq _ [_] (.std _ e) rfl

/-- One call within a read budget; if it failed, it may have been made or not. -/
theorem wpy_budgeted {limit : Nat} {command : Text} {extra : Nat} {c : Call}
    {view : Call.Ans c → Except StdError α} {Q : Except Exc α → σ → History World → Prop}
    (hG : Lenient G) (hc : ∀ t, marks t = [] → G (t ++ h) c)
    (hok : ∀ a r t, view r = .ok a → ⟨c, r⟩ ∈ t → marks t = c.mark?.toList → Q (.ok a) s (t ++ h))
    (herr : ∀ e t, (marks t = [] ∨ marks t = c.mark?.toList) → Q (.error e) s (t ++ h)) :
    wpy G (withReadBudget limit command extra (ask c view)) Q s h := by
  refine wpy_withReadBudget hG (fun e t ht => herr _ t (.inl ht)) fun t ht => ?_
  refine wpy_ask.mpr ⟨hc t ht, fun r r' u ho hu => ?_⟩
  have hm : marks (u ++ ⟨c, r⟩ :: t) = c.mark?.toList := by
    rw [marks_append, hu, marks_cons, ht, List.nil_append, List.append_nil]
  rw [← List.cons_append, ← List.append_assoc]
  cases r' with
  | error x => exact herr x _ (.inr hm)
  | ok a =>
    cases hv : view r with
    | error e => simpa [hv] using ho.ok
    | ok a' =>
      obtain rfl : a' = a := by simpa [hv] using ho.ok
      exact hok _ r _ hv (by simp) hm

theorem wpy_sendCommand {command : Text} {limit : Nat} {Q : Except Exc Text → σ → History World → Prop}
    (hG : Lenient G) (hm : commandMark command = none)
    (hok : ∀ out t, ⟨.sendCommand command, .ok out⟩ ∈ t → marks t = [] → Q (.ok out) s (t ++ h))
    (herr : ∀ e t, marks t = [] → Q (.error e) s (t ++ h)) :
    wpy G (sendCommand command limit) Q s h := by
  have hc : (Call.sendCommand command).mark? = none := hm
  refine wpy_budgeted hG (fun t _ => hG _ _ rfl hc) ?_ ?_
  · rintro out r t rfl hr ht
    exact hok out t hr (by rw [ht, hc]; rfl)
  · intro e t ht
    refine herr _ t (ht.elim id fun ht => ?_)
    rw [ht, hc]
    rfl

/-- A command that makes a mark. -/
theorem wpy_sendCommandTiming {command : Text} {m : Mark} {limit : Nat}
    {Q : Except Exc Text → σ → History World → Prop} (hG : Lenient G)
    (hm : commandMark command = some m)
    (hc : ∀ t, marks t = [] → G (t ++ h) (.sendCommandTiming command))
    (hok : ∀ out t, ⟨.sendCommandTiming command, .ok out⟩ ∈ t → marks t = [m] →
      Q (.ok out) s (t ++ h))
    (herr : ∀ e t, Q (.error e) s (t ++ h)) :
    wpy G (sendCommandTiming command limit) Q s h := by
  have hm' : (Call.sendCommandTiming command).mark? = some m := hm
  refine wpy_budgeted hG hc ?_ fun e t _ => herr e t
  rintro out r t rfl hr ht
  exact hok out t hr (by rw [ht, hm']; rfl)

/-! Configuration mode. -/

theorem silent_withReadBudget {limit : Nat} {command : Text} {extra : Nat}
    {body : Act σ α} (hb : Silent body) : Silent (withReadBudget limit command extra body) :=
  .bind' (.call ⟨rfl, rfl⟩) fun _ => .within' (.ask' ⟨rfl, rfl⟩) (fun _ _ => .ask' ⟨rfl, rfl⟩) fun _ => hb

theorem silent_configMode : Silent (configMode : Act σ Unit) :=
  silent_withReadBudget (.ask' ⟨rfl, rfl⟩)

theorem silent_exitConfigMode : Silent (exitConfigMode : Act σ Unit) :=
  silent_withReadBudget (.ask' ⟨rfl, rfl⟩)

end budgets

/-! ## The CSR on the switch -/

section csr
variable {σ : Type} {G : History World → Call → Prop} {s : σ} {h : History World}

theorem commandMark_summary : commandMark summaryCommand = none := rfl

theorem commandMark_detail (certificateName : Text) :
    commandMark (detailCommand certificateName) = none := rfl

/-- The CSR of the name was read from the switch and passed its checks. -/
def CsrRead (P : Platform) (switch : Switch) (certificateName : Text) (settings : CsrSettings)
    (csrPem : Text) (csr : Csr) (h : History World) : Prop :=
  ∃ out, ⟨.sendCommand (detailCommand certificateName), .ok out⟩ ∈ h ∧
    extractCsrPem out = .ok csrPem ∧ validateCsrPem P csrPem switch settings = .ok csr

theorem CsrRead.mono {P : Platform} {switch : Switch} {certificateName csrPem : Text}
    {settings : CsrSettings} {csr : Csr} {t t' : History World}
    (hr : CsrRead P switch certificateName settings csrPem csr t) (hs : t ⊆ t') :
    CsrRead P switch certificateName settings csrPem csr t' := by
  obtain ⟨out, hm, hc⟩ := hr
  exact ⟨out, hs hm, hc⟩

theorem wpy_retrieveAndValidateCsr {P : Platform} {switch : Switch} {certificateName : Text}
    {settings : CsrSettings} {Q : Except Exc Text → σ → History World → Prop} (hG : Lenient G)
    (hok : ∀ csrPem csr t, marks t = [] → CsrRead P switch certificateName settings csrPem csr t →
      Q (.ok csrPem) s (t ++ h))
    (herr : ∀ e t, marks t = [] → Q (.error e) s (t ++ h)) :
    wpy G (retrieveAndValidateCsr P switch certificateName settings) Q s h := by
  rw [retrieveAndValidateCsr, wpy_bind]
  refine wpy_sendCommand hG (commandMark_detail _) ?_ herr
  intro csrOutput t hp ht
  rw [either_ok]
  refine wpy_bind_result (fun _ _ => ?_) fun e _ => herr e t ht
  refine wpy_bind_result (fun csrPem hx => ?_) fun e _ => herr e t ht
  refine wpy_bind_result (fun csr hv => ?_) fun e _ => herr e t ht
  exact hok csrPem csr t ht ⟨csrOutput, hp, hx, hv⟩

end csr

/-! ## The connection -/

section connection
variable {σ α : Type}

theorem silent_osErrorAs {e : Exc} {x : Act σ α} (hx : Silent x) : Silent (osErrorAs e x) :=
  hx.handle' fun _ => .throw' _

theorem silent_readSecureFile {path sourceName : Text} {limit : Nat} :
    Silent (readSecureFile path sourceName limit : Act σ Bytes) :=
  .within' (.ask' ⟨rfl, rfl⟩) (fun _ _ => .ask' ⟨rfl, rfl⟩) fun _ => .ask' ⟨rfl, rfl⟩

theorem silent_readKnownHosts {switch : Switch} : Silent (readKnownHosts switch : Act σ Bytes) :=
  .bind' (silent_osErrorAs silent_readSecureFile) fun _ =>
    .bind' (.raiseIf' _ _) fun _ => .pure' _

/-- How the removal of the snapshot directory ends. -/
def removed (inFlight : Option Exc) : Except StdError Unit → Except Exc Unit
  | .ok _ => .ok ()
  | .error e =>
    if e.os.isSome then
      if inFlight.isNone then .error (valueError "SSH known_hosts snapshot could not be removed")
      else .ok ()
    else .error (.std e)

/-- How a connection ends: `x` is the answer to its closing, `y` that to the removal. -/
def closed (r : Except Exc α) (x y : Except StdError Unit) : Except Exc α :=
  let r := after (liftStd x) r
  after (removed (inFlight r) y) r

/-- Whether the end of a connection replaced the exception that was leaving it. -/
def Replaces (x y : Except StdError Unit) : Prop :=
  (∃ e, x = .error e) ∨ ∃ e, y = .error e ∧ e.os = none

theorem closed_of_replaces {r : Except Exc α} {x y : Except StdError Unit} (hxy : Replaces x y) :
    ∃ e, closed r x y = .error (.std e) := by
  unfold closed
  obtain ⟨e, rfl⟩ | ⟨e, rfl, he⟩ := hxy
  · rw [liftStd_error, after_error]
    cases y with
    | ok _ => exact ⟨e, rfl⟩
    | error e' =>
      cases hos : e'.os with
      | none => exact ⟨e', by simp [removed, hos]⟩
      | some o => exact ⟨e, by simp [removed, hos]⟩
  · exact ⟨e, by simp [removed, he]⟩

theorem closed_ok {a b : α} {x y : Except StdError Unit} (h : closed (.ok a) x y = .ok b) : a = b := by
  cases x with
  | error e =>
    rw [closed, liftStd_error, after_error] at h
    cases y with
    | ok _ => cases h
    | error e' => cases hos : e'.os <;> simp [removed, hos] at h
  | ok _ =>
    cases y with
    | ok _ => exact Except.ok.inj h
    | error e' => cases hos : e'.os <;> simp [closed, removed, hos] at h

/-- An exception that is leaving a connection does not turn into a result. -/
theorem closed_error (e : Exc) (x y : Except StdError Unit) :
    ∃ e', closed (α := α) (.error e) x y = .error e' := by
  cases hr : closed (α := α) (.error e) x y with
  | error e' => exact ⟨e', rfl⟩
  | ok a =>
    cases x <;> cases y <;> simp [closed, removed] at hr
    all_goals split at hr <;> cases hr

theorem closed_error_of_not_replaces {e : Exc} {x y : Except StdError Unit} (hxy : ¬Replaces x y) :
    closed (α := α) (.error e) x y = .error e := by
  obtain ⟨hx, hy⟩ := not_or.mp hxy
  cases x with
  | error e' => exact absurd ⟨e', rfl⟩ hx
  | ok _ =>
    cases y with
    | ok _ => rfl
    | error e' =>
      cases hos : e'.os with
      | none => exact absurd ⟨e', rfl, hos⟩ hy
      | some o => simp [closed, removed, hos]

variable {G : History World → Call → Prop} {s : σ} {h : History World}

theorem wpy_removeSnapshot {directory : Text} {f : Option Exc}
    {Q : Except Exc Unit → σ → History World → Prop} (hG : Lenient G)
    (hQ : ∀ y, Q (removed f y) s (⟨.rmtree directory, y⟩ :: h)) :
    wpy G (removeSnapshot directory f) Q s h := by
  refine wpy_handle.mpr (wpy_ask.mpr ⟨hG _ _ rfl rfl, fun y => ?_⟩)
  cases y with
  | ok u => exact hQ (.ok u)
  | error e =>
    have hy := hQ (.error e)
    rw [liftStd_error, either_error]
    by_cases hos : e.os.isSome = true
    · cases hf : f.isNone <;> simpa [Exc.isOsError, removed, hos, hf, raiseIf] using hy
    · simpa [Exc.isOsError, removed, hos] using hy

theorem wpy_sshConnection {switch : Switch} {credentials : Credentials} {body : Act σ α}
    {Q : Except Exc α → σ → History World → Prop} (hG : Lenient G)
    (hconnect : ∀ d t, marks t = [] → G (t ++ h) (.connect d))
    (hfail : ∀ e t, (marks t = [] ∨ marks t = [.connect]) → Q (.error e) s (t ++ h))
    (hbody : ∀ d t, marks t = [] → wpy G body (fun r s' h' => ∀ x y directory,
      Q (closed r x y) s' (⟨.rmtree directory, y⟩ :: ⟨.disconnect (inFlight r), x⟩ :: h')) s
        (⟨.connect d, .ok ()⟩ :: t ++ h)) :
    wpy G (sshConnection switch credentials body) Q s h := by
  rw [sshConnection, snapshotKnownHosts, wpy_bind]
  refine silent_readKnownHosts.wpy_of hG ?_
  rintro (e | contents) t ht
  · exact hfail e t (.inl ht)
  rw [either_ok]
  refine wpy_within.mpr (wpy_ask.mpr ⟨hG _ _ rfl rfl, ?_⟩)
  rintro (e | directory)
  · exact hfail _ (⟨.mkdtemp, .error e⟩ :: t) (.inl ht)
  rw [liftStd_ok, either_ok]
  have hleave : ∀ e t, (marks t = [] ∨ marks t = [.connect]) →
      wpy G (removeSnapshot directory (some e))
        (fun u s₃ h₃ => Q (after u (.error e)) s₃ h₃) s (t ++ h) := by
    intro e t ht
    refine wpy_removeSnapshot hG fun y => ?_
    have hm : marks (⟨.rmtree directory, y⟩ :: t) = [] ∨
        marks (⟨.rmtree directory, y⟩ :: t) = [.connect] := ht
    cases removed (some e) y with
    | ok _ => exact hfail e _ hm
    | error e' => exact hfail e' _ hm
  refine wpy_bind_ask (hG _ _ rfl rfl) ?_ fun r e _ => hleave _ (_ :: _ :: t) (.inl ht)
  intro r permissions _
  refine wpy_bind_raiseIf (fun _ => hleave _ (_ :: _ :: t) (.inl ht)) fun _ => ?_
  refine wpy_bind_ask (hG _ _ rfl rfl) ?_ fun r e _ => hleave _ (_ :: _ :: _ :: t) (.inl ht)
  intro r' _ _
  refine wpy_within.mpr (wpy_ask.mpr ⟨hconnect _ (_ :: _ :: _ :: t) ht, ?_⟩)
  rintro (e | _)
  · exact hleave _ (_ :: _ :: _ :: _ :: t) (.inr (by simpa [marks_cons, Call.mark?] using ht))
  rw [liftStd_ok, either_ok]
  refine wpy_post (hbody _ (_ :: _ :: _ :: t) ht) ?_
  intro r s' t' hq
  refine wpy_ask.mpr ⟨hG _ _ rfl rfl, fun x => ?_⟩
  exact wpy_removeSnapshot hG fun y => hq x y directory

/-- A connection as its caller sees it: it ends as its body did, or with an exception. -/
theorem wpy_connected {switch : Switch} {credentials : Credentials} {body : Act σ α}
    {Q : Except Exc α → σ → History World → Prop} (hG : Lenient G)
    (hconnect : ∀ d t, marks t = [] → G (t ++ h) (.connect d))
    (hfail : ∀ e t, (marks t = [] ∨ marks t = [.connect]) → Q (.error e) s (t ++ h))
    (hbody : ∀ d t, marks t = [] → wpy G body (fun r s' h' => ∀ r' u, marks u = [] →
      (∀ a, r' = .ok a → r = .ok a) → Q r' s' (u ++ h')) s (⟨.connect d, .ok ()⟩ :: t ++ h)) :
    wpy G (sshConnection switch credentials body) Q s h := by
  refine wpy_sshConnection hG hconnect hfail fun d t ht => ?_
  refine wpy_post (hbody d t ht) fun r s' t' hq x y directory => ?_
  refine hq (closed r x y) [_, _] rfl fun a ha => ?_
  cases r with
  | ok b => rw [closed_ok ha]
  | error e =>
    obtain ⟨e', he'⟩ := closed_error (α := α) e x y
    cases he'.symm.trans ha

end connection

end ArubaCertRenewer
