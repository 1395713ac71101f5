import ArubaCertRenewer.Gate

/- Computations of which every call is made where it may be, whatever they assign.

   `Obeys G` is about a condition on the history before a call, `Makes K` about a
   kind of calls. `Only K` also says that the variables are as they were; these
   leave them open, so they hold of functions that keep variables of their own. -/
namespace ArubaCertRenewer
open PyText Effects Effects.Py

/-- Every call is made where `G` allows it. -/
def Obeys {σ α : Type} (G : History World → Call → Prop) (x : Act σ α) : Prop :=
  ∀ s h, wpy G x (fun _ _ _ => True) s h

namespace Obeys
variable {σ τ α β γ : Type} {G : History World → Call → Prop}

theorem pure' (a : α) : Obeys G (pure a : Act σ α) := fun _ _ => trivial

theorem throw' (e : Exc) : Obeys G (throw e : Act σ α) := fun _ _ => trivial

theorem result' (x : Except Exc α) : Obeys G (result x : Act σ α) := fun _ _ => trivial

theorem raiseIf' (b : Bool) (e : Exc) : Obeys G (raiseIf b e : Act σ Unit) := by
  cases b
  · exact pure' ()
  · exact throw' e

theorem get' : Obeys G (get : Act σ σ) := fun _ _ => trivial

theorem set' (s : σ) : Obeys G (set s : Act σ PUnit) := fun _ _ => trivial

theorem modify' (f : σ → σ) : Obeys G (modify f : Act σ PUnit) := fun _ _ => trivial

theorem assign' (f : τ → τ) : Obeys G (assign f : Act (σ × τ) Unit) := fun _ _ => trivial

theorem locals' : Obeys G (locals : Act (σ × τ) τ) := fun _ _ => trivial

theorem call {c : Call} (hc : ∀ h, G h c) : Obeys G (perform (I := World) c : Act σ (Call.Ans c)) :=
  fun _ h => ⟨hc h, fun _ => trivial⟩

theorem ask' {c : Call} {view : Call.Ans c → Except StdError α} (hc : ∀ h, G h c) :
    Obeys G (ask c view : Act σ α) := fun _ h => ⟨hc h, fun _ => trivial⟩

theorem bind' {x : Act σ α} {f : α → Act σ β} (hx : Obeys G x) (hf : ∀ a, Obeys G (f a)) :
    Obeys G (x >>= f) := fun s h =>
  wpy_seq (hx s h) (fun a s' _ _ => hf a s' _) fun _ _ _ _ => trivial

theorem any {x : Act σ α} : Obeys (fun _ _ => True) x := fun _ _ => wpy_of_ends fun _ _ _ _ => trivial

theorem unfinished : Obeys G (ofProg fun _ => .unfinished : Act σ α) := fun _ _ => trivial

theorem attempt' {x : Act σ α} (hx : Obeys G x) : Obeys G (attempt x) :=
  fun s h => wpy_attempt.mpr (hx s h)

theorem handle' {x : Act σ α} {f : Exc → Act σ α} (hx : Obeys G x) (hf : ∀ e, Obeys G (f e)) :
    Obeys G (handle x f) := by
  intro s h
  refine wpy_handle.mpr (wpy_post (hx s h) fun r s' t _ => ?_)
  cases r with
  | ok a => trivial
  | error e => exact hf e s' _

theorem andFinally' {x : Act σ α} {f : Act σ Unit} (hx : Obeys G x) (hf : Obeys G f) :
    Obeys G (andFinally x f) := fun s h =>
  wpy_andFinally.mpr (wpy_post (hx s h) fun _ s' _ _ => hf s' _)

theorem within' {enter : Act σ γ} {leave : γ → Option Exc → Act σ Unit} {body : γ → Act σ α}
    (he : Obeys G enter) (hl : ∀ c f, Obeys G (leave c f)) (hb : ∀ c, Obeys G (body c)) :
    Obeys G (within enter leave body) := by
  intro s h
  refine wpy_within.mpr (wpy_post (he s h) fun c s₁ t _ => ?_)
  cases c with
  | error e => trivial
  | ok c =>
    rw [either_ok]
    refine wpy_post (hb c s₁ _) fun r s₂ u _ => ?_
    exact wpy_post (hl c _ s₂ _) fun _ _ _ _ => trivial

theorem withVars' {t : τ} {x : Act (σ × τ) α} (hx : Obeys G x) : Obeys G (withVars t x) :=
  fun s h => wpy_withVars.mpr (hx (s, t) h)

theorem outer' {x : Act σ α} (hx : Obeys G x) : Obeys G (outer x : Act (σ × τ) α) :=
  fun _ h => wpy_outer.mpr (hx _ h)

theorem alone' {t : τ} {x : Act τ α} (hx : Obeys G x) : Obeys G (alone t x : Act σ α) :=
  fun _ h => wpy_alone.mpr (hx t h)

theorem mono {G' : History World → Call → Prop} {x : Act σ α} (hx : Obeys G x)
    (hG : ∀ h c, G h c → G' h c) : Obeys G' x :=
  fun s h => wpy_mono (hx s h) (fun _ => hG _) fun _ _ _ _ => trivial

theorem ended {x : Act σ α} {s : σ} {h : History World} {Q : Except Exc α → σ → History World → Prop}
    (hx : Obeys G x) (hq : ∀ r s' h', Ends x s h r s' h' → Q r s' h') : wpy G x Q s h :=
  wp_ended (hx s h) fun p h' hr => hq p.1 p.2 h' hr

/-- What is promised under no obligation is promised under one that is met. -/
theorem promise {x : Act σ α} {s : σ} {h : History World} {Q : Except Exc α → σ → History World → Prop}
    (hx : Obeys G x) (hq : wpy (fun _ _ => True) x Q s h) : wpy G x Q s h :=
  wp_mono (wp_and (hx s h) hq) (fun _ _ hg => hg.1) fun _ _ hq => hq.2

/-- An obligation may be met where it stands on no condition. -/
theorem imp {x : Act σ α} {J : History World → Prop} (hx : Obeys G x) : Obeys (fun h c => J h → G h c) x :=
  Obeys.mono hx fun _ _ hc _ => hc

end Obeys

section results
variable {σ α γ : Type} {G : History World → Call → Prop} {Q : α → History World → Prop} {s : σ}
  {h : History World}

/-- What a body's result says of the history, the result of its context says, where leaving keeps it. -/
theorem wpy_within_ok {enter : Act σ γ} {leave : γ → Option Exc → Act σ Unit} {body : γ → Act σ α}
    (he : Obeys G enter) (hl : ∀ c f, Obeys G (leave c f))
    (hkeep : ∀ c f a s h, Q a h → wpy (fun _ _ => True) (leave c f) (fun _ _ h' => Q a h') s h)
    (hb : ∀ c s h, wpy G (body c) (fun r _ h' => ∀ a, r = .ok a → Q a h') s h) :
    wpy G (within enter leave body) (fun r _ h' => ∀ a, r = .ok a → Q a h') s h := by
  refine wpy_within.mpr (wpy_post (he s h) fun c s₁ t _ => ?_)
  cases c with
  | error e => exact fun _ hno => by cases hno
  | ok c =>
    rw [either_ok]
    refine wpy_post (hb c s₁ _) fun r s₂ u hr => ?_
    cases r with
    | error e =>
      refine wpy_post (hl c _ s₂ _) fun v _ _ _ _ ha => ?_
      cases v <;> cases ha
    | ok a =>
      refine wpy_post ((hl c _).promise (hkeep c _ a s₂ _ (hr a rfl))) fun v _ _ hq a' ha => ?_
      cases v with
      | error e => cases ha
      | ok _ => exact Except.ok.inj ha ▸ hq

/-- A step whose result does not matter to the rest's. -/
theorem wpy_then_ok {x : Act σ γ} {f : γ → Act σ α} (hx : Obeys G x)
    (hf : ∀ c s h, wpy G (f c) (fun r _ h' => ∀ a, r = .ok a → Q a h') s h) :
    wpy G (x >>= f) (fun r _ h' => ∀ a, r = .ok a → Q a h') s h :=
  wpy_seq (hx s h) (fun c s' _ _ => hf c s' _) fun _ _ _ _ _ hno => by cases hno

end results

/-- Every call is of the kind `K`. -/
abbrev Makes {σ α : Type} (K : Call → Prop) (x : Act σ α) : Prop := Obeys (fun _ c => K c) x

namespace Makes
variable {σ α : Type} {K : Call → Prop}

/-- A run adds only events of the kind. -/
theorem ends {x : Act σ α} {s s' : σ} {h h' : History World} {r : Except Exc α} (hx : Makes K x)
    (hrun : Ends x s h r s' h') : ∃ t, h' = t ++ h ∧ ∀ ev ∈ t, K ev.call :=
  (wp_runs (wp_calls (hx s h)) hrun).2

/-- A computation of the kind may run wherever its calls are allowed. -/
theorem wpy_of {x : Act σ α} {s : σ} {h : History World} {G : History World → Call → Prop}
    {Q : Except Exc α → σ → History World → Prop} (hx : Makes K x)
    (hG : ∀ t c, (∀ ev ∈ t, K ev.call) → K c → G (t ++ h) c)
    (hQ : ∀ r s' t, (∀ ev ∈ t, K ev.call) → Q r s' (t ++ h)) : wpy G x Q s h := by
  refine wp_mono (wp_calls (hx s h)) ?_ ?_
  · intro t c hg
    obtain ⟨hc, t', ht, hk⟩ := hg
    obtain rfl := List.append_cancel_right ht
    exact hG t c hk hc
  · intro q t hq
    obtain ⟨-, t', ht, hk⟩ := hq
    obtain rfl := List.append_cancel_right ht
    exact hQ q.1 q.2 t hk

/-- Calls of the kind keep what each of them keeps. -/
theorem keeping {x : Act σ α} {s : σ} {h : History World} {G : History World → Call → Prop}
    {J : History World → Prop} (hx : Makes K x) (hG : ∀ h c, K c → G h c)
    (hJ : ∀ h c r, J h → K c → J (⟨c, r⟩ :: h)) (h₀ : J h) : wpy G x (fun _ _ h' => J h') s h :=
  wp_mono (wp_invariant (hx s h) hJ h₀) (fun _ c hc => hG _ c hc.2) fun _ _ hq => hq.1

/-- What is obliged where `J` holds is obliged of calls that keep `J`. -/
theorem under {x : Act σ α} {s : σ} {h : History World} {G : History World → Call → Prop}
    {Q : Except Exc α → σ → History World → Prop} {J : History World → Prop} (hx : Makes K x)
    (hw : wpy (fun h c => J h → G h c) x Q s h) (hJ : ∀ h c r, J h → K c → J (⟨c, r⟩ :: h)) (h₀ : J h) :
    wpy G x (fun r s' h' => Q r s' h' ∧ J h') s h :=
  wp_mono (wp_and hw (wp_invariant (hx s h) hJ h₀)) (fun _ _ hg => hg.1 hg.2.1) fun _ _ hq => ⟨hq.1, hq.2.1⟩

end Makes

theorem Only.makes {σ α : Type} {K : Call → Prop} {x : Act σ α} (hx : Only K x) : Makes K x :=
  fun s h => wpy_post (hx s h) fun _ _ _ _ => trivial

/-- No call carries a mark. -/
abbrev Markless {σ α : Type} (x : Act σ α) : Prop := Makes (fun c => c.mark? = none) x

/-- A run without marks. -/
theorem Markless.ends {σ α : Type} {x : Act σ α} {s s' : σ} {h h' : History World} {r : Except Exc α}
    (hx : Markless x) (hrun : Ends x s h r s' h') : ∃ t, h' = t ++ h ∧ marks t = [] := by
  obtain ⟨t, rfl, ht⟩ := Makes.ends hx hrun
  exact ⟨t, rfl, List.filterMap_eq_nil_iff.mpr ht⟩

end ArubaCertRenewer
