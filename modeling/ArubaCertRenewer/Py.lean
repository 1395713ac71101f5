import ArubaCertRenewer.Prog

/- Exceptions, variables and context managers over `Prog`.

   `Py I E σ α` runs from a value of the variables in scope (`σ`) and ends with
   a result or an exception, and with the variables as they were left: an
   exception does not undo an assignment. `withVars` opens a function's own
   variables, `outer` runs a callee that does not see them. `wpy` is `wp` at
   this type; each combinator has its rule. -/
namespace Effects

/-- A computation of an exception-throwing language with assignable variables. -/
abbrev Py (I : Interface) (E σ : Type) := ExceptT E (StateT σ (Prog I))

variable {I : Interface} {E σ τ α β γ : Type}

namespace Py

/-- The program a computation is, from given values of its variables. -/
def prog (x : Py I E σ α) (s : σ) : Prog I (Except E α × σ) := StateT.run (ExceptT.run x) s

def ofProg (p : σ → Prog I (Except E α × σ)) : Py I E σ α := ExceptT.mk fun s => p s

/-- Make a call that does not raise. -/
def perform (c : I.Call) : Py I E σ (I.Ans c) :=
  ofProg fun s => .call c fun r => .ret (.ok r, s)

def result (x : Except E α) : Py I E σ α := ofProg fun s => .ret (x, s)

def raiseIf (b : Bool) (e : E) : Py I E σ Unit := if b then throw e else pure ()

/-- Run `x` and hand over how it ended; never raises. -/
def attempt (x : Py I E σ α) : Py I E σ (Except E α) :=
  ofProg fun s => x.prog s >>= fun p => .ret (.ok p.1, p.2)

/-- `except`: run `f` on the exception that ended `x`. -/
def handle (x : Py I E σ α) (f : E → Py I E σ α) : Py I E σ α :=
  ofProg fun s => x.prog s >>= fun p =>
    match p.1 with
    | .ok a => .ret (.ok a, p.2)
    | .error e => (f e).prog p.2

/-- `finally`: run `f`, then end as `x` ended unless `f` raised. -/
def andFinally (x : Py I E σ α) (f : Py I E σ Unit) : Py I E σ α := do
  let r ← attempt x
  f
  result r

/-- `with`: `leave` is told the exception the body ended with, and cannot suppress it. -/
def within (enter : Py I E σ γ) (leave : γ → Option E → Py I E σ Unit) (body : γ → Py I E σ α) :
    Py I E σ α := do
  let c ← enter
  match ← attempt (body c) with
  | .ok a => do leave c none; pure a
  | .error e => do leave c (some e); throw e

/-- Open a scope with its own variables. -/
def withVars (t : τ) (x : Py I E (σ × τ) α) : Py I E σ α :=
  ofProg fun s => x.prog (s, t) >>= fun p => .ret (p.1, p.2.1)

/-- Run a computation that does not see the innermost scope. -/
def outer (x : Py I E σ α) : Py I E (σ × τ) α :=
  ofProg fun s => x.prog s.1 >>= fun p => .ret (p.1, (p.2, s.2))

/-- Run a computation on variables of its own, which end with it. -/
def alone (t : τ) (x : Py I E τ α) : Py I E σ α :=
  ofProg fun s => x.prog t >>= fun p => .ret (p.1, s)

/-- Assign in the innermost scope. -/
def assign (f : τ → τ) : Py I E (σ × τ) Unit := ofProg fun s => .ret (.ok (), (s.1, f s.2))

def locals : Py I E (σ × τ) τ := ofProg fun s => .ret (.ok s.2, s)

end Py

open Py

/-- `wp` of a computation, from values of its variables and a history. -/
def wpy (G : History I → I.Call → Prop) (x : Py I E σ α)
    (Q : Except E α → σ → History I → Prop) (s : σ) (h : History I) : Prop :=
  wp G (x.prog s) (fun p h' => Q p.1 p.2 h') h

/-- A run of a computation to its end. -/
def Ends (x : Py I E σ α) (s : σ) (h : History I) (r : Except E α) (s' : σ) (h' : History I) : Prop :=
  Runs (x.prog s) h (r, s') h'

/-- The exception a computation ended with. -/
def inFlight : Except E α → Option E
  | .ok _ => none
  | .error e => some e

/-- How a body ended once its `finally` or its context ended with `u`. -/
def after (u : Except E Unit) (r : Except E α) : Except E α :=
  match u with
  | .ok _ => r
  | .error e => .error e

@[simp] theorem after_ok {u : Unit} {r : Except E α} : after (.ok u) r = r := rfl

@[simp] theorem after_error {e : E} {r : Except E α} : after (.error e) r = .error e := rfl

@[simp] theorem inFlight_ok {a : α} : inFlight (E := E) (.ok a) = none := rfl

@[simp] theorem inFlight_error {e : E} : inFlight (α := α) (.error e) = some e := rfl

/-- What is asked of a result, and what of an exception. -/
def either (ok : α → Prop) (err : E → Prop) : Except E α → Prop
  | .ok a => ok a
  | .error e => err e

@[simp] theorem either_ok {ok : α → Prop} {err : E → Prop} {a : α} :
    either ok err (.ok a) = ok a := rfl

@[simp] theorem either_error {ok : α → Prop} {err : E → Prop} {e : E} :
    either ok err (.error e) = err e := rfl

section rules
variable {G : History I → I.Call → Prop} {s : σ} {h : History I}

theorem wpy_ends {x : Py I E σ α} {Q : Except E α → σ → History I → Prop} {r : Except E α} {s' : σ}
    {h' : History I} (hw : wpy G x Q s h) (hr : Ends x s h r s' h') : Q r s' h' :=
  wp_runs (a := (r, s')) hw hr

theorem wpy_of_ends {x : Py I E σ α} {Q : Except E α → σ → History I → Prop}
    (hq : ∀ r s' h', Ends x s h r s' h' → Q r s' h') : wpy (fun _ _ => True) x Q s h :=
  wp_of_runs fun p h' hr => hq p.1 p.2 h' hr

theorem wpy_mono {G' : History I → I.Call → Prop} {x : Py I E σ α}
    {Q Q' : Except E α → σ → History I → Prop} (hw : wpy G x Q s h)
    (hG : ∀ t c, G (t ++ h) c → G' (t ++ h) c)
    (hQ : ∀ r s' t, Q r s' (t ++ h) → Q' r s' (t ++ h)) : wpy G' x Q' s h :=
  wp_mono hw hG fun p t => hQ p.1 p.2 t

theorem wpy_post {x : Py I E σ α} {Q Q' : Except E α → σ → History I → Prop} (hw : wpy G x Q s h)
    (hQ : ∀ r s' t, Q r s' (t ++ h) → Q' r s' (t ++ h)) : wpy G x Q' s h :=
  wpy_mono hw (fun _ _ hg => hg) hQ

/-- What holds of a computation on its own holds of it wherever it runs. -/
theorem wpy_use {G' : History I → I.Call → Prop} {x : Py I E σ α}
    {Q Q' : Except E α → σ → History I → Prop} (hw : wpy G x Q s [])
    (hG : ∀ t c, G t c → G' (t ++ h) c) (hQ : ∀ r s' t, Q r s' t → Q' r s' (t ++ h)) :
    wpy G' x Q' s h := by
  refine wp_mono (wp_frame hw) ?_ ?_
  · rintro _ c ⟨u, hu, hg⟩
    obtain rfl := List.append_cancel_right hu
    exact hG _ c hg
  · rintro p _ ⟨u, hu, hq⟩
    obtain rfl := List.append_cancel_right hu
    exact hQ _ _ _ hq

variable {Q : Except E α → σ → History I → Prop}

@[simp] theorem wpy_pure {a : α} : wpy G (pure a) Q s h ↔ Q (.ok a) s h := Iff.rfl

@[simp] theorem wpy_throw {e : E} : wpy G (throw e) Q s h ↔ Q (.error e) s h := Iff.rfl

@[simp] theorem wpy_result {x : Except E α} : wpy G (result x) Q s h ↔ Q x s h := Iff.rfl

@[simp] theorem wpy_perform {c : I.Call} {Q : Except E (I.Ans c) → σ → History I → Prop} :
    wpy G (perform c) Q s h ↔ G h c ∧ ∀ r, Q (.ok r) s (⟨c, r⟩ :: h) := Iff.rfl

@[simp] theorem wpy_raiseIf {b : Bool} {e : E} {Q : Except E Unit → σ → History I → Prop} :
    wpy G (raiseIf b e) Q s h ↔ (b = true → Q (.error e) s h) ∧ (b = false → Q (.ok ()) s h) := by
  cases b <;> simp [raiseIf]

/-- Two postconditions that agree on every result are interchangeable. -/
private theorem wp_congr {p : Prog I (Except E α × σ)} {P P' : Except E α × σ → History I → Prop}
    (hp : ∀ r s' h', P (r, s') h' ↔ P' (r, s') h') : wp G p P h ↔ wp G p P' h := by
  have he : P = P' := by
    funext q h'
    obtain ⟨r, s'⟩ := q
    exact propext (hp r s' h')
  rw [he]

theorem wpy_bind {x : Py I E σ α} {f : α → Py I E σ β} {Q : Except E β → σ → History I → Prop} :
    wpy G (x >>= f) Q s h ↔ wpy G x (fun r s' h' =>
      either (fun a => wpy G (f a) Q s' h') (fun e => Q (.error e) s' h') r) s h := by
  refine Iff.trans (wp_bind _ _ (x.prog s) h) (wp_congr fun r s' h' => ?_)
  cases r <;> exact Iff.rfl

theorem wpy_handle {x : Py I E σ α} {f : E → Py I E σ α} :
    wpy G (handle x f) Q s h ↔ wpy G x (fun r s' h' =>
      either (fun a => Q (.ok a) s' h') (fun e => wpy G (f e) Q s' h') r) s h := by
  refine Iff.trans (wp_bind _ _ (x.prog s) h) (wp_congr fun r s' h' => ?_)
  cases r <;> exact Iff.rfl

theorem wpy_attempt {x : Py I E σ α} {Q : Except E (Except E α) → σ → History I → Prop} :
    wpy G (attempt x) Q s h ↔ wpy G x (fun r s' h' => Q (.ok r) s' h') s h :=
  wp_bind _ _ (x.prog s) h

theorem wpy_andFinally {x : Py I E σ α} {f : Py I E σ Unit} :
    wpy G (andFinally x f) Q s h ↔ wpy G x (fun r s' h' =>
      wpy G f (fun u s'' h'' => Q (after u r) s'' h'') s' h') s h := by
  simp only [andFinally, wpy_bind, wpy_attempt, wpy_result, either_ok]
  refine wp_congr fun r s' h' => wp_congr fun u s'' h'' => ?_
  cases u <;> exact Iff.rfl

theorem wpy_within {enter : Py I E σ γ} {leave : γ → Option E → Py I E σ Unit}
    {body : γ → Py I E σ α} :
    wpy G (within enter leave body) Q s h ↔ wpy G enter (fun c s₁ h₁ =>
      either (fun c => wpy G (body c) (fun r s₂ h₂ =>
          wpy G (leave c (inFlight r)) (fun u s₃ h₃ => Q (after u r) s₃ h₃) s₂ h₂) s₁ h₁)
        (fun e => Q (.error e) s₁ h₁) c) s h := by
  simp only [within, wpy_bind, wpy_attempt, either_ok]
  refine wp_congr fun c s₁ h₁ => ?_
  cases c with
  | error e => exact Iff.rfl
  | ok c =>
    refine wp_congr fun r s₂ h₂ => ?_
    cases r with
    | ok a =>
      simp only [wpy_bind, wpy_pure]
      refine wp_congr fun u s₃ h₃ => ?_
      cases u <;> exact Iff.rfl
    | error e =>
      simp only [wpy_bind, wpy_throw]
      refine wp_congr fun u s₃ h₃ => ?_
      cases u <;> exact Iff.rfl

theorem wpy_withVars {t : τ} {x : Py I E (σ × τ) α} :
    wpy G (withVars t x) Q s h ↔ wpy G x (fun r s' h' => Q r s'.1 h') (s, t) h :=
  wp_bind _ _ (x.prog (s, t)) h

theorem wpy_outer {t : τ} {x : Py I E σ α} {Q : Except E α → σ × τ → History I → Prop} :
    wpy G (outer x) Q (s, t) h ↔ wpy G x (fun r s' h' => Q r (s', t) h') s h :=
  wp_bind _ _ (x.prog s) h

theorem wpy_alone {t : τ} {x : Py I E τ α} :
    wpy G (alone t x) Q s h ↔ wpy G x (fun r _ h' => Q r s h') t h :=
  wp_bind _ _ (x.prog t) h

@[simp] theorem wpy_assign {t : τ} {f : τ → τ} {Q : Except E Unit → σ × τ → History I → Prop} :
    wpy G (assign f) Q (s, t) h ↔ Q (.ok ()) (s, f t) h := Iff.rfl

@[simp] theorem wpy_locals {t : τ} {Q : Except E τ → σ × τ → History I → Prop} :
    wpy G locals Q (s, t) h ↔ Q (.ok t) (s, t) h := Iff.rfl

@[simp] theorem wpy_get {Q : Except E σ → σ → History I → Prop} :
    wpy G get Q s h ↔ Q (.ok s) s h := Iff.rfl

@[simp] theorem wpy_set {s' : σ} {Q : Except E PUnit → σ → History I → Prop} :
    wpy G (set s') Q s h ↔ Q (.ok ⟨⟩) s' h := Iff.rfl

@[simp] theorem wpy_modify {f : σ → σ} {Q : Except E PUnit → σ → History I → Prop} :
    wpy G (modify f) Q s h ↔ Q (.ok ⟨⟩) (f s) h := Iff.rfl

/-- A step that only computes. -/
theorem wpy_bind_result {x : Except E α} {f : α → Py I E σ β}
    {Q : Except E β → σ → History I → Prop} (hok : ∀ a, x = .ok a → wpy G (f a) Q s h)
    (herr : ∀ e, x = .error e → Q (.error e) s h) : wpy G (result x >>= f) Q s h := by
  rw [wpy_bind, wpy_result]
  cases x with
  | ok a => exact hok a rfl
  | error e => exact herr e rfl

theorem wpy_bind_raiseIf {b : Bool} {e : E} {f : Unit → Py I E σ β}
    {Q : Except E β → σ → History I → Prop} (herr : b = true → Q (.error e) s h)
    (hok : b = false → wpy G (f ()) Q s h) : wpy G (raiseIf b e >>= f) Q s h :=
  wpy_bind.mpr (wpy_raiseIf.mpr ⟨herr, hok⟩)

theorem wpy_bind_get {f : σ → Py I E σ β} {Q : Except E β → σ → History I → Prop} :
    wpy G (get >>= f) Q s h ↔ wpy G (f s) Q s h := Iff.rfl

theorem wpy_bind_set {s' : σ} {f : PUnit → Py I E σ β} {Q : Except E β → σ → History I → Prop} :
    wpy G (set s' >>= f) Q s h ↔ wpy G (f ⟨⟩) Q s' h := Iff.rfl

theorem wpy_bind_modify {g : σ → σ} {f : PUnit → Py I E σ β}
    {Q : Except E β → σ → History I → Prop} :
    wpy G (modify g >>= f) Q s h ↔ wpy G (f ⟨⟩) Q (g s) h := Iff.rfl

/-- The bind rule with the first computation's own postcondition. -/
theorem wpy_seq {x : Py I E σ α} {f : α → Py I E σ β} {P : Except E α → σ → History I → Prop}
    {Q : Except E β → σ → History I → Prop} (hx : wpy G x P s h)
    (hok : ∀ a s' t, P (.ok a) s' (t ++ h) → wpy G (f a) Q s' (t ++ h))
    (herr : ∀ e s' t, P (.error e) s' (t ++ h) → Q (.error e) s' (t ++ h)) :
    wpy G (x >>= f) Q s h := by
  rw [wpy_bind]
  refine wpy_post hx fun r s' t hp => ?_
  cases r with
  | ok a => exact hok a s' t hp
  | error e => exact herr e s' t hp

end rules

/-! ## Runs of the combinators -/

section runs
variable {s s' : σ} {h h' : History I}

theorem play_ends (env : Environment I) {x : Py I E σ α} {r : Except E α}
    (hp : (play env (x.prog s) h).1 = some (r, s')) : Ends x s h r s' (play env (x.prog s) h).2 :=
  play_runs env _ _ (Prod.ext hp rfl)

/-- As `play_ends`, when only the result is known. -/
theorem play_ends_result (env : Environment I) {x : Py I E σ α} {r : Except E α}
    (hp : (play env (x.prog s) h).1.map Prod.fst = some r) :
    ∃ s', Ends x s h r s' (play env (x.prog s) h).2 := by
  obtain ⟨⟨r', s'⟩, hr, rfl⟩ := Option.map_eq_some_iff.mp hp
  exact ⟨s', play_ends env hr⟩

def raised : Except E α × σ → Option E
  | (.error e, _) => some e
  | (.ok _, _) => none

/-- As `play_ends`, when only the exception is known. -/
theorem play_ends_error (env : Environment I) {x : Py I E σ α} {e : E}
    (hp : (play env (x.prog s) h).1.bind raised = some e) :
    ∃ s', Ends x s h (.error e) s' (play env (x.prog s) h).2 := by
  obtain ⟨⟨r, s'⟩, hr, he⟩ := Option.bind_eq_some_iff.mp hp
  cases r with
  | ok a => cases he
  | error e' => exact ⟨s', play_ends env (hr.trans (by rw [Option.some.inj he]))⟩

/-- The history a run starts from is only carried along. -/
theorem Ends.shift {x : Py I E σ α} {r : Except E α} (hr : Ends x s h r s' h') :
    ∃ t, h' = t ++ h ∧ ∀ g, Ends x s g r s' (t ++ g) :=
  Runs.shift hr

theorem Ends.own {x : Py I E σ α} {r : Except E α} {t : History I} (hr : Ends x s h r s' (t ++ h)) :
    Ends x s [] r s' t := by
  obtain ⟨t', ht, hg⟩ := hr.shift
  obtain rfl := List.append_cancel_right ht
  simpa using hg []

theorem Ends.unique {x : Py I E σ α} {r r' : Except E α} {s₁ s₂ : σ} {h₁ h₂ g : History I}
    (hr : Ends x s h r s₁ h₁) (hr' : Ends x s h r' s₂ h₂) (h₁g : h₁ <:+ g) (h₂g : h₂ <:+ g) :
    r = r' ∧ s₁ = s₂ ∧ h₁ = h₂ := by
  obtain ⟨he, hh⟩ := Runs.unique hr hr' h₁g h₂g
  exact ⟨(Prod.ext_iff.mp he).1, (Prod.ext_iff.mp he).2, hh⟩

theorem Ends.suffix {x : Py I E σ α} {r : Except E α} (hr : Ends x s h r s' h') : h <:+ h' := by
  obtain ⟨t, rfl, -⟩ := hr.shift
  exact ⟨t, rfl⟩

@[simp] theorem ends_pure {a : α} {r : Except E α} :
    Ends (pure a : Py I E σ α) s h r s' h' ↔ r = .ok a ∧ s' = s ∧ h' = h := by
  constructor
  · rintro ⟨⟩
    exact ⟨rfl, rfl, rfl⟩
  · rintro ⟨rfl, rfl, rfl⟩
    exact .ret

@[simp] theorem ends_throw {e : E} {r : Except E α} :
    Ends (throw e : Py I E σ α) s h r s' h' ↔ r = .error e ∧ s' = s ∧ h' = h := by
  constructor
  · rintro ⟨⟩
    exact ⟨rfl, rfl, rfl⟩
  · rintro ⟨rfl, rfl, rfl⟩
    exact .ret

@[simp] theorem ends_result {x : Except E α} {r : Except E α} :
    Ends (result x : Py I E σ α) s h r s' h' ↔ r = x ∧ s' = s ∧ h' = h := by
  constructor
  · rintro ⟨⟩
    exact ⟨rfl, rfl, rfl⟩
  · rintro ⟨rfl, rfl, rfl⟩
    exact .ret

theorem ends_perform {c : I.Call} {r : Except E (I.Ans c)} :
    Ends (perform c : Py I E σ (I.Ans c)) s h r s' h' ↔
      ∃ a, r = .ok a ∧ s' = s ∧ h' = ⟨c, a⟩ :: h := by
  constructor
  · intro hr
    cases hr with
    | call hk =>
      cases hk
      exact ⟨_, rfl, rfl, rfl⟩
  · intro hr
    obtain ⟨a, rfl, rfl, rfl⟩ := hr
    exact .call .ret

@[simp] theorem ends_get {r : Except E σ} :
    Ends (get : Py I E σ σ) s h r s' h' ↔ r = .ok s ∧ s' = s ∧ h' = h :=
  ends_result

@[simp] theorem ends_modify {f : σ → σ} {r : Except E PUnit} :
    Ends (modify f : Py I E σ PUnit) s h r s' h' ↔ r = .ok ⟨⟩ ∧ s' = f s ∧ h' = h := by
  constructor
  · intro hr
    cases hr
    exact ⟨rfl, rfl, rfl⟩
  · intro hr
    obtain ⟨rfl, rfl, rfl⟩ := hr
    exact .ret

theorem ends_bind {x : Py I E σ α} {f : α → Py I E σ β} {r : Except E β} :
    Ends (x >>= f) s h r s' h' ↔
      (∃ a s₁ h₁, Ends x s h (.ok a) s₁ h₁ ∧ Ends (f a) s₁ h₁ r s' h') ∨
        ∃ e, r = .error e ∧ Ends x s h (.error e) s' h' := by
  refine Iff.trans (runs_bind (p := x.prog s)) ⟨?_, ?_⟩
  · rintro ⟨⟨e | a, s₁⟩, h₁, hx, hf⟩
    · cases hf
      exact .inr ⟨e, rfl, hx⟩
    · exact .inl ⟨a, s₁, h₁, hx, hf⟩
  · rintro (⟨a, s₁, h₁, hx, hf⟩ | ⟨e, rfl, hx⟩)
    · exact ⟨(.ok a, s₁), h₁, hx, hf⟩
    · exact ⟨(.error e, s'), h', hx, .ret⟩

theorem ends_handle {x : Py I E σ α} {f : E → Py I E σ α} {r : Except E α} :
    Ends (handle x f) s h r s' h' ↔
      (∃ a, r = .ok a ∧ Ends x s h (.ok a) s' h') ∨
        ∃ e s₁ h₁, Ends x s h (.error e) s₁ h₁ ∧ Ends (f e) s₁ h₁ r s' h' := by
  refine Iff.trans (runs_bind (p := x.prog s)) ⟨?_, ?_⟩
  · rintro ⟨⟨e | a, s₁⟩, h₁, hx, hf⟩
    · exact .inr ⟨e, s₁, h₁, hx, hf⟩
    · cases hf
      exact .inl ⟨a, rfl, hx⟩
  · rintro (⟨a, rfl, hx⟩ | ⟨e, s₁, h₁, hx, hf⟩)
    · exact ⟨(.ok a, s'), h', hx, .ret⟩
    · exact ⟨(.error e, s₁), h₁, hx, hf⟩

theorem ends_attempt {x : Py I E σ α} {r : Except E (Except E α)} :
    Ends (attempt x) s h r s' h' ↔ ∃ r₁, r = .ok r₁ ∧ Ends x s h r₁ s' h' := by
  refine Iff.trans (runs_bind (p := x.prog s)) ⟨?_, ?_⟩
  · rintro ⟨⟨r₁, s₁⟩, h₁, hx, hf⟩
    cases hf
    exact ⟨r₁, rfl, hx⟩
  · rintro ⟨r₁, rfl, hx⟩
    exact ⟨(r₁, s'), h', hx, .ret⟩

theorem ends_andFinally {x : Py I E σ α} {f : Py I E σ Unit} {r : Except E α} :
    Ends (andFinally x f) s h r s' h' ↔
      ∃ r₁ s₁ h₁ u, Ends x s h r₁ s₁ h₁ ∧ Ends f s₁ h₁ u s' h' ∧ r = after u r₁ := by
  rw [andFinally, ends_bind]
  constructor
  · rintro (⟨r₁, s₁, h₁, hx, hf⟩ | ⟨e, rfl, hx⟩)
    · obtain ⟨_, ⟨⟩, hx'⟩ := ends_attempt.mp hx
      obtain ⟨u, s₂, h₂, hf', hr⟩ | ⟨e, rfl, hf'⟩ := ends_bind.mp hf
      · obtain ⟨rfl, rfl, rfl⟩ := ends_result.mp hr
        exact ⟨r, s₁, h₁, .ok u, hx', hf', rfl⟩
      · exact ⟨r₁, s₁, h₁, .error e, hx', hf', rfl⟩
    · obtain ⟨_, ⟨⟩, _⟩ := ends_attempt.mp hx
  · rintro ⟨r₁, s₁, h₁, u, hx, hf, rfl⟩
    refine .inl ⟨r₁, s₁, h₁, ends_attempt.mpr ⟨r₁, rfl, hx⟩, ends_bind.mpr ?_⟩
    cases u with
    | ok u => exact .inl ⟨u, s', h', hf, ends_result.mpr ⟨rfl, rfl, rfl⟩⟩
    | error e => exact .inr ⟨e, rfl, hf⟩

theorem ends_within {enter : Py I E σ γ} {leave : γ → Option E → Py I E σ Unit}
    {body : γ → Py I E σ α} {r : Except E α} :
    Ends (within enter leave body) s h r s' h' ↔
      (∃ e, r = .error e ∧ Ends enter s h (.error e) s' h') ∨
        ∃ c s₁ h₁ r₁ s₂ h₂ u, Ends enter s h (.ok c) s₁ h₁ ∧ Ends (body c) s₁ h₁ r₁ s₂ h₂ ∧
          Ends (leave c (inFlight r₁)) s₂ h₂ u s' h' ∧ r = after u r₁ := by
  rw [within, ends_bind]
  constructor
  · rintro (⟨c, s₁, h₁, he, hb⟩ | ⟨e, rfl, he⟩)
    · obtain ⟨r₁, s₂, h₂, ha, hl⟩ | ⟨e, rfl, ha⟩ := ends_bind.mp hb
      · obtain ⟨_, ⟨⟩, hx⟩ := ends_attempt.mp ha
        cases r₁ with
        | ok a =>
          obtain ⟨u, s₃, h₃, hu, hr⟩ | ⟨e, rfl, hu⟩ := ends_bind.mp hl
          · obtain ⟨rfl, rfl, rfl⟩ := ends_pure.mp hr
            exact .inr ⟨c, s₁, h₁, .ok a, s₂, h₂, .ok u, he, hx, hu, rfl⟩
          · exact .inr ⟨c, s₁, h₁, .ok a, s₂, h₂, .error e, he, hx, hu, rfl⟩
        | error e =>
          obtain ⟨u, s₃, h₃, hu, hr⟩ | ⟨e', rfl, hu⟩ := ends_bind.mp hl
          · obtain ⟨rfl, rfl, rfl⟩ := ends_throw.mp hr
            exact .inr ⟨c, s₁, h₁, .error e, s₂, h₂, .ok u, he, hx, hu, rfl⟩
          · exact .inr ⟨c, s₁, h₁, .error e, s₂, h₂, .error e', he, hx, hu, rfl⟩
      · obtain ⟨_, ⟨⟩, _⟩ := ends_attempt.mp ha
    · exact .inl ⟨e, rfl, he⟩
  · rintro (⟨e, rfl, he⟩ | ⟨c, s₁, h₁, r₁, s₂, h₂, u, he, hb, hl, rfl⟩)
    · exact .inr ⟨e, rfl, he⟩
    · refine .inl ⟨c, s₁, h₁, he, ends_bind.mpr (.inl ⟨r₁, s₂, h₂, ends_attempt.mpr ⟨r₁, rfl, hb⟩, ?_⟩)⟩
      cases r₁ with
      | ok a =>
        refine ends_bind.mpr ?_
        cases u with
        | ok u => exact .inl ⟨u, s', h', hl, ends_pure.mpr ⟨rfl, rfl, rfl⟩⟩
        | error e => exact .inr ⟨e, rfl, hl⟩
      | error e =>
        refine ends_bind.mpr ?_
        cases u with
        | ok u => exact .inl ⟨u, s', h', hl, ends_throw.mpr ⟨rfl, rfl, rfl⟩⟩
        | error e' => exact .inr ⟨e', rfl, hl⟩

theorem ends_alone {t : τ} {x : Py I E τ α} {r : Except E α} :
    Ends (alone t x) s h r s' h' ↔ s' = s ∧ ∃ t', Ends x t h r t' h' := by
  refine Iff.trans (runs_bind (p := x.prog t)) ⟨?_, ?_⟩
  · rintro ⟨⟨r₁, t'⟩, h₁, hx, hf⟩
    cases hf
    exact ⟨rfl, t', hx⟩
  · rintro ⟨rfl, t', hx⟩
    exact ⟨(r, t'), h', hx, .ret⟩

/-- A run so far of two computations in a row is still in the first, or past it. -/
theorem reaches_bind_py {x : Py I E σ α} {f : α → Py I E σ β}
    (hr : Reaches ((x >>= f).prog s) h h') :
    Reaches (x.prog s) h h' ∨
      ∃ a s₁ h₁, Ends x s h (.ok a) s₁ h₁ ∧ Reaches ((f a).prog s₁) h₁ h' := by
  obtain hx | ⟨⟨e | a, s₁⟩, h₁, hx, hf⟩ := reaches_bind (p := x.prog s) hr
  · exact .inl hx
  · cases hf
    exact .inl hx.reaches
  · exact .inr ⟨a, s₁, h₁, hx, hf⟩

end runs

/-! Against an environment whose answers are enough to decide how a run ends. -/

section gives
variable {env : Environment I} {s s' s'' : σ}

/-- Against this environment, from any history, the computation ends so. -/
def Gives (env : Environment I) (x : Py I E σ α) (s : σ) (r : Except E α) (s' : σ) : Prop :=
  ∀ h, ∃ h', play env (x.prog s) h = (some (r, s'), h')

theorem gives_pure {a : α} : Gives env (pure a : Py I E σ α) s (.ok a) s := fun h => ⟨h, rfl⟩

theorem Gives.bind {x : Py I E σ α} {f : α → Py I E σ β} {a : α} {r : Except E β}
    (hx : Gives env x s (.ok a) s') (hf : Gives env (f a) s' r s'') :
    Gives env (x >>= f) s r s'' := by
  intro h
  obtain ⟨h₁, hx⟩ := hx h
  obtain ⟨h₂, hf⟩ := hf h₁
  refine ⟨h₂, (play_bind env _ (x.prog s) h).trans ?_⟩
  rw [hx]
  exact hf

theorem Gives.raise {x : Py I E σ α} {f : α → Py I E σ β} {e : E}
    (hx : Gives env x s (.error e) s') : Gives env (x >>= f) s (.error e) s' := by
  intro h
  obtain ⟨h₁, hx⟩ := hx h
  refine ⟨h₁, (play_bind env _ (x.prog s) h).trans ?_⟩
  rw [hx]
  rfl

theorem Gives.outer {x : Py I E σ α} {r : Except E α} {t : τ} (hx : Gives env x s r s') :
    Gives env (outer x) (s, t) r (s', t) := by
  intro h
  obtain ⟨h₁, hx⟩ := hx h
  refine ⟨h₁, (play_bind env _ (x.prog s) h).trans ?_⟩
  rw [hx]
  rfl

theorem gives_assign {t : τ} {f : τ → τ} :
    Gives env (assign f : Py I E (σ × τ) Unit) (s, t) (.ok ()) (s, f t) := fun h => ⟨h, rfl⟩

end gives

end Effects
