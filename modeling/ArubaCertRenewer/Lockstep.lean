import ArubaCertRenewer.Py

/- Two programs that make the same calls.

   `Follows stop R p q`: whatever the calls are answered with, `q` makes the calls
   of `p` in the order of `p`, and where `p` returns `a`, `q` returns a `b` with
   `R a b`; but `p` may also return early, with a result that satisfies `stop`,
   and then `q` may go on. With nothing to stop at, the two are in lockstep. -/
namespace Effects

variable {I : Interface} {E F σ τ υ α β γ δ : Type}

inductive Follows (stop : α → Prop) (R : α → β → Prop) : Prog I α → Prog I β → Prop where
  | stopped {a : α} {q : Prog I β} : stop a → Follows stop R (.ret a) q
  | ret {a : α} {b : β} : R a b → Follows stop R (.ret a) (.ret b)
  | call {c : I.Call} {k : I.Ans c → Prog I α} {k' : I.Ans c → Prog I β} :
      (∀ r, Follows stop R (k r) (k' r)) → Follows stop R (.call c k) (.call c k')
  | unfinished : Follows stop R .unfinished .unfinished

section programs
variable {stop : α → Prop} {R : α → β → Prop} {p : Prog I α} {q : Prog I β}

theorem Follows.mono {stop' : α → Prop} {R' : α → β → Prop} (hf : Follows stop R p q)
    (hstop : ∀ a, stop a → stop' a) (hR : ∀ a b, R a b → R' a b) : Follows stop' R' p q := by
  induction hf with
  | stopped h => exact .stopped (hstop _ h)
  | ret h => exact .ret (hR _ _ h)
  | call _ ih => exact .call ih
  | unfinished => exact .unfinished

/-- Two programs in a row: what stops the first stops both. -/
theorem Follows.bind {stop' : γ → Prop} {S : γ → δ → Prop} {f : α → Prog I γ} {g : β → Prog I δ}
    (hf : Follows stop R p q) (hR : ∀ a b, R a b → Follows stop' S (f a) (g b))
    (hstop : ∀ a, stop a → ∃ c, f a = .ret c ∧ stop' c) : Follows stop' S (p >>= f) (q >>= g) := by
  induction hf with
  | @stopped a q h =>
    obtain ⟨c, hc, hstopped⟩ := hstop a h
    exact (congrArg (fun x => Follows stop' S x (q >>= g)) hc).mpr (.stopped hstopped)
  | ret h => exact hR _ _ h
  | call _ ih => exact .call ih
  | unfinished => exact .unfinished

theorem Follows.mapLeft {f : γ → α} {p : Prog I γ} (hf : Follows (fun c => stop (f c)) (fun c b => R (f c) b) p q) :
    Follows stop R (p >>= fun c => .ret (f c)) q := by
  have hq : (q >>= fun b => .ret b) = q := Prog.bind_ret q
  rw [← hq]
  exact hf.bind (fun _ _ h => .ret h) fun a h => ⟨f a, rfl, h⟩

theorem Follows.mapRight {g : δ → β} {q : Prog I δ} (hf : Follows stop (fun a d => R a (g d)) p q) :
    Follows stop R p (q >>= fun d => .ret (g d)) := by
  have hp : (p >>= fun a => .ret a) = p := Prog.bind_ret p
  rw [← hp]
  exact hf.bind (fun _ _ h => .ret h) fun a h => ⟨a, rfl, h⟩

/-- Where the first ends the second ends, with the same calls made. -/
theorem Follows.runs {h h' : History I} {a : α} (hf : Follows stop R p q) (hr : Runs p h a h') :
    stop a ∨ ∃ b, Runs q h b h' ∧ R a b := by
  induction hr generalizing q with
  | ret =>
    cases hf with
    | stopped h => exact .inl h
    | ret h => exact .inr ⟨_, .ret, h⟩
  | call _ ih =>
    cases hf with
    | call hk => exact (ih (hk _)).imp_right fun ⟨b, hb, hab⟩ => ⟨b, .call hb, hab⟩

end programs

/-! ## Computations -/

open Py

/-- `Follows` of two computations, from values of their variables; `stop` looks at the result. -/
def Tracks (stop : Except E α → Prop) (R : Except E α → σ → Except F β → τ → Prop) (x : Py I E σ α) (s : σ)
    (y : Py I F τ β) (t : τ) : Prop :=
  Follows (fun p => stop p.1) (fun p q => R p.1 p.2 q.1 q.2) (x.prog s) (y.prog t)

/-- No result stops the first. -/
abbrev never : Except E α → Prop := fun _ => False

/-- How a computation goes on after a result: an exception ends it. -/
def resume (f : α → Py I E σ β) : Except E α → Py I E σ β
  | .ok a => f a
  | .error e => throw e

@[simp] theorem resume_error (f : α → Py I E σ β) (e : E) : resume f (.error e) = throw e := rfl

section computations
variable {stop : Except E α → Prop} {R : Except E α → σ → Except F β → τ → Prop} {x : Py I E σ α}
  {y : Py I F τ β} {s : σ} {t : τ}

theorem Tracks.mono {stop' : Except E α → Prop} {R' : Except E α → σ → Except F β → τ → Prop}
    (ht : Tracks stop R x s y t) (hstop : ∀ r, stop r → stop' r)
    (hR : ∀ r s q t, R r s q t → R' r s q t) : Tracks stop' R' x s y t :=
  Follows.mono ht (fun _ => hstop _) fun _ _ => hR _ _ _ _

theorem tracks_result {r : Except E α} {q : Except F β} (h : R r s q t) :
    Tracks stop R (result r : Py I E σ α) s (result q : Py I F τ β) t :=
  Follows.ret (a := (r, s)) (b := (q, t)) h

theorem prog_bind (x : Py I E σ α) (f : α → Py I E σ γ) (s : σ) :
    (x >>= f).prog s = x.prog s >>= fun p => (resume f p.1).prog p.2 := by
  refine congrArg (x.prog s >>= ·) (funext fun p => ?_)
  obtain ⟨r, s'⟩ := p
  cases r <;> rfl

/-- Two computations in a row. -/
theorem Tracks.bind {stop' : Except E γ → Prop} {S : Except E γ → σ → Except F δ → τ → Prop}
    {f : α → Py I E σ γ} {g : β → Py I F τ δ} (ht : Tracks stop R x s y t)
    (hR : ∀ r s' q t', R r s' q t' → Tracks stop' S (resume f r) s' (resume g q) t')
    (hstop : ∀ r, stop r → ∃ e, r = .error e ∧ stop' (.error e)) :
    Tracks stop' S (x >>= f) s (y >>= g) t := by
  rw [Tracks, prog_bind, prog_bind]
  refine Follows.bind ht (fun _ _ h => hR _ _ _ _ h) fun p h => ?_
  obtain ⟨e, he, hstopped⟩ := hstop p.1 h
  refine ⟨(.error e, p.2), ?_, hstopped⟩
  rw [he]
  rfl

/-- What `except` makes of a result. -/
def caught (f : E → Py I E σ α) : Except E α → Py I E σ α
  | .ok a => pure a
  | .error e => f e

theorem prog_handle (x : Py I E σ α) (f : E → Py I E σ α) (s : σ) :
    (handle x f).prog s = x.prog s >>= fun p => (caught f p.1).prog p.2 := by
  refine congrArg (x.prog s >>= ·) (funext fun p => ?_)
  obtain ⟨r, s'⟩ := p
  cases r <;> rfl

theorem Tracks.attemptLeft {S : Except E (Except E α) → σ → Except F β → τ → Prop}
    {stop' : Except E (Except E α) → Prop}
    (ht : Tracks (fun r => stop' (.ok r)) (fun r s' q t' => S (.ok r) s' q t') x s y t) :
    Tracks stop' S (attempt x) s y t := Follows.mapLeft ht

theorem Tracks.attemptRight {S : Except E α → σ → Except F (Except F β) → τ → Prop}
    (ht : Tracks stop (fun r s' q t' => S r s' (.ok q) t') x s y t) :
    Tracks stop S x s (attempt y) t := Follows.mapRight ht

/-- Two contexts over one entry: what the bodies are related by, their ends relate. -/
theorem Tracks.within {S : Except E α → σ → Except E δ → τ → Prop} {R : Except E α → σ → Except E δ → τ → Prop}
    {enter : Py I E σ γ} {enter' : Py I E τ γ} {leave : γ → Option E → Py I E σ Unit}
    {leave' : γ → Option E → Py I E τ Unit} {body : γ → Py I E σ α} {body' : γ → Py I E τ δ}
    (henter : Tracks never (fun c s₁ c' t₁ => c = c' ∧ s₁ = s ∧ t₁ = t) enter s enter' t)
    (hrefused : ∀ e, S (.error e) s (.error e) t) (hbody : ∀ c, Tracks never R (body c) s (body' c) t)
    (hleave : ∀ c r s₂ q t₂, R r s₂ q t₂ →
      Tracks never (fun u s₃ v t₃ => S (after u r) s₃ (after v q) t₃) (leave c (inFlight r)) s₂
        (leave' c (inFlight q)) t₂) :
    Tracks never S (Py.within enter leave body) s (Py.within enter' leave' body') t := by
  refine henter.bind (fun c s₁ c' t₁ hsame => ?_) fun _ => False.elim
  obtain ⟨rfl, rfl, rfl⟩ := hsame
  cases c with
  | error e => exact tracks_result (hrefused e)
  | ok c =>
  refine Tracks.bind (R := fun r s₂ q t₂ => ∃ r' q', r = .ok r' ∧ q = .ok q' ∧ R r' s₂ q' t₂)
    (.attemptLeft (.attemptRight ((hbody c).mono (fun _ h => h) fun r _ q _ h => ⟨r, q, rfl, rfl, h⟩)))
    (fun r s₂ q t₂ hR => ?_) fun _ => False.elim
  obtain ⟨r, q, rfl, rfl, hR⟩ := hR
  have hend : Tracks never S (leave c (inFlight r) >>= fun _ => result r) s₂
      (leave' c (inFlight q) >>= fun _ => result q) t₂ := by
    refine (hleave c r s₂ q t₂ hR).bind (fun u s₃ v t₃ hS => ?_) fun _ => False.elim
    cases u <;> cases v <;> exact tracks_result hS
  cases r <;> cases q <;> exact hend

theorem Tracks.ends {h h' : History I} {r : Except E α} {s' : σ} (ht : Tracks stop R x s y t)
    (hr : Ends x s h r s' h') : stop r ∨ ∃ q t', Ends y t h q t' h' ∧ R r s' q t' :=
  (Follows.runs ht hr).imp_right fun ⟨b, hb, hR⟩ => ⟨b.1, b.2, hb, hR⟩

end computations

end Effects
