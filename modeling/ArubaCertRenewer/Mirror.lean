import ArubaCertRenewer.Lockstep
import Mathlib.Data.List.Forall2

/- Two programs whose calls correspond.

   A `Pairing` says which calls stand for each other, and how the answer to the one
   gives the answer to the other. Where `Mirrors M R p q`, whatever the calls of `p` are
   answered with, `q` makes the calls that stand for them, in their order, and is given
   the answers that go with theirs; their results are related by `R`. Lockstep is the case
   of a pairing of each call with itself. -/
namespace Effects

variable {I : Interface} {E σ τ α β γ δ : Type}

/-- Calls that stand for each other, with what becomes of an answer. -/
abbrev Pairing (I : Interface) := ∀ c c' : I.Call, (I.Ans c → I.Ans c') → Prop

inductive Mirrors (M : Pairing I) (R : α → β → Prop) : Prog I α → Prog I β → Prop where
  | ret {a : α} {b : β} : R a b → Mirrors M R (.ret a) (.ret b)
  | call {c c' : I.Call} {f : I.Ans c → I.Ans c'} {k : I.Ans c → Prog I α} {k' : I.Ans c' → Prog I β} :
      M c c' f → (∀ r, Mirrors M R (k r) (k' (f r))) → Mirrors M R (.call c k) (.call c' k')
  | unfinished : Mirrors M R .unfinished .unfinished

/-- Events whose calls stand for each other, with the answers that go together. -/
inductive Paired (M : Pairing I) : Event I → Event I → Prop where
  | answered {c c' : I.Call} {f : I.Ans c → I.Ans c'} (r : I.Ans c) : M c c' f → Paired M ⟨c, r⟩ ⟨c', f r⟩

section programs
variable {M : Pairing I} {R : α → β → Prop} {p : Prog I α} {q : Prog I β}

theorem Mirrors.mono {R' : α → β → Prop} (hm : Mirrors M R p q) (hR : ∀ a b, R a b → R' a b) : Mirrors M R' p q := by
  induction hm with
  | ret h => exact .ret (hR _ _ h)
  | call hc _ ih => exact .call hc ih
  | unfinished => exact .unfinished

theorem Mirrors.bind {S : γ → δ → Prop} {f : α → Prog I γ} {g : β → Prog I δ} (hm : Mirrors M R p q)
    (hR : ∀ a b, R a b → Mirrors M S (f a) (g b)) : Mirrors M S (p >>= f) (q >>= g) := by
  induction hm with
  | ret h => exact hR _ _ h
  | call hc _ ih => exact .call hc ih
  | unfinished => exact .unfinished

/-- A program that makes only calls that stand for themselves mirrors itself. -/
theorem mirrors_same {h : History I} {Q : α → History I → Prop} (hw : wp (fun _ c => M c c id) p Q h) :
    Mirrors M Eq p p := by
  induction p generalizing h with
  | ret a => exact .ret rfl
  | call c k ih => exact .call hw.1 fun r => ih r (hw.2 r)
  | unfinished => exact .unfinished

/-- A run of the one is a run of the other, with each event replaced by the one it is paired with. -/
theorem Mirrors.runs {h h' g : History I} {a : α} (hm : Mirrors M R p q) (hr : Runs p h a h')
    (hg : List.Forall₂ (Paired M) h g) :
    ∃ b g', Runs q g b g' ∧ List.Forall₂ (Paired M) h' g' ∧ R a b := by
  induction hr generalizing q g with
  | ret =>
    cases hm with
    | ret h => exact ⟨_, _, .ret, hg, h⟩
  | call _ ih =>
    cases hm with
    | call hc hk =>
      obtain ⟨b, g', hruns, hpaired, hR⟩ := ih (hk _) (.cons (.answered _ hc) hg)
      exact ⟨b, g', .call hruns, hpaired, hR⟩

/-- So is a part of a run. -/
theorem Mirrors.reaches {h h' g : History I} (hm : Mirrors M R p q) (hr : Reaches p h h')
    (hg : List.Forall₂ (Paired M) h g) : ∃ g', Reaches q g g' ∧ List.Forall₂ (Paired M) h' g' := by
  induction hr generalizing q g with
  | here => exact ⟨g, .here, hg⟩
  | call _ ih =>
    cases hm with
    | call hc hk =>
      obtain ⟨g', hreaches, hpaired⟩ := ih (hk _) (.cons (.answered _ hc) hg)
      exact ⟨g', .call hreaches, hpaired⟩

end programs

/-! ## Computations -/

open Py

/-- Two ends with related results, or with the same exception. -/
inductive Alike (R : α → β → Prop) : Except E α → Except E β → Prop where
  | ok {a : α} {b : β} : R a b → Alike R (.ok a) (.ok b)
  | error {e : E} : Alike R (.error e) (.error e)

theorem alike_refl (r : Except E α) : Alike Eq r r := by
  cases r with
  | ok a => exact .ok rfl
  | error e => exact .error

theorem Alike.eq {r q : Except E α} (h : Alike Eq r q) : r = q := by
  cases h with
  | ok h => rw [h]
  | error => rfl

/-- From the same values of their variables, the two mirror each other and leave the same values. -/
def Twin (M : Pairing I) (R : α → β → Prop) (x : Py I E σ α) (y : Py I E σ β) : Prop :=
  ∀ s, Mirrors M (fun p q => Alike R p.1 q.1 ∧ p.2 = q.2) (x.prog s) (y.prog s)

namespace Twin
variable {M : Pairing I} {R : α → β → Prop} {S : γ → δ → Prop} {x : Py I E σ α} {y : Py I E σ β}

theorem same {x : Py I E σ α} (hx : ∀ s h, wpy (fun _ c => M c c id) x (fun _ _ _ => True) s h) : Twin M Eq x x :=
  fun s => (mirrors_same (hx s [])).mono fun p _ h => h ▸ ⟨alike_refl p.1, rfl⟩

theorem result' {r : Except E α} {q : Except E β} (h : Alike R r q) :
    Twin M R (result r : Py I E σ α) (result q) := fun _ => .ret ⟨h, rfl⟩

theorem bind' {f : α → Py I E σ γ} {g : β → Py I E σ δ} (hx : Twin M R x y)
    (hf : ∀ a b, R a b → Twin M S (f a) (g b)) : Twin M S (x >>= f) (y >>= g) := by
  intro s
  rw [prog_bind, prog_bind]
  refine (hx s).bind fun p q h => ?_
  obtain ⟨r, s₁⟩ := p
  obtain ⟨r', s₂⟩ := q
  obtain ⟨halike, rfl⟩ := h
  cases halike with
  | ok hR => exact hf _ _ hR s₁
  | error => exact .ret ⟨.error, rfl⟩

/-- Where the first of two steps has one result. -/
theorem andThen {z z' : Py I E σ α} {f : α → Py I E σ γ} {g : α → Py I E σ δ} (hz : Twin M Eq z z')
    (hf : ∀ a, Twin M S (f a) (g a)) : Twin M S (z >>= f) (z' >>= g) :=
  bind' hz fun a _ h => h ▸ hf a

theorem attempt' (hx : Twin M R x y) : Twin M (Alike R) (attempt x) (attempt y) := fun s =>
  (hx s).bind fun _ _ h => .ret ⟨.ok h.1, h.2⟩

theorem handle' {f : E → Py I E σ α} {g : E → Py I E σ β} (hx : Twin M R x y) (hf : ∀ e, Twin M R (f e) (g e)) :
    Twin M R (handle x f) (handle y g) := by
  intro s
  rw [prog_handle, prog_handle]
  refine (hx s).bind fun p q h => ?_
  obtain ⟨r, s₁⟩ := p
  obtain ⟨r', s₂⟩ := q
  obtain ⟨halike, rfl⟩ := h
  cases halike with
  | ok hR => exact .ret ⟨.ok hR, rfl⟩
  | @error e => exact hf e s₁

theorem andFinally' {f g : Py I E σ Unit} (hx : Twin M R x y) (hf : Twin M Eq f g) :
    Twin M R (andFinally x f) (andFinally y g) :=
  bind' (attempt' hx) fun _ _ hr => andThen hf fun _ => result' hr

theorem within' {enter enter' : Py I E σ γ} {leave leave' : γ → Option E → Py I E σ Unit} {body : γ → Py I E σ α}
    {body' : γ → Py I E σ β} (he : Twin M Eq enter enter') (hl : ∀ c f, Twin M Eq (leave c f) (leave' c f))
    (hb : ∀ c, Twin M R (body c) (body' c)) : Twin M R (within enter leave body) (within enter' leave' body') := by
  refine andThen he fun c => bind' (attempt' (hb c)) fun r q hr => ?_
  cases hr with
  | ok hR => exact andThen (hl c none) fun _ => result' (.ok hR)
  | @error e => exact andThen (hl c (some e)) fun _ => result' .error

theorem withVars' {t : τ} {x : Py I E (σ × τ) α} {y : Py I E (σ × τ) β} (hx : Twin M R x y) :
    Twin M R (withVars t x) (withVars t y) := fun s =>
  (hx (s, t)).bind fun _ _ h => .ret ⟨h.1, congrArg Prod.fst h.2⟩

theorem outer' (hx : Twin M R x y) : Twin M R (outer x : Py I E (σ × τ) α) (outer y) := fun s =>
  (hx s.1).bind fun _ _ h => .ret ⟨h.1, congrArg (·, s.2) h.2⟩

theorem alone' {t : τ} {x : Py I E τ α} {y : Py I E τ β} (hx : Twin M R x y) :
    Twin M R (alone t x : Py I E σ α) (alone t y) := fun _ => (hx t).bind fun _ _ h => .ret ⟨h.1, rfl⟩

/-- How the one ends, the other ends, after the events that those of the one are paired with. -/
theorem ends {s s' : σ} {h h' g : History I} {r : Except E α} (hx : Twin M R x y) (hr : Ends x s h r s' h')
    (hg : List.Forall₂ (Paired M) h g) :
    ∃ r' g', Ends y s g r' s' g' ∧ List.Forall₂ (Paired M) h' g' ∧ Alike R r r' := by
  obtain ⟨⟨r', s''⟩, g', hruns, hpaired, halike, rfl⟩ := (hx s).runs hr hg
  exact ⟨r', g', hruns, hpaired, halike⟩

end Twin

end Effects
