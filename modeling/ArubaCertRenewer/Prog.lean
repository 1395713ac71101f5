import Mathlib.Order.Basic
import Mathlib.Logic.Function.Basic

/- Programs that talk to an environment, and the histories of their runs.

   A program is a tree: it returns, or it makes a call and continues with
   whatever the environment answers. Nothing is assumed about the answers, so a
   statement about every run of a program is a statement about every behaviour
   of what it calls. Histories are kept newest event first; a program never
   reads its history, so a run from one history is a run from any other.

   `Runs` is a run to the end, `Reaches` a run so far (the program may still be
   going, or may never end), `play` the run against one fixed environment.
   `wp` is the weakest precondition over both: an obligation `G` for every call
   in the history it is made from, and a postcondition for every end. -/
namespace Effects

/-- What a program may call, and what each call is answered with. -/
structure Interface where
  Call : Type
  Ans : Call → Type

structure Event (I : Interface) where
  call : I.Call
  ans : I.Ans call

/-- The events so far, newest first. -/
abbrev History (I : Interface) := List (Event I)

/-- `unfinished` is a loop that has not ended within the steps it was given. -/
inductive Prog (I : Interface) (α : Type) where
  | ret (a : α)
  | call (c : I.Call) (k : I.Ans c → Prog I α)
  | unfinished

/-- An environment: every answer may depend on all that happened before. -/
abbrev Environment (I : Interface) := History I → (c : I.Call) → I.Ans c

variable {I : Interface} {α β γ : Type}

namespace Prog

def bind : Prog I α → (α → Prog I β) → Prog I β
  | ret a, f => f a
  | call c k, f => call c fun r => (k r).bind f
  | unfinished, _ => unfinished

instance : Monad (Prog I) where
  pure := ret
  bind := bind

theorem bind_ret : ∀ x : Prog I α, x.bind ret = x
  | ret _ => rfl
  | call c k => congrArg (call c) (funext fun r => bind_ret (k r))
  | unfinished => rfl

theorem bind_assoc' (f : α → Prog I β) (g : β → Prog I γ) :
    ∀ x : Prog I α, (x.bind f).bind g = x.bind fun a => (f a).bind g
  | ret _ => rfl
  | call c k => congrArg (call c) (funext fun r => bind_assoc' f g (k r))
  | unfinished => rfl

instance : LawfulMonad (Prog I) :=
  LawfulMonad.mk' _ bind_ret (fun _ _ => rfl) (fun x f g => bind_assoc' f g x)

/-- One call, its answer the result. -/
def perform (c : I.Call) : Prog I (I.Ans c) := call c ret

end Prog

/-- A run to the end: from history `h`, the program returns `a` with history `h'`. -/
inductive Runs : Prog I α → History I → α → History I → Prop where
  | ret {a : α} {h : History I} : Runs (.ret a) h a h
  | call {c : I.Call} {k : I.Ans c → Prog I α} {r : I.Ans c} {h h' : History I} {a : α} :
      Runs (k r) (⟨c, r⟩ :: h) a h' → Runs (.call c k) h a h'

/-- A run so far: from history `h`, the program has got to history `h'`. -/
inductive Reaches : Prog I α → History I → History I → Prop where
  | here {p : Prog I α} {h : History I} : Reaches p h h
  | call {c : I.Call} {k : I.Ans c → Prog I α} {r : I.Ans c} {h h' : History I} :
      Reaches (k r) (⟨c, r⟩ :: h) h' → Reaches (.call c k) h h'

/-- The run against one environment; `none` when it is unfinished. -/
def play (e : Environment I) : Prog I α → History I → Option α × History I
  | .ret a, h => (some a, h)
  | .call c k, h => play e (k (e h c)) (⟨c, e h c⟩ :: h)
  | .unfinished, h => (none, h)

theorem play_runs (e : Environment I) {a : α} {h' : History I} :
    ∀ (p : Prog I α) (h : History I), play e p h = (some a, h') → Runs p h a h'
  | .ret b, h, hp => by
    simp only [play, Prod.mk.injEq, Option.some.injEq] at hp
    obtain ⟨rfl, rfl⟩ := hp
    exact .ret
  | .call c k, h, hp => .call (play_runs e (k (e h c)) _ hp)
  | .unfinished, h, hp => by simp [play] at hp

theorem play_reaches (e : Environment I) :
    ∀ (p : Prog I α) (h : History I), Reaches p h (play e p h).2
  | .ret _, _ => .here
  | .call c k, h => .call (play_reaches e (k (e h c)) _)
  | .unfinished, _ => .here

theorem Runs.reaches {p : Prog I α} {h h' : History I} {a : α} (hr : Runs p h a h') :
    Reaches p h h' := by
  induction hr with
  | ret => exact .here
  | call _ ih => exact .call ih

/-- A run only adds to the history. -/
theorem Reaches.extends {p : Prog I α} {h h' : History I} (hr : Reaches p h h') :
    ∃ t, h' = t ++ h := by
  induction hr with
  | here => exact ⟨[], rfl⟩
  | call _ ih =>
    obtain ⟨t, rfl⟩ := ih
    exact ⟨_, List.append_cons t _ _⟩

theorem Reaches.suffix {p : Prog I α} {h h' : History I} (hr : Reaches p h h') : h <:+ h' :=
  hr.extends.imp fun _ ht => ht.symm

/-- The history a run starts from is only carried along. -/
theorem Runs.shift {p : Prog I α} {h h' : History I} {a : α} (hr : Runs p h a h') :
    ∃ t, h' = t ++ h ∧ ∀ g, Runs p g a (t ++ g) := by
  induction hr with
  | ret => exact ⟨[], rfl, fun _ => .ret⟩
  | @call c k r _ _ _ _ ih =>
    obtain ⟨t, rfl, ht⟩ := ih
    refine ⟨_, List.append_cons t _ _, fun g => .call (r := r) ?_⟩
    rw [← List.append_cons]
    exact ht _

/-- Two runs with the same answers are one run. -/
theorem Runs.unique {p : Prog I α} {h h₁ h₂ g : History I} {a b : α} (hr : Runs p h a h₁)
    (hr' : Runs p h b h₂) (h₁g : h₁ <:+ g) (h₂g : h₂ <:+ g) : a = b ∧ h₁ = h₂ := by
  induction hr with
  | ret =>
    cases hr'
    exact ⟨rfl, rfl⟩
  | @call c k r h h₁ a hk ih =>
    cases hr' with
    | @call _ _ r' _ _ _ hk' =>
      obtain ⟨t, ht⟩ := hk.reaches.extends
      obtain ⟨t', ht'⟩ := hk'.reaches.extends
      have hs : ⟨c, r⟩ :: h <:+ g := List.IsSuffix.trans ⟨t, ht.symm⟩ h₁g
      have hs' : ⟨c, r'⟩ :: h <:+ g := List.IsSuffix.trans ⟨t', ht'.symm⟩ h₂g
      have he := (List.suffix_of_suffix_length_le hs hs' (by simp)).eq_of_length (by simp)
      obtain rfl : r = r' := by simpa using he
      exact ih hk' h₁g

theorem runs_bind {p : Prog I α} {f : α → Prog I β} {h h'' : History I} {b : β} :
    Runs (p >>= f) h b h'' ↔ ∃ a h', Runs p h a h' ∧ Runs (f a) h' b h'' := by
  constructor
  · intro hr
    induction p generalizing h with
    | ret a => exact ⟨a, h, .ret, hr⟩
    | call c k ih =>
      cases hr with
      | call hk =>
        obtain ⟨a, h', hp, hf⟩ := ih _ hk
        exact ⟨a, h', .call hp, hf⟩
    | unfinished => nomatch hr
  · rintro ⟨a, h', hp, hf⟩
    induction hp with
    | ret => exact hf
    | call _ ih => exact .call (ih hf)

theorem reaches_bind {p : Prog I α} {f : α → Prog I β} {h h'' : History I} :
    Reaches (p >>= f) h h'' → Reaches p h h'' ∨
      ∃ a h', Runs p h a h' ∧ Reaches (f a) h' h'' := by
  intro hr
  induction p generalizing h with
  | ret a => exact .inr ⟨a, h, .ret, hr⟩
  | call c k ih =>
    cases hr with
    | here => exact .inl .here
    | call hk =>
      obtain hp | ⟨a, h', hp, hf⟩ := ih _ hk
      · exact .inl (.call hp)
      · exact .inr ⟨a, h', .call hp, hf⟩
  | unfinished =>
    cases hr with
    | here => exact .inl .here

theorem play_bind (e : Environment I) (f : α → Prog I β) :
    ∀ (p : Prog I α) (h : History I),
      play e (p >>= f) h = match play e p h with
        | (some a, h') => play e (f a) h'
        | (none, h') => (none, h')
  | .ret _, _ => rfl
  | .call c k, h => play_bind e f (k (e h c)) _
  | .unfinished, _ => rfl

/-! ## Weakest preconditions -/

/-- Every call `c` is made from a history `h` with `G h c`, and every end satisfies `Q`. -/
def wp (G : History I → I.Call → Prop) : Prog I α → (α → History I → Prop) → History I → Prop
  | .ret a, Q, h => Q a h
  | .call c k, Q, h => G h c ∧ ∀ r, wp G (k r) Q (⟨c, r⟩ :: h)
  | .unfinished, _, _ => True

section
variable {G : History I → I.Call → Prop} {Q : α → History I → Prop} {h : History I}

theorem wp_bind (f : α → Prog I β) (Q : β → History I → Prop) :
    ∀ (p : Prog I α) (h : History I),
      wp G (p >>= f) Q h ↔ wp G p (fun a h' => wp G (f a) Q h') h
  | .ret _, _ => Iff.rfl
  | .call _ k, _ => and_congr Iff.rfl (forall_congr' fun r => wp_bind f Q (k r) _)
  | .unfinished, _ => Iff.rfl

/-- What is obliged and what is promised may be weakened, over the histories that extend `h`. -/
theorem wp_mono {G' : History I → I.Call → Prop} {Q' : α → History I → Prop}
    {p : Prog I α} (hw : wp G p Q h)
    (hG : ∀ t c, G (t ++ h) c → G' (t ++ h) c)
    (hQ : ∀ a t, Q a (t ++ h) → Q' a (t ++ h)) : wp G' p Q' h := by
  induction p generalizing h with
  | ret a => exact hQ a [] hw
  | call c k ih =>
    refine ⟨hG [] c hw.1, fun r => ih r (hw.2 r) (fun t c' => ?_) (fun a t => ?_)⟩
    · rw [List.append_cons]
      exact hG _ c'
    · rw [List.append_cons]
      exact hQ a _
  | unfinished => trivial

/-- A program's own history may be put on top of any other. -/
theorem wp_frame {p : Prog I α} {t : History I} (hw : wp G p Q t) :
    wp (fun h' c => ∃ u, h' = u ++ h ∧ G u c) p (fun a h' => ∃ u, h' = u ++ h ∧ Q a u) (t ++ h) := by
  induction p generalizing t with
  | ret a => exact ⟨t, rfl, hw⟩
  | call c k ih => exact ⟨⟨t, rfl, hw.1⟩, fun r => ih r (hw.2 r)⟩
  | unfinished => trivial

/-- Two obligations that are met and what they promise. -/
theorem wp_and {G' : History I → I.Call → Prop} {Q' : α → History I → Prop} {p : Prog I α} (h₁ : wp G p Q h)
    (h₂ : wp G' p Q' h) : wp (fun h c => G h c ∧ G' h c) p (fun a h' => Q a h' ∧ Q' a h') h := by
  induction p generalizing h with
  | ret a => exact ⟨h₁, h₂⟩
  | call c k ih => exact ⟨⟨h₁.1, h₂.1⟩, fun r => ih r (h₁.2 r) (h₂.2 r)⟩
  | unfinished => trivial

/-- What every allowed call keeps holds at every call and at every end. -/
theorem wp_invariant {J : History I → Prop} {p : Prog I α} (hw : wp G p Q h)
    (hJ : ∀ h c r, J h → G h c → J (⟨c, r⟩ :: h)) (h₀ : J h) :
    wp (fun h' c => J h' ∧ G h' c) p (fun a h' => J h' ∧ Q a h') h := by
  induction p generalizing h with
  | ret a => exact ⟨h₀, hw⟩
  | call c k ih => exact ⟨⟨h₀, hw.1⟩, fun r => ih r (hw.2 r) (hJ h c r h₀ hw.1)⟩
  | unfinished => trivial

theorem wp_runs {p : Prog I α} {h' : History I} {a : α} (hw : wp G p Q h) (hr : Runs p h a h') :
    Q a h' := by
  induction hr with
  | ret => exact hw
  | call _ ih => exact ih (hw.2 _)

/-- What holds of every run to the end is promised. -/
theorem wp_of_runs {p : Prog I α} (hq : ∀ a h', Runs p h a h' → Q a h') :
    wp (fun _ _ => True) p Q h := by
  induction p generalizing h with
  | ret a => exact hq a h .ret
  | call c k ih => exact ⟨trivial, fun r => ih r fun a h' hr => hq a h' (.call hr)⟩
  | unfinished => trivial

/-- What holds of every run to the end is promised beside any obligation that is met. -/
theorem wp_ended {Q' : α → History I → Prop} {p : Prog I α} (hw : wp G p Q h)
    (hq : ∀ a h', Runs p h a h' → Q' a h') : wp G p Q' h := by
  induction p generalizing h with
  | ret a => exact hq a h .ret
  | call c k ih => exact ⟨hw.1, fun r => ih r (hw.2 r) fun a h' hr => hq a h' (.call hr)⟩
  | unfinished => trivial

/-- Every call of a run so far was made where `G` allows it. -/
theorem wp_reaches {p : Prog I α} {h' : History I} (hw : wp G p Q h) (hr : Reaches p h h')
    {post pre : History I} {ev : Event I} (hs : h' = post ++ ev :: pre) (hn : h.length ≤ pre.length) :
    G pre ev.call := by
  induction hr generalizing post with
  | here =>
    have hl := congrArg List.length hs
    rw [List.length_append, List.length_cons] at hl
    omega
  | @call c k r h h' hr ih =>
    by_cases hlt : h.length < pre.length
    · exact ih (hw.2 r) hs hlt
    · -- the event is the first one of this run
      obtain ⟨t, ht⟩ := hr.extends
      have hlen : pre.length = h.length := by omega
      have hcut : (post ++ [ev]) ++ pre = (t ++ [⟨c, r⟩]) ++ h := by
        rw [List.append_assoc, List.append_assoc]
        exact hs.symm.trans ht
      obtain ⟨hl, rfl⟩ := List.append_inj' hcut hlen
      obtain ⟨_, he⟩ := List.append_inj' hl rfl
      obtain rfl : ev = ⟨c, r⟩ := by simpa using he
      exact hw.1

end

end Effects
