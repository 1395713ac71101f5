import ArubaCertRenewer.Prog

/- Processes that each run a program, their calls interleaved over one shared state.

   A process makes the calls of its program, in the program's order; which
   process goes next is left open, and so is what happens to the shared state
   between two calls. A process may end at any point, as it does when it is
   killed. `Reached` is where such a run can get to: what holds of every reached
   configuration holds of every schedule. -/
namespace Effects

/-- Where a run stands: the shared state, what each process did, and which of them still run. -/
structure Config (I : Interface) (ι σ : Type) where
  shared : σ
  history : ι → History I
  live : ι → Prop

/-- How the shared state answers a call, takes the end of a process, and changes by itself. -/
structure Shared (I : Interface) (ι σ : Type) where
  answers : ι → σ → Event I → σ → Prop
  dies : ι → σ → σ → Prop
  disturbs : Config I ι σ → σ → Prop

section interleaving
variable {I : Interface} {ι σ α : Type} [DecidableEq ι]

namespace Config

/-- No process has made a call. -/
def start (I : Interface) (ι : Type) {σ : Type} (s : σ) : Config I ι σ := ⟨s, fun _ => [], fun _ => True⟩

def called (c : Config I ι σ) (i : ι) (ev : Event I) (s : σ) : Config I ι σ :=
  { c with shared := s, history := Function.update c.history i (ev :: c.history i) }

def ended (c : Config I ι σ) (i : ι) (s : σ) : Config I ι σ :=
  { c with shared := s, live := fun j => j ≠ i ∧ c.live j }

variable (c : Config I ι σ) (i : ι) (ev : Event I) (s : σ)

@[simp] theorem called_history_self : (c.called i ev s).history i = ev :: c.history i :=
  Function.update_self ..

theorem called_history_ne {j : ι} (hj : j ≠ i) : (c.called i ev s).history j = c.history j :=
  Function.update_of_ne hj ..

end Config

/-- One step of one process, or of what is around them. -/
inductive Step (S : Shared I ι σ) (program : ι → Prog I α) : Config I ι σ → Config I ι σ → Prop where
  | call {c : Config I ι σ} {i : ι} {ev : Event I} {s : σ} : c.live i →
      Reaches (program i) [] (ev :: c.history i) → S.answers i c.shared ev s →
      Step S program c (c.called i ev s)
  | death {c : Config I ι σ} {i : ι} {s : σ} : c.live i → S.dies i c.shared s →
      Step S program c (c.ended i s)
  | outside {c : Config I ι σ} {s : σ} : S.disturbs c s → Step S program c { c with shared := s }

/-- The configurations of the runs, from any shared state. -/
inductive Reached (S : Shared I ι σ) (program : ι → Prog I α) : Config I ι σ → Prop where
  | start (s : σ) : Reached S program (.start I ι s)
  | step {c c' : Config I ι σ} : Reached S program c → Step S program c c' → Reached S program c'

variable {S : Shared I ι σ} {program : ι → Prog I α} {c : Config I ι σ}

/-- What holds at the start and is kept by every step holds of every reached configuration. -/
theorem Reached.invariant {J : Config I ι σ → Prop} (hstart : ∀ s, J (.start I ι s))
    (hstep : ∀ c c', J c → Step S program c c' → J c') (hc : Reached S program c) : J c := by
  induction hc with
  | start s => exact hstart s
  | step _ hs ih => exact hstep _ _ ih hs

/-- What each process did is a run of its own program. -/
theorem Reached.own (hc : Reached S program c) (i : ι) : Reaches (program i) [] (c.history i) := by
  revert i
  refine hc.invariant (J := fun c => ∀ i, Reaches (program i) [] (c.history i)) (fun _ _ => .here)
    fun c c' ih hs => ?_
  cases hs with
  | @call i ev s _ hreach _ =>
    intro j
    by_cases hj : j = i
    · subst hj
      rw [Config.called_history_self]
      exact hreach
    · rw [Config.called_history_ne c i ev s hj]
      exact ih j
  | death _ _ => exact ih
  | outside _ => exact ih

/-- Every call of every process was made where its program may make it. -/
theorem Reached.gated {G : ι → History I → I.Call → Prop} {Q : ι → α → History I → Prop}
    (hw : ∀ i, wp (G i) (program i) (Q i) []) (hc : Reached S program c) {i : ι}
    {post pre : History I} {ev : Event I} (hs : c.history i = post ++ ev :: pre) : G i pre ev.call :=
  wp_reaches (hw i) (hc.own i) hs (Nat.zero_le _)

/-! One process that runs while the others wait. -/

/-- How the shared state answers the calls of one process. -/
inductive Served (S : Shared I ι σ) (i : ι) (s : σ) : History I → σ → Prop where
  | nil : Served S i s [] s
  | cons {t : History I} {ev : Event I} {s₁ s₂ : σ} : Served S i s t s₁ → S.answers i s₁ ev s₂ →
      Served S i s (ev :: t) s₂

omit [DecidableEq ι] in
/-- A run so far has been wherever its history has. -/
theorem Reaches.of_suffix {p : Prog I α} {h h' g : History I} (hr : Reaches p h g) (hs : h' <:+ g)
    (hlen : h.length ≤ h'.length) : Reaches p h h' := by
  have hsame : ∀ {h : History I}, h <:+ g → h.length = h'.length → h = h' := fun hg he =>
    (List.suffix_of_suffix_length_le hg hs (Nat.le_of_eq he)).eq_of_length he
  induction hr with
  | here =>
    obtain rfl := hsame (List.suffix_refl _) (Nat.le_antisymm hlen hs.length_le)
    exact .here
  | @call c k r h g hr ih =>
    obtain hlt | heq := Nat.lt_or_eq_of_le hlen
    · exact .call (ih hs hlt hsame)
    · obtain rfl := hsame ((List.suffix_cons _ _).trans hr.suffix) heq
      exact .here

theorem Reached.run (hc : Reached S program c) {i : ι} (hi : c.live i) {t : History I} {s : σ}
    (hserved : Served S i c.shared t s) (hreach : Reaches (program i) [] (t ++ c.history i)) :
    Reached S program
      { c with shared := s, history := Function.update c.history i (t ++ c.history i) } := by
  induction hserved with
  | nil =>
    rw [List.nil_append, Function.update_eq_self]
    exact hc
  | @cons t ev s₁ s₂ _ hanswer ih =>
    have hbefore := ih (hreach.of_suffix (List.suffix_cons ev _) (Nat.zero_le _))
    have hnext := Reached.step hbefore (Step.call hi (by simpa using hreach) hanswer)
    simpa [Config.called] using hnext

end interleaving

end Effects
