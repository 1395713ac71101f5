import ArubaCertRenewer.BoundedChannel

/- What holds of the budgets over any use of the channel.

   `Touch` is one thing that happens to a connection: a receive, a send, a count,
   a charge, a scope entered or left, a poisoning. Every operation is a sequence of
   touches, so an invariant of the touches holds of every use of the connection,
   in any order and across exceptions. -/
namespace ArubaCertRenewer
open PyText Effects Effects.Py BoundedArubaConnection

namespace BoundedArubaConnection

/-- Neither the connection nor its channel is poisoned. -/
def Healthy (s : BoundedArubaConnection) : Prop :=
  s.boundedChannelPoisoned = false ∧ s.channel.poisoned = false

/-- What `poison` leaves. -/
def poisoned (s : BoundedArubaConnection) : BoundedArubaConnection :=
  (s.mapChannel fun c => { c with poisoned := true }).disposed

def counted (s : BoundedArubaConnection) (length : Nat) : BoundedArubaConnection :=
  s.mapChannel fun c => { c with used := c.used + length }

def charged (s : BoundedArubaConnection) (length : Int) : BoundedArubaConnection :=
  s.mapChannel fun c => { c with processedUsed := c.processedUsed + length }

/-- The counters are within their limits while the connection is healthy, and the flag of an open
scope is right. -/
structure Kept (s : BoundedArubaConnection) : Prop where
  within : s.Healthy → s.channel.overdrawn = false
  active : s.budgetScopeActive = s.scope.isSome

/-- The limits and counters outside every scope. -/
def outer (s : BoundedArubaConnection) : BudgetScope := s.scope.getD s.currentScope

/-- The outer limits are the same, the outer counters not lower. -/
structure OuterKept (s s' : BoundedArubaConnection) : Prop where
  limit : s'.outer.oldLimit = s.outer.oldLimit
  processedLimit : s'.outer.oldProcessedLimit = s.outer.oldProcessedLimit
  used : s.outer.oldUsed ≤ s'.outer.oldUsed
  processedUsed : s.outer.oldProcessedUsed ≤ s'.outer.oldProcessedUsed

theorem OuterKept.of_eq {s s' : BoundedArubaConnection} (h : s'.outer = s.outer) : OuterKept s s' :=
  ⟨congrArg _ h, congrArg _ h, Int.le_of_eq (congrArg _ h.symm), Int.le_of_eq (congrArg _ h.symm)⟩

theorem OuterKept.trans {s₁ s₂ s₃ : BoundedArubaConnection} (h : OuterKept s₁ s₂)
    (h' : OuterKept s₂ s₃) : OuterKept s₁ s₃ :=
  ⟨h'.limit.trans h.limit, h'.processedLimit.trans h.processedLimit, Int.le_trans h.used h'.used,
    Int.le_trans h.processedUsed h'.processedUsed⟩

theorem outer_none {s : BoundedArubaConnection} (h : s.scope = none) : s.outer = s.currentScope := by
  rw [outer, h, Option.getD_none]

theorem outer_some {s : BoundedArubaConnection} {scope : BudgetScope} (h : s.scope = some scope) :
    s.outer = scope := by
  rw [outer, h, Option.getD_some]

/-- An open scope keeps the outer counters aside; without one they only grow. -/
theorem OuterKept.mapChannel {s : BoundedArubaConnection} {f : BoundedSSHChannel → BoundedSSHChannel}
    (hlimit : (f s.channel).limit = s.channel.limit)
    (hprocessed : (f s.channel).processedLimit = s.channel.processedLimit)
    (hused : s.channel.used ≤ (f s.channel).used)
    (hprocessedUsed : s.channel.processedUsed ≤ (f s.channel).processedUsed) :
    OuterKept s (s.mapChannel f) := by
  cases hscope : s.scope with
  | none =>
    have hafter : (s.mapChannel f).scope = none := hscope
    constructor <;> rw [outer_none hscope, outer_none hafter]
    · exact hlimit
    · exact hprocessed
    · exact hused
    · exact hprocessedUsed
  | some scope =>
    have hafter : (s.mapChannel f).scope = some scope := hscope
    exact .of_eq ((outer_some hafter).trans (outer_some hscope).symm)

/-- The retained text is charged to the outer budget, which is not lowered by it. -/
theorem OuterKept.left {s : BoundedArubaConnection} {scope : BudgetScope} (h : s.scope = some scope) :
    OuterKept s (s.left scope) := by
  have hafter : (s.left scope).scope = none := rfl
  constructor <;> rw [outer_some h, outer_none hafter]
  · exact rfl
  · exact rfl
  · exact Int.le_add_of_nonneg_right (Int.natCast_nonneg _)
  · exact Int.le_add_of_nonneg_right (Int.natCast_nonneg _)

theorem overdrawn_eq_false {c : BoundedSSHChannel} :
    c.overdrawn = false ↔ c.used ≤ c.limit ∧ c.processedUsed ≤ c.processedLimit := by
  simp [BoundedSSHChannel.overdrawn]

theorem not_healthy_poisoned (s : BoundedArubaConnection) : ¬ s.poisoned.Healthy :=
  fun h => Bool.noConfusion h.1

theorem not_healthy_disposed (s : BoundedArubaConnection) : ¬ s.disposed.Healthy :=
  fun h => Bool.noConfusion h.1

end BoundedArubaConnection

/-- The calls that move no data. -/
def ChannelCall.Quiet : ChannelCall → Prop
  | .recv _ | .sendall _ => False
  | .binaryOverflow | .recvReady | .close => True

/-- A history without a receive or a send. -/
abbrev Quiet (t : History Transport) : Prop := ∀ ev ∈ t, ev.call.Quiet

/-- One thing that happens to a connection, with its events. -/
inductive Touch : BoundedArubaConnection → History Transport → BoundedArubaConnection → Prop where
  | look {s : BoundedArubaConnection} {t : History Transport} : Quiet t → Touch s t s
  | dispose {s : BoundedArubaConnection} : Touch s [] s.disposed
  | poison {s : BoundedArubaConnection} : Touch s [] s.poisoned
  /-- At least one byte is asked for, and at most one more than the budget has left. -/
  | receive {s : BoundedArubaConnection} {n : Int} {answer : Except ChannelError Bytes} :
      s.Healthy → 1 ≤ n → n ≤ s.channel.limit - s.channel.used + 1 →
      Touch s [⟨.recv n, answer⟩] s
  | send {s : BoundedArubaConnection} {data : Text} {answer : Except ChannelError Unit} :
      s.Healthy → Touch s [⟨.sendall data, answer⟩] s
  | count {s : BoundedArubaConnection} {length : Nat} :
      s.channel.used + length ≤ s.channel.limit → Touch s [] (s.counted length)
  /-- Bytes over the budget: they are counted, and the connection is poisoned. -/
  | overflow {s : BoundedArubaConnection} {length : Nat} :
      s.channel.limit < s.channel.used + length → Touch s [] (s.counted length).poisoned
  | charge {s : BoundedArubaConnection} {length : Int} : 0 ≤ length →
      s.channel.processedUsed + length ≤ s.channel.processedLimit → Touch s [] (s.charged length)
  | enter {s : BoundedArubaConnection} {limit : Int} : s.scope = none → s.retained ≤ limit →
      s.processedRetained ≤ limit → Touch s [] (s.entered limit)
  /-- The outer budget is put back and checked, unless the channel is poisoned already. -/
  | leave {s : BoundedArubaConnection} {scope : BudgetScope} : s.scope = some scope →
      (s.channel.poisoned = true ∨ (s.left scope).channel.overdrawn = false) →
      Touch s [] (s.left scope)
  | leaveOver {s : BoundedArubaConnection} {scope : BudgetScope} :
      s.scope = some scope → (s.left scope).channel.overdrawn = true → Touch s [] (s.left scope).poisoned
  | retain {s : BoundedArubaConnection} {text : Text} : Touch s [] { s with readBuffer := text }

namespace Touch
variable {s s' : BoundedArubaConnection} {t : History Transport}

theorem kept (ht : Touch s t s') (hs : s.Kept) : s'.Kept := by
  cases ht with
  | look | receive | send => exact hs
  | dispose => exact ⟨fun h => absurd h (not_healthy_disposed s), hs.active⟩
  | poison => exact ⟨fun h => absurd h (not_healthy_poisoned s), hs.active⟩
  | @count length hle =>
    refine ⟨fun h => ?_, hs.active⟩
    have hw := overdrawn_eq_false.mp (hs.within h)
    exact overdrawn_eq_false.mpr ⟨hle, hw.2⟩
  | overflow => exact ⟨fun h => absurd h (not_healthy_poisoned _), hs.active⟩
  | charge hlow hle =>
    refine ⟨fun h => ?_, hs.active⟩
    have hw := overdrawn_eq_false.mp (hs.within h)
    exact overdrawn_eq_false.mpr ⟨hw.1, hle⟩
  | enter hnone hr hp => exact ⟨fun _ => overdrawn_eq_false.mpr ⟨hr, hp⟩, rfl⟩
  | leave hsome hw =>
    refine ⟨fun h => ?_, rfl⟩
    obtain hp | hw := hw
    · exact absurd (h.2.symm.trans hp) Bool.false_ne_true
    · exact hw
  | leaveOver => exact ⟨fun h => absurd h (not_healthy_poisoned _), rfl⟩
  | retain => exact ⟨hs.within, hs.active⟩

/-- The poisoned state stays, and moves no data. -/
theorem silent (ht : Touch s t s') (hs : ¬ s.Healthy) : ¬ s'.Healthy ∧ Quiet t := by
  cases ht with
  | look hq => exact ⟨hs, hq⟩
  | dispose => exact ⟨not_healthy_disposed s, List.forall_mem_nil _⟩
  | poison | overflow | leaveOver => exact ⟨not_healthy_poisoned _, List.forall_mem_nil _⟩
  | receive h | send h => exact absurd h hs
  | count | charge | enter | leave | retain => exact ⟨hs, List.forall_mem_nil _⟩

end Touch

/-- Touches in a row. -/
inductive Touches : BoundedArubaConnection → History Transport → BoundedArubaConnection → Prop where
  | refl {s : BoundedArubaConnection} : Touches s [] s
  | step {s s₁ s' : BoundedArubaConnection} {t u : History Transport} :
      Touches s t s₁ → Touch s₁ u s' → Touches s (u ++ t) s'

namespace Touches
variable {s s₁ s' : BoundedArubaConnection} {t u : History Transport}

theorem single (ht : Touch s t s') : Touches s t s' := by
  have h := Touches.refl.step ht
  rwa [List.append_nil] at h

theorem trans (ht : Touches s t s₁) (hu : Touches s₁ u s') : Touches s (u ++ t) s' := by
  induction hu with
  | refl => exact ht
  | step _ hlast ih =>
    rw [List.append_assoc]
    exact ih.step hlast

theorem kept (ht : Touches s t s') (hs : s.Kept) : s'.Kept := by
  induction ht with
  | refl => exact hs
  | step _ hlast ih => exact hlast.kept ih

theorem silent (ht : Touches s t s') (hs : ¬ s.Healthy) : ¬ s'.Healthy ∧ Quiet t := by
  induction ht with
  | refl => exact ⟨hs, List.forall_mem_nil _⟩
  | step _ hlast ih =>
    obtain ⟨hs₁, hquiet⟩ := ih
    obtain ⟨hs', hquiet'⟩ := hlast.silent hs₁
    exact ⟨hs', List.forall_mem_append.mpr ⟨hquiet', hquiet⟩⟩

end Touches

/-! ## The operations -/

/-- From `s`, every end of `x` is reached by touches and satisfies `R`. -/
def Walks {α : Type} (x : Channel α) (s : BoundedArubaConnection)
    (R : Except ChannelError α → BoundedArubaConnection → Prop) : Prop :=
  wpy (fun _ _ => True) x (fun r s' t => Touches s t s' ∧ R r s') s []

section walks
variable {α β : Type} {s : BoundedArubaConnection}
variable {R : Except ChannelError α → BoundedArubaConnection → Prop}
variable {R' : Except ChannelError β → BoundedArubaConnection → Prop}

theorem Walks.weaken {x : Channel α} {S : Except ChannelError α → BoundedArubaConnection → Prop}
    (hx : Walks x s R) (h : ∀ r s', R r s' → S r s') : Walks x s S :=
  wpy_post hx fun r s' _ hr => ⟨hr.1, h r s' hr.2⟩

/-- The rest of a computation, from a state that touches lead to. -/
theorem Walks.resume {x : Channel α} {s₁ : BoundedArubaConnection} {t : History Transport}
    (ht : Touches s t s₁) (hx : Walks x s₁ R) :
    wpy (fun _ _ => True) x (fun r s' t' => Touches s t' s' ∧ R r s') s₁ t := by
  apply wpy_use hx
  · exact fun _ _ _ => trivial
  · exact fun _ _ _ hr => ⟨ht.trans hr.1, hr.2⟩

theorem Walks.bind {x : Channel α} {f : α → Channel β} (hx : Walks x s R)
    (hok : ∀ a s₁, R (.ok a) s₁ → Walks (f a) s₁ R')
    (herr : ∀ e s₁, R (.error e) s₁ → R' (.error e) s₁) : Walks (x >>= f) s R' := by
  refine wpy_bind.mpr (wpy_post hx fun r s₁ t hr => ?_)
  rw [List.append_nil] at hr ⊢
  cases r with
  | ok a => exact (hok a s₁ hr.2).resume hr.1
  | error e => exact ⟨hr.1, herr e s₁ hr.2⟩

theorem Walks.handle {x : Channel α} {f : ChannelError → Channel α}
    {S : Except ChannelError α → BoundedArubaConnection → Prop} (hx : Walks x s R)
    (hok : ∀ a s₁, R (.ok a) s₁ → S (.ok a) s₁)
    (herr : ∀ e s₁, R (.error e) s₁ → Walks (f e) s₁ S) : Walks (handle x f) s S := by
  refine wpy_handle.mpr (wpy_post hx fun r s₁ t hr => ?_)
  rw [List.append_nil] at hr ⊢
  cases r with
  | ok a => exact ⟨hr.1, hok a s₁ hr.2⟩
  | error e => exact (herr e s₁ hr.2).resume hr.1

theorem Walks.andFinally {x : Channel α} {f : Channel Unit}
    {S : Except ChannelError α → BoundedArubaConnection → Prop} (hx : Walks x s R)
    (hf : ∀ r s₁, R r s₁ → Walks f s₁ fun u s' => S (after u r) s') :
    Walks (andFinally x f) s S := by
  refine wpy_andFinally.mpr (wpy_post hx fun r s₁ t hr => ?_)
  rw [List.append_nil] at hr ⊢
  exact (hf r s₁ hr.2).resume hr.1

theorem Walks.attempt {x : Channel α} (hx : Walks x s R) :
    Walks (attempt x) s fun r s' => ∃ r₁, r = .ok r₁ ∧ R r₁ s' :=
  wpy_attempt.mpr (wpy_post hx fun r _ _ hr => ⟨hr.1, r, rfl, hr.2⟩)

/-- A touch that is made at once. -/
theorem Walks.after {x : Channel α} {s₁ : BoundedArubaConnection} (ht : Touch s [] s₁)
    (hx : Walks x s₁ R) : wpy (fun _ _ => True) x (fun r s' t => Touches s t s' ∧ R r s') s₁ [] :=
  hx.resume (.single ht)

end walks

section operations
variable {s : BoundedArubaConnection} {α : Type}

/-- An operation that ends without an exception leaves the connection healthy. -/
def HealthyEnd (r : Except ChannelError α) (s' : BoundedArubaConnection) : Prop :=
  ∀ a, r = .ok a → s'.Healthy

end operations

/-! ## Runs -/

/-- What holds of one step, from a state that is kept. -/
structure StepKept (s : BoundedArubaConnection) (step : ChannelStep) (r : Except ChannelError Text)
    (t : History Transport) (s' : BoundedArubaConnection) : Prop where
  /-- The step is a sequence of touches, which bound every receive. -/
  touches : Touches s t s'
  kept : s'.Kept
  /-- The text of a read is handed on by a healthy connection only. -/
  healthy : (step = .readBuffer ∨ ∃ rounds, step = .readChannel rounds) → HealthyEnd r s'
  /-- Leaving a scope gives back the limits, and counters that are not lower. -/
  outer : OuterKept s s'
  /-- A poisoned connection stays poisoned, and moves no data. -/
  silent : ¬ s.Healthy → ¬ s'.Healthy ∧ Quiet t

section runs
variable {s : BoundedArubaConnection} (decode : Bytes → Text)

/-- The steps with their answers, each from the state that the one before it left. -/
inductive Operated : BoundedArubaConnection → List ChannelStep → List (Except ChannelError Text) →
    History Transport → BoundedArubaConnection → Prop
  | nil {s : BoundedArubaConnection} : Operated s [] [] [] s
  | cons {s s₁ s' : BoundedArubaConnection} {step : ChannelStep} {steps : List ChannelStep}
      {r : Except ChannelError Text} {rs : List (Except ChannelError Text)}
      {t u : History Transport} : StepKept s step r t s₁ → Operated s₁ steps rs u s' →
      Operated s (step :: steps) (r :: rs) (u ++ t) s'

theorem Operated.touches {s s' : BoundedArubaConnection} {steps : List ChannelStep}
    {rs : List (Except ChannelError Text)} {t : History Transport}
    (h : Operated s steps rs t s') : Touches s t s' := by
  induction h with
  | nil => exact .refl
  | cons hstep _ ih => exact hstep.touches.trans ih

end runs

end ArubaCertRenewer
