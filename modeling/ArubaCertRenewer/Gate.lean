import ArubaCertRenewer.Driver

/- What the specifications of the operations speak about: the marks a history
   carries (the connections opened and the commands that change something), and
   gates, which say when each mark may be made.

   A quiet piece of a history is one without marks. `Only K` is a computation
   that makes calls of the kind `K`; a `Silent` one only makes quiet pieces. -/
namespace ArubaCertRenewer
open PyText Effects Effects.Py

/-- The calls the order of a renewal is about. -/
inductive Mark where
  | connect
  | createCsr (command : Text)
  | certAdd (payload : Option Json)
  | install
  | paste (text : Text)
  | confirm

namespace Mark

def isCreateCsr : Mark → Bool
  | .createCsr _ => true
  | _ => false

def isInstall : Mark → Bool
  | .install => true
  | _ => false

/-- Whether the mark is a command or a request that changes something. -/
def mutates : Mark → Bool
  | .connect => false
  | _ => true

end Mark

def commandMark (command : Text) : Option Mark :=
  if createCsrCommand.isPrefixOf command then some (.createCsr command)
  else if command == installCommand then some .install
  else if command == confirmCommand then some .confirm
  else none

def Call.mark? : Call → Option Mark
  | connect _ => some .connect
  | sendCommand command | sendCommandTiming command => commandMark command
  | writeChannel text => some (.paste text)
  | openUrl method path payload =>
    if method == "POST" && path == certAddPath then some (.certAdd payload) else none
  | _ => none

/-- The marks of a history, newest first. -/
def marks (h : History World) : List Mark := h.filterMap fun ev => ev.call.mark?

/-- The marks of a history that change something, newest first. -/
def mutations (h : History World) : List Mark := (marks h).filter Mark.mutates

def Call.opensSession : Call → Bool
  | connect _ => true
  | _ => false

/-- The events since the last connection was opened. -/
def session (h : History World) : History World := h.takeWhile fun ev => !ev.call.opensSession

inductive Group where
  | lock | credentials | output | core
  deriving DecidableEq, Repr

def Call.group : Call → Group
  | openLockDirectory | openLockFile _ _ | fstat _ | flock _ | statLockPath _ _ | closeFd _ => .lock
  | inputUsername | getpass | openPasswordFile _ | readPassword _ | closePasswordFile
  | resolvePath _ _ => .credentials
  | openDevnull | closeDevnull _ => .output
  | _ => .core

/-- Only core calls are made, and a mark only where `φ` allows it. -/
def gate (φ : History World → Mark → Prop) (h : History World) (c : Call) : Prop :=
  c.group = .core ∧ ∀ m, c.mark? = some m → φ h m

/-- No mark is made. -/
abbrev quiet : History World → Call → Prop := gate fun _ _ => False

section marks
variable {t u h : History World}

@[simp] theorem marks_nil : marks [] = [] := rfl

@[simp] theorem marks_append : marks (t ++ h) = marks t ++ marks h := List.filterMap_append

@[simp] theorem mutations_append : mutations (t ++ h) = mutations t ++ mutations h := by
  simp [mutations]

theorem marks_cons {ev : Event World} : marks (ev :: h) = ev.call.mark?.toList ++ marks h := by
  cases hm : ev.call.mark? <;> simp [marks, hm]

/-- A call without a mark leaves the marks alone. -/
theorem marks_cons_quiet {ev : Event World} (hq : ev.call.mark? = none) :
    marks (ev :: h) = marks h := by
  simp [marks_cons, hq]

theorem mem_of_any_isInstall {ms : List Mark} (hm : ms.any Mark.isInstall = true) :
    Mark.install ∈ ms := by
  obtain ⟨m, hm, hi⟩ := List.any_eq_true.mp hm
  cases m with
  | install => exact hm
  | _ => cases hi

theorem commandMark_ne_connect (command : Text) : commandMark command ≠ some .connect := by
  unfold commandMark
  split
  · simp
  split
  · simp
  split <;> simp

theorem mark_connect_iff {c : Call} : c.mark? = some .connect ↔ c.opensSession = true := by
  cases c with
  | sendCommand command => simp [Call.mark?, Call.opensSession, commandMark_ne_connect]
  | sendCommandTiming command => simp [Call.mark?, Call.opensSession, commandMark_ne_connect]
  | openUrl method path payload =>
    simp only [Call.mark?, Call.opensSession]
    split <;> simp
  | _ => simp [Call.mark?, Call.opensSession]

theorem session_append_of_quiet (hq : Mark.connect ∉ marks t) : session (t ++ h) = t ++ session h := by
  induction t with
  | nil => rfl
  | cons ev t ih =>
    rw [marks_cons, List.mem_append, not_or] at hq
    have hev : ev.call.opensSession = false := by
      rw [← Bool.not_eq_true, ← mark_connect_iff, ← Option.mem_toList]
      exact hq.1
    rw [List.cons_append, List.cons_append, ← ih hq.2]
    exact List.takeWhile_cons_of_pos (by simp [hev])

/-- Once a connection was opened, its session does not reach back further. -/
theorem session_append_of_connect (hc : Mark.connect ∈ marks t) :
    session (t ++ h) = session t := by
  induction t with
  | nil => cases hc
  | cons ev t ih =>
    cases hev : ev.call.opensSession with
    | true => simp [session, hev]
    | false =>
      have hne : ev.call.mark? ≠ some .connect := by
        rw [Ne, mark_connect_iff, hev]
        simp
      have hc' : Mark.connect ∈ marks t := by
        rw [marks_cons, List.mem_append, Option.mem_toList] at hc
        exact hc.resolve_left hne
      rw [List.cons_append]
      calc session (ev :: (t ++ h)) = ev :: session (t ++ h) := by simp [session, hev]
        _ = ev :: session t := by rw [ih hc']
        _ = session (ev :: t) := by simp [session, hev]

/-- The session of a connection that was just opened, after `t`. -/
theorem session_opened {d : Device} {x : Except StdError Unit} (hq : Mark.connect ∉ marks t) :
    session (t ++ ⟨.connect d, x⟩ :: h) = t := by
  rw [session_append_of_quiet hq]
  simp [session, Call.opensSession]

end marks

section gates
variable {φ : History World → Mark → Prop} {h : History World} {c : Call}

/-- A core call without a mark is always allowed. -/
theorem gate_unmarked (hc : c.group = .core) (hm : c.mark? = none) : gate φ h c :=
  ⟨hc, fun m h => by rw [hm] at h; cases h⟩

/-- Whatever a quiet program did, it made no mark. -/
theorem wp_quiet {α : Type} {p : Prog World α} {Q : α → History World → Prop} (hw : wp quiet p Q h) :
    wp quiet p (fun a h' => Q a h' ∧ marks h' = marks h) h := by
  suffices hs : ∀ h₀, marks h = marks h₀ → wp quiet p (fun a h' => Q a h' ∧ marks h' = marks h₀) h from
    hs h rfl
  induction p generalizing h with
  | ret a => exact fun h₀ he => ⟨hw, he⟩
  | call c k ih =>
    intro h₀ he
    refine ⟨hw.1, fun r => ih r (hw.2 r) h₀ ?_⟩
    rw [marks_cons_quiet, he]
    cases hm : c.mark? with
    | none => rfl
    | some m => exact (hw.1.2 m hm).elim
  | unfinished => exact fun _ _ => trivial

/-- What every allowed mark keeps of the marks so far, a run keeps. -/
theorem wp_marks {α : Type} {I : List Mark → Prop} (hφ : ∀ h m, φ h m → I (marks h) → I (m :: marks h))
    {p : Prog World α} {Q : α → History World → Prop} (hw : wp (gate φ) p Q h)
    (h₀ : I (marks h)) : wp (gate φ) p (fun a h' => Q a h' ∧ I (marks h')) h := by
  induction p generalizing h with
  | ret a => exact ⟨hw, h₀⟩
  | call c k ih =>
    refine ⟨hw.1, fun r => ih r (hw.2 r) ?_⟩
    rw [marks_cons]
    cases hm : c.mark? with
    | none => exact h₀
    | some m => exact hφ h m (hw.1.2 m hm) h₀
  | unfinished => trivial

end gates

/-! ## Rules of calls -/

section rules
variable {σ α β : Type} {G : History World → Call → Prop} {s : σ} {h : History World}

/-- Calls that make no mark are allowed. -/
def Lenient (G : History World → Call → Prop) : Prop :=
  ∀ h c, c.group = .core → c.mark? = none → G h c

theorem lenient_gate {φ : History World → Mark → Prop} : Lenient (gate φ) :=
  fun _ _ hc hm => gate_unmarked hc hm

@[simp] theorem liftStd_ok {a : α} : liftStd (.ok a) = .ok a := rfl

@[simp] theorem liftStd_error {e : StdError} : liftStd (α := α) (.error e) = .error (.std e) := rfl

@[simp] theorem forall_except {ε : Type} {p : Except ε α → Prop} :
    (∀ r, p r) ↔ (∀ a, p (.ok a)) ∧ ∀ e, p (.error e) := by
  constructor
  · exact fun hp => ⟨fun a => hp _, fun e => hp _⟩
  · rintro ⟨hok, herr⟩ (e | a)
    · exact herr e
    · exact hok a

theorem wpy_ask {c : Call} {view : Call.Ans c → Except StdError α}
    {Q : Except Exc α → σ → History World → Prop} :
    wpy G (ask c view) Q s h ↔
      G h c ∧ ∀ r, Q (liftStd (view r)) s (⟨c, r⟩ :: h) := Iff.rfl

theorem wpy_call {c : Call} {f : Call.Ans c → Act σ α} {Q : Except Exc α → σ → History World → Prop} :
    wpy G (perform (I := World) c >>= f) Q s h ↔
      G h c ∧ ∀ r, wpy G (f r) Q s (⟨c, r⟩ :: h) := Iff.rfl

theorem wpy_bind_ask {c : Call} {view : Call.Ans c → Except StdError α} {f : α → Act σ β}
    {Q : Except Exc β → σ → History World → Prop} (hc : G h c)
    (hok : ∀ r a, view r = .ok a → wpy G (f a) Q s (⟨c, r⟩ :: h))
    (herr : ∀ r e, view r = .error e → Q (.error (.std e)) s (⟨c, r⟩ :: h)) :
    wpy G (ask c view >>= f) Q s h := by
  refine wpy_bind.mpr (wpy_ask.mpr ⟨hc, fun r => ?_⟩)
  cases hv : view r with
  | ok a => exact hok r a hv
  | error e => exact herr r e hv

end rules

theorem wpy_marks {σ α : Type} {φ : History World → Mark → Prop} {I : List Mark → Prop}
    {x : Act σ α} {Q : Except Exc α → σ → History World → Prop} {s : σ} {h : History World}
    (hw : wpy (gate φ) x Q s h) (hφ : ∀ h m, φ h m → I (marks h) → I (m :: marks h))
    (h₀ : I (marks h)) : wpy (gate φ) x (fun r s' h' => Q r s' h' ∧ I (marks h')) s h :=
  wp_marks hφ hw h₀

/-! ## Computations that make calls of one kind and assign nothing -/

/-- The history a program starts from is followed by events of the kind of its calls. -/
theorem wp_calls {α : Type} {K : Call → Prop} {p : Prog World α}
    {Q : α → History World → Prop} {h : History World} (hw : wp (fun _ c => K c) p Q h) :
    wp (fun h' c => K c ∧ ∃ t, h' = t ++ h ∧ ∀ ev ∈ t, K ev.call) p
      (fun a h' => Q a h' ∧ ∃ t, h' = t ++ h ∧ ∀ ev ∈ t, K ev.call) h := by
  suffices hs : ∀ g, wp (fun _ c => K c) p Q g → ∀ t, (∀ ev ∈ t, K ev.call) → g = t ++ h →
      wp (fun h' c => K c ∧ ∃ t, h' = t ++ h ∧ ∀ ev ∈ t, K ev.call) p
        (fun a h' => Q a h' ∧ ∃ t, h' = t ++ h ∧ ∀ ev ∈ t, K ev.call) g from
    hs h hw [] (by simp) rfl
  clear hw
  induction p with
  | ret a => exact fun g hw t ht hg => ⟨hw, t, hg, ht⟩
  | call c k ih =>
    intro g hw t ht hg
    refine ⟨⟨hw.1, t, hg, ht⟩, fun r => ih r _ (hw.2 r) (⟨c, r⟩ :: t) ?_ (by rw [hg]; rfl)⟩
    intro ev hev
    obtain rfl | hev := List.mem_cons.mp hev
    · exact hw.1
    · exact ht ev hev
  | unfinished => exact fun _ _ _ _ _ => trivial

/-- Only calls of the kind `K` are made, and the variables are as they were. -/
def Only {σ α : Type} (K : Call → Prop) (x : Act σ α) : Prop :=
  ∀ s h, wpy (fun _ c => K c) x (fun _ s' _ => s' = s) s h

/-- A core call that makes no mark. -/
def Call.Unmarked (c : Call) : Prop := c.group = .core ∧ c.mark? = none

/-- Only core calls without a mark. -/
abbrev Silent {σ α : Type} (x : Act σ α) : Prop := Only Call.Unmarked x

namespace Only
variable {σ τ α β γ : Type} {K : Call → Prop}

theorem pure' (a : α) : Only K (pure a : Act σ α) := fun _ _ => rfl

theorem throw' (e : Exc) : Only K (throw e : Act σ α) := fun _ _ => rfl

theorem result' (x : Except Exc α) : Only K (result x : Act σ α) := fun _ _ => rfl

theorem raiseIf' (b : Bool) (e : Exc) : Only K (raiseIf b e : Act σ Unit) := by
  cases b
  · exact pure' ()
  · exact throw' e

theorem call {c : Call} (hc : K c) : Only K (perform (I := World) c : Act σ (Call.Ans c)) :=
  fun _ _ => ⟨hc, fun _ => rfl⟩

theorem ask' {c : Call} {view : Call.Ans c → Except StdError α} (hc : K c) :
    Only K (ask c view : Act σ α) :=
  fun _ _ => wpy_ask.mpr ⟨hc, fun _ => rfl⟩

theorem bind' {x : Act σ α} {f : α → Act σ β} (hx : Only K x) (hf : ∀ a, Only K (f a)) :
    Only K (x >>= f) := by
  intro s h
  refine wpy_seq (hx s h) ?_ ?_
  · rintro a s' t rfl
    exact hf a s' _
  · exact fun _ _ _ hs => hs

theorem handle' {x : Act σ α} {f : Exc → Act σ α} (hx : Only K x) (hf : ∀ e, Only K (f e)) :
    Only K (handle x f) := by
  intro s h
  refine wpy_handle.mpr (wpy_post (hx s h) ?_)
  rintro (e | a) s' t rfl
  · exact hf e s' _
  · rfl

theorem attempt' {x : Act σ α} (hx : Only K x) : Only K (attempt x) :=
  fun s h => wpy_attempt.mpr (hx s h)

theorem within' {enter : Act σ γ} {leave : γ → Option Exc → Act σ Unit} {body : γ → Act σ α}
    (he : Only K enter) (hl : ∀ c f, Only K (leave c f)) (hb : ∀ c, Only K (body c)) :
    Only K (within enter leave body) := by
  intro s h
  refine wpy_within.mpr (wpy_post (he s h) ?_)
  rintro (e | c) s' t rfl
  · rfl
  rw [either_ok]
  refine wpy_post (hb c s' _) ?_
  rintro r s'' t' rfl
  exact hl c _ s'' _

theorem alone' {t : τ} {x : Act τ α}
    (hx : ∀ s h, wpy (fun _ c => K c) x (fun _ _ _ => True) s h) : Only K (alone t x : Act σ α) :=
  fun _ h => wpy_alone.mpr (wpy_post (hx t h) fun _ _ _ _ => rfl)

theorem mono {K' : Call → Prop} {x : Act σ α} (hx : Only K x) (hK : ∀ c, K c → K' c) : Only K' x :=
  fun s h => wpy_mono (hx s h) (fun _ c => hK c) fun _ _ _ hs => hs

/-- A run adds only events of the kind, and leaves the variables. -/
theorem ends {x : Act σ α} {s s' : σ} {h h' : History World} {r : Except Exc α} (hx : Only K x)
    (hr : Ends x s h r s' h') : s' = s ∧ ∃ t, h' = t ++ h ∧ ∀ ev ∈ t, K ev.call :=
  wp_runs (wp_calls (hx s h)) hr

/-- A computation of the kind may run wherever its calls are allowed. -/
theorem wpy_of {x : Act σ α} {s : σ} {h : History World} {G : History World → Call → Prop}
    {Q : Except Exc α → σ → History World → Prop} (hx : Only K x)
    (hG : ∀ t c, (∀ ev ∈ t, K ev.call) → K c → G (t ++ h) c)
    (hQ : ∀ r t, (∀ ev ∈ t, K ev.call) → Q r s (t ++ h)) : wpy G x Q s h := by
  refine wp_mono (wp_calls (hx s h)) ?_ ?_
  · intro t c hg
    obtain ⟨hc, t', ht, hk⟩ := hg
    obtain rfl := List.append_cancel_right ht
    exact hG t c hk hc
  · intro q t hq
    obtain ⟨hs, t', ht, hk⟩ := hq
    obtain rfl := List.append_cancel_right ht
    obtain ⟨r, s'⟩ := q
    obtain rfl : s' = s := hs
    exact hQ r t hk

end Only

/-- The gate of a silent computation. -/
abbrev unmarked : History World → Call → Prop := fun _ c => c.Unmarked

theorem lenient_unmarked : Lenient unmarked := fun _ _ hc hm => ⟨hc, hm⟩

section silent
variable {σ α : Type} {G : History World → Call → Prop} {s : σ} {h : History World} {x : Act σ α}
  {Q : Except Exc α → σ → History World → Prop}

/-- A computation without marks may run wherever such calls are allowed. -/
theorem wpy_of_unmarked {R : Except Exc α → History World → Prop}
    (hx : wpy unmarked x (fun r s' t => s' = s ∧ R r t) s []) (hG : Lenient G)
    (hQ : ∀ r t, marks t = [] → R r t → Q r s (t ++ h)) : wpy G x Q s h := by
  have hq : wpy quiet x (fun r s' t => s' = s ∧ R r t) s [] :=
    wpy_mono hx (fun _ _ hc => gate_unmarked hc.1 hc.2) fun _ _ _ hr => hr
  refine wpy_use (Q := fun r s' t => (s' = s ∧ R r t) ∧ marks t = []) (wp_quiet hq) ?_ ?_
  · intro t c hg
    refine hG _ c hg.1 ?_
    cases hm : c.mark? with
    | none => rfl
    | some m => exact (hg.2 m hm).elim
  · rintro r s' t ⟨⟨rfl, hr⟩, ht⟩
    exact hQ r t ht hr

/-- A silent computation only adds a piece of history without marks. -/
theorem Silent.wpy_of (hx : Silent x) (hG : Lenient G)
    (hQ : ∀ r t, marks t = [] → Q r s (t ++ h)) : wpy G x Q s h :=
  wpy_of_unmarked (R := fun _ _ => True) (wpy_post (hx s []) fun _ _ _ hs => ⟨hs, trivial⟩) hG
    fun r t ht _ => hQ r t ht

end silent

end ArubaCertRenewer
