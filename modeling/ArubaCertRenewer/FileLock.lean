import ArubaCertRenewer.Interleaving

/- Mutual exclusion by `flock` on a named file.

   A process opens the file, locks it without waiting, and then compares the
   file it locked with the one the path names. Only then is it inside. The store
   is the kernel's side: which file each path names, which file each descriptor
   of a process is open on, and which descriptor holds the lock of a file.

   The check after the lock is what makes this work when files are replaced: a
   path may be given another file at any time, but not while a process that
   passed the check is inside. -/
namespace Effects.FileLock

section
variable (Name Ino : Type)

/-- What a call of a process was to the store. `saw` and `named` are what `fstat` and `stat`
answered, `closed` is an attempt, whatever came of it. -/
inductive Op where
  | opened (name : Name) (fd : Nat)
  | locked (fd : Nat)
  | saw (fd : Nat) (ino : Ino)
  | named (name : Name) (ino : Ino)
  | closed (fd : Nat)
  | other

/-- How far a process is. -/
inductive Phase where
  | idle
  | opened (name : Name) (fd : Nat)
  | locked (name : Name) (fd : Nat)
  | checked (name : Name) (fd : Nat) (ino : Ino)
  | inside (name : Name) (fd : Nat)

structure Store (ι : Type) where
  path : Name → Option Ino
  file : ι → Nat → Option Ino
  owner : Ino → Option (ι × Nat)

end

variable {Name Ino ι : Type} [DecidableEq Name] [DecidableEq Ino] [DecidableEq ι]

/-! ## The store -/

namespace Store
variable (s : Store Name Ino ι) (i : ι) (fd : Nat) (ino : Ino)

def openOn : Store Name Ino ι :=
  { s with file := Function.update s.file i (Function.update (s.file i) fd (some ino)) }

def create (name : Name) : Store Name Ino ι :=
  { s with path := Function.update s.path name (some ino) }

def lock : Store Name Ino ι := { s with owner := Function.update s.owner ino (some (i, fd)) }

/-- The descriptor is closed, and the lock it held is free. -/
def close : Store Name Ino ι := { s with
  file := Function.update s.file i (Function.update (s.file i) fd none)
  owner := fun ino => if s.owner ino = some (i, fd) then none else s.owner ino }

/-- All descriptors of the process are closed. -/
def exit : Store Name Ino ι := { s with
  file := Function.update s.file i fun _ => none
  owner := fun ino => (s.owner ino).filter fun o => o.1 ≠ i }

end Store

/-- What the store does. A lock is only granted on a file that no other descriptor has locked. -/
inductive Does (i : ι) (s : Store Name Ino ι) : Op Name Ino → Store Name Ino ι → Prop where
  | opened {name : Name} {fd : Nat} {ino : Ino} : s.path name = some ino → s.file i fd = none →
      Does i s (.opened name fd) (s.openOn i fd ino)
  | created {name : Name} {fd : Nat} {ino : Ino} : s.path name = none → s.file i fd = none →
      Does i s (.opened name fd) ((s.create ino name).openOn i fd ino)
  | locked {fd : Nat} {ino : Ino} : s.file i fd = some ino →
      s.owner ino = none ∨ s.owner ino = some (i, fd) → Does i s (.locked fd) (s.lock i fd ino)
  | saw {fd : Nat} {ino : Ino} : (∀ ino', s.file i fd = some ino' → ino' = ino) →
      Does i s (.saw fd ino) s
  | named {name : Name} {ino : Ino} : s.path name = some ino → Does i s (.named name ino) s
  | closed {fd : Nat} : Does i s (.closed fd) (s.close i fd)
  /-- Closing failed, and the descriptor is still open. -/
  | leaked {fd : Nat} : Does i s (.closed fd) s
  | other : Does i s .other s

/-- A store that answers, once every path names a file. -/
def Store.serve (i : ι) (s : Store Name Ino ι) : Op Name Ino → Option (Store Name Ino ι)
  | .opened name fd =>
    match s.path name, s.file i fd with
    | some ino, none => some (s.openOn i fd ino)
    | _, _ => none
  | .locked fd =>
    match s.file i fd with
    | some ino =>
      if s.owner ino = none ∨ s.owner ino = some (i, fd) then some (s.lock i fd ino) else none
    | none => none
  | .saw fd ino => if s.file i fd = none ∨ s.file i fd = some ino then some s else none
  | .named name ino => if s.path name = some ino then some s else none
  | .closed fd => some (s.close i fd)
  | .other => some s

theorem does_of_serve {i : ι} {s s' : Store Name Ino ι} {op : Op Name Ino} (hs : s.serve i op = some s') :
    Does i s op s' := by
  cases op with
  | opened name fd =>
    simp only [Store.serve] at hs
    split at hs
    · next hpath hfile =>
      cases hs
      exact .opened hpath hfile
    · cases hs
  | locked fd =>
    simp only [Store.serve] at hs
    split at hs
    · next hfile =>
      split at hs
      · next howner =>
        cases hs
        exact .locked hfile howner
      · cases hs
    · cases hs
  | saw fd ino =>
    simp only [Store.serve] at hs
    split at hs
    · next hfile =>
      cases hs
      refine .saw fun ino' hino => ?_
      rw [hino] at hfile
      simpa using hfile
    · cases hs
  | named name ino =>
    simp only [Store.serve] at hs
    split at hs
    · next hpath =>
      cases hs
      exact .named hpath
    · cases hs
  | closed fd =>
    cases hs
    exact .closed
  | other =>
    cases hs
    exact .other

/-- What others may do to the store: any path but those in use may name another file. -/
structure Disturbs (used : Name → Prop) (s s' : Store Name Ino ι) : Prop where
  file : s'.file = s.file
  owner : s'.owner = s.owner
  path : ∀ name, used name → s'.path name = s.path name

/-! ## The phases -/

namespace Phase

/-- The descriptor of the file that was opened last. -/
def fd? : Phase Name Ino → Option Nat
  | idle => none
  | opened _ fd | locked _ fd | checked _ fd _ | inside _ fd => some fd

def next (p : Phase Name Ino) : Op Name Ino → Phase Name Ino
  | .opened name fd => .opened name fd
  | .locked fd =>
    match p with
    | .opened name fd' => if fd' = fd then .locked name fd else p
    | _ => p
  | .saw fd ino =>
    match p with
    | .locked name fd' => if fd' = fd then .checked name fd ino else p
    | _ => p
  | .named name ino =>
    match p with
    | .checked name' fd ino' => if name' = name ∧ ino' = ino then .inside name fd else p
    | _ => p
  | .closed fd => if p.fd? = some fd then .idle else p
  | .other => p

end Phase

/-- What the store holds for a process in a phase. -/
def Holds (s : Store Name Ino ι) (i : ι) : Phase Name Ino → Prop
  | .idle | .opened _ _ => True
  | .locked _ fd => ∃ ino, s.file i fd = some ino ∧ s.owner ino = some (i, fd)
  | .checked _ fd ino => s.file i fd = some ino ∧ s.owner ino = some (i, fd)
  | .inside name fd => ∃ ino, s.file i fd = some ino ∧ s.owner ino = some (i, fd) ∧ s.path name = some ino

section holds
variable {s s' : Store Name Ino ι} {i j : ι} {p : Phase Name Ino} {op : Op Name Ino}

omit [DecidableEq Name] [DecidableEq Ino] [DecidableEq ι] in
/-- A phase is kept where its descriptor, its lock and, inside, its path are. -/
theorem Holds.keep (hp : Holds s i p)
    (hfile : ∀ fd ino, p.fd? = some fd → s.file i fd = some ino → s'.file i fd = some ino)
    (howner : ∀ fd ino, p.fd? = some fd → s.owner ino = some (i, fd) → s'.owner ino = some (i, fd))
    (hpath : ∀ name fd, p = .inside name fd → s'.path name = s.path name) : Holds s' i p := by
  cases p with
  | idle => trivial
  | opened name fd => trivial
  | locked name fd =>
    obtain ⟨ino, hf, ho⟩ := hp
    exact ⟨ino, hfile fd ino rfl hf, howner fd ino rfl ho⟩
  | checked name fd ino => exact ⟨hfile fd ino rfl hp.1, howner fd ino rfl hp.2⟩
  | inside name fd =>
    obtain ⟨ino, hf, ho, hn⟩ := hp
    exact ⟨ino, hfile fd ino rfl hf, howner fd ino rfl ho, (hpath name fd rfl).trans hn⟩

/-- A call of a process brings it where its phase goes. -/
theorem Holds.next (hp : Holds s i p) (hd : Does i s op s') : Holds s' i (p.next op) := by
  cases hd with
  | opened _ _ => trivial
  | created _ _ => trivial
  | @locked fd ino hf ho =>
    have hkeep : Holds (s.lock i fd ino) i p := by
      refine hp.keep (fun _ _ _ h => h) (fun fd' ino' _ hown => ?_) fun _ _ _ => rfl
      by_cases he : ino' = ino
      · -- the lock it asks for is the one it has
        subst he
        obtain rfl : fd' = fd := by simpa [hown] using ho
        exact Function.update_self ..
      · exact (Function.update_of_ne he ..).trans hown
    cases p with
    | opened name fd' =>
      simp only [Phase.next]
      split
      · exact ⟨ino, hf, Function.update_self ..⟩
      · trivial
    | _ => exact hkeep
  | @saw fd ino hsaw =>
    cases p with
    | locked name fd' =>
      simp only [Phase.next]
      split
      · next he =>
        subst he
        obtain ⟨ino', hf, ho⟩ := hp
        obtain rfl := hsaw ino' hf
        exact ⟨hf, ho⟩
      · exact hp
    | _ => exact hp
  | @named name ino hpath =>
    cases p with
    | checked name' fd ino' =>
      simp only [Phase.next]
      split
      · next he =>
        obtain ⟨rfl, rfl⟩ := he
        exact ⟨ino', hp.1, hp.2, hpath⟩
      · exact hp
    | _ => exact hp
  | @closed fd =>
    simp only [Phase.next]
    split
    · trivial
    next hne =>
    refine hp.keep (fun fd' ino hfd hf => ?_) (fun fd' ino hfd ho => ?_) fun _ _ _ => rfl
    · have he : fd' ≠ fd := fun he => hne (he ▸ hfd)
      exact (congrFun (Function.update_self ..) fd').trans ((Function.update_of_ne he ..).trans hf)
    · have he : fd' ≠ fd := fun he => hne (he ▸ hfd)
      simp only [Store.close, ho, Option.some.injEq, Prod.mk.injEq, true_and, if_neg he]
  | leaked =>
    simp only [Phase.next]
    split
    · trivial
    · exact hp
  | other => exact hp

/-- A call of another process leaves a process where it is. -/
theorem Holds.other (hp : Holds s i p) (hd : Does j s op s') (hij : i ≠ j) : Holds s' i p := by
  have hne : ∀ fd fd' : Nat, (i, fd) ≠ (j, fd') := fun fd fd' he => hij (Prod.mk.inj he).1
  cases hd with
  | @opened name fd ino hn hf =>
    refine hp.keep (fun fd' ino' _ h => ?_) (fun _ _ _ h => h) fun _ _ _ => rfl
    exact (congrFun (Function.update_of_ne hij ..) fd').trans h
  | @created name fd ino hn hf =>
    have hkept : ∀ name', s.path name' ≠ none →
        ((s.create ino name).openOn j fd ino).path name' = s.path name' := by
      intro name' hsome
      refine Function.update_of_ne (fun he => hsome ?_) ..
      rw [he, hn]
    refine hp.keep (fun fd' ino' _ h => ?_) (fun _ _ _ h => h) fun name' fd' he => ?_
    · exact (congrFun (Function.update_of_ne hij ..) fd').trans h
    · subst he
      obtain ⟨ino', -, -, hpath⟩ := hp
      exact hkept name' (by simp [hpath])
  | @locked fd ino hf ho =>
    refine hp.keep (fun _ _ _ h => h) (fun fd' ino' _ hown => ?_) fun _ _ _ => rfl
    have he : ino' ≠ ino := by
      intro he
      rw [he] at hown
      rw [hown] at ho
      obtain h | h := ho
      · cases h
      · exact hne _ _ (Option.some.inj h)
    exact (Function.update_of_ne he ..).trans hown
  | saw _ => exact hp
  | named _ => exact hp
  | @closed fd =>
    refine hp.keep (fun fd' ino _ h => ?_) (fun fd' ino _ ho => ?_) fun _ _ _ => rfl
    · exact (congrFun (Function.update_of_ne hij ..) fd').trans h
    · simp only [Store.close, ho, Option.some.injEq, if_neg (hne fd' fd)]
  | leaked => exact hp
  | other => exact hp

omit [DecidableEq Name] [DecidableEq Ino] in
theorem Holds.exit (hp : Holds s i p) (hij : i ≠ j) : Holds (s.exit j) i p := by
  refine hp.keep (fun fd ino _ h => ?_) (fun fd ino _ ho => ?_) fun _ _ _ => rfl
  · exact (congrFun (Function.update_of_ne hij ..) fd).trans h
  · simp only [Store.exit, ho]
    exact Option.filter_some_pos (by simpa using hij)

omit [DecidableEq Name] [DecidableEq Ino] [DecidableEq ι] in
theorem Holds.disturbed {used : Name → Prop} (hp : Holds s i p) (hd : Disturbs used s s')
    (hused : ∀ name fd, p = .inside name fd → used name) : Holds s' i p := by
  refine hp.keep (fun fd ino _ h => ?_) (fun fd ino _ h => ?_) fun name fd he => hd.path name (hused name fd he)
  · rw [hd.file]
    exact h
  · rw [hd.owner]
    exact h

omit [DecidableEq Name] [DecidableEq Ino] [DecidableEq ι] in
/-- Two processes inside one name are one process. -/
theorem Holds.exclusive {name : Name} {fd fd' : Nat} (hi : Holds s i (.inside name fd))
    (hj : Holds s j (.inside name fd')) : i = j := by
  obtain ⟨ino, -, howner, hpath⟩ := hi
  obtain ⟨ino', -, howner', hpath'⟩ := hj
  obtain rfl : ino = ino' := Option.some.inj (hpath.symm.trans hpath')
  exact (Prod.mk.inj (Option.some.inj (howner.symm.trans howner'))).1

end holds

/-! ## The runs -/

section runs
variable {I : Interface} {α : Type} (view : Event I → Op Name Ino)

/-- The phase a history leaves a process in. -/
def phase (h : History I) : Phase Name Ino := h.foldr (fun ev p => p.next (view ev)) .idle

@[simp] theorem phase_nil : phase view [] = .idle := rfl

@[simp] theorem phase_cons (ev : Event I) (h : History I) :
    phase view (ev :: h) = (phase view h).next (view ev) := rfl

/-- The process is inside the name. -/
def Inside (name : Name) (h : History I) : Prop := ∃ fd, phase view h = .inside name fd

/-- The store as the shared state of processes whose calls it sees by `view`. -/
def lockFiles : Shared I ι (Store Name Ino ι) where
  answers i s ev s' := Does i s (view ev) s'
  dies i s s' := s' = s.exit i
  disturbs c s' := Disturbs (fun name => ∃ i, c.live i ∧ Inside view name (c.history i)) c.shared s'

variable {view} {program : ι → Prog I α} {c : Config I ι (Store Name Ino ι)}

/-- Every process that runs holds what its phase says. -/
theorem holds_reached (hc : Reached (lockFiles view) program c) (i : ι) (hi : c.live i) :
    Holds c.shared i (phase view (c.history i)) := by
  revert i
  refine hc.invariant (J := fun c => ∀ i, c.live i → Holds c.shared i (phase view (c.history i)))
    (fun _ _ _ => trivial) fun c c' ih hs => ?_
  cases hs with
  | @call j ev s _ _ hdoes =>
    intro i hi
    by_cases hij : i = j
    · subst hij
      rw [Config.called_history_self, phase_cons]
      exact (ih i hi).next hdoes
    · rw [Config.called_history_ne c j ev s hij]
      exact (ih i hi).other hdoes hij
  | @death j s _ hdies =>
    intro i hi
    obtain rfl : s = c.shared.exit j := hdies
    exact (ih i hi.2).exit hi.1
  | outside hd => exact fun i hi => (ih i hi).disturbed hd fun name fd he => ⟨i, hi, fd, he⟩

/-- The store after the calls of one process, oldest last. -/
def Store.serveAll (view : Event I → Op Name Ino) (i : ι) (s : Store Name Ino ι) :
    History I → Option (Store Name Ino ι)
  | [] => some s
  | ev :: t => (s.serveAll view i t).bind fun s => s.serve i (view ev)

theorem served_of_serveAll {i : ι} {s s' : Store Name Ino ι} {t : History I}
    (hs : s.serveAll view i t = some s') : Served (lockFiles view) i s t s' := by
  induction t generalizing s' with
  | nil =>
    cases hs
    exact .nil
  | cons ev t ih =>
    obtain ⟨s₁, hs₁, hserve⟩ := Option.bind_eq_some_iff.mp hs
    exact .cons (ih hs₁) (does_of_serve hserve)

/-- At most one process is inside a name. -/
theorem inside_exclusive (hc : Reached (lockFiles view) program c) {i j : ι} {name : Name}
    (hi : c.live i) (hj : c.live j) (hini : Inside view name (c.history i))
    (hinj : Inside view name (c.history j)) : i = j := by
  obtain ⟨fd, hfd⟩ := hini
  obtain ⟨fd', hfd'⟩ := hinj
  have hholds := holds_reached hc i hi
  have hholds' := holds_reached hc j hj
  rw [hfd] at hholds
  rw [hfd'] at hholds'
  exact hholds.exclusive hholds'

end runs

end Effects.FileLock
