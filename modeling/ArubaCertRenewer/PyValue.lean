import Mathlib.Algebra.GroupWithZero.Nat
import Mathlib.Data.List.Basic

/- The values that `json.loads` gives, and what Python's operations on them raise.

   A `str` is a sequence of code points and may hold surrogates, which an escape in a
   JSON text gives and which no codec writes. An operation that a value does not have
   raises an error of Python's own. A program that is to raise errors of one kind only
   is held to that operation by operation (`OnlyRaises`): a loop is when each element
   that it comes to is. -/
namespace PyValue

/-! ## Texts -/

abbrev CodePoint := Fin 0x110000
abbrev Str := List CodePoint

theorem toNat_lt (c : Char) : c.toNat < 0x110000 := by
  have h := c.valid
  unfold UInt32.isValidChar Nat.isValidChar at h
  show c.val.toNat < _
  omega

def codePoint (c : Char) : CodePoint := ⟨c.toNat, toNat_lt c⟩

def ofChars (t : List Char) : Str := t.map codePoint

instance : Coe String Str := ⟨fun s => ofChars s.toList⟩

def isSurrogate (c : CodePoint) : Bool := 0xd800 ≤ c.val && c.val ≤ 0xdfff

/-- What a codec does not write. -/
def hasSurrogate (s : Str) : Bool := s.any isSurrogate

/-- Bytes of a code point in UTF-8. -/
def utf8Size (c : CodePoint) : Nat :=
  if c.val < 0x80 then 1 else if c.val < 0x800 then 2 else if c.val < 0x10000 then 3 else 4

def utf8Length (s : Str) : Nat := (s.map utf8Size).sum

def isControl (c : CodePoint) : Bool := c.val < 0x20 || c.val == 0x7f

/-! ## Values -/

inductive Value where
  | null
  | bool (b : Bool)
  | int (n : Int)
  | str (s : Str)
  | arr (items : List Value)
  | obj (members : List (Str × Value))

abbrev Members := List (Str × Value)

/-- An error: one that the program raises, with its message, or one of Python's own. -/
inductive PyError where
  | raised (message : Str)
  | attributeError
  | typeError
  | unicodeEncodeError
  deriving DecidableEq

/-- `if b: raise Error(message)`. -/
def rejectWhen (b : Bool) (message : Str) : Except PyError Unit :=
  if b then .error (.raised message) else .ok ()

/-- `members.get(key)` -/
def get (members : Members) (key : Str) : Option Value := members.lookup key

theorem isSome_lookup_eq_false {α : Type} (table : List (Str × α)) (key : Str) :
    (table.lookup key).isSome = false ↔ key ∉ table.map Prod.fst := by
  induction table with
  | nil => simp
  | cons entry table ih =>
    rw [List.lookup_cons]
    by_cases h : key = entry.1
    · simp [h]
    · rw [beq_false_of_ne h]
      simpa [h] using ih

/-- `value == s` for a text `s`. -/
def isStr (value : Option Value) (s : Str) : Bool :=
  match value with
  | some (.str t) => t == s
  | _ => false

/-- `value == n` for an integer `n`, which a truth value may also be. -/
def isInt (value : Option Value) (n : Int) : Bool :=
  match value with
  | some (.int m) => m == n
  | some (.bool b) => (if b then 1 else 0) == n
  | _ => false

/-- `value in names`, for a set of texts. -/
def inSet (value : Option Value) (names : List Str) : Except PyError Bool :=
  match value with
  | some (.arr _) => .error .typeError
  | some (.obj _) => .error .typeError
  | some (.str s) => .ok (names.contains s)
  | _ => .ok false

/-- What `for item in value or []` goes over. -/
def iterated (value : Option Value) : Except PyError (List Value) :=
  match value with
  | some (.arr items) => .ok items
  | some (.obj members) => .ok (members.map fun m => .str m.1)
  | some (.str s) => .ok (s.map fun c => .str [c])
  | some (.int n) => if n = 0 then .ok [] else .error .typeError
  | some (.bool b) => if b then .error .typeError else .ok []
  | some .null => .ok []
  | none => .ok []

/-- `len(s.encode("utf-8"))` -/
def encodedLength (s : Str) : Except PyError Nat :=
  if hasSurrogate s then .error .unicodeEncodeError else .ok (utf8Length s)

/-! ## Errors of one kind -/

/-- Every error that `x` raises is one that the program raises. -/
def OnlyRaises {α : Type} (x : Except PyError α) : Prop := ∀ e, x = .error e → ∃ message, e = .raised message

section raises
variable {α β σ : Type}

@[simp] theorem onlyRaises_ok {a : α} : OnlyRaises (.ok a) := fun _ h => by cases h

@[simp] theorem onlyRaises_pure {a : α} : OnlyRaises (pure a) := onlyRaises_ok

@[simp] theorem onlyRaises_raised {message : Str} : OnlyRaises (.error (.raised message) : Except PyError α) :=
  fun _ h => by
    cases h
    exact ⟨message, rfl⟩

@[simp] theorem onlyRaises_rejectWhen {b : Bool} {message : Str} : OnlyRaises (rejectWhen b message) := by
  cases b <;> simp [rejectWhen]

@[simp] theorem rejectWhen_eq_ok {b : Bool} {message : Str} {u : Unit} :
    rejectWhen b message = .ok u ↔ b = false := by
  cases b <;> simp [rejectWhen]

theorem onlyRaises_bind {x : Except PyError α} {f : α → Except PyError β} :
    OnlyRaises (x >>= f) ↔ OnlyRaises x ∧ ∀ a, x = .ok a → OnlyRaises (f a) := by
  cases x with
  | ok a =>
    refine ⟨fun h => ⟨onlyRaises_ok, fun b hb => ?_⟩, fun h => h.2 a rfl⟩
    cases hb
    exact h
  | error e =>
    refine ⟨fun h => ⟨fun e' he => ?_, fun a ha => by cases ha⟩, fun h e' he => ?_⟩
    · cases he
      exact h e rfl
    · cases he
      exact h.1 e rfl

/-- A loop raises errors of the kind when each turn that it comes to does. -/
theorem onlyRaises_foldlM {step : σ → α → Except PyError σ} {s : σ} {xs : List α} :
    OnlyRaises (xs.foldlM step s) ↔ ∀ before x after, xs = before ++ x :: after →
      ∀ s', before.foldlM step s = .ok s' → OnlyRaises (step s' x) := by
  induction xs generalizing s with
  | nil =>
    refine iff_of_true onlyRaises_ok fun before x after h => ?_
    cases before <;> cases h
  | cons x xs ih =>
    rw [List.foldlM_cons, onlyRaises_bind]
    simp only [ih]
    constructor
    · intro h before y after hsplit s' hbefore
      cases before with
      | nil =>
        cases hsplit
        cases hbefore
        exact h.1
      | cons z before =>
        cases hsplit
        rw [List.foldlM_cons] at hbefore
        cases hstep : step s x with
        | error e =>
          rw [hstep] at hbefore
          cases hbefore
        | ok s₁ =>
          rw [hstep] at hbefore
          exact h.2 s₁ hstep before y after rfl s' hbefore
    · intro h
      refine ⟨h [] x xs rfl s rfl, fun s₁ hstep before y after hsplit s' hbefore => ?_⟩
      apply h (x :: before) y after (congrArg (x :: ·) hsplit) s'
      rw [List.foldlM_cons, hstep]
      exact hbefore

/-- `P` holds of each element that is come to, when a loop goes on after one of which `Q` holds. -/
def InTurn (P Q : α → Prop) (xs : List α) : Prop :=
  ∀ before x after, xs = before ++ x :: after → (∀ y ∈ before, Q y) → P x

/-- A loop gets to its end when it goes on after each element. -/
theorem foldlM_ok_iff {Q : α → Prop} {step : σ → α → Except PyError σ}
    (hQ : ∀ s x, (∃ s', step s x = .ok s') ↔ Q x) {s : σ} {xs : List α} :
    (∃ s', xs.foldlM step s = .ok s') ↔ ∀ x ∈ xs, Q x := by
  induction xs generalizing s with
  | nil => exact iff_of_true ⟨s, rfl⟩ fun x hx => by cases hx
  | cons x xs ih =>
    rw [List.foldlM_cons, List.forall_mem_cons, ← hQ s x]
    cases hstep : step s x with
    | error e => exact iff_of_false (fun ⟨_, h⟩ => by cases h) (fun ⟨⟨_, h⟩, _⟩ => by cases h)
    | ok s₁ => exact ih.trans ⟨fun h => ⟨⟨s₁, rfl⟩, h⟩, fun h => h.2⟩

theorem onlyRaises_loop {P Q : α → Prop} {step : σ → α → Except PyError σ}
    (hP : ∀ s x, OnlyRaises (step s x) ↔ P x) (hQ : ∀ s x, (∃ s', step s x = .ok s') ↔ Q x)
    {s : σ} {xs : List α} : OnlyRaises (xs.foldlM step s) ↔ InTurn P Q xs := by
  rw [onlyRaises_foldlM]
  constructor
  · intro h before x after hsplit hall
    obtain ⟨s', hbefore⟩ := (foldlM_ok_iff (s := s) hQ).mpr hall
    exact (hP s' x).mp (h before x after hsplit s' hbefore)
  · intro h before x after hsplit s' hbefore
    exact (hP s' x).mpr (h before x after hsplit ((foldlM_ok_iff hQ).mp ⟨s', hbefore⟩))

theorem inTurn_nil {P Q : α → Prop} : InTurn P Q [] := by
  intro before x after h
  cases before <;> cases h

theorem inTurn_cons {P Q : α → Prop} {x : α} {xs : List α} :
    InTurn P Q (x :: xs) ↔ P x ∧ (Q x → InTurn P Q xs) := by
  constructor
  · intro h
    refine ⟨h [] x xs rfl (fun y hy => by cases hy), fun hx before y after hsplit hall => ?_⟩
    apply h (x :: before) y after (congrArg (x :: ·) hsplit)
    exact List.forall_mem_cons.mpr ⟨hx, hall⟩
  · intro h before y after hsplit hall
    cases before with
    | nil =>
      cases hsplit
      exact h.1
    | cons z before =>
      cases hsplit
      obtain ⟨hx, hall⟩ := List.forall_mem_cons.mp hall
      exact h.2 hx before y after rfl hall

/-- When the loop goes on after safe elements, it comes to every element. -/
theorem inTurn_self {P : α → Prop} {xs : List α} : InTurn P P xs ↔ ∀ x ∈ xs, P x := by
  induction xs with
  | nil => exact iff_of_true inTurn_nil fun x hx => by cases hx
  | cons x xs ih =>
    rw [inTurn_cons, List.forall_mem_cons, ih]
    exact ⟨fun h => ⟨h.1, h.2 h.1⟩, fun h => ⟨h.1, fun _ => h.2⟩⟩

/-- What raises no error of the program's own raises none of the kind but by succeeding. -/
theorem onlyRaises_iff_ok {x : Except PyError α} (h : ∀ message, x ≠ .error (.raised message)) :
    OnlyRaises x ↔ ∃ a, x = .ok a := by
  cases x with
  | ok a => exact iff_of_true onlyRaises_ok ⟨a, rfl⟩
  | error e =>
    refine iff_of_false (fun hr => ?_) fun ⟨_, ha⟩ => by cases ha
    obtain ⟨message, rfl⟩ := hr e rfl
    exact h message rfl

/-- A loop that collects what it finds. -/
theorem foldlM_collect {Q : α → Prop} {f : α → Option β} {step : List β → α → Except PyError (List β)}
    (hstep : ∀ s x s', step s x = .ok s' ↔ Q x ∧ s' = s ++ (f x).toList) {xs : List α} {s s' : List β} :
    xs.foldlM step s = .ok s' ↔ (∀ x ∈ xs, Q x) ∧ s' = s ++ xs.filterMap f := by
  induction xs generalizing s with
  | nil =>
    simp only [List.foldlM_nil, List.not_mem_nil, false_implies, implies_true, true_and,
      List.filterMap_nil, List.append_nil]
    exact ⟨fun h => (Except.ok.inj h).symm, fun h => congrArg Except.ok h.symm⟩
  | cons x xs ih =>
    rw [List.foldlM_cons, List.forall_mem_cons]
    have hcollected : s ++ (x :: xs).filterMap f = s ++ (f x).toList ++ xs.filterMap f := by
      cases hfx : f x <;> simp [hfx]
    rw [hcollected]
    cases hx : step s x with
    | error e =>
      refine iff_of_false (fun h => by cases h) fun h => ?_
      have hok := (hstep s x _).mpr ⟨h.1.1, rfl⟩
      rw [hx] at hok
      cases hok
    | ok s₁ =>
      obtain ⟨hq, rfl⟩ := (hstep s x s₁).mp hx
      refine ih.trans ?_
      exact ⟨fun h => ⟨⟨hq, h.1⟩, h.2⟩, fun h => ⟨h.1.2, h.2⟩⟩

end raises

end PyValue
