import ArubaCertRenewer.Regex

/- Rules for the matcher of `Regex`.

   What follows a pattern is a continuation, from positions to the ways to go on. A
   greedy loop over one class of characters that is followed by something that cannot
   begin with that class has one way to match, the longest: then a pattern is worked
   off from left to right and no choice is left open. -/
namespace PyText
namespace Regex

/-- Nothing matches where the next character is of this class. -/
def Blocked (p : Char → Bool) (next : Pos → List Pos) : Prop :=
  ∀ b c t g, p c = true → next ⟨b, c :: t, g⟩ = []

/-- The text does not begin with a character of this class. -/
def Stops (p : Char → Bool) (t : Text) : Prop := ∀ c ∈ t.head?, p c = false

section loops
variable {p : Char → Bool} {next : Pos → List Pos} {b w r : Text} {g : List (String × Text)}

theorem stops_nil : Stops p [] := fun _ hc => by cases hc

theorem stops_cons {c : Char} {t : Text} (h : p c = false) : Stops p (c :: t) := by
  intro d hd
  cases hd
  exact h

/-- Every text is some characters of a class and a text that does not begin with one. -/
theorem exists_span (p : Char → Bool) (t : Text) :
    ∃ w r, t = w ++ r ∧ (∀ c ∈ w, p c = true) ∧ Stops p r := by
  refine ⟨t.takeWhile p, t.dropWhile p, List.takeWhile_append_dropWhile.symm, ?_, ?_⟩
  · intro c hc
    exact List.all_eq_true.mp List.all_takeWhile c hc
  · intro c hc
    have hne : t.dropWhile p ≠ [] := by
      intro he
      rw [he] at hc
      cases hc
    have hnot := List.head_dropWhile_not p hne
    rw [List.head?_eq_some_head hne] at hc
    cases hc
    simpa using hnot

theorem results_seq (a b : Regex) (s : Pos) :
    results (seq a b) s = (results a s).flatMap (results b) := rfl

theorem results_plus (r : Regex) (s : Pos) :
    results (plus r) s = (results r s).flatMap (results (star true r)) := rfl

theorem results_char_pos {c : Char} {t : Text} (h : p c = true) :
    results (char p) ⟨b, c :: t, g⟩ = [⟨c :: b, t, g⟩] := if_pos h

theorem results_char_stop {t : Text} (h : Stops p t) : results (char p) ⟨b, t, g⟩ = [] := by
  cases t with
  | nil => rfl
  | cons c t => exact if_neg (Bool.eq_false_iff.mp (h c rfl))

/-- One round of a greedy loop. -/
theorem star_char_round {c : Char} {t : Text} :
    results (star true (char p)) ⟨b, c :: t, g⟩ =
      ((results (char p) ⟨b, c :: t, g⟩).flatMap fun s =>
        if s.rest.length < t.length + 1 then loop (results (char p)) true t.length s else []) ++
        [⟨b, c :: t, g⟩] := rfl

theorem star_char_cons {c : Char} {t : Text} (h : p c = true) :
    results (star true (char p)) ⟨b, c :: t, g⟩ =
      results (star true (char p)) ⟨c :: b, t, g⟩ ++ [⟨b, c :: t, g⟩] := by
  rw [star_char_round, results_char_pos h, List.flatMap_cons, List.flatMap_nil, List.append_nil,
    if_pos (Nat.lt_succ_self _)]
  rfl

theorem star_char_stop {t : Text} (h : Stops p t) :
    results (star true (char p)) ⟨b, t, g⟩ = [⟨b, t, g⟩] := by
  cases t with
  | nil => rfl
  | cons c t =>
    rw [star_char_round, results_char_stop h]
    rfl

/-- A loop before something that its characters block takes all of them. -/
theorem star_char_then (hnext : Blocked p next) (hw : ∀ c ∈ w, p c = true) (hr : Stops p r) :
    (results (star true (char p)) ⟨b, w ++ r, g⟩).flatMap next = next ⟨w.reverse ++ b, r, g⟩ := by
  induction w generalizing b with
  | nil => simp [star_char_stop hr]
  | cons c w ih =>
    have hc := hw c List.mem_cons_self
    have hrest := ih (b := c :: b) fun d hd => hw d (List.mem_cons_of_mem _ hd)
    rw [List.cons_append, star_char_cons hc, List.flatMap_append, hrest, List.flatMap_cons,
      hnext b c (w ++ r) g hc]
    simp

theorem plus_char_then (hnext : Blocked p next) (hne : w ≠ []) (hw : ∀ c ∈ w, p c = true)
    (hr : Stops p r) :
    (results (plus (char p)) ⟨b, w ++ r, g⟩).flatMap next = next ⟨w.reverse ++ b, r, g⟩ := by
  cases w with
  | nil => exact absurd rfl hne
  | cons c w =>
    have hc := hw c List.mem_cons_self
    rw [results_plus, List.cons_append, results_char_pos hc, List.flatMap_cons, List.flatMap_nil, List.append_nil,
      star_char_then hnext (fun d hd => hw d (List.mem_cons_of_mem _ hd)) hr]
    simp

theorem plus_char_stop (h : Stops p r) : results (plus (char p)) ⟨b, r, g⟩ = [] := by
  rw [results_plus, results_char_stop h]
  rfl

end loops

/-! Patterns of a fixed length. -/

/-- The text begins with characters of these classes. -/
def beginsWith : List (Char → Bool) → Text → Bool
  | [], _ => true
  | p :: ps, c :: t => p c && beginsWith ps t
  | _ :: _, [] => false

@[simp] theorem beginsWith_nil (t : Text) : beginsWith [] t = true := rfl

@[simp] theorem beginsWith_cons (p : Char → Bool) (ps : List (Char → Bool)) (c : Char) (t : Text) :
    beginsWith (p :: ps) (c :: t) = (p c && beginsWith ps t) := rfl

@[simp] theorem beginsWith_cons_nil (p : Char → Bool) (ps : List (Char → Bool)) :
    beginsWith (p :: ps) [] = false := rfl

/-- The pattern matches one character of each class, and in one way. -/
def Fixed (r : Regex) (ps : List (Char → Bool)) : Prop :=
  ∀ b t g, results r ⟨b, t, g⟩ =
    if beginsWith ps t then [⟨(t.take ps.length).reverse ++ b, t.drop ps.length, g⟩] else []

theorem fixed_empty : Fixed empty [] := fun _ _ _ => rfl

theorem fixed_char (p : Char → Bool) : Fixed (char p) [p] := by
  intro b t g
  cases t with
  | nil => rfl
  | cons c t =>
    rw [beginsWith_cons, beginsWith_nil, Bool.and_true]
    rfl

theorem beginsWith_append (ps qs : List (Char → Bool)) (t : Text) :
    beginsWith (ps ++ qs) t = (beginsWith ps t && beginsWith qs (t.drop ps.length)) := by
  induction ps generalizing t with
  | nil => simp
  | cons p ps ih =>
    cases t with
    | nil => simp
    | cons c t => simp [ih, Bool.and_assoc]

theorem Fixed.seq {a c : Regex} {ps qs : List (Char → Bool)} (ha : Fixed a ps) (hc : Fixed c qs) :
    Fixed (seq a c) (ps ++ qs) := by
  intro b t g
  rw [results_seq, ha, beginsWith_append]
  cases hbegins : beginsWith ps t with
  | false => simp
  | true =>
    simp only [if_true, Bool.true_and, List.flatMap_cons, List.flatMap_nil, List.append_nil]
    rw [hc]
    have htake : t.take (ps ++ qs).length = t.take ps.length ++ (t.drop ps.length).take qs.length := by
      rw [List.length_append, List.take_add]
    rw [htake, List.length_append, List.drop_drop, List.reverse_append, List.append_assoc]

theorem fixed_times {r : Regex} {ps : List (Char → Bool)} (h : Fixed r ps) :
    ∀ n, Fixed (times n r) (List.replicate n ps).flatten
  | 0 => fixed_empty
  | n + 1 => h.seq (fixed_times h n)

/-- `seqs` of characters is a literal. -/
theorem fixed_seqs (ps : List (Char → Bool)) : Fixed (seqs (ps.map char)) ps := by
  induction ps with
  | nil => exact fixed_empty
  | cons p ps ih =>
    cases ps with
    | nil => exact fixed_char p
    | cons q ps => exact (fixed_char p).seq ih

theorem fixed_lit (t : Text) : Fixed (lit t) (t.map fun c => (· == c)) := by
  have h := fixed_seqs (t.map fun c => (· == c))
  rwa [List.map_map] at h

theorem fixed_litIgnoringCase (t : Text) : Fixed (litIgnoringCase t) (t.map sameIgnoringCase) := by
  have h := fixed_seqs (t.map sameIgnoringCase)
  rwa [List.map_map] at h

theorem beginsWith_iff {ps : List (Char → Bool)} {t : Text} :
    beginsWith ps t = true ↔
      ∃ w r, t = w ++ r ∧ w.length = ps.length ∧ beginsWith ps w = true := by
  induction ps generalizing t with
  | nil => exact ⟨fun _ => ⟨[], t, rfl, rfl, rfl⟩, fun _ => rfl⟩
  | cons p ps ih =>
    constructor
    · intro h
      cases t with
      | nil => cases h
      | cons c t =>
        rw [beginsWith_cons, Bool.and_eq_true] at h
        obtain ⟨w, r, rfl, hlength, hw⟩ := ih.mp h.2
        refine ⟨c :: w, r, rfl, congrArg Nat.succ hlength, ?_⟩
        rw [beginsWith_cons, h.1, hw]
        rfl
    · intro h
      obtain ⟨w, r, rfl, hlength, hw⟩ := h
      cases w with
      | nil => cases hlength
      | cons c w =>
        rw [beginsWith_cons, Bool.and_eq_true] at hw
        rw [List.cons_append, beginsWith_cons, hw.1, ih.mpr ⟨w, r, rfl, Nat.succ.inj hlength, hw.2⟩]
        rfl

end Regex

open Regex

theorem matchAt_isSome {r : Regex} {before rest : Text} :
    (matchAt r before rest).isSome = true ↔ r.results ⟨before, rest, []⟩ ≠ [] := by
  rw [matchAt, Option.isSome_map]
  cases r.results ⟨before, rest, []⟩ <;> simp

theorem searchFrom_cons (r : Regex) (before : Text) (c : Char) (rest : Text) :
    searchFrom r before (c :: rest) =
      (matchAt r before (c :: rest)).or (searchFrom r (c :: before) rest) := by
  rw [searchFrom]
  cases matchAt r before (c :: rest) <;> rfl

/-- A search succeeds where some position has a match. -/
theorem searchFrom_isSome {r : Regex} {rest : Text} : ∀ {before},
    (searchFrom r before rest).isSome = true ↔
      ∃ u v, rest = u ++ v ∧ r.results ⟨u.reverse ++ before, v, []⟩ ≠ [] := by
  induction rest with
  | nil =>
    intro before
    show (matchAt r before []).isSome = true ↔ _
    rw [matchAt_isSome]
    constructor
    · intro h
      exact ⟨[], [], rfl, h⟩
    · intro h
      obtain ⟨u, v, he, h⟩ := h
      obtain ⟨rfl, rfl⟩ := List.append_eq_nil_iff.mp he.symm
      exact h
  | cons c rest ih =>
    intro before
    rw [searchFrom_cons, Option.isSome_or, Bool.or_eq_true, matchAt_isSome, ih]
    constructor
    · intro h
      obtain h | ⟨u, v, rfl, h⟩ := h
      · exact ⟨[], c :: rest, rfl, h⟩
      · exact ⟨c :: u, v, rfl, by simpa using h⟩
    · intro h
      obtain ⟨u, v, he, h⟩ := h
      cases u with
      | nil =>
        subst he
        exact .inl h
      | cons d u =>
        obtain ⟨rfl, rfl⟩ := List.cons.inj he
        exact .inr ⟨u, v, rfl, by simpa using h⟩

end PyText
