import ArubaCertRenewer.RowPattern

/- What a search for a row pattern finds.

   A match is a row that begins where the search stands at the start of a line. The rows
   found are those from the top of the text, each after the end of the one before. -/
namespace PyText
open Regex

/-! ## Matches -/

/-- A search found what the words say: a row with these captures and these words after it, or
nothing. -/
def Finds (length : Nat) : Option (List (String × Text) × List Word) → Option Match → Prop
  | none, found => found = none
  | some (captures, ws), found => ∃ m, found = some m ∧ m.groups = captures.reverse ∧
      m.matched ≠ [] ∧ m.after.length < length ∧ ∀ st, wordsFrom st m.after = ws

theorem readingAfter_eq_true {before : Text} :
    readingAfter before = .gap true ↔ before.head? = none ∨ before.head? = some '\n' := by
  cases before with
  | nil => simp [readingAfter]
  | cons c t =>
    have hnl : c = '\n' → isSpace c = true := by
      intro hc
      rw [hc]
      rfl
    simp only [readingAfter, List.head?_cons]
    cases hc : isSpace c with
    | true => simp
    | false =>
      have hne : c ≠ '\n' := fun he => by simp [hnl he] at hc
      simp [hne]

theorem results_lineStart (b t : Text) (g : List (String × Text)) : results lineStart ⟨b, t, g⟩ =
    if readingAfter b = .gap true then [⟨b, t, g⟩] else [] := by
  have hstart : (b.head? == none || b.head? == some '\n') = true ↔ readingAfter b = .gap true := by
    rw [Bool.or_eq_true, beq_iff_eq, beq_iff_eq, readingAfter_eq_true]
  exact if_congr hstart rfl rfl

section search
variable {f : RowField} {fs : List RowField}

/-- A match at the start of a line is a row that begins there. -/
theorem matchAt_lineStart {before : Text} (hstart : readingAfter before = .gap true) (rest : Text) :
    Finds rest.length
      ((rowCaptures f fs (wordsFrom (.gap true) rest)).map fun captures =>
        (captures, (wordsFrom (.gap true) rest).drop (fs.length + 1)))
      (matchAt (rowPattern f fs) before rest) := by
  obtain ⟨s, r₁, rfl, hs, hr₁⟩ := exists_span isSpace rest
  have hresults : results (rowPattern f fs) ⟨before, s ++ r₁, []⟩ =
      results (seq (group f.name f.pattern) (laterFields fs)) ⟨s.reverse ++ before, r₁, []⟩ := by
    rw [rowPattern, results_seq, results_lineStart, if_pos hstart, List.flatMap_cons, List.flatMap_nil, List.append_nil,
      results_seq, space, star_char_then (field_blocked f _) hs hr₁]
  rw [wordsFrom_gap hs, Bool.true_or]
  cases r₁ with
  | nil =>
    show matchAt _ _ _ = none
    rw [matchAt, hresults, results_field_ended]
    rfl
  | cons c t =>
    have hc := hr₁ c rfl
    obtain ⟨w, r₂, hsplit, hw, hr₂⟩ := exists_span notSpace (c :: t)
    have hwne : w ≠ [] := by
      intro he
      rw [he, List.nil_append] at hsplit
      have hstop := hr₂ c (by rw [← hsplit]; rfl)
      rw [notSpace_eq_false, hc] at hstop
      cases hstop
    rw [hsplit] at hresults ⊢
    rw [results_field (later_blocked fs) hwne hw hr₂] at hresults
    obtain ⟨hnone, hsome⟩ := results_later fs (w.reverse ++ (s.reverse ++ before)) r₂
      [(f.name, w)] hr₂
    rw [wordsFrom_word hwne hw hr₂, rowCaptures, Bool.true_and]
    cases haccepts : f.accepts w with
    | false =>
      rw [haccepts, if_neg Bool.false_ne_true] at hresults
      show matchAt _ _ _ = none
      rw [matchAt, hresults]
      rfl
    | true =>
      rw [haccepts, if_pos rfl] at hresults
      rw [if_pos rfl]
      cases hlater : laterCaptures fs (wordsFrom .word r₂) with
      | none =>
        show matchAt _ _ _ = none
        rw [matchAt, hresults, hnone hlater]
        rfl
      | some later =>
        obtain ⟨u, r', rfl, hhead, hrest⟩ := hsome later hlater
        refine ⟨_, by rw [matchAt, hresults, hhead]; rfl, by simp, ?_, ?_, hrest⟩
        · have hlength : (s ++ (w ++ (u ++ r'))).length - r'.length = (s ++ (w ++ u)).length := by
            simp only [List.length_append]
            omega
          have hbefore : u.reverse ++ (w.reverse ++ (s.reverse ++ before)) =
              (s ++ (w ++ u)).reverse ++ before := by simp
          show (List.take _ _).reverse ≠ []
          rw [hlength, hbefore, List.take_left' (List.length_reverse), List.reverse_reverse]
          simp [hwne]
        · have hpos := List.length_pos_iff.mpr hwne
          show r'.length < _
          simp only [List.length_append]
          omega

/-- Elsewhere nothing matches. -/
theorem matchAt_elsewhere {before : Text} (hstart : readingAfter before ≠ .gap true) (rest : Text) :
    matchAt (rowPattern f fs) before rest = none := by
  rw [matchAt, rowPattern, results_seq, results_lineStart, if_neg hstart]
  rfl

theorem rowCaptures_not_leads {t : Text} {ws : List Word} :
    rowCaptures f fs (⟨false, t⟩ :: ws) = none := rfl

/-- Where no row begins at the next word, it does not matter whether the word begins a line. -/
theorem nextRow_leads {t : Text} (h : rowCaptures f fs (wordsFrom (.gap true) t) = none) :
    nextRow f fs (wordsFrom (.gap true) t) = nextRow f fs (wordsFrom (.gap false) t) := by
  induction t with
  | nil => rfl
  | cons c t ih =>
    cases hc : isSpace c with
    | true =>
      rw [wordsFrom_space hc, Bool.true_or] at h ⊢
      rw [wordsFrom_space hc, Bool.false_or]
      cases hnl : c == '\n' with
      | true => rfl
      | false => exact ih h
    | false =>
      rw [wordsFrom_begin hc] at h ⊢
      rw [wordsFrom_begin hc, nextRow, nextRow, h, rowCaptures_not_leads]

/-- One character further, where nothing matched. -/
theorem nextRow_step {before rest : Text} {c : Char}
    (h : readingAfter before = .gap true →
      rowCaptures f fs (wordsFrom (.gap true) (c :: rest)) = none) :
    nextRow f fs (wordsFrom (readingAfter before) (c :: rest)) =
      nextRow f fs (wordsFrom (readingAfter (c :: before)) rest) := by
  cases hreading : readingAfter before with
  | word => rfl
  | gap leads =>
    cases hc : isSpace c with
    | true =>
      rw [wordsFrom_space hc, readingAfter, if_pos hc]
      cases leads with
      | false => rfl
      | true =>
        have hnone := h hreading
        rw [wordsFrom_space hc, Bool.true_or] at hnone
        rw [Bool.true_or]
        cases hnl : c == '\n' with
        | true => rfl
        | false => exact nextRow_leads hnone
    | false =>
      have hnone : rowCaptures f fs (wordsFrom (.gap leads) (c :: rest)) = none := by
        cases leads with
        | true => exact h hreading
        | false => rw [wordsFrom_begin hc, rowCaptures_not_leads]
      rw [wordsFrom_begin hc] at hnone ⊢
      rw [nextRow, hnone, readingAfter, hc]
      rfl

theorem Finds.mono {n n' : Nat} {o : Option (List (String × Text) × List Word)} {m : Option Match}
    (h : Finds n o m) (hn : n ≤ n') : Finds n' o m := by
  cases o with
  | none => exact h
  | some o =>
    obtain ⟨m, hm, hgroups, hmatched, hafter, hwords⟩ := h
    exact ⟨m, hm, hgroups, hmatched, by omega, hwords⟩

/-- A search finds the next row of the words. -/
theorem searchFrom_row (rest : Text) : ∀ before,
    Finds rest.length (nextRow f fs (wordsFrom (readingAfter before) rest))
      (searchFrom (rowPattern f fs) before rest) := by
  induction rest with
  | nil =>
    intro before
    have hnone : nextRow f fs (wordsFrom (readingAfter before) []) = none := by
      cases readingAfter before <;> rfl
    rw [hnone]
    show matchAt _ _ _ = none
    by_cases hstart : readingAfter before = .gap true
    · exact matchAt_lineStart hstart []
    · exact matchAt_elsewhere hstart []
  | cons c rest ih =>
    intro before
    -- where nothing matches at this character, the search goes on behind it
    have hon : matchAt (rowPattern f fs) before (c :: rest) = none →
        (readingAfter before = .gap true →
          rowCaptures f fs (wordsFrom (.gap true) (c :: rest)) = none) →
        Finds (c :: rest).length (nextRow f fs (wordsFrom (readingAfter before) (c :: rest)))
          (searchFrom (rowPattern f fs) before (c :: rest)) := by
      intro hmatch hcaptures
      rw [searchFrom, hmatch, nextRow_step hcaptures]
      exact (ih (c :: before)).mono (Nat.le_succ _)
    by_cases hstart : readingAfter before = .gap true
    · have hhere : Finds (c :: rest).length ((rowCaptures f fs _).map _) _ :=
        matchAt_lineStart hstart (c :: rest)
      cases hcaptures : rowCaptures f fs (wordsFrom (.gap true) (c :: rest)) with
      | none =>
        rw [hcaptures] at hhere
        exact hon hhere fun _ => hcaptures
      | some captures =>
        rw [hcaptures] at hhere
        obtain ⟨m, hm, hfound⟩ := hhere
        have hnext : nextRow f fs (wordsFrom (readingAfter before) (c :: rest)) =
            some (captures, (wordsFrom (.gap true) (c :: rest)).drop (fs.length + 1)) := by
          rw [hstart]
          cases hws : wordsFrom (.gap true) (c :: rest) with
          | nil =>
            rw [hws] at hcaptures
            cases hcaptures
          | cons w ws =>
            rw [hws] at hcaptures
            rw [nextRow, hcaptures]
            rfl
        rw [hnext, searchFrom, hm]
        exact ⟨m, rfl, hfound⟩
    · exact hon (matchAt_elsewhere hstart _) fun h => absurd h hstart

end search

/-- The rows from the top, each after the end of the one before. -/
def rowsFrom (f : RowField) (fs : List RowField) : Nat → List Word → List (List (String × Text))
  | _, [] => []
  | skip + 1, _ :: ws => rowsFrom f fs skip ws
  | 0, w :: ws =>
    match rowCaptures f fs (w :: ws) with
    | some captures => captures :: rowsFrom f fs fs.length ws
    | none => rowsFrom f fs 0 ws

section finditer
variable {f : RowField} {fs : List RowField}

theorem rowsFrom_drop (skip : Nat) (ws : List Word) :
    rowsFrom f fs skip ws = rowsFrom f fs 0 (ws.drop skip) := by
  induction ws generalizing skip with
  | nil => cases skip <;> rfl
  | cons w ws ih =>
    cases skip with
    | zero => rfl
    | succ skip => exact ih skip

theorem rowsFrom_of_nextRow {ws : List Word} :
    (nextRow f fs ws = none → rowsFrom f fs 0 ws = []) ∧
    ∀ captures ws', nextRow f fs ws = some (captures, ws') →
      rowsFrom f fs 0 ws = captures :: rowsFrom f fs 0 ws' := by
  induction ws with
  | nil => exact ⟨fun _ => rfl, fun _ _ h => by cases h⟩
  | cons w ws ih =>
    rw [nextRow, rowsFrom]
    cases rowCaptures f fs (w :: ws) with
    | none => exact ih
    | some captures =>
      refine ⟨fun h => (by cases h), ?_⟩
      intro captures' ws' h
      cases h
      rw [rowsFrom_drop]

theorem finditerFrom_rows (n : Nat) : ∀ before rest : Text, rest.length ≤ n →
    (finditerFrom (rowPattern f fs) n before rest).map (·.groups) =
      (rowsFrom f fs 0 (wordsFrom (readingAfter before) rest)).map List.reverse := by
  induction n with
  | zero =>
    intro before rest hlength
    obtain rfl := List.length_eq_zero_iff.mp (Nat.le_zero.mp hlength)
    cases readingAfter before <;> rfl
  | succ n ih =>
    intro before rest hlength
    have hfinds : Finds _ (nextRow f fs _) _ := searchFrom_row rest before
    obtain ⟨hnone, hsome⟩ : _ ∧ ∀ captures ws', _ → rowsFrom f fs 0
        (wordsFrom (readingAfter before) rest) = _ := rowsFrom_of_nextRow
    rw [finditerFrom]
    cases hnext : nextRow f fs (wordsFrom (readingAfter before) rest) with
    | none =>
      rw [hnext] at hfinds
      have hsearch : searchFrom (rowPattern f fs) before rest = none := hfinds
      rw [hsearch, hnone hnext]
      rfl
    | some found =>
      obtain ⟨captures, ws'⟩ := found
      rw [hnext] at hfinds
      obtain ⟨m, hsearch, hgroups, hmatched, hafter, hwords⟩ := hfinds
      have hlater := ih (m.matched.reverse ++ m.before) m.after (by omega)
      rw [hwords] at hlater
      have hnotEmpty : m.matched.isEmpty = false := by
        simpa using hmatched
      rw [hsearch, hsome captures ws' hnext]
      simp only [hnotEmpty, Bool.false_eq_true, if_false, List.map_cons]
      rw [hgroups, hlater]

/-- The successive matches of a row pattern are the rows of the text's words. -/
theorem finditer_rows (t : Text) :
    (finditer (rowPattern f fs) t).map (·.groups) = (rowsFrom f fs 0 (words t)).map List.reverse :=
  finditerFrom_rows t.length [] t (Nat.le_refl _)

end finditer

/-! ## Which rows are found -/

section found
variable {f : RowField} {fs : List RowField} {ws : List Word}

/-- The next row is the first place where one begins. -/
theorem nextRow_spec :
    (nextRow f fs ws = none → ∀ i, rowCaptures f fs (ws.drop i) = none) ∧
    ∀ captures ws', nextRow f fs ws = some (captures, ws') → ∃ i,
      rowCaptures f fs (ws.drop i) = some captures ∧ ws' = ws.drop (i + (fs.length + 1)) ∧
      ∀ j < i, rowCaptures f fs (ws.drop j) = none := by
  induction ws with
  | nil => exact ⟨fun _ i => by cases i <;> rfl, fun _ _ h => by cases h⟩
  | cons w ws ih =>
    rw [nextRow]
    cases hhere : rowCaptures f fs (w :: ws) with
    | some captures =>
      refine ⟨fun h => (by cases h), ?_⟩
      intro captures' ws' h
      cases h
      refine ⟨0, hhere, ?_, fun j hj => absurd hj (Nat.not_lt_zero j)⟩
      rw [Nat.zero_add, List.drop_succ_cons]
    | none =>
      constructor
      · intro h i
        cases i with
        | zero => exact hhere
        | succ i => exact ih.1 h i
      · intro captures ws' h
        obtain ⟨i, hrow, hrest, hbefore⟩ := ih.2 captures ws' h
        refine ⟨i + 1, hrow, ?_, ?_⟩
        · rw [hrest, show i + 1 + (fs.length + 1) = i + (fs.length + 1) + 1 by omega,
            List.drop_succ_cons]
        · intro j hj
          cases j with
          | zero => exact hhere
          | succ j => exact hbefore j (by omega)

theorem rowsFrom_eq_nil :
    rowsFrom f fs 0 ws = [] ↔ ∀ i, rowCaptures f fs (ws.drop i) = none := by
  cases hnext : nextRow f fs ws with
  | none => exact ⟨fun _ => nextRow_spec.1 hnext, fun _ => rowsFrom_of_nextRow.1 hnext⟩
  | some found =>
    obtain ⟨captures, ws'⟩ := found
    obtain ⟨i, hrow, -⟩ := nextRow_spec.2 captures ws' hnext
    rw [rowsFrom_of_nextRow.2 captures ws' hnext]
    constructor
    · intro h
      cases h
    · intro h
      rw [h i] at hrow
      cases hrow

/-- One row is found where every row begins among the words of that one. -/
theorem rowsFrom_eq_singleton {captures : List (String × Text)} :
    rowsFrom f fs 0 ws = [captures] ↔ ∃ i, rowCaptures f fs (ws.drop i) = some captures ∧
      ∀ j, (rowCaptures f fs (ws.drop j)).isSome = true → i ≤ j ∧ j ≤ i + fs.length := by
  cases hnext : nextRow f fs ws with
  | none =>
    have hnone := nextRow_spec.1 hnext
    rw [rowsFrom_eq_nil.mpr hnone]
    constructor
    · intro h
      cases h
    · intro h
      obtain ⟨i, hrow, -⟩ := h
      rw [hnone i] at hrow
      cases hrow
  | some found =>
    obtain ⟨first, ws'⟩ := found
    obtain ⟨i, hrow, rfl, hbefore⟩ := nextRow_spec.2 first ws' hnext
    have hlater : rowsFrom f fs 0 (ws.drop (i + (fs.length + 1))) = [] ↔
        ∀ j, i + fs.length < j → rowCaptures f fs (ws.drop j) = none := by
      rw [rowsFrom_eq_nil]
      constructor
      · intro h j hj
        have hdrop := h (j - (i + (fs.length + 1)))
        rwa [List.drop_drop, Nat.add_sub_cancel' (by omega)] at hdrop
      · intro h j
        rw [List.drop_drop]
        exact h _ (by omega)
    rw [rowsFrom_of_nextRow.2 first _ hnext, List.cons.injEq, hlater]
    constructor
    · intro h
      obtain ⟨rfl, hafter⟩ := h
      refine ⟨i, hrow, ?_⟩
      intro j hj
      constructor
      · by_contra hlt
        rw [hbefore j (by omega)] at hj
        cases hj
      · by_contra hlt
        rw [hafter j (by omega)] at hj
        cases hj
    · intro h
      obtain ⟨k, hk, hall⟩ := h
      -- the row that was found first is this one
      have hki := hall i (by rw [hrow]; rfl)
      have hik : ¬ k < i := by
        intro hlt
        rw [hbefore k hlt] at hk
        cases hk
      obtain rfl : k = i := by omega
      rw [hrow] at hk
      cases hk
      refine ⟨rfl, ?_⟩
      intro j hj
      rw [← Option.not_isSome_iff_eq_none]
      intro hsome
      have hle := hall j hsome
      omega

end found

end PyText
