import ArubaCertRenewer.RegexRules

/- The words of a text, each with the mark whether it is the first on its line.

   The reader of words is a machine of one character at a time, so that it can stand
   anywhere in a text. The words of a text are those of its lines. -/
namespace PyText
open Regex

def notSpace (c : Char) : Bool := !isSpace c

/-- A word of a text, and whether it is the first on its line. -/
structure Word where
  leads : Bool
  text : Text
  deriving DecidableEq, Repr

/-- Where a reader of words stands: inside a word, or between words, with a new line since
the last one or not. -/
inductive Reading where
  | word
  | gap (leads : Bool)
  deriving DecidableEq, Repr

def wordsFrom : Reading → Text → List Word
  | _, [] => []
  | .word, c :: t => wordsFrom (if isSpace c then .gap (c == '\n') else .word) t
  | .gap leads, c :: t =>
    if isSpace c then wordsFrom (.gap (leads || c == '\n')) t
    else ⟨leads, (c :: t).takeWhile notSpace⟩ :: wordsFrom .word t

/-- The words of a text. -/
def words (t : Text) : List Word := wordsFrom (.gap true) t

/-- `str.split()` -/
def fields (t : Text) : List Text := (words t).map Word.text

/-- Where a reader stands after some text, given in reverse. -/
def readingAfter : Text → Reading
  | [] => .gap true
  | c :: _ => if isSpace c then .gap (c == '\n') else .word

section words
variable {l : Bool} {c : Char} {s t r w : Text}

theorem notSpace_eq_true : notSpace c = true ↔ isSpace c = false := by simp [notSpace]

theorem notSpace_eq_false : notSpace c = false ↔ isSpace c = true := by simp [notSpace]

theorem wordsFrom_word_cons : wordsFrom .word (c :: t) =
    wordsFrom (if isSpace c then .gap (c == '\n') else .word) t := rfl

theorem wordsFrom_space (hc : isSpace c = true) :
    wordsFrom (.gap l) (c :: t) = wordsFrom (.gap (l || c == '\n')) t := if_pos hc

theorem wordsFrom_begin (hc : isSpace c = false) : wordsFrom (.gap l) (c :: t) =
    ⟨l, (c :: t).takeWhile notSpace⟩ :: wordsFrom .word t :=
  if_neg (ne_true_of_eq_false hc)

theorem wordsFrom_gap (hs : ∀ c ∈ s, isSpace c = true) :
    wordsFrom (.gap l) (s ++ r) = wordsFrom (.gap (l || s.contains '\n')) r := by
  induction s generalizing l with
  | nil => simp
  | cons c s ih =>
    have hc := hs c List.mem_cons_self
    have hrest := ih (l := l || c == '\n') fun d hd => hs d (List.mem_cons_of_mem _ hd)
    rw [List.cons_append, wordsFrom_space hc, hrest, List.contains_cons, Bool.or_assoc,
      Bool.beq_comm]

theorem wordsFrom_rest (hw : ∀ c ∈ w, notSpace c = true) :
    wordsFrom .word (w ++ r) = wordsFrom .word r := by
  induction w with
  | nil => rfl
  | cons c w ih =>
    have hc := notSpace_eq_true.mp (hw c List.mem_cons_self)
    rw [List.cons_append, wordsFrom_word_cons, hc]
    exact ih fun d hd => hw d (List.mem_cons_of_mem _ hd)

theorem wordsFrom_boundary (hr : Stops notSpace r) :
    wordsFrom .word r = wordsFrom (.gap false) r := by
  cases r with
  | nil => rfl
  | cons c t =>
    have hc := notSpace_eq_false.mp (hr c rfl)
    have hgap : (if isSpace c then Reading.gap (c == '\n') else .word) = .gap (c == '\n') :=
      if_pos hc
    rw [wordsFrom_word_cons, wordsFrom_space hc, hgap, Bool.false_or]

theorem takeWhile_word (hw : ∀ c ∈ w, notSpace c = true) (hr : Stops notSpace r) :
    (w ++ r).takeWhile notSpace = w := by
  have hnone : r.takeWhile notSpace = [] := by
    cases r with
    | nil => rfl
    | cons c t => simp [hr c rfl]
  rw [List.takeWhile_append_of_pos hw, hnone, List.append_nil]

theorem wordsFrom_word (hne : w ≠ []) (hw : ∀ c ∈ w, notSpace c = true) (hr : Stops notSpace r) :
    wordsFrom (.gap l) (w ++ r) = ⟨l, w⟩ :: wordsFrom .word r := by
  have htake := takeWhile_word hw hr
  cases w with
  | nil => exact absurd rfl hne
  | cons c w =>
    have hc := notSpace_eq_true.mp (hw c List.mem_cons_self)
    rw [List.cons_append] at htake ⊢
    rw [wordsFrom_begin hc, htake,
      wordsFrom_rest fun d hd => hw d (List.mem_cons_of_mem _ hd)]

/-- After a line end it does not matter where the reader stood. -/
theorem wordsFrom_newline (st : Reading) : wordsFrom st ('\n' :: t) = wordsFrom (.gap true) t := by
  cases st with
  | word => rfl
  | gap l =>
    have hspace : isSpace '\n' = true := rfl
    rw [wordsFrom_space hspace, beq_self_eq_true, Bool.or_true]

end words

/-! The words of a text are those of its lines. -/

/-- Some words of one line, the first of which begins it. -/
def lineWords : List Text → List Word
  | [] => []
  | w :: ws => ⟨true, w⟩ :: ws.map fun v => ⟨false, v⟩

theorem wordsFrom_append_newline (line rest : Text) : ∀ st,
    wordsFrom st (line ++ '\n' :: rest) = wordsFrom st line ++ words rest := by
  induction line with
  | nil =>
    intro st
    rw [List.nil_append, wordsFrom_newline]
    cases st <;> rfl
  | cons c line ih =>
    intro st
    have htake : (c :: line ++ '\n' :: rest).takeWhile notSpace = (c :: line).takeWhile notSpace := by
      generalize c :: line = t
      induction t with
      | nil => rfl
      | cons d t iht =>
        rw [List.cons_append, List.takeWhile_cons, List.takeWhile_cons, iht]
    rw [List.cons_append] at htake ⊢
    cases st with
    | word =>
      rw [wordsFrom_word_cons, wordsFrom_word_cons]
      exact ih _
    | gap leads =>
      cases hc : isSpace c with
      | true =>
        rw [wordsFrom_space hc, wordsFrom_space hc]
        exact ih _
      | false => rw [wordsFrom_begin hc, wordsFrom_begin hc, htake, ih, List.cons_append]

/-- No word but the first begins a line. -/
theorem not_leads {line : Text} (hline : '\n' ∉ line) : ∀ st, st = .word ∨ st = .gap false →
    ∀ w ∈ wordsFrom st line, w.leads = false := by
  induction line with
  | nil =>
    intro st _ w hw
    cases st <;> cases hw
  | cons c line ih =>
    intro st hst w hw
    rw [List.mem_cons, not_or] at hline
    have hc : (c == '\n') = false := beq_eq_false_iff_ne.mpr (Ne.symm hline.1)
    have hrest := ih hline.2
    obtain rfl | rfl := hst
    · rw [wordsFrom_word_cons, hc] at hw
      apply hrest _ _ w hw
      cases isSpace c
      · exact .inl rfl
      · exact .inr rfl
    · cases hspace : isSpace c with
      | true =>
        rw [wordsFrom_space hspace, hc] at hw
        exact hrest _ (.inr rfl) w hw
      | false =>
        rw [wordsFrom_begin hspace, List.mem_cons] at hw
        obtain rfl | hw := hw
        · rfl
        · exact hrest _ (.inl rfl) w hw

theorem words_line {line : Text} (hline : '\n' ∉ line) : words line = lineWords (fields line) := by
  unfold fields words
  induction line with
  | nil => rfl
  | cons c line ih =>
    have hrest : '\n' ∉ line := fun hm => hline (List.mem_cons_of_mem _ hm)
    cases hspace : isSpace c with
    | true =>
      rw [wordsFrom_space hspace]
      exact ih hrest
    | false =>
      rw [wordsFrom_begin hspace, List.map_cons, lineWords, List.map_map]
      congr 1
      conv => lhs; rw [← List.map_id (wordsFrom .word line)]
      apply List.map_congr_left
      intro w hw
      have hw' := not_leads hrest .word (.inl rfl) w hw
      show w = ⟨false, w.text⟩
      rw [← hw']

/-- The words of a text are those of its lines. -/
theorem words_lines (text : Text) :
    words text = (splitOn '\n' text).flatMap fun line => lineWords (fields line) := by
  induction hlength : text.length using Nat.strongRecOn generalizing text with
  | _ n ih =>
    by_cases hm : '\n' ∈ text
    · obtain ⟨line, rest, rfl, hline⟩ := List.eq_append_cons_of_mem hm
      rw [List.length_append, List.length_cons] at hlength
      have hrest := ih rest.length (by omega) rest rfl
      rw [splitOn_append_sep hline, List.flatMap_cons, ← hrest, ← words_line hline]
      exact wordsFrom_append_newline line rest _
    · rw [splitOn_of_not_mem hm, List.flatMap_cons, List.flatMap_nil, List.append_nil]
      exact words_line hm

end PyText
