import ArubaCertRenewer.Words

/- Patterns of table rows: `^\s*`, fields with `\s+` between them, `\s*$`.

   What such a pattern matches depends on the words of a text alone, and on which of them is
   the first on its line: a row is a run of words that begins a line and ends one, and it
   may go over several lines. -/
namespace PyText
open Regex

/-- A pattern for whole words, and which it accepts. -/
structure WordPattern (pattern : Regex) (accepts : Text → Bool) : Prop where
  blocked : Blocked isSpace (results pattern)
  ended : ∀ b g, results pattern ⟨b, [], g⟩ = []
  whole : ∀ (b w r : Text) g (next : Pos → List Pos), w ≠ [] → (∀ c ∈ w, notSpace c = true) →
    Stops notSpace r → Blocked notSpace next →
    (results pattern ⟨b, w ++ r, g⟩).flatMap next =
      if accepts w then next ⟨w.reverse ++ b, r, g⟩ else []

theorem wordPattern_any : WordPattern (plus nonSpace) fun _ => true where
  blocked := fun _ _ _ _ hc => plus_char_stop (stops_cons (notSpace_eq_false.mpr hc))
  ended := fun _ _ => plus_char_stop stops_nil
  whole := fun _ _ _ _ _ hne hw hr hnext => plus_char_then hnext hne hw hr

/-- A word that is one character of each class. -/
theorem beginsWith_word {ps : List (Char → Bool)} (hps : ∀ p ∈ ps, ∀ c, isSpace c = true → p c = false)
    {w r : Text} (hr : Stops notSpace r) :
    beginsWith ps (w ++ r) = true ↔ ps.length ≤ w.length ∧ beginsWith ps w = true := by
  induction ps generalizing w with
  | nil => simp [beginsWith]
  | cons p ps ih =>
    have hps' : ∀ q ∈ ps, ∀ c, isSpace c = true → q c = false := fun q hq =>
      hps q (List.mem_cons_of_mem _ hq)
    cases w with
    | nil =>
      -- no class has a space
      have hnot : beginsWith (p :: ps) r = false := by
        cases r with
        | nil => rfl
        | cons c t =>
          have hc := notSpace_eq_false.mp (hr c rfl)
          rw [beginsWith, hps p List.mem_cons_self c hc, Bool.false_and]
      simp [hnot]
    | cons c w =>
      simp only [List.cons_append, beginsWith, Bool.and_eq_true, ih hps', List.length_cons]
      rw [Nat.add_le_add_iff_right, and_left_comm]

theorem wordPattern_fixed {pattern : Regex} {ps : List (Char → Bool)} (h : Fixed pattern ps)
    (hne : ps ≠ []) (hps : ∀ p ∈ ps, ∀ c, isSpace c = true → p c = false) :
    WordPattern pattern fun w => w.length == ps.length && beginsWith ps w where
  blocked := by
    intro b c t g hc
    cases ps with
    | nil => exact absurd rfl hne
    | cons p ps =>
      rw [h, beginsWith, hps p List.mem_cons_self c hc, Bool.false_and, if_neg Bool.false_ne_true]
  ended := by
    intro b g
    cases ps with
    | nil => exact absurd rfl hne
    | cons p ps => rw [h, beginsWith, if_neg Bool.false_ne_true]
  whole := by
    intro b w r g next hwne hw hr hnext
    have hiff := beginsWith_word hps (w := w) hr
    rw [h]
    by_cases hbegins : beginsWith ps (w ++ r) = true
    · obtain ⟨hle, hword⟩ := hiff.mp hbegins
      rw [if_pos hbegins, List.flatMap_cons, List.flatMap_nil, List.append_nil, hword,
        Bool.and_true, List.take_append_of_le_length hle, List.drop_append_of_le_length hle]
      by_cases hlength : w.length = ps.length
      · rw [← hlength, beq_self_eq_true, if_pos rfl, List.take_length, List.drop_length,
          List.nil_append]
      · -- the word goes on
        have hmore : (w.drop ps.length) ≠ [] := by
          intro hnil
          have hlen := List.drop_eq_nil_iff.mp hnil
          omega
        rw [beq_eq_false_iff_ne.mpr hlength, if_neg Bool.false_ne_true]
        cases hdrop : w.drop ps.length with
        | nil => exact absurd hdrop hmore
        | cons c t =>
          have hc : c ∈ w := List.mem_of_mem_drop (hdrop ▸ List.mem_cons_self)
          exact hnext _ c _ _ (hw c hc)
    · have hnot : (w.length == ps.length && beginsWith ps w) = false := by
        rw [Bool.and_eq_false_iff, beq_eq_false_iff_ne]
        by_cases hword : beginsWith ps w = true
        · left
          intro hlength
          exact hbegins (hiff.mpr ⟨Nat.le_of_eq hlength.symm, hword⟩)
        · right
          exact Bool.eq_false_iff.mpr hword
      rw [if_neg hbegins, hnot, if_neg Bool.false_ne_true]
      rfl

/-- A literal accepts itself. -/
theorem wordPattern_lit {t : Text} (hne : t ≠ []) (ht : t.all notSpace = true) :
    WordPattern (lit t) (· == t) := by
  have hps : ∀ p ∈ t.map fun c => (· == c), ∀ c, isSpace c = true → p c = false := by
    intro p hp c hc
    obtain ⟨d, hd, rfl⟩ := List.mem_map.mp hp
    have hd' := notSpace_eq_true.mp (List.all_eq_true.mp ht d hd)
    rw [beq_eq_false_iff_ne]
    intro he
    rw [he, hd'] at hc
    cases hc
  have haccepts : (fun w : Text => w.length == (t.map fun c => (· == c)).length &&
      beginsWith (t.map fun c => (· == c)) w) = (· == t) := by
    funext w
    rw [List.length_map]
    clear hne ht hps
    induction t generalizing w with
    | nil => cases w <;> rfl
    | cons c t ih =>
      cases w with
      | nil => rfl
      | cons d w =>
        have hrest : (w.length == t.length && beginsWith (t.map fun c => (· == c)) w) = (w == t) :=
          ih w
        have hlength : (w.length + 1 == t.length + 1) = (w.length == t.length) := by
          rw [Bool.eq_iff_iff, beq_iff_eq, beq_iff_eq, Nat.add_right_cancel_iff]
        rw [List.length_cons, List.length_cons, List.map_cons, beginsWith, List.cons_beq_cons,
          ← hrest, Bool.and_left_comm, hlength]
  have h := wordPattern_fixed (fixed_lit t) (by simpa using hne) hps
  rwa [haccepts] at h

theorem WordPattern.alt {a c : Regex} {f g : Text → Bool} (ha : WordPattern a f)
    (hc : WordPattern c g) (hdisjoint : ∀ w, ¬ (f w = true ∧ g w = true)) :
    WordPattern (alt a c) fun w => f w || g w where
  blocked := by
    intro b d t k hd
    show results a _ ++ results c _ = []
    rw [ha.blocked b d t k hd, hc.blocked b d t k hd, List.append_nil]
  ended := by
    intro b k
    show results a _ ++ results c _ = []
    rw [ha.ended, hc.ended, List.append_nil]
  whole := by
    intro b w r k next hne hw hr hnext
    show (results a _ ++ results c _).flatMap next = _
    rw [List.flatMap_append, ha.whole b w r k next hne hw hr hnext,
      hc.whole b w r k next hne hw hr hnext]
    have hnot := hdisjoint w
    cases hf : f w with
    | false => simp
    | true =>
      have hg : g w = false := by
        rw [← Bool.not_eq_true]
        intro h
        exact hnot ⟨hf, h⟩
      simp [hg]

/-- A field of a row: its name, its pattern, and the words that this accepts. -/
structure RowField where
  name : String
  pattern : Regex
  accepts : Text → Bool
  wordPattern : WordPattern pattern accepts

/-- What follows the first field. -/
def laterFields : List RowField → Regex
  | [] => seq (star true space) lineEnd
  | f :: fs => seq (plus space) (seq (group f.name f.pattern) (laterFields fs))

def rowPattern (f : RowField) (fs : List RowField) : Regex :=
  seq lineStart (seq (star true space) (seq (group f.name f.pattern) (laterFields fs)))

/-- The captures of the later fields, where the words are such that the row ends a line. -/
def laterCaptures : List RowField → List Word → Option (List (String × Text))
  | [], ws => if ws.head?.all (·.leads) then some [] else none
  | f :: fs, w :: ws =>
    if f.accepts w.text then (laterCaptures fs ws).map ((f.name, w.text) :: ·) else none
  | _ :: _, [] => none

/-- The captures of a row that begins at the first of the words. -/
def rowCaptures (f : RowField) (fs : List RowField) : List Word → Option (List (String × Text))
  | [] => none
  | w :: ws =>
    if w.leads && f.accepts w.text then (laterCaptures fs ws).map ((f.name, w.text) :: ·) else none

/-- The first row, and the words after it. -/
def nextRow (f : RowField) (fs : List RowField) : List Word → Option (List (String × Text) × List Word)
  | [] => none
  | w :: ws =>
    match rowCaptures f fs (w :: ws) with
    | some captures => some (captures, ws.drop fs.length)
    | none => nextRow f fs ws

section rows
variable {f : RowField} {fs : List RowField} {b r w : Text} {g : List (String × Text)}

theorem results_lineEnd_newline {t : Text} :
    results lineEnd ⟨b, '\n' :: t, g⟩ = [⟨b, '\n' :: t, g⟩] := rfl

theorem results_lineEnd_of_ne {c : Char} {t : Text} (h : c ≠ '\n') :
    results lineEnd ⟨b, c :: t, g⟩ = [] := by
  have hc : (some c == some '\n') = false := by simpa using h
  simp [results, hc]

theorem not_newline {c : Char} (h : notSpace c = true) : c ≠ '\n' := by
  intro he
  rw [he] at h
  cases h

/-- The end of a row, after the white space `s` that follows its last field. -/
theorem results_rowEnd {s : Text} (hs : ∀ c ∈ s, isSpace c = true) (hr : Stops isSpace r) :
    (r = [] → (results (laterFields []) ⟨b, s ++ r, g⟩).head? = some ⟨s.reverse ++ b, [], g⟩) ∧
    (r ≠ [] → '\n' ∉ s → results (laterFields []) ⟨b, s ++ r, g⟩ = []) ∧
    (r ≠ [] → '\n' ∈ s → ∃ u v, s = u ++ '\n' :: v ∧ '\n' ∉ v ∧
      (results (laterFields []) ⟨b, s ++ r, g⟩).head? =
        some ⟨u.reverse ++ b, '\n' :: v ++ r, g⟩) := by
  induction s generalizing b with
  | nil =>
    have hstop : results (laterFields []) ⟨b, [] ++ r, g⟩ = results lineEnd ⟨b, r, g⟩ := by
      rw [laterFields, results_seq, List.nil_append, space, star_char_stop hr, List.flatMap_cons,
        List.flatMap_nil, List.append_nil]
    refine ⟨?_, ?_, ?_⟩
    · intro he
      rw [hstop, he]
      rfl
    · intro hne _
      rw [hstop]
      cases r with
      | nil => exact absurd rfl hne
      | cons c t => exact results_lineEnd_of_ne (not_newline (notSpace_eq_true.mpr (hr c rfl)))
    · intro _ hm
      cases hm
  | cons c s ih =>
    have hc := hs c List.mem_cons_self
    obtain ⟨hend, hnone, hsome⟩ := ih (b := c :: b) fun d hd => hs d (List.mem_cons_of_mem _ hd)
    -- one character more is tried last
    have hstep : results (laterFields []) ⟨b, c :: s ++ r, g⟩ =
        results (laterFields []) ⟨c :: b, s ++ r, g⟩ ++ results lineEnd ⟨b, c :: (s ++ r), g⟩ := by
      rw [laterFields, results_seq, results_seq, List.cons_append, space, star_char_cons hc,
        List.flatMap_append, List.flatMap_cons, List.flatMap_nil, List.append_nil]
    refine ⟨?_, ?_, ?_⟩
    · intro he
      rw [hstep, List.head?_append, hend he]
      simp
    · intro hne hnot
      rw [List.mem_cons, not_or] at hnot
      rw [hstep, hnone hne hnot.2, results_lineEnd_of_ne (Ne.symm hnot.1), List.append_nil]
    · intro hne hm
      by_cases hlater : '\n' ∈ s
      · obtain ⟨u, v, rfl, hv, hhead⟩ := hsome hne hlater
        refine ⟨c :: u, v, rfl, hv, ?_⟩
        rw [hstep, List.head?_append, hhead]
        simp
      · have hnl : c = '\n' := by
          rw [List.mem_cons] at hm
          exact (hm.resolve_right hlater).symm
        subst hnl
        refine ⟨[], s, rfl, hlater, ?_⟩
        rw [hstep, hnone hne hlater, results_lineEnd_newline]
        rfl

theorem later_blocked (fs : List RowField) : Blocked notSpace (results (laterFields fs)) := by
  intro b c t g hc
  have hspace := notSpace_eq_true.mp hc
  cases fs with
  | nil =>
    rw [laterFields, results_seq, space, star_char_stop (stops_cons hspace), List.flatMap_cons,
      List.flatMap_nil, List.append_nil]
    exact results_lineEnd_of_ne (not_newline hc)
  | cons f fs =>
    rw [laterFields, results_seq, space, plus_char_stop (stops_cons hspace)]
    rfl

theorem field_blocked (f : RowField) (next : Regex) :
    Blocked isSpace (results (seq (group f.name f.pattern) next)) := by
  intro b c t g hc
  show ((results f.pattern ⟨b, c :: t, g⟩).map _).flatMap _ = []
  rw [f.wordPattern.blocked b c t g hc]
  rfl

theorem results_field_ended (f : RowField) (next : Regex) :
    results (seq (group f.name f.pattern) next) ⟨b, [], g⟩ = [] := by
  show ((results f.pattern ⟨b, [], g⟩).map _).flatMap _ = []
  rw [f.wordPattern.ended b g]
  rfl

/-- A field takes a whole word, if it accepts it. -/
theorem results_field {next : Regex} (hnext : Blocked notSpace (results next)) (hne : w ≠ [])
    (hw : ∀ c ∈ w, notSpace c = true) (hr : Stops notSpace r) :
    results (seq (group f.name f.pattern) next) ⟨b, w ++ r, g⟩ =
      if f.accepts w then results next ⟨w.reverse ++ b, r, (f.name, w) :: g⟩ else [] := by
  have hcapture : Blocked notSpace fun s' => results next { s' with groups :=
      (f.name, (s'.before.take ((w ++ r).length - s'.rest.length)).reverse) :: s'.groups } := by
    intro b c t g hc
    exact hnext b c t _ hc
  show ((results f.pattern ⟨b, w ++ r, g⟩).map _).flatMap (results next) = _
  rw [List.flatMap_map, f.wordPattern.whole b w r g _ hne hw hr hcapture]
  simp

/-- The later fields match in one place at most, where the words say so. -/
theorem results_later (fs : List RowField) : ∀ (b r : Text) g, Stops notSpace r →
    (laterCaptures fs (wordsFrom .word r) = none → results (laterFields fs) ⟨b, r, g⟩ = []) ∧
    ∀ captures, laterCaptures fs (wordsFrom .word r) = some captures → ∃ u r', r = u ++ r' ∧
      (results (laterFields fs) ⟨b, r, g⟩).head? = some ⟨u.reverse ++ b, r', captures.reverse ++ g⟩ ∧
      ∀ st, wordsFrom st r' = (wordsFrom .word r).drop fs.length := by
  induction fs with
  | nil =>
    intro b r g hr
    obtain ⟨s, r₁, rfl, hs, hr₁⟩ := exists_span isSpace r
    obtain ⟨hend, hnone, hsome⟩ := results_rowEnd (b := b) (g := g) hs hr₁
    have hwords : wordsFrom .word (s ++ r₁) = wordsFrom (.gap (s.contains '\n')) r₁ := by
      rw [wordsFrom_boundary hr, wordsFrom_gap hs, Bool.false_or]
    rw [hwords]
    cases r₁ with
    | nil =>
      -- the text ends here
      refine ⟨fun h => (by cases h), ?_⟩
      intro captures h
      cases h
      refine ⟨s, [], rfl, hend rfl, fun st => ?_⟩
      cases st <;> rfl
    | cons c t =>
      have hc := hr₁ c rfl
      have hcons : wordsFrom (.gap (s.contains '\n')) (c :: t) =
          ⟨s.contains '\n', (c :: t).takeWhile notSpace⟩ :: wordsFrom .word t :=
        wordsFrom_begin hc
      by_cases hm : '\n' ∈ s
      · obtain ⟨u, v, rfl, hv, hhead⟩ := hsome (List.cons_ne_nil _ _) hm
        have hcontains : (u ++ '\n' :: v).contains '\n' = true := by simp
        rw [hcontains] at hcons ⊢
        constructor
        · intro h
          rw [hcons] at h
          cases h
        · intro captures h
          rw [hcons] at h
          cases h
          refine ⟨u, '\n' :: v ++ (c :: t), by simp, hhead, ?_⟩
          intro st
          have hv' : ∀ d ∈ v, isSpace d = true := fun d hd =>
            hs d (List.mem_append_right _ (List.mem_cons_of_mem _ hd))
          rw [List.cons_append, wordsFrom_newline, wordsFrom_gap hv', Bool.true_or]
          rfl
      · have hcontains : s.contains '\n' = false := by simpa using hm
        rw [hcontains] at hcons ⊢
        constructor
        · intro _
          exact hnone (List.cons_ne_nil _ _) hm
        · intro captures h
          rw [hcons] at h
          cases h
  | cons f fs ih =>
    intro b r g hr
    obtain ⟨s, r₁, rfl, hs, hr₁⟩ := exists_span isSpace r
    have hwords : wordsFrom .word (s ++ r₁) = wordsFrom (.gap (s.contains '\n')) r₁ := by
      rw [wordsFrom_boundary hr, wordsFrom_gap hs, Bool.false_or]
    rw [hwords]
    cases r₁ with
    | nil =>
      refine ⟨fun _ => ?_, fun captures h => by cases h⟩
      -- no word is left for the field
      by_cases hnil : s = []
      · rw [hnil]
        rfl
      · rw [laterFields, results_seq, space,
          plus_char_then (field_blocked f (laterFields fs)) hnil hs hr₁]
        exact results_field_ended f _
    | cons c t =>
      have hc := hr₁ c rfl
      have hne : s ≠ [] := by
        intro he
        have hstop := hr c (by rw [he]; rfl)
        rw [notSpace_eq_false, hc] at hstop
        cases hstop
      obtain ⟨w, r₂, hsplit, hw, hr₂⟩ := exists_span notSpace (c :: t)
      have hwne : w ≠ [] := by
        intro he
        rw [he, List.nil_append] at hsplit
        have hstop := hr₂ c (by rw [← hsplit]; rfl)
        rw [notSpace_eq_false, hc] at hstop
        cases hstop
      rw [hsplit, wordsFrom_word hwne hw hr₂]
      have hresults : results (laterFields (f :: fs)) ⟨b, s ++ (w ++ r₂), g⟩ =
          if f.accepts w then
            results (laterFields fs) ⟨w.reverse ++ (s.reverse ++ b), r₂, (f.name, w) :: g⟩
          else [] := by
        rw [laterFields, results_seq, space,
          plus_char_then (field_blocked f (laterFields fs)) hne hs (hsplit ▸ hr₁)]
        exact results_field (later_blocked fs) hwne hw hr₂
      obtain ⟨hnone, hsome⟩ := ih (w.reverse ++ (s.reverse ++ b)) r₂ ((f.name, w) :: g) hr₂
      rw [hresults, laterCaptures]
      cases haccepts : f.accepts w with
      | false => exact ⟨fun _ => rfl, fun captures h => by cases h⟩
      | true =>
        simp only [if_true, Option.map_eq_none_iff, Option.map_eq_some_iff]
        refine ⟨hnone, ?_⟩
        intro captures h
        obtain ⟨later, hlater, rfl⟩ := h
        obtain ⟨u, r', rfl, hhead, hrest⟩ := hsome later hlater
        refine ⟨s ++ (w ++ u), r', by simp, ?_, hrest⟩
        rw [hhead]
        simp

end rows

end PyText
