import ArubaCertRenewer.SummaryRows
import ArubaCertRenewer.Install

/- The choice of a renewal name.

   A name is taken when a line of the summary begins with it, up to letter case, and with
   white space after it. The name chosen is the free one of the least sequence number, and
   `generate_csr` has nothing against it. -/
namespace ArubaCertRenewer
open PyText Regex

/-! ## The characters of a renewal name -/

def nameCharacters : Text := "webcrt-0123456789"

/-- `f"webcert-{date:%Y%m%d}-{sequence:02d}"`. -/
def renewalName (date : Int) (sequence : Nat) : Text :=
  renewalNamePrefix date ++ zeroPadded 2 sequence

theorem nameCharacters_fold {c : Char} (hc : c ∈ nameCharacters) : lowerAscii c = c ∧
    c.toNat < 128 ∧ c ≠ 'i' ∧ c ≠ 's' ∧ c ≠ 'k' ∧ isSpace c = false ∧
    (isAlnumAscii c || c == '-') = true := by
  have hall : nameCharacters.all (fun c => decide (lowerAscii c = c ∧ c.toNat < 128 ∧ c ≠ 'i' ∧
      c ≠ 's' ∧ c ≠ 'k' ∧ isSpace c = false ∧ (isAlnumAscii c || c == '-') = true)) = true := by
    decide
  exact of_decide_eq_true (List.all_eq_true.mp hall c hc)

theorem digit_mem_nameCharacters {c : Char} (h : c.isDigit = true) : c ∈ nameCharacters := by
  have hall : ∀ k < 10, Char.ofNat (48 + k) ∈ nameCharacters := by decide
  have hbounds : 48 ≤ c.toNat ∧ c.toNat ≤ 57 := by
    simpa [Char.isDigit, UInt32.le_iff_toNat_le] using h
  have hmem := hall (c.toNat - 48) (by omega)
  rwa [Nat.add_sub_cancel' hbounds.1, Char.ofNat_toNat] at hmem

theorem mem_zeroPadded {width n : Nat} {c : Char} (h : c ∈ zeroPadded width n) :
    c ∈ nameCharacters := by
  obtain h | h := List.mem_append.mp h
  · rw [List.eq_of_mem_replicate h]
    decide
  · rw [ofNat, show (toString n).toList = Nat.toDigits 10 n by simp] at h
    exact digit_mem_nameCharacters (Nat.isDigit_of_mem_toDigits (by decide) (by decide) h)

theorem mem_strftimeDate {date : Int} {c : Char} (h : c ∈ strftimeDate [] date) :
    c ∈ nameCharacters := by
  unfold strftimeDate at h
  generalize civilOf date = civil at h
  obtain ⟨y, m, d⟩ := civil
  obtain h | ⟨part, hpart, h⟩ := mem_join h
  · cases h
  · simp only [List.mem_cons, List.not_mem_nil, or_false] at hpart
    rcases hpart with hpart | hpart | hpart
    · exact mem_zeroPadded (hpart ▸ h)
    · exact mem_zeroPadded (hpart ▸ h)
    · exact mem_zeroPadded (hpart ▸ h)

theorem mem_renewalName {date : Int} {sequence : Nat} {c : Char}
    (h : c ∈ renewalName date sequence) : c ∈ nameCharacters := by
  have hfixed : (("webcert-" : Text) ++ "-").all (nameCharacters.contains ·) = true := by
    decide
  have hmem : ∀ c ∈ ("webcert-" : Text) ++ "-", c ∈ nameCharacters := by
    intro c hc
    simpa using List.all_eq_true.mp hfixed c hc
  unfold renewalName renewalNamePrefix at h
  obtain h | h := List.mem_append.mp h
  · obtain h | h := List.mem_append.mp h
    · obtain h | h := List.mem_append.mp h
      · exact hmem c (List.mem_append_left _ h)
      · exact mem_strftimeDate h
    · exact hmem c (List.mem_append_right _ h)
  · exact mem_zeroPadded h

theorem validateCliIdentifier_renewalName (date : Int) (sequence : Nat) (fieldName : Text) :
    validateCliIdentifier (renewalName date sequence) fieldName = .ok () := by
  have hall : (renewalName date sequence).all
      (fun c => isAlnumAscii c || c == '_' || c == '.' || c == '-') = true := by
    rw [List.all_eq_true]
    intro c hc
    have hchar := (nameCharacters_fold (mem_renewalName hc)).2.2.2.2.2.2
    rw [Bool.or_eq_true] at hchar
    obtain hchar | hchar := hchar
    · simp [hchar]
    · simp [hchar]
  have hhead : (renewalName date sequence).head?.any isAlnumAscii = true := rfl
  rw [validateCliIdentifier, isCliIdentifier, hhead, hall]
  rfl

/-! ## Letter case -/

theorem foldRuns_table : ∀ run ∈ caseFoldRuns, 128 ≤ (run.1 : Int) + run.2.2.2 ∨
    run.2.1 * run.2.2.1 = 1 ∧ Char.ofNat ((run.1 : Int) + run.2.2.2).toNat ∉ nameCharacters := by
  decide +kernel

theorem foldFull_table : ∀ entry ∈ caseFoldFull, ∃ n ∈ entry.2, Char.ofNat n ∉ nameCharacters := by
  decide

theorem not_mem_of_ge {c : Char} (hc : 128 ≤ c.toNat) : c ∉ nameCharacters := by
  intro hm
  have hlt := (nameCharacters_fold hm).2.1
  omega

theorem ofNat_not_mem {n : Nat} (hn : 128 ≤ n) : Char.ofNat n ∉ nameCharacters := by
  by_cases hvalid : n.isValidChar
  · apply not_mem_of_ge
    rw [Char.ofNat, dif_pos hvalid]
    exact hn
  · rw [Char.ofNat, dif_neg hvalid]
    decide

/-- No character beyond ASCII folds into the characters of a name. -/
theorem exists_not_mem_casefoldChar {c : Char} (hc : 128 ≤ c.toNat) :
    ∃ d ∈ casefoldChar c, d ∉ nameCharacters := by
  unfold casefoldChar
  dsimp only
  rw [if_neg (by omega)]
  split
  · next ns hfull =>
    obtain ⟨n, hn, hnot⟩ := foldFull_table _ (List.mem_of_find?_eq_some hfull)
    exact ⟨Char.ofNat n, List.mem_map.mpr ⟨n, hn, rfl⟩, hnot⟩
  · split
    · next a k st d hrun =>
      refine ⟨_, List.mem_singleton_self _, ?_⟩
      have hbounds := List.find?_some hrun
      simp only [Bool.and_eq_true, decide_eq_true_eq] at hbounds
      obtain hlarge | ⟨hone, hnot⟩ := foldRuns_table _ (List.mem_of_find?_eq_some hrun)
      · apply ofNat_not_mem
        dsimp only at hlarge
        omega
      · dsimp only at hone hnot
        rw [hone] at hbounds
        have hfirst : c.toNat = a := by omega
        rwa [hfirst]
    · exact ⟨c, List.mem_singleton_self _, not_mem_of_ge hc⟩

theorem mem_of_lowerAscii_mem {c : Char} (h : lowerAscii c ∈ nameCharacters) : c.toNat < 128 := by
  unfold lowerAscii at h
  split at h
  · next hupper =>
    have hle : c.toNat ≤ 90 := hupper.2
    omega
  · by_contra hge
    exact not_mem_of_ge (by omega) h

/-- Folding to a name is lowering to it. -/
theorem casefold_eq_iff {name field : Text} (hname : ∀ c ∈ name, c ∈ nameCharacters) :
    casefold field = casefold name ↔ field.map lowerAscii = name := by
  have hlower : name.map lowerAscii = name := by
    conv => rhs; rw [← List.map_id name]
    apply List.map_congr_left
    intro c hc
    exact (nameCharacters_fold (hname c hc)).1
  have hfold : casefold name = name := by
    rw [casefold_ascii fun c hc => (nameCharacters_fold (hname c hc)).2.1, hlower]
  rw [hfold]
  constructor
  · intro h
    have hascii : ∀ c ∈ field, c.toNat < 128 := by
      intro c hc
      by_contra hge
      obtain ⟨d, hd, hnot⟩ := exists_not_mem_casefoldChar (c := c) (by omega)
      apply hnot
      apply hname
      rw [← h]
      exact List.mem_flatMap.mpr ⟨c, hc, hd⟩
    rw [← casefold_ascii hascii, h]
  · intro h
    have hascii : ∀ c ∈ field, c.toNat < 128 := by
      intro c hc
      apply mem_of_lowerAscii_mem
      apply hname
      rw [← h]
      exact List.mem_map_of_mem hc
    rw [casefold_ascii hascii, h]

/-- A pattern of a name matches what lowers to it. -/
theorem beginsWith_name {name field : Text} (hname : ∀ c ∈ name, c ∈ nameCharacters)
    (hlength : field.length = name.length) :
    beginsWith (name.map sameIgnoringCase) field = true ↔ field.map lowerAscii = name := by
  induction name generalizing field with
  | nil => simp [List.length_eq_zero_iff.mp hlength]
  | cons c name ih =>
    cases field with
    | nil => cases hlength
    | cons d field =>
      obtain ⟨hlower, -, hi, hs, hk, -⟩ := nameCharacters_fold (hname c List.mem_cons_self)
      have hsame : sameIgnoringCase c d = (lowerAscii d == c) := by
        have hi' : (c == 'i') = false := beq_eq_false_iff_ne.mpr hi
        have hs' : (c == 's') = false := beq_eq_false_iff_ne.mpr hs
        have hk' : (c == 'k') = false := beq_eq_false_iff_ne.mpr hk
        simp [sameIgnoringCase, hlower, hi', hs', hk']
      have hrest : beginsWith (name.map sameIgnoringCase) field = true ↔ _ :=
        ih (fun e he => hname e (List.mem_cons_of_mem _ he)) (Nat.succ.inj hlength)
      rw [List.map_cons, List.map_cons, beginsWith_cons, Bool.and_eq_true, hrest, hsame, beq_iff_eq,
        List.cons.injEq]

/-! ## The names that a summary has -/

/-- The field is the first of a line of the text, and white space follows it. -/
def LeadsLine (text field : Text) : Prop :=
  ∃ before indent c after, text = before ++ (indent ++ (field ++ c :: after)) ∧
    (before = [] ∨ before.getLast? = some '\n') ∧
    (∀ d ∈ indent, isSpace d = true ∧ d ≠ '\n') ∧
    field ≠ [] ∧ (∀ d ∈ field, isSpace d = false) ∧ isSpace c = true

/-- The indentation may go over blank lines. -/
theorem leadsLine_of_gap {before gap field after : Text} {c : Char}
    (hbefore : before = [] ∨ before.getLast? = some '\n') (hgap : ∀ d ∈ gap, isSpace d = true)
    (hne : field ≠ []) (hfield : ∀ d ∈ field, isSpace d = false) (hc : isSpace c = true) :
    LeadsLine (before ++ (gap ++ (field ++ c :: after))) field := by
  by_cases hm : '\n' ∈ gap
  · obtain ⟨later, earlier, hsplit, hlater⟩ :=
      List.eq_append_cons_of_mem (List.mem_reverse.mpr hm)
    have hgapEq : gap = earlier.reverse ++ '\n' :: later.reverse := by
      rw [← List.reverse_reverse gap, hsplit]
      simp
    refine ⟨before ++ (earlier.reverse ++ ['\n']), later.reverse, c, after, ?_, .inr ?_, ?_, hne,
      hfield, hc⟩
    · rw [hgapEq]
      simp
    · simp
    · intro d hd
      have hmem : d ∈ gap := by
        rw [hgapEq]
        exact List.mem_append_right _ (List.mem_cons_of_mem _ hd)
      refine ⟨hgap d hmem, ?_⟩
      intro he
      rw [he] at hd
      exact hlater (List.mem_reverse.mp hd)
  · refine ⟨before, gap, c, after, rfl, hbefore, ?_, hne, hfield, hc⟩
    intro d hd
    refine ⟨hgap d hd, ?_⟩
    intro he
    rw [he] at hd
    exact hm hd

/-- The pattern of `certificate_name_exists`. -/
def existingNamePattern (name : Text) : Regex :=
  seqs [lineStart, star true space, litIgnoringCase name, plus space]

theorem isSpace_of_lowerAscii {c : Char} (h : lowerAscii c ∈ nameCharacters) :
    isSpace c = false := by
  have hupper : ∀ k < 26, isSpace (Char.ofNat (65 + k)) = false := by decide
  have hspace := (nameCharacters_fold h).2.2.2.2.2.1
  unfold lowerAscii at hspace
  split at hspace
  · next hbounds =>
    have hlow : 65 ≤ c.toNat := hbounds.1
    have hhigh : c.toNat ≤ 90 := hbounds.2
    have hc := hupper (c.toNat - 65) (by omega)
    rwa [Nat.add_sub_cancel' hlow, Char.ofNat_toNat] at hc
  · exact hspace

theorem plus_space_ne_nil {b t : Text} {g : List (String × Text)} :
    results (plus space) ⟨b, t, g⟩ ≠ [] ↔ ∃ c after, t = c :: after ∧ isSpace c = true := by
  constructor
  · intro h
    cases t with
    | nil => exact absurd rfl h
    | cons c t =>
      refine ⟨c, t, rfl, ?_⟩
      by_contra hc
      exact h (plus_char_stop (stops_cons (Bool.eq_false_iff.mpr hc)))
  · intro h
    obtain ⟨c, after, rfl, hc⟩ := h
    have hone : results space ⟨b, c :: after, g⟩ = [⟨c :: b, after, g⟩] := if_pos hc
    rw [plus, results_seq, hone, List.flatMap_cons, List.flatMap_nil, List.append_nil]
    cases after with
    | nil => exact List.cons_ne_nil _ _
    | cons d after =>
      cases hd : isSpace d with
      | true =>
        rw [space, star_char_cons hd]
        simp
      | false =>
        rw [space, star_char_stop (stops_cons hd)]
        exact List.cons_ne_nil _ _

/-- The pattern matches where a line begins with the name and white space after it. -/
theorem results_existingName {name b t : Text} (hne : name ≠ [])
    (hname : ∀ c ∈ name, c ∈ nameCharacters) :
    results (existingNamePattern name) ⟨b, t, []⟩ ≠ [] ↔
      readingAfter b = .gap true ∧ ∃ gap field c after, t = gap ++ (field ++ c :: after) ∧
        (∀ d ∈ gap, isSpace d = true) ∧ field.map lowerAscii = name ∧ isSpace c = true := by
  have hfixed := fixed_litIgnoringCase name
  have hspaces : ∀ field : Text, field.map lowerAscii = name → ∀ d ∈ field, isSpace d = false := by
    intro field hfield d hd
    apply isSpace_of_lowerAscii
    apply hname
    rw [← hfield]
    exact List.mem_map_of_mem hd
  have hfollow : ∀ b r g, results (seq (litIgnoringCase name) (plus space)) ⟨b, r, g⟩ ≠ [] ↔
      ∃ field c after, r = field ++ c :: after ∧ field.map lowerAscii = name ∧
        isSpace c = true := by
    intro b r g
    rw [results_seq, hfixed]
    constructor
    · intro h
      split at h
      · next hbegins =>
        obtain ⟨field, after, rfl, hlength, hfield⟩ := beginsWith_iff.mp hbegins
        rw [List.flatMap_cons, List.flatMap_nil, List.append_nil, ← hlength, List.drop_left] at h
        obtain ⟨c, after, rfl, hc⟩ := plus_space_ne_nil.mp h
        rw [List.length_map] at hlength
        exact ⟨field, c, after, rfl, (beginsWith_name hname hlength).mp hfield, hc⟩
      · exact absurd rfl h
    · intro h
      obtain ⟨field, c, after, rfl, hfield, hc⟩ := h
      have hlength : field.length = name.length := by rw [← hfield, List.length_map]
      have hlength' : field.length = (name.map sameIgnoringCase).length := by
        rw [List.length_map, hlength]
      have hbegins : beginsWith (name.map sameIgnoringCase) (field ++ c :: after) = true :=
        beginsWith_iff.mpr ⟨field, _, rfl, hlength', (beginsWith_name hname hlength).mpr hfield⟩
      rw [if_pos hbegins, List.flatMap_cons, List.flatMap_nil, List.append_nil, ← hlength',
        List.drop_left]
      exact plus_space_ne_nil.mpr ⟨c, after, rfl, hc⟩
  have hblocked : Blocked isSpace (results (seq (litIgnoringCase name) (plus space))) := by
    intro b c t g hc
    by_contra h
    obtain ⟨field, d, after, he, hfield, -⟩ := (hfollow b (c :: t) g).mp h
    cases field with
    | nil => exact hne hfield.symm
    | cons e field =>
      cases he
      rw [hspaces _ hfield c List.mem_cons_self] at hc
      cases hc
  have hgap : ∀ gap r : Text, (∀ d ∈ gap, isSpace d = true) → Stops isSpace r →
      results (seq (star true space) (seq (litIgnoringCase name) (plus space))) ⟨b, gap ++ r, []⟩ =
        results (seq (litIgnoringCase name) (plus space)) ⟨gap.reverse ++ b, r, []⟩ := by
    intro gap r hs hr
    rw [results_seq]
    exact star_char_then hblocked hs hr
  show (results lineStart ⟨b, t, []⟩).flatMap
    (results (seq (star true space) (seq (litIgnoringCase name) (plus space)))) ≠ [] ↔ _
  rw [results_lineStart]
  by_cases hstart : readingAfter b = .gap true
  · rw [if_pos hstart, List.flatMap_cons, List.flatMap_nil, List.append_nil]
    constructor
    · intro h
      obtain ⟨gap, r, rfl, hs, hr⟩ := exists_span isSpace t
      rw [hgap gap r hs hr] at h
      obtain ⟨field, c, after, rfl, hfield, hc⟩ := (hfollow _ _ _).mp h
      exact ⟨hstart, gap, field, c, after, rfl, hs, hfield, hc⟩
    · intro h
      obtain ⟨-, gap, field, c, after, rfl, hs, hfield, hc⟩ := h
      have hr : Stops isSpace (field ++ c :: after) := by
        cases field with
        | nil => exact absurd hfield.symm hne
        | cons d field => exact stops_cons (hspaces _ hfield d List.mem_cons_self)
      rw [hgap _ _ hs hr]
      exact (hfollow _ _ _).mpr ⟨field, c, after, rfl, hfield, hc⟩
  · rw [if_neg hstart]
    constructor
    · intro h
      exact absurd rfl h
    · intro h
      exact absurd h.1 hstart

/-- A name that a line of the summary begins with, up to letter case. -/
def NameTaken (summaryOutput name : Text) : Prop :=
  ∃ field, LeadsLine summaryOutput field ∧ casefold field = casefold name

theorem search_existingName {name summaryOutput : Text} (hne : name ≠ [])
    (hname : ∀ c ∈ name, c ∈ nameCharacters) :
    (search (existingNamePattern name) summaryOutput).isSome = true ↔
      NameTaken summaryOutput name := by
  rw [search, searchFrom_isSome]
  constructor
  · intro h
    obtain ⟨u, v, rfl, h⟩ := h
    obtain ⟨hstart, gap, field, c, after, rfl, hgap, hfield, hc⟩ :=
      (results_existingName hne hname).mp h
    refine ⟨field, leadsLine_of_gap ?_ hgap ?_ ?_ hc, (casefold_eq_iff hname).mpr hfield⟩
    · obtain h | h := readingAfter_eq_true.mp hstart
      · exact .inl (by simpa using h)
      · exact .inr (by simpa using h)
    · intro he
      rw [he] at hfield
      exact hne hfield.symm
    · intro d hd
      apply isSpace_of_lowerAscii
      apply hname
      rw [← hfield]
      exact List.mem_map_of_mem hd
  · intro h
    obtain ⟨field, ⟨before, indent, c, after, rfl, hbefore, hindent, -, -, hc⟩, hfold⟩ := h
    refine ⟨before, indent ++ (field ++ c :: after), rfl, (results_existingName hne hname).mpr ?_⟩
    refine ⟨readingAfter_eq_true.mpr ?_, indent, field, c, after, rfl,
      fun d hd => (hindent d hd).1, (casefold_eq_iff hname).mp hfold, hc⟩
    obtain rfl | h := hbefore
    · exact .inl rfl
    · exact .inr (by simpa using h)

theorem certificateNameExists_renewalName {summaryOutput : Text} {date : Int} {sequence : Nat}
    (hsize : utf8Length summaryOutput ≤ maxCertificateSummaryOutputBytes) :
    certificateNameExists summaryOutput (renewalName date sequence) =
      .ok (search (existingNamePattern (renewalName date sequence)) summaryOutput).isSome := by
  have hcheck : checkSummarySize summaryOutput = .ok () := checkSummarySize_eq_ok.mpr hsize
  rw [certificateNameExists, hcheck, bind_of_ok, validateCliIdentifier_renewalName, bind_of_ok]
  rfl

theorem not_nameTaken_iff {summaryOutput : Text} {date : Int} {sequence : Nat} :
    (!(search (existingNamePattern (renewalName date sequence)) summaryOutput).isSome) = true ↔
      ¬ NameTaken summaryOutput (renewalName date sequence) := by
  have hne : renewalName date sequence ≠ [] := by
    intro h
    have hhead : (renewalName date sequence).head? = some 'w' := rfl
    rw [h] at hhead
    cases hhead
  rw [Bool.not_eq_true', ← Bool.not_eq_true, search_existingName hne fun c hc => mem_renewalName hc]

/-- The words that begin a line and have another word after them. -/
theorem leadsLine_of_drop {field : Text} {next : Word} {ws : List Word} (t : Text) : ∀ st i,
    (wordsFrom st t).drop i = ⟨true, field⟩ :: next :: ws →
    ∃ before gap c after, t = before ++ (gap ++ (field ++ c :: after)) ∧
      (∀ d ∈ gap, isSpace d = true) ∧ field ≠ [] ∧ (∀ d ∈ field, isSpace d = false) ∧
      isSpace c = true ∧ (before = [] ∧ st = .gap true ∨ before.getLast? = some '\n') := by
  induction t with
  | nil =>
    intro st i h
    cases st <;> cases i <;> cases h
  | cons c t ih =>
    -- one character more before the line, or before the word
    have hmore : ∀ (st st' : PyText.Reading) i, (wordsFrom st' t).drop i = ⟨true, field⟩ :: next :: ws →
        (st' = .gap true → c = '\n' ∨ isSpace c = true ∧ st = .gap true) →
        ∃ before gap d after, c :: t = before ++ (gap ++ (field ++ d :: after)) ∧
          (∀ d ∈ gap, isSpace d = true) ∧ field ≠ [] ∧ (∀ d ∈ field, isSpace d = false) ∧
          isSpace d = true ∧ (before = [] ∧ st = .gap true ∨ before.getLast? = some '\n') := by
      intro st st' i h hreading
      obtain ⟨before, gap, d, after, rfl, hgap, hne, hfield, hd, hbefore⟩ := ih st' i h
      obtain ⟨rfl, hst'⟩ | hlast := hbefore
      · obtain rfl | ⟨hc, hst⟩ := hreading hst'
        · exact ⟨['\n'], gap, d, after, rfl, hgap, hne, hfield, hd, .inr rfl⟩
        · refine ⟨[], c :: gap, d, after, rfl, ?_, hne, hfield, hd, .inl ⟨rfl, hst⟩⟩
          intro e he
          obtain rfl | he := List.mem_cons.mp he
          · exact hc
          · exact hgap e he
      · refine ⟨c :: before, gap, d, after, rfl, hgap, hne, hfield, hd, .inr ?_⟩
        rw [List.getLast?_cons, hlast]
        rfl
    intro st i h
    cases st with
    | word =>
      rw [wordsFrom_word_cons] at h
      apply hmore _ _ i h
      intro hst'
      left
      split at hst'
      · simpa using hst'
      · cases hst'
    | gap leads =>
      cases hspace : isSpace c with
      | true =>
        rw [wordsFrom_space hspace] at h
        apply hmore _ _ i h
        intro hst'
        have hor : (leads || c == '\n') = true := PyText.Reading.gap.inj hst'
        rw [Bool.or_eq_true, beq_iff_eq] at hor
        obtain rfl | hnl := hor
        · exact .inr ⟨hspace, rfl⟩
        · exact .inl hnl
      | false =>
        rw [wordsFrom_begin hspace] at h
        cases i with
        | succ i =>
          apply hmore _ _ i h
          intro hst'
          cases hst'
        | zero =>
          obtain ⟨hword, hrest⟩ := List.cons.inj h
          cases hword
          obtain ⟨w, r, hsplit, hw, hr⟩ := exists_span notSpace (c :: t)
          have htake : (c :: t).takeWhile notSpace = w := by
            rw [hsplit]
            exact takeWhile_word hw hr
          rw [htake]
          have hwne : w ≠ [] := by
            intro he
            rw [← htake, List.takeWhile_cons, notSpace_eq_true.mpr hspace] at he
            cases he
          have hword : ∀ d ∈ w, isSpace d = false := fun d hd => notSpace_eq_true.mp (hw d hd)
          cases r with
          | nil =>
            -- there would be no other word
            have hnone : wordsFrom .word t = [] := by
              have ht : ∀ d ∈ t, notSpace d = true := by
                intro d hd
                apply hw
                rw [List.append_nil] at hsplit
                rw [← hsplit]
                exact List.mem_cons_of_mem _ hd
              have hall := wordsFrom_rest (r := []) ht
              rwa [List.append_nil] at hall
            rw [hnone] at hrest
            cases hrest
          | cons d after =>
            refine ⟨[], [], d, after, hsplit, fun e he => (by cases he), hwne, hword, ?_, ?_⟩
            · exact notSpace_eq_false.mp (hr d rfl)
            · exact .inl ⟨rfl, rfl⟩

/-! ## The choice -/

theorem firstUnusedName_eq {summaryOutput : Text} {date : Int}
    (hsize : utf8Length summaryOutput ≤ maxCertificateSummaryOutputBytes) (ns : List Nat) :
    firstUnusedName summaryOutput (renewalNamePrefix date) ns =
      .ok ((ns.find? fun n => !(search (existingNamePattern (renewalName date n))
        summaryOutput).isSome).map (renewalName date)) := by
  induction ns with
  | nil => rfl
  | cons n ns ih =>
    have hexists : certificateNameExists summaryOutput (renewalNamePrefix date ++ zeroPadded 2 n) = _ :=
      certificateNameExists_renewalName hsize
    rw [firstUnusedName, hexists, bind_of_ok, List.find?_cons]
    cases (search (existingNamePattern (renewalName date n)) summaryOutput).isSome with
    | true => exact ih
    | false =>
      have hvalid : validateCliIdentifier (renewalNamePrefix date ++ zeroPadded 2 n) _ = _ :=
        validateCliIdentifier_renewalName date n "certificate name"
      rw [if_neg Bool.false_ne_true, hvalid]
      rfl

variable {summaryOutput : Text} {now : Int}

/-- The least free sequence number. -/
def leastFree (summaryOutput : Text) (date : Int) : Option Nat :=
  (List.range' 1 99).find? fun n =>
    !(search (existingNamePattern (renewalName date n)) summaryOutput).isSome

theorem leastFree_eq_some {date : Int} {n : Nat} :
    leastFree summaryOutput date = some n ↔
      1 ≤ n ∧ n ≤ 99 ∧ ¬ NameTaken summaryOutput (renewalName date n) ∧
        ∀ m, 1 ≤ m → m < n → NameTaken summaryOutput (renewalName date m) := by
  have htaken : ∀ m, (!!(search (existingNamePattern (renewalName date m)) summaryOutput).isSome) =
      true ↔ NameTaken summaryOutput (renewalName date m) := by
    intro m
    rw [Bool.not_eq_true', ← Bool.not_eq_true, not_nameTaken_iff, not_not]
  rw [leastFree, List.find?_range'_eq_some, not_nameTaken_iff, List.mem_range'_1]
  simp only [htaken]
  constructor
  · intro h
    obtain ⟨hfree, hn, hless⟩ := h
    exact ⟨hn.1, by omega, hfree, hless⟩
  · intro h
    obtain ⟨hone, hn, hfree, hless⟩ := h
    exact ⟨hfree, ⟨hone, by omega⟩, hless⟩

theorem leastFree_eq_none {date : Int} :
    leastFree summaryOutput date = none ↔
      ∀ n, 1 ≤ n → n ≤ 99 → NameTaken summaryOutput (renewalName date n) := by
  rw [leastFree, List.find?_eq_none]
  constructor
  · intro h n hone hn
    have hnot := h n (List.mem_range'_1.mpr ⟨hone, by omega⟩)
    rwa [not_nameTaken_iff, not_not] at hnot
  · intro h n hn
    rw [not_nameTaken_iff, not_not]
    rw [List.mem_range'_1] at hn
    exact h n hn.1 (by omega)

theorem chooseRenewalCertificateName_eq
    (hsize : utf8Length summaryOutput ≤ maxCertificateSummaryOutputBytes) :
    (∀ n, leastFree summaryOutput (utcDate now) = some n →
      chooseRenewalCertificateName summaryOutput now = .ok (renewalName (utcDate now) n)) ∧
    (leastFree summaryOutput (utcDate now) = none →
      ∃ e, chooseRenewalCertificateName summaryOutput now = .error e) := by
  rw [chooseRenewalCertificateName, firstUnusedName_eq hsize, bind_of_ok]
  constructor
  · intro n hn
    rw [leastFree] at hn
    rw [hn]
    rfl
  · intro hnone
    rw [leastFree] at hnone
    rw [hnone]
    exact ⟨_, rfl⟩

theorem drop_of_webRow {ws : List Word} {row : WebRow} (h : webRow ws = some row) :
    ∃ next rest, ws = ⟨true, row.name⟩ :: next :: rest := by
  unfold webRow at h
  split at h
  · next name usage expiration profile rest =>
    split at h
    · next hall =>
      cases h
      simp only [Bool.and_eq_true] at hall
      have hname : name = ⟨true, name.text⟩ := by rw [← hall.1.1.1]
      exact ⟨usage, _, by rw [← hname]⟩
    · cases h
  · cases h

/-- The active certificate's name leads a line. -/
theorem leadsLine_active {certificates : List WebCertificate} {active : WebCertificate}
    (hparse : parseWebCertificates summaryOutput = .ok certificates)
    (hactive : getActiveWebCertificate certificates = .ok active) :
    LeadsLine summaryOutput active.name := by
  have hread : (parseWebCertificates summaryOutput >>= getActiveWebCertificate) = .ok active := by
    rw [hparse]
    exact hactive
  obtain ⟨-, row, day, ⟨i, hrow, -⟩, rfl⟩ := active_iff.mp hread
  obtain ⟨next, ws, hdrop⟩ := drop_of_webRow hrow
  obtain ⟨before, gap, c, after, he, hgap, hne, hfield, hc, hbefore⟩ :=
    leadsLine_of_drop summaryOutput (.gap true) i hdrop
  rw [he]
  refine leadsLine_of_gap ?_ hgap hne hfield hc
  obtain ⟨hnil, -⟩ | hlast := hbefore
  · exact .inl hnil
  · exact .inr hlast

/-- What the choice is: the free name of the least sequence number, none when all are taken; and what
is chosen next to one installed certificate passes the checks of `generate_csr`. -/
structure RenewalNameChoice (summaryOutput : Text) (now : Int) : Prop where
  least : ∀ name, chooseRenewalCertificateName summaryOutput now = .ok name ↔
    ∃ n, 1 ≤ n ∧ n ≤ 99 ∧ name = renewalName (utcDate now) n ∧ ¬ NameTaken summaryOutput name ∧
      ∀ m, 1 ≤ m → m < n → NameTaken summaryOutput (renewalName (utcDate now) m)
  refused : (∃ e, chooseRenewalCertificateName summaryOutput now = .error e) ↔
    ∀ n, 1 ≤ n → n ≤ 99 → NameTaken summaryOutput (renewalName (utcDate now) n)
  passes : ∀ name certificates active, chooseRenewalCertificateName summaryOutput now = .ok name →
    parseWebCertificates summaryOutput = .ok certificates →
    getActiveWebCertificate certificates = .ok active →
    validateCliIdentifier name "certificate name" = .ok () ∧ ∀ switch settings,
      prepareCsrCommand switch name settings summaryOutput =
        buildCsrCommand switch name active.profile settings

theorem renewal_name_choice
    (hsize : utf8Length summaryOutput ≤ maxCertificateSummaryOutputBytes) :
    RenewalNameChoice summaryOutput now := by
  obtain ⟨hsome, hnone⟩ : (∀ n, _ → chooseRenewalCertificateName summaryOutput now = _) ∧ _ :=
    chooseRenewalCertificateName_eq hsize
  have hchosen : ∀ name, chooseRenewalCertificateName summaryOutput now = .ok name ↔
      ∃ n, leastFree summaryOutput (utcDate now) = some n ∧ name = renewalName (utcDate now) n := by
    intro name
    cases hleast : leastFree summaryOutput (utcDate now) with
    | none =>
      obtain ⟨e, he⟩ := hnone hleast
      rw [he]
      simp
    | some n =>
      rw [hsome n hleast]
      simp [eq_comm]
  refine ⟨?_, ?_, ?_⟩
  · intro name
    rw [hchosen]
    constructor
    · intro h
      obtain ⟨n, hn, rfl⟩ := h
      obtain ⟨hone, hle, hfree, hless⟩ := leastFree_eq_some.mp hn
      exact ⟨n, hone, hle, rfl, hfree, hless⟩
    · intro h
      obtain ⟨n, hone, hle, rfl, hfree, hless⟩ := h
      exact ⟨n, leastFree_eq_some.mpr ⟨hone, hle, hfree, hless⟩, rfl⟩
  · rw [← leastFree_eq_none]
    cases hleast : leastFree summaryOutput (utcDate now) with
    | none => simp [hnone hleast]
    | some n => simp [hsome n hleast]
  · intro name certificates active hname hparse hactive
    obtain ⟨n, hn, rfl⟩ := (hchosen name).mp hname
    obtain ⟨-, -, hfree, -⟩ := leastFree_eq_some.mp hn
    refine ⟨validateCliIdentifier_renewalName _ _ _, ?_⟩
    intro switch settings
    have hdiffers : (casefold (renewalName (utcDate now) n) == casefold active.name) = false := by
      rw [beq_eq_false_iff_ne]
      intro he
      exact hfree ⟨active.name, leadsLine_active hparse hactive, he.symm⟩
    have hunused : certificateNameExists summaryOutput (renewalName (utcDate now) n) = .ok false := by
      rw [certificateNameExists_renewalName hsize]
      have hnot := not_nameTaken_iff.mpr hfree
      rw [Bool.not_eq_true'] at hnot
      rw [hnot]
    have hpass : ∀ e, raiseWhen false e = .ok () := fun _ => rfl
    simp only [prepareCsrCommand, hparse, hactive, hdiffers, hunused, bind_of_ok, hpass]

theorem renewal_name_choice_plain : RenewalNameChoice plainSummary 0 :=
  renewal_name_choice (by decide)

/-- On a summary of blanks that is longer than the limit every name is free, and none is chosen. -/
theorem renewal_name_oversized :
    (∀ name, ¬ NameTaken (List.replicate 65537 ' ') name) ∧
      chooseRenewalCertificateName (List.replicate 65537 ' ') 0 =
        .error (valueError "certificate summary output exceeds 65536 bytes") := by
  constructor
  · intro name h
    obtain ⟨field, ⟨before, indent, c, after, he, -, -, hne, hfield, -⟩, -⟩ := h
    obtain ⟨d, hd⟩ := List.exists_mem_of_ne_nil field hne
    have hm : d ∈ List.replicate 65537 ' ' := by
      rw [he]
      simp [hd]
    have hspace := hfield d hd
    rw [List.eq_of_mem_replicate hm] at hspace
    cases hspace
  · have hexists : ∀ name, certificateNameExists (List.replicate 65537 ' ') name =
        .error (valueError "certificate summary output exceeds 65536 bytes") := by
      intro name
      rw [certificateNameExists, checkSummarySize_blanks]
      rfl
    rw [chooseRenewalCertificateName]
    show (firstUnusedName _ _ (1 :: List.range' 2 98) >>= _) = _
    rw [firstUnusedName, hexists]
    rfl

end ArubaCertRenewer
