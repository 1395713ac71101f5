import ArubaCertRenewer.RowSearch
import ArubaCertRenewer.Summary

/- What `parse_web_certificates` reads of a summary.

   Its pattern is a row pattern: a name that begins a line, `Web`, a date or `CSR`, and a
   profile that ends a line. So it reads the words of the text, and of a text whose lines
   are data rows and other lines without the word `Web` it reads the rows of usage `Web`. -/
namespace ArubaCertRenewer
open PyText Regex

/-! The fields of a row. -/

def dateClasses : List (Char → Bool) :=
  [isDigit, isDigit, isDigit, isDigit, (· == '/'), isDigit, isDigit, (· == '/'), isDigit, isDigit]

/-- `\d{4}/\d{2}/\d{2}` -/
def dateShaped (w : Text) : Bool := w.length == dateClasses.length && beginsWith dateClasses w

def isExpiration (w : Text) : Bool := dateShaped w || w == ("CSR" : Text)

theorem digit_not_space (c : Char) (hc : isSpace c = true) : isDigit c = false := by
  have htable : ∀ z ∈ decimalZeros, ∀ k < 10, isSpace (Char.ofNat (z + k)) = false := by
    decide
  by_contra hd
  rw [Bool.not_eq_false] at hd
  obtain ⟨n, hn⟩ := Option.isSome_iff_exists.mp hd
  obtain ⟨z, hz, -⟩ := Option.map_eq_some_iff.mp hn
  have hbounds := List.find?_some hz
  rw [Bool.and_eq_true, decide_eq_true_eq, decide_eq_true_eq] at hbounds
  have hnot := htable z (List.mem_of_find?_eq_some hz) (c.toNat - z) (by omega)
  rw [Nat.add_sub_cancel' hbounds.1, Char.ofNat_toNat, hc] at hnot
  cases hnot

theorem wordPattern_date : WordPattern
    (seqs [times 4 digit, lit "/", times 2 digit, lit "/", times 2 digit]) dateShaped := by
  have hslash : Fixed (lit "/") [(· == '/')] := fixed_lit "/"
  have hdigits : ∀ n, Fixed (times n digit) (List.replicate n [isDigit]).flatten :=
    fixed_times (fixed_char isDigit)
  have hfixed : Fixed (seqs [times 4 digit, lit "/", times 2 digit, lit "/", times 2 digit])
      dateClasses :=
    (hdigits 4).seq (hslash.seq ((hdigits 2).seq (hslash.seq (hdigits 2))))
  refine wordPattern_fixed hfixed (List.cons_ne_nil _ _) ?_
  intro p hp c hc
  have hslash' : (c == '/') = false := by
    rw [beq_eq_false_iff_ne]
    intro he
    rw [he] at hc
    cases hc
  simp only [dateClasses, List.mem_cons, List.not_mem_nil, or_false] at hp
  rcases hp with rfl | rfl | rfl | rfl | rfl | rfl | rfl | rfl | rfl | rfl <;>
    first | exact digit_not_space c hc | exact hslash'

def nameField : RowField := ⟨"name", plus nonSpace, _, wordPattern_any⟩

def usageField : RowField := ⟨"usage", lit "Web", _, wordPattern_lit (by decide) (by decide)⟩

def expirationField : RowField :=
  ⟨"expiration", alt (seqs [times 4 digit, lit "/", times 2 digit, lit "/", times 2 digit]) (lit "CSR"),
    isExpiration, wordPattern_date.alt (wordPattern_lit (by decide) (by decide)) (by
      intro w h
      obtain ⟨hdate, hcsr⟩ := h
      rw [beq_iff_eq] at hcsr
      rw [hcsr] at hdate
      cases hdate)⟩

def profileField : RowField := ⟨"profile", plus nonSpace, _, wordPattern_any⟩

def webFields : List RowField := [usageField, expirationField, profileField]

theorem webCertificatePattern_eq : webCertificatePattern = rowPattern nameField webFields := rfl

/-! Rows. -/

structure WebRow where
  name : Text
  expiration : Text
  profile : Text
  deriving DecidableEq, Repr

/-- The row of usage `Web` that begins at the first of the words. -/
def webRow : List Word → Option WebRow
  | name :: usage :: expiration :: profile :: ws =>
    if name.leads && usage.text == "Web" && isExpiration expiration.text &&
        ws.head?.all (·.leads) then
      some ⟨name.text, expiration.text, profile.text⟩
    else none
  | _ => none

def WebRow.captures (row : WebRow) : List (String × Text) :=
  [("name", row.name), ("usage", "Web"), ("expiration", row.expiration), ("profile", row.profile)]

theorem rowCaptures_web (ws : List Word) :
    rowCaptures nameField webFields ws = (webRow ws).map WebRow.captures := by
  unfold webRow
  split
  · next name usage expiration profile ws =>
    have hlater : laterCaptures webFields (usage :: expiration :: profile :: ws) =
        if usage.text == "Web" then
          if isExpiration expiration.text then
            if ws.head?.all (·.leads) then
              some [("usage", usage.text), ("expiration", expiration.text), ("profile", profile.text)]
            else none
          else none
        else none := by
      simp only [webFields, laterCaptures, usageField, expirationField, profileField, if_true]
      cases usage.text == "Web" <;> cases isExpiration expiration.text <;>
        cases ws.head?.all (·.leads) <;> rfl
    rw [rowCaptures, hlater]
    by_cases husage : usage.text = "Web"
    · rw [husage]
      cases name.leads <;> cases isExpiration expiration.text <;>
        cases ws.head?.all (·.leads) <;> rfl
    · have hnot : (usage.text == "Web") = false := beq_eq_false_iff_ne.mpr husage
      rw [hnot]
      cases name.leads <;> rfl
  · next hshort =>
    -- there are no four words left
    rcases ws with _ | ⟨n, _ | ⟨u, _ | ⟨e, _ | ⟨p, ws⟩⟩⟩⟩
    · rfl
    · simp [rowCaptures, laterCaptures, webFields]
    · simp [rowCaptures, laterCaptures, webFields]
    · simp [rowCaptures, laterCaptures, webFields]
    · exact absurd rfl (hshort n u e p ws)

/-- A row needs its usage. -/
theorem webRow_usage {name usage : Word} {ws : List Word} (h : usage.text ≠ ("Web" : Text)) :
    webRow (name :: usage :: ws) = none := by
  have hnot : (usage.text == ("Web" : Text)) = false := beq_eq_false_iff_ne.mpr h
  unfold webRow
  split
  · next heq =>
    obtain ⟨-, hrest⟩ := List.cons.inj heq
    obtain ⟨rfl, -⟩ := List.cons.inj hrest
    rw [hnot, Bool.and_false, Bool.false_and, Bool.false_and, if_neg Bool.false_ne_true]
  · rfl

/-! ## Certificates -/

/-- What the reader makes of a row. -/
def WebRow.certificate (row : WebRow) : Except Exc WebCertificate :=
  if row.expiration == ("CSR" : Text) then .ok ⟨row.name, none, row.profile, true⟩
  else do
    let expiration ← strptimeDate row.expiration
    return ⟨row.name, some expiration, row.profile, false⟩

/-- `webCertificateOf` of the groups alone. -/
def certificateOfGroups (groups : List (String × Text)) : Except Exc WebCertificate :=
  webCertificateOf ⟨[], [], [], groups⟩

theorem parseWebCertificates_eq (output : Text) :
    parseWebCertificates output = (checkSummarySize output >>= fun _ =>
      ((rowsFrom nameField webFields 0 (words output)).map List.reverse).mapM
        certificateOfGroups) := by
  have hgroups : webCertificateOf = fun m => certificateOfGroups m.groups := rfl
  rw [parseWebCertificates, hgroups, webCertificatePattern_eq, ← finditer_rows, List.mapM_map]
  rfl

theorem certificateOfGroups_captures (row : WebRow) :
    certificateOfGroups row.captures.reverse = row.certificate := rfl

/-! ## Summaries of data rows -/

/-- A word of the expiration column: no date is a pending request. -/
def expirationOf (w : Text) : Option (Option Int) :=
  if w == ("CSR" : Text) then some none
  else match strptimeDate w with
    | .ok day => some (some day)
    | .error _ => none

/-- A line of four fields, the third of which is a date or `CSR`. -/
def DataRow (line : Text) : Prop :=
  ∃ name usage expiration profile date, fields line = [name, usage, expiration, profile] ∧
    expirationOf expiration = some date

/-- What a data row of usage `Web` says. -/
def lineCertificate (line : Text) : Option WebCertificate :=
  match fields line with
  | [name, usage, expiration, profile] =>
    if usage == ("Web" : Text) then
      (expirationOf expiration).map fun date => ⟨name, date, profile, date.isNone⟩
    else none
  | _ => none

theorem isDigit_of_ascii {c : Char} (hlow : 48 ≤ c.toNat) (hhigh : c.toNat ≤ 57) :
    isDigit c = true := by
  have hlt : c.toNat < 58 := Nat.lt_succ_of_le hhigh
  simp [isDigit, decimal?, decimalZeros, hlow, hlt]

theorem dateShaped_of_strptimeDate {w : Text} {day : Int} (h : strptimeDate w = .ok day) :
    dateShaped w = true := by
  unfold strptimeDate at h
  dsimp only at h
  split at h
  · next y₁ y₂ y₃ y₄ m₁ m₂ d₁ d₂ =>
    split at h
    · next hparts =>
      simp only [List.all_cons, List.all_nil, Bool.and_eq_true, Bool.and_true, Bool.or_eq_true,
        beq_iff_eq, decide_eq_true_eq] at hparts
      obtain ⟨⟨⟨hy₁, hy₂, hy₃, hy₄⟩, hmonth⟩, hday⟩ := hparts
      have hmonthDigits : isDigit m₁ = true ∧ isDigit m₂ = true := by
        obtain ⟨⟨rfl, hlow⟩, hhigh⟩ | ⟨⟨rfl, hlow⟩, hhigh⟩ := hmonth
        · have hlow' : 48 ≤ m₂.toNat := hlow
          have hhigh' : m₂.toNat ≤ 50 := hhigh
          exact ⟨rfl, isDigit_of_ascii hlow' (by omega)⟩
        · have hlow' : 49 ≤ m₂.toNat := hlow
          exact ⟨rfl, isDigit_of_ascii (by omega) hhigh⟩
      have hdayDigits : isDigit d₁ = true ∧ isDigit d₂ = true := by
        obtain (⟨rfl, rfl | rfl⟩ | ⟨rfl | rfl, hdigit⟩) | ⟨⟨rfl, hlow⟩, hhigh⟩ := hday
        · exact ⟨rfl, rfl⟩
        · exact ⟨rfl, rfl⟩
        · exact ⟨rfl, hdigit⟩
        · exact ⟨rfl, hdigit⟩
        · have hlow' : 49 ≤ d₂.toNat := hlow
          exact ⟨rfl, isDigit_of_ascii (by omega) hhigh⟩
      simp [dateShaped, dateClasses, beginsWith, hy₁, hy₂, hy₃, hy₄, hmonthDigits, hdayDigits]
    · cases h
  · cases h

theorem isExpiration_of_expirationOf {w : Text} {date : Option Int}
    (h : expirationOf w = some date) : isExpiration w = true := by
  unfold expirationOf at h
  split at h
  · next hcsr => rw [isExpiration, hcsr, Bool.or_true]
  · split at h
    · next hday => rw [isExpiration, dateShaped_of_strptimeDate hday, Bool.true_or]
    · cases h

theorem certificate_of_date {row : WebRow} {day : Int}
    (h : strptimeDate row.expiration = .ok day) :
    row.certificate = .ok ⟨row.name, some day, row.profile, false⟩ := by
  have hcsr : ¬ (row.expiration == ("CSR" : Text)) = true := by
    rw [beq_iff_eq]
    intro he
    rw [he] at h
    cases h
  rw [WebRow.certificate, if_neg hcsr, h]
  rfl

theorem certificate_of_expirationOf {row : WebRow} {date : Option Int}
    (h : expirationOf row.expiration = some date) :
    row.certificate = .ok ⟨row.name, date, row.profile, date.isNone⟩ := by
  unfold expirationOf at h
  split at h
  · next hcsr =>
    cases h
    rw [WebRow.certificate, if_pos hcsr]
    rfl
  · split at h
    · next hday =>
      cases h
      exact certificate_of_date hday
    · cases h

/-- The row that a line is. -/
def lineRow (line : Text) : Option WebRow :=
  match fields line with
  | [name, usage, expiration, profile] =>
    if usage == ("Web" : Text) && isExpiration expiration then some ⟨name, expiration, profile⟩
    else none
  | _ => none

theorem rowsFrom_not_leads (ws : List Text) (rest : List Word) :
    rowsFrom nameField webFields 0 (ws.map (fun w => ⟨false, w⟩) ++ rest) =
      rowsFrom nameField webFields 0 rest := by
  induction ws with
  | nil => rfl
  | cons w ws ih =>
    rw [List.map_cons, List.cons_append, rowsFrom, rowCaptures_not_leads]
    exact ih

theorem lineWords_head (lines : List Text) :
    (lines.flatMap fun line => lineWords (fields line)).head?.all (·.leads) = true := by
  induction lines with
  | nil => rfl
  | cons line lines ih =>
    rw [List.flatMap_cons]
    cases fields line with
    | nil => exact ih
    | cons w ws => rfl

/-- One line after another, each a data row or without the word `Web`: the rows are the lines of
usage `Web`, and none begins at a single word before them. -/
theorem rowsFrom_lines {lines : List Text}
    (hlines : ∀ line ∈ lines, DataRow line ∨ ("Web" : Text) ∉ fields line) :
    rowsFrom nameField webFields 0 (lines.flatMap fun line => lineWords (fields line)) =
        (lines.filterMap lineRow).map WebRow.captures ∧
      ∀ w, webRow (⟨true, w⟩ :: lines.flatMap fun line => lineWords (fields line)) = none := by
  induction lines with
  | nil => exact ⟨rfl, fun _ => rfl⟩
  | cons line lines ih =>
    obtain ⟨hrows, hsingle⟩ := ih fun l hl => hlines l (List.mem_cons_of_mem _ hl)
    have hhead := lineWords_head lines
    rw [List.flatMap_cons, List.filterMap_cons]
    generalize lines.flatMap (fun line => lineWords (fields line)) = rest at hrows hsingle hhead ⊢
    obtain hdata | hnoise := hlines line List.mem_cons_self
    · obtain ⟨name, usage, expiration, profile, date, hfields, hdate⟩ := hdata
      have hshape := isExpiration_of_expirationOf hdate
      have hthree := rowsFrom_not_leads [usage, expiration, profile] rest
      rw [hfields, lineRow, hfields]
      constructor
      · show rowsFrom nameField webFields 0 (⟨true, name⟩ :: ⟨false, usage⟩ ::
          ⟨false, expiration⟩ :: ⟨false, profile⟩ :: rest) = _
        rw [rowsFrom, rowCaptures_web]
        by_cases husage : usage = "Web"
        · subst husage
          have hrow : webRow (⟨true, name⟩ :: ⟨false, "Web"⟩ :: ⟨false, expiration⟩ ::
              ⟨false, profile⟩ :: rest) = some ⟨name, expiration, profile⟩ := by
            simp [webRow, hshape, hhead]
          simp only [hrow, hshape, Option.map_some, Bool.and_true, beq_self_eq_true, if_true,
            List.map_cons, ← hrows]
          rfl
        · have hnot : (usage == ("Web" : Text)) = false := beq_eq_false_iff_ne.mpr husage
          have hrow : webRow (⟨true, name⟩ :: ⟨false, usage⟩ :: ⟨false, expiration⟩ ::
              ⟨false, profile⟩ :: rest) = none := webRow_usage husage
          simp only [hrow, hnot, Option.map_none, Bool.false_and, Bool.false_eq_true, if_false]
          exact hthree.trans hrows
      · intro w
        -- the fifth word would have to begin a line
        simp [lineWords, webRow]
    · cases hfields : fields line with
      | nil =>
        rw [lineRow, hfields]
        exact ⟨hrows, hsingle⟩
      | cons w ws =>
        rw [hfields, List.mem_cons, not_or] at hnoise
        have hnoRow : webRow (⟨true, w⟩ :: (ws.map (fun v => ⟨false, v⟩) ++ rest)) = none := by
          cases ws with
          | nil => exact hsingle w
          | cons v ws =>
            rw [List.mem_cons, not_or] at hnoise
            exact webRow_usage (Ne.symm hnoise.2.1)
        have hnotRow : lineRow line = none := by
          rw [lineRow, hfields]
          split
          · next heq =>
            obtain ⟨-, rfl⟩ := List.cons.inj heq
            rw [List.mem_cons, not_or] at hnoise
            have hv := beq_eq_false_iff_ne.mpr (Ne.symm hnoise.2.1)
            rw [hv, Bool.false_and, if_neg Bool.false_ne_true]
          · rfl
        rw [hnotRow]
        constructor
        · show rowsFrom nameField webFields 0 (⟨true, w⟩ :: (ws.map (fun v => ⟨false, v⟩) ++ rest)) = _
          rw [rowsFrom, rowCaptures_web, hnoRow]
          exact (rowsFrom_not_leads ws rest).trans hrows
        · intro x
          exact webRow_usage (Ne.symm hnoise.1)

/-- A line is read as what it says. -/
theorem lineRow_certificate {line : Text}
    (hline : DataRow line ∨ ("Web" : Text) ∉ fields line) :
    (lineRow line = none ∧ lineCertificate line = none) ∨
      ∃ row certificate, lineRow line = some row ∧ lineCertificate line = some certificate ∧
        row.certificate = .ok certificate := by
  unfold lineRow lineCertificate
  obtain hdata | hnoise := hline
  · obtain ⟨name, usage, expiration, profile, date, hfields, hdate⟩ := hdata
    have hshape := isExpiration_of_expirationOf hdate
    have hcertificate : (WebRow.mk name expiration profile).certificate = _ :=
      certificate_of_expirationOf hdate
    rw [hfields]
    simp only [hshape, hdate, Bool.and_true, Option.map_some]
    cases usage == ("Web" : Text) with
    | false => exact .inl ⟨rfl, rfl⟩
    | true => exact .inr ⟨_, _, rfl, rfl, hcertificate⟩
  · left
    generalize fields line = ws at hnoise
    rcases ws with _ | ⟨n, _ | ⟨u, _ | ⟨e, _ | ⟨p, _ | ⟨x, ws⟩⟩⟩⟩⟩
    · exact ⟨rfl, rfl⟩
    · exact ⟨rfl, rfl⟩
    · exact ⟨rfl, rfl⟩
    · exact ⟨rfl, rfl⟩
    · have husage : (u == ("Web" : Text)) = false := by
        rw [beq_eq_false_iff_ne]
        intro he
        rw [he] at hnoise
        exact hnoise (List.mem_cons_of_mem _ List.mem_cons_self)
      simp only [husage, Bool.false_and, Bool.false_eq_true, if_false, and_self]
    · exact ⟨rfl, rfl⟩

theorem mapM_lineRow {lines : List Text}
    (hlines : ∀ line ∈ lines, DataRow line ∨ ("Web" : Text) ∉ fields line) :
    (lines.filterMap lineRow).mapM WebRow.certificate = .ok (lines.filterMap lineCertificate) := by
  induction lines with
  | nil => rfl
  | cons line lines ih =>
    have hrest := ih fun l hl => hlines l (List.mem_cons_of_mem _ hl)
    obtain ⟨hrow, hcertificate⟩ | ⟨row, certificate, hrow, hcertificate, hread⟩ :=
      lineRow_certificate (hlines line List.mem_cons_self)
    · rw [List.filterMap_cons_none hrow, List.filterMap_cons_none hcertificate]
      exact hrest
    · rw [List.filterMap_cons_some hrow, List.filterMap_cons_some hcertificate, List.mapM_cons,
        hread, hrest]
      rfl

theorem checkSummarySize_eq_ok {output : Text} {u : Unit} :
    checkSummarySize output = .ok u ↔ utf8Length output ≤ maxCertificateSummaryOutputBytes := by
  rw [checkSummarySize, checkOutputSize, raiseWhen_eq_ok, decide_eq_false_iff_not, Nat.not_lt]

/-- Of a summary of data rows and of lines without the word `Web`, the reader returns what the rows of
usage `Web` say, in order. -/
theorem summary_rows_exact {output : Text}
    (hsize : utf8Length output ≤ maxCertificateSummaryOutputBytes)
    (hlines : ∀ line ∈ splitOn '\n' output, DataRow line ∨ ("Web" : Text) ∉ fields line) :
    parseWebCertificates output = .ok ((splitOn '\n' output).filterMap lineCertificate) := by
  have hcheck : checkSummarySize output = .ok () := checkSummarySize_eq_ok.mpr hsize
  have hgroups : certificateOfGroups ∘ (List.reverse ∘ WebRow.captures) = WebRow.certificate := rfl
  rw [parseWebCertificates_eq, hcheck, bind_of_ok, words_lines, (rowsFrom_lines hlines).1,
    List.map_map, List.mapM_map, hgroups, mapM_lineRow hlines]

/-- A heading, an installed row and a pending one. -/
def plainSummary : Text :=
  "Name Usage Expiration Profile\n a  Web 2030/01/01 TA\nb Web\tCSR TA \n"

theorem summary_rows_exact_plain :
    parseWebCertificates plainSummary =
      .ok ((splitOn '\n' plainSummary).filterMap lineCertificate) := by
  apply summary_rows_exact (by decide)
  have hsplit : splitOn '\n' plainSummary = ([("Name Usage Expiration Profile" : Text),
      (" a  Web 2030/01/01 TA" : Text), ("b Web\tCSR TA " : Text), []] : List Text) := by
    decide
  rw [hsplit]
  intro line hline
  simp only [List.mem_cons, List.not_mem_nil, or_false] at hline
  obtain rfl | rfl | rfl | rfl := hline
  · exact .inr (by decide)
  · exact .inl ⟨"a", "Web", "2030/01/01", "TA", some 21915, by decide, by decide⟩
  · exact .inl ⟨"b", "Web", "CSR", "TA", none, by decide, by decide⟩
  · exact .inr (by decide)

/-- A summary of blanks that is longer than the limit. -/
theorem checkSummarySize_blanks : checkSummarySize (List.replicate 65537 ' ') =
    .error (valueError "certificate summary output exceeds 65536 bytes") := by
  have hlength : ∀ n, utf8Length (List.replicate n ' ') = n := by
    intro n
    induction n with
    | zero => rfl
    | succ n ih =>
      have hone : ' '.utf8Size = 1 := rfl
      rw [List.replicate_succ, utf8Length, ih, hone, Nat.add_comm]
  rw [checkSummarySize, checkOutputSize, hlength]
  rfl

theorem summary_rows_oversized :
    (∀ line ∈ splitOn '\n' (List.replicate 65537 ' '), DataRow line ∨ ("Web" : Text) ∉ fields line) ∧
      parseWebCertificates (List.replicate 65537 ' ') =
        .error (valueError "certificate summary output exceeds 65536 bytes") := by
  have hblank : ∀ n, '\n' ∉ List.replicate n ' ' := by
    intro n hm
    cases List.eq_of_mem_replicate hm
  constructor
  · intro line hline
    right
    rw [splitOn_of_not_mem (hblank _), List.mem_singleton] at hline
    have hwords : words (List.replicate 65537 ' ' ++ []) = [] :=
      wordsFrom_gap fun c hc => by rw [List.eq_of_mem_replicate hc]; rfl
    rw [List.append_nil] at hwords
    rw [hline, fields, hwords]
    exact List.not_mem_nil
  · rw [parseWebCertificates, checkSummarySize_blanks]
    rfl

/-! ## The active certificate -/

theorem mapM_eq_singleton {ε α β : Type} {f : α → Except ε β} {xs : List α} {y : β} :
    xs.mapM f = .ok [y] ↔ ∃ x, xs = [x] ∧ f x = .ok y := by
  constructor
  · intro h
    have hlength := length_of_mapM h
    obtain ⟨x, rfl⟩ := List.length_eq_one_iff.mp hlength.symm
    rw [List.mapM_cons, List.mapM_nil] at h
    obtain ⟨z, hz, h⟩ := bind_eq_ok.mp h
    cases h
    exact ⟨x, rfl, hz⟩
  · intro h
    obtain ⟨x, rfl, hx⟩ := h
    rw [List.mapM_cons, hx]
    rfl

theorem getActiveWebCertificate_eq_ok {certificates : List WebCertificate} {active : WebCertificate} :
    getActiveWebCertificate certificates = .ok active ↔
      certificates = [active] ∧ active.pending = false := by
  unfold getActiveWebCertificate
  dsimp only
  constructor
  · intro h
    split at h
    · cases h
    · next hpending =>
      have hall : certificates.filter (fun c => !c.pending) = certificates := by
        rw [List.filter_eq_self]
        intro c hc
        simp only [Bool.not_eq_true, Bool.not_eq_false', List.isEmpty_iff,
          List.filter_eq_nil_iff] at hpending
        simpa using hpending c hc
      rw [hall] at h
      split at h
      · cases h
      · cases h
        refine ⟨rfl, ?_⟩
        simpa using List.filter_eq_self.mp hall active List.mem_cons_self
      · cases h
  · intro h
    obtain ⟨rfl, hpending⟩ := h
    simp [hpending]

/-- A row spelled so is the only one: every other row begins among its words. -/
def SoleInstalledRow (output : Text) (row : WebRow) (day : Int) : Prop :=
  ∃ i, webRow ((words output).drop i) = some row ∧ strptimeDate row.expiration = .ok day ∧
    ∀ j, (webRow ((words output).drop j)).isSome = true → i ≤ j ∧ j ≤ i + 3

theorem captures_injective {row row' : WebRow} (h : row.captures = row'.captures) : row = row' := by
  cases row
  cases row'
  simpa [WebRow.captures] using h

theorem certificate_installed {row : WebRow} {certificate : WebCertificate}
    (h : row.certificate = .ok certificate) (hpending : certificate.pending = false) :
    ∃ day, strptimeDate row.expiration = .ok day ∧
      certificate = ⟨row.name, some day, row.profile, false⟩ := by
  unfold WebRow.certificate at h
  split at h
  · cases h
    cases hpending
  · obtain ⟨day, hday, h⟩ := bind_eq_ok.mp h
    cases h
    exact ⟨day, hday, rfl⟩

/-- When there is an active certificate, and which it is. -/
theorem active_iff {output : Text} {active : WebCertificate} :
    (parseWebCertificates output >>= getActiveWebCertificate) = .ok active ↔
      utf8Length output ≤ maxCertificateSummaryOutputBytes ∧ ∃ row day,
        SoleInstalledRow output row day ∧ active = ⟨row.name, some day, row.profile, false⟩ := by
  have hrow : ∀ ws row, rowCaptures nameField webFields ws = some (WebRow.captures row) ↔
      webRow ws = some row := by
    intro ws row
    rw [rowCaptures_web, Option.map_eq_some_iff]
    constructor
    · intro h
      obtain ⟨row', hrow', he⟩ := h
      rw [hrow', captures_injective he]
    · intro h
      exact ⟨row, h, rfl⟩
  have hsome : ∀ ws, (rowCaptures nameField webFields ws).isSome = (webRow ws).isSome := by
    intro ws
    rw [rowCaptures_web, Option.isSome_map]
  rw [bind_eq_ok, parseWebCertificates_eq]
  constructor
  · intro h
    obtain ⟨certificates, hparse, hactive⟩ := h
    obtain ⟨rfl, hpending⟩ := getActiveWebCertificate_eq_ok.mp hactive
    obtain ⟨_, hcheck, hread⟩ := bind_eq_ok.mp hparse
    refine ⟨checkSummarySize_eq_ok.mp hcheck, ?_⟩
    obtain ⟨groups, hgroups, hcertificate⟩ := mapM_eq_singleton.mp hread
    obtain ⟨captures, hrows, rfl⟩ := List.map_eq_singleton_iff.mp hgroups
    obtain ⟨i, hcaptures, hall⟩ := rowsFrom_eq_singleton.mp hrows
    obtain ⟨row, hi, rfl⟩ := Option.map_eq_some_iff.mp ((rowCaptures_web _).symm.trans hcaptures)
    rw [certificateOfGroups_captures] at hcertificate
    obtain ⟨day, hday, rfl⟩ := certificate_installed hcertificate hpending
    refine ⟨row, day, ⟨i, hi, hday, ?_⟩, rfl⟩
    intro j hj
    exact hall j (by rwa [hsome])
  · intro h
    obtain ⟨hsize, row, day, ⟨i, hi, hday, hall⟩, rfl⟩ := h
    have hsingle : rowsFrom nameField webFields 0 (words output) = [row.captures] := by
      refine rowsFrom_eq_singleton.mpr ⟨i, (hrow _ _).mpr hi, ?_⟩
      intro j hj
      exact hall j (by rwa [hsome] at hj)
    have hcheck : checkSummarySize output = .ok () := checkSummarySize_eq_ok.mpr hsize
    refine ⟨_, ?_, getActiveWebCertificate_eq_ok.mpr ⟨rfl, rfl⟩⟩
    rw [hcheck, bind_of_ok, hsingle]
    exact mapM_eq_singleton.mpr ⟨_, rfl, (certificateOfGroups_captures row).trans
      (certificate_of_date hday)⟩

/-! ## The two readers -/

end ArubaCertRenewer
