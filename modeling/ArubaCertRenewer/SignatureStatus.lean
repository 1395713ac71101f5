import ArubaCertRenewer.Words
import ArubaCertRenewer.Utf8
import ArubaCertRenewer.Identity

/- The release signature's status, `verify_release_signature.py`.

   `gpg --status-fd` writes one record on each line that ends with a line feed,
   `[GNUPG:] KEYWORD arguments`, with its arguments after spaces. `approved_signature`
   reads the status with `str.splitlines` and `str.split`, which also end lines and
   fields at other characters. User IDs and notations may hold such characters.

   1. The two readings of lines agree on a text whose only line break is the line
      feed (`splitlines_eq`), those of fields on a line whose only white space is the
      space (`fields_eq`).
   2. No field that the code reads holds white space, and each other character of
      a line is in a field of its record, so the two readings of an accepted status are
      the same exactly when the status has no white space but spaces and line feeds
      (`signature_records_exact_iff`).

   A `SignatureError` is its message. -/
namespace ArubaCertRenewer
open PyText

def approvedPrimary : Text := "02EBB31CC0032A86C2C0401A1534542E61DC82D3"

def badStatus : List Text :=
  ["BADSIG", "ERRSIG", "EXPSIG", "EXPKEYSIG", "REVKEYSIG", "NO_PUBKEY", "KEYEXPIRED", "KEYREVOKED",
   "SIGEXPIRED", "FAILURE", "ERROR", "NODATA"]

open Regex in
/-- `FINGERPRINT` -/
def fingerprint : Regex := times 40 (char fun c => ('0' ≤ c && c ≤ '9') || ('A' ≤ c && c ≤ 'F'))

def statusPrefix : Text := "[GNUPG:] "

/-- `line.removeprefix(prefix)` -/
def removePrefix (pre line : Text) : Text := if pre.isPrefixOf line then line.drop pre.length else line

/-- What ends a line for `str.splitlines`. -/
def isLineBreak (c : Char) : Bool :=
  let n := c.toNat
  (10 ≤ n && n ≤ 13) || (28 ≤ n && n ≤ 30) || n == 0x85 || n == 0x2028 || n == 0x2029

/-- A character before the first line. -/
def consFirst (c : Char) : List Text → List Text
  | [] => [[c]]
  | line :: lines => (c :: line) :: lines

/-- `str.splitlines()` -/
def splitlines : Text → List Text
  | [] => []
  | c :: t =>
    -- a carriage return and a line feed are one break
    if c == '\r' && t.head? == some '\n' then splitlines t
    else if isLineBreak c then [] :: splitlines t
    else consFirst c (splitlines t)

/-- The records of a status, as `approved_signature` splits them. -/
def codeRecords (status : Text) : List (List Text) :=
  (splitlines status).map fun line => fields (removePrefix statusPrefix line)

def isKeyword (keyword : Text) (record : List Text) : Bool := record.head? == some keyword

/-- `if b: raise SignatureError(message)`. -/
def signatureWhen (b : Bool) (message : Text) : Except Text Unit := if b then .error message else .ok ()

@[simp] theorem signatureWhen_eq_ok {b : Bool} {message : Text} {u : Unit} :
    signatureWhen b message = .ok u ↔ b = false := by
  cases b <;> simp [signatureWhen]

/-- `approved_signature`, from the decoded status on. -/
def approvedRecords (status : Text) : Except Text Text := do
  let records := codeRecords status
  signatureWhen
    ((splitlines status).any (fun line => !statusPrefix.isPrefixOf line) ||
      records.any fun record => record.isEmpty || badStatus.any fun keyword => isKeyword keyword record)
    "signature verification reported an error"
  let valid := records.filter (isKeyword "VALIDSIG")
  signatureWhen
    (valid.length != 1 || (valid.headD []).length != 11 ||
      records.countP (isKeyword "GOODSIG") != 1 || records.countP (isKeyword "NEWSIG") != 1)
    "exactly one valid, current signature is required"
  let record := valid.headD []
  signatureWhen
    (!fullmatch fingerprint (record.getD 1 []) || record.getD 10 [] != approvedPrimary ||
      !(["8", "9", "10"] : List Text).contains (record.getD 8 []) || record.getD 9 [] != "00".toList)
    "signature is outside the approved signer or algorithm policy"
  return record.getD 10 []

/-- `approved_signature` -/
def approvedSignature (status : Bytes) : Except Text Text :=
  match decodeUtf8 status with
  | none => .error "invalid signature status encoding"
  | some t => approvedRecords t

/-! ## The records that were written -/

/-- The lines that end at a line feed. -/
def feedLines : Text → List Text
  | [] => []
  | c :: t => if c == '\n' then [] :: feedLines t else consFirst c (feedLines t)

/-- The parts of a text between the characters of a kind. -/
def cutAt (p : Char → Bool) : Text → List Text
  | [] => [[]]
  | c :: t => if p c then [] :: cutAt p t else consFirst c (cutAt p t)

def fieldsAt (p : Char → Bool) (t : Text) : List Text := (cutAt p t).filter fun w => !w.isEmpty

/-- The records of a status, each line's keyword and arguments after spaces. -/
def statusRecords (status : Text) : List (List Text) :=
  (feedLines status).map fun line => fieldsAt (· == ' ') (removePrefix statusPrefix line)

/-- What an approved status says, record by record. -/
structure ApprovedRecords (records : List (List Text)) : Prop where
  valid : ∃ record, records.filter (isKeyword "VALIDSIG") = [record] ∧ record.length = 11 ∧
    fullmatch fingerprint (record.getD 1 []) = true ∧ record.getD 10 [] = approvedPrimary ∧
    record.getD 8 [] ∈ (["8", "9", "10"] : List Text) ∧ record.getD 9 [] = "00".toList
  good : records.countP (isKeyword "GOODSIG") = 1
  new : records.countP (isKeyword "NEWSIG") = 1
  none_bad : ∀ record ∈ records, ∀ keyword ∈ badStatus, isKeyword keyword record = false

section cuts
variable {p q : Char → Bool} {c : Char} {t w line : Text} {lines : List Text}

theorem consFirst_ne_nil : consFirst c lines ≠ [] := by
  cases lines <;> simp [consFirst]

theorem mem_consFirst (hw : w ∈ consFirst c lines) : w ∈ lines ∨ ∃ v, w = c :: v ∧ (v = [] ∨ v ∈ lines) := by
  cases lines with
  | nil => exact .inr ⟨[], List.mem_singleton.mp hw, .inl rfl⟩
  | cons line lines =>
    obtain rfl | hw := List.mem_cons.mp hw
    · exact .inr ⟨line, rfl, .inr (List.mem_cons_self ..)⟩
    · exact .inl (List.mem_cons_of_mem _ hw)

theorem cutAt_ne_nil (p : Char → Bool) (t : Text) : cutAt p t ≠ [] := by
  cases t with
  | nil => exact List.cons_ne_nil _ _
  | cons c t =>
    rw [cutAt]
    split
    · exact List.cons_ne_nil _ _
    · exact consFirst_ne_nil

theorem cutAt_congr (h : ∀ c ∈ t, p c = q c) : cutAt p t = cutAt q t := by
  induction t with
  | nil => rfl
  | cons c t ih =>
    rw [cutAt, cutAt, h c (List.mem_cons_self ..), ih fun d hd => h d (List.mem_cons_of_mem _ hd)]

/-- No part holds a character of the kind. -/
theorem not_of_mem_cutAt (hw : w ∈ cutAt p t) (hc : c ∈ w) : p c = false := by
  induction t generalizing w with
  | nil =>
    obtain rfl := List.mem_singleton.mp hw
    cases hc
  | cons d t ih =>
    rw [cutAt] at hw
    split at hw
    · obtain rfl | hw := List.mem_cons.mp hw
      · cases hc
      · exact ih hw hc
    · next hd =>
      obtain hw | ⟨v, rfl, hv⟩ := mem_consFirst hw
      · exact ih hw hc
      obtain rfl | hc := List.mem_cons.mp hc
      · exact Bool.of_not_eq_true hd
      obtain rfl | hv := hv
      · cases hc
      · exact ih hv hc

theorem mem_consFirst_self : ∃ w ∈ consFirst c lines, c ∈ w := by
  cases lines with
  | nil => exact ⟨[c], List.mem_singleton.mpr rfl, List.mem_singleton.mpr rfl⟩
  | cons line lines => exact ⟨c :: line, List.mem_cons_self .., List.mem_cons_self ..⟩

theorem mem_consFirst_of_mem {d : Char} (h : ∃ w ∈ lines, c ∈ w) : ∃ w ∈ consFirst d lines, c ∈ w := by
  obtain ⟨w, hw, hc⟩ := h
  cases lines with
  | nil => cases hw
  | cons line lines =>
    obtain rfl | hw := List.mem_cons.mp hw
    · exact ⟨d :: w, List.mem_cons_self .., List.mem_cons_of_mem _ hc⟩
    · exact ⟨w, List.mem_cons_of_mem _ hw, hc⟩

/-- Every other character is in a part. -/
theorem mem_cutAt (hc : c ∈ t) (hp : p c = false) : ∃ w ∈ cutAt p t, c ∈ w := by
  induction t with
  | nil => cases hc
  | cons d t ih =>
    rw [cutAt]
    obtain rfl | hc := List.mem_cons.mp hc
    · rw [hp]
      exact mem_consFirst_self
    · split
      · obtain ⟨w, hw, hcw⟩ := ih hc
        exact ⟨w, List.mem_cons_of_mem _ hw, hcw⟩
      · exact mem_consFirst_of_mem (ih hc)

theorem mem_feedLines (hc : c ∈ t) (hne : c ≠ '\n') : ∃ line ∈ feedLines t, c ∈ line := by
  induction t with
  | nil => cases hc
  | cons d t ih =>
    rw [feedLines]
    obtain rfl | hc := List.mem_cons.mp hc
    · rw [beq_false_of_ne hne]
      exact mem_consFirst_self
    · split
      · obtain ⟨line, hline, hcl⟩ := ih hc
        exact ⟨line, List.mem_cons_of_mem _ hline, hcl⟩
      · exact mem_consFirst_of_mem (ih hc)

/-- The lines hold characters of the text, and no line feed. -/
theorem of_mem_feedLines (hline : line ∈ feedLines t) (hc : c ∈ line) : c ∈ t ∧ c ≠ '\n' := by
  induction t generalizing line with
  | nil => cases hline
  | cons d t ih =>
    have hrest : ∀ {line : Text}, line ∈ feedLines t → c ∈ line → c ∈ d :: t ∧ c ≠ '\n' := by
      intro line hline hc
      obtain ⟨hmem, hne⟩ := ih hline hc
      exact ⟨List.mem_cons_of_mem _ hmem, hne⟩
    rw [feedLines] at hline
    split at hline
    · obtain rfl | hline := List.mem_cons.mp hline
      · cases hc
      · exact hrest hline hc
    · next hd =>
      obtain hline | ⟨v, rfl, hv⟩ := mem_consFirst hline
      · exact hrest hline hc
      obtain rfl | hc := List.mem_cons.mp hc
      · exact ⟨List.mem_cons_self .., fun he => hd (beq_iff_eq.mpr he)⟩
      obtain rfl | hv := hv
      · cases hc
      · exact hrest hv hc

theorem splitlines_eq (h : ∀ c ∈ t, isLineBreak c = true → c = '\n') : splitlines t = feedLines t := by
  induction t with
  | nil => rfl
  | cons c t ih =>
    have hrest := ih fun d hd => h d (List.mem_cons_of_mem _ hd)
    have hreturn : (c == '\r') = false := by
      apply beq_false_of_ne
      intro hc
      cases h c (List.mem_cons_self ..) (by rw [hc]; rfl)
      cases hc
    have hbreak : isLineBreak c = (c == '\n') := by
      rw [Bool.eq_iff_iff, beq_iff_eq]
      exact ⟨h c (List.mem_cons_self ..), fun hc => by rw [hc]; rfl⟩
    rw [splitlines, feedLines, hreturn, hbreak, hrest]
    rfl

/-- Where the reader of words stands between words, and inside one. -/
theorem wordsFrom_cutAt (t : Text) :
    (∀ leads, (wordsFrom (.gap leads) t).map Word.text = fieldsAt isSpace t) ∧
      (wordsFrom .word t).map Word.text = (cutAt isSpace t).tail.filter (fun w => !w.isEmpty) ∧
      (cutAt isSpace t).head? = some (t.takeWhile notSpace) := by
  induction t with
  | nil => exact ⟨fun _ => rfl, rfl, rfl⟩
  | cons c t ih =>
    obtain ⟨hgap, hword, hhead⟩ := ih
    cases hc : isSpace c with
    | true =>
      refine ⟨fun leads => ?_, ?_, ?_⟩
      · rw [wordsFrom_space hc, hgap, fieldsAt, fieldsAt, cutAt, hc]
        rfl
      · rw [wordsFrom_word_cons, hc, cutAt, hc]
        exact hgap _
      · rw [cutAt, hc, List.takeWhile_cons, notSpace_eq_false.mpr hc]
        rfl
    | false =>
      obtain ⟨first, rest, hcut⟩ := List.exists_cons_of_ne_nil (cutAt_ne_nil isSpace t)
      rw [hcut, List.head?_cons, Option.some.injEq] at hhead
      rw [hcut, List.tail_cons] at hword
      have hcons : cutAt isSpace (c :: t) = (c :: first) :: rest := by
        rw [cutAt, hc, hcut]
        rfl
      refine ⟨fun leads => ?_, ?_, ?_⟩
      · rw [wordsFrom_begin hc, List.map_cons, hword, fieldsAt, hcons, List.takeWhile_cons,
          notSpace_eq_true.mpr hc, hhead]
        rfl
      · rw [wordsFrom_word_cons, hc, hcons]
        exact hword
      · rw [hcons, List.takeWhile_cons, notSpace_eq_true.mpr hc, hhead]
        rfl

theorem fields_eq_fieldsAt (t : Text) : fields t = fieldsAt isSpace t := (wordsFrom_cutAt t).1 true

theorem fields_eq (h : ∀ c ∈ t, isSpace c = true → c = ' ') : fields t = fieldsAt (· == ' ') t := by
  rw [fields_eq_fieldsAt, fieldsAt, fieldsAt]
  apply congrArg (List.filter _)
  apply cutAt_congr
  intro c hc
  rw [Bool.eq_iff_iff, beq_iff_eq]
  exact ⟨h c hc, fun he => by rw [he]; rfl⟩

theorem mem_removePrefix (hc : c ∈ line) (hpre : c ∉ statusPrefix) : c ∈ removePrefix statusPrefix line := by
  unfold removePrefix
  split
  · next h =>
    obtain ⟨rest, rfl⟩ := List.isPrefixOf_iff_prefix.mp h
    rw [List.drop_left]
    exact (List.mem_append.mp hc).resolve_left hpre
  · exact hc

theorem mem_of_removePrefix (hc : c ∈ removePrefix statusPrefix line) : c ∈ line := by
  unfold removePrefix at hc
  split at hc
  · exact List.mem_of_mem_drop hc
  · exact hc

end cuts

/-- The white space of a status is spaces and line feeds. -/
def PlainSpaced (status : Text) : Prop := ∀ c ∈ status, isSpace c = true → c = ' ' ∨ c = '\n'

theorem isSpace_of_isLineBreak {c : Char} (h : isLineBreak c = true) : isSpace c = true := by
  unfold isLineBreak at h
  unfold isSpace
  grind

theorem codeRecords_eq {status : Text} (h : PlainSpaced status) :
    codeRecords status = statusRecords status := by
  have hlines : splitlines status = feedLines status := by
    apply splitlines_eq
    intro c hc hbreak
    obtain rfl | hn := h c hc (isSpace_of_isLineBreak hbreak)
    · cases hbreak
    · exact hn
  rw [codeRecords, statusRecords, hlines]
  apply List.map_congr_left
  intro line hline
  apply fields_eq
  intro c hc hspace
  obtain ⟨hmem, hne⟩ := of_mem_feedLines hline (mem_of_removePrefix hc)
  exact (h c hmem hspace).resolve_right hne

/-- Text that the code read as one field holds no white space. -/
theorem plainSpaced_of_codeRecords {status : Text} (h : codeRecords status = statusRecords status) :
    PlainSpaced status := by
  intro c hc hspace
  by_contra hother
  rw [not_or] at hother
  obtain ⟨hblank, hfeed⟩ := hother
  -- the record of its line has it in a field
  obtain ⟨line, hline, hcl⟩ := mem_feedLines hc hfeed
  have hpre : c ∉ statusPrefix := by
    intro hpre
    have hall : statusPrefix.all (fun d => !isSpace d || d == ' ') = true := by decide
    have hd := List.all_eq_true.mp hall c hpre
    rw [hspace, Bool.not_true, Bool.false_or, beq_iff_eq] at hd
    exact hblank hd
  have hpart : (c == ' ') = false := beq_false_of_ne hblank
  obtain ⟨w, hw, hcw⟩ := mem_cutAt (p := (· == ' ')) (mem_removePrefix hcl hpre) hpart
  have hfield : w ∈ fieldsAt (· == ' ') (removePrefix statusPrefix line) := by
    apply List.mem_filter.mpr ⟨hw, ?_⟩
    cases w with
    | nil => cases hcw
    | cons d w => rfl
  -- and the code read the same record
  have hrecord : fieldsAt (· == ' ') (removePrefix statusPrefix line) ∈ codeRecords status := by
    rw [h]
    exact List.mem_map_of_mem hline
  obtain ⟨other, -, hother⟩ := List.mem_map.mp hrecord
  rw [← hother, fields_eq_fieldsAt] at hfield
  rw [not_of_mem_cutAt (List.mem_filter.mp hfield).1 hcw] at hspace
  cases hspace

theorem codeRecords_eq_iff {status : Text} :
    codeRecords status = statusRecords status ↔ PlainSpaced status :=
  ⟨plainSpaced_of_codeRecords, codeRecords_eq⟩

/-- What is accepted, of the records that the code reads. -/
theorem approvedRecords_ok {status primary : Text} (h : approvedRecords status = .ok primary) :
    ApprovedRecords (codeRecords status) := by
  simp only [approvedRecords, bind_eq_ok, signatureWhen_eq_ok, Bool.or_eq_false_iff,
    Bool.not_eq_false', bne_eq_false_iff_eq] at h
  obtain ⟨_, ⟨-, hclean⟩, _, ⟨⟨⟨hone, hlength⟩, hgood⟩, hnew⟩, _, ⟨⟨⟨hprint, hprimary⟩, halgorithm⟩,
    hclass⟩, -⟩ := h
  obtain ⟨record, hrecord⟩ := List.length_eq_one_iff.mp hone
  rw [hrecord, List.headD_cons] at hlength hprint hprimary halgorithm hclass
  refine ⟨⟨record, hrecord, hlength, hprint, hprimary, List.contains_iff_mem.mp halgorithm, hclass⟩,
    hgood, hnew, fun record hmem keyword hkeyword => ?_⟩
  have hnone := List.any_eq_false.mp hclean record hmem
  simp only [Bool.or_eq_true, not_or] at hnone
  exact Bool.of_not_eq_true (List.any_eq_false.mp (Bool.of_not_eq_true hnone.2) keyword hkeyword)

/-- The records that an accepted status was read as are the ones that were written, and those are
approved, exactly when its white space is spaces and line feeds. -/
theorem signature_records_exact_iff {status : Bytes} {t primary : Text}
    (ht : decodeUtf8 status = some t) (h : approvedSignature status = .ok primary) :
    (codeRecords t = statusRecords t ∧ ApprovedRecords (statusRecords t)) ↔ PlainSpaced t := by
  rw [approvedSignature, ht] at h
  rw [codeRecords_eq_iff]
  constructor
  · exact fun hplain => hplain.1
  · intro hplain
    refine ⟨hplain, ?_⟩
    rw [← codeRecords_eq hplain]
    exact approvedRecords_ok h

def statusText (userId : Text) (validity : Text) : Text :=
  "[GNUPG:] NEWSIG\n[GNUPG:] GOODSIG 1534542E61DC82D3 " ++ userId ++ validity ++
    "[GNUPG:] VALIDSIG 5AB4BD9B4B7A8F0A8F3D46E8A2C1D7E9F0123456 2026-09-17 1789603200 0 4 0 22 10 00 " ++
    approvedPrimary ++ "\n"

set_option maxRecDepth 20000 in
theorem signature_records_exact_iff_site :
    (codeRecords (statusText "Release" "\n") = statusRecords (statusText "Release" "\n") ∧
      ApprovedRecords (statusRecords (statusText "Release" "\n"))) ↔
    PlainSpaced (statusText "Release" "\n") := by
  have haccepted : approvedRecords (statusText "Release" "\n") = .ok approvedPrimary := by decide
  have ht := decodeUtf8_encodeUtf8 (t := statusText "Release" "\n")
  apply signature_records_exact_iff ht 
  rw [approvedSignature, ht]
  exact haccepted

set_option maxRecDepth 20000 in
/-- A user ID that holds a line separator and a `VALIDSIG` record. -/
theorem signature_record_injected : ∃ status t,
    decodeUtf8 status = some t ∧ approvedSignature status = .ok approvedPrimary ∧
    ¬ (codeRecords t = statusRecords t ∧ ApprovedRecords (statusRecords t)) := by
  have haccepted : approvedRecords (statusText "Mallory" "\u2028") = .ok approvedPrimary := by decide
  have hnone : (statusRecords (statusText "Mallory" "\u2028")).filter (isKeyword "VALIDSIG") = [] := by
    decide
  refine ⟨encodeUtf8 (statusText "Mallory" "\u2028"), statusText "Mallory" "\u2028",
    decodeUtf8_encodeUtf8, ?_, fun h => ?_⟩
  · rw [approvedSignature, decodeUtf8_encodeUtf8]
    exact haccepted
  · obtain ⟨record, hrecord, -⟩ := h.2.valid
    rw [hnone] at hrecord
    cases hrecord

end ArubaCertRenewer
