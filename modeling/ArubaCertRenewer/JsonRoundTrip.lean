import ArubaCertRenewer.IpText
import ArubaCertRenewer.JsonText

/- What `json.dumps` writes, `json.loads` reads back.

   A value is followed by a text that does not go on with it (`Stops`). Each scanner
   reads its own part of what was written and leaves that text; for nested values the
   fuel is the size of the value, and how much a text needs is enough. -/
namespace ArubaCertRenewer
open PyText IpAddress

namespace Json

/-! ## Strings -/

theorem hexDigit?_hexDigit {n : Nat} (hn : n < 16) : hexDigit? (hexDigit n) = some n := by
  have hall : ∀ n < 16, hexDigit? (hexDigit n) = some n := by decide
  exact hall n hn

/-- What one part and the rest are read as. -/
def consPart (part : StringPart) (r : Option (List StringPart × Text)) : Option (List StringPart × Text) :=
  r.map fun (parts, t) => (part :: parts, t)

theorem bind_consPart {part : StringPart} (r : Option (List StringPart × Text)) :
    (r >>= fun p => pure (part :: p.1, p.2)) = consPart part r := by
  cases r <;> rfl

theorem scanParts_quote (t : Text) : scanParts ('"' :: t) = some ([], t) := by
  rw [scanParts.eq_def]
  rfl

theorem scanParts_unicodeEscape {n : Nat} (hn : n < 65536) (t : Text) :
    scanParts (unicodeEscape n ++ t) = consPart (.unit n) (scanParts t) := by
  have hmod : ∀ m, hexDigit? (hexDigit (m % 16)) = some (m % 16) := fun m =>
    hexDigit?_hexDigit (Nat.mod_lt m (by decide))
  have hsum : 4096 * (n / 4096 % 16) + 256 * (n / 256 % 16) + 16 * (n / 16 % 16) + n % 16 = n := by omega
  rw [unicodeEscape, List.cons_append, scanParts.eq_def]
  dsimp only [List.cons_append, List.nil_append]
  rw [if_neg (by decide), if_pos (by decide), if_pos (by decide)]
  simp only [codeUnit?, hmod, Option.bind_eq_bind, Option.bind_some, Option.pure_def, hsum]
  exact bind_consPart _

theorem scanParts_escape {e c : Char} (hc : unescape? e = some c) (hu : e ≠ 'u') (t : Text) :
    scanParts ('\\' :: e :: t) = consPart (.char c) (scanParts t) := by
  rw [scanParts.eq_def]
  dsimp only
  rw [if_neg (by decide), if_pos (by decide), if_neg (by simpa using hu), hc]
  exact bind_consPart _

theorem scanParts_plain {c : Char} (hlow : 32 ≤ c.toNat) (hq : c ≠ '"') (hb : c ≠ '\\') (t : Text) :
    scanParts (c :: t) = consPart (.char c) (scanParts t) := by
  rw [scanParts.eq_def]
  dsimp only
  rw [if_neg (by simpa using hq), if_neg (by simpa using hb), if_neg (by omega)]
  exact bind_consPart _

theorem toNat_valid (c : Char) : c.toNat < 0xd800 ∨ 0xdfff < c.toNat ∧ c.toNat < 0x110000 := c.valid

theorem joinParts_unit {c : Char} (hc : c.toNat < 0x10000) (more : List StringPart) :
    joinParts (.unit c.toNat :: more) = (joinParts more).map (c :: ·) := by
  have hvalid := toNat_valid c
  have hhigh : isHigh c.toNat = false := by
    simp only [isHigh, Bool.and_eq_false_iff, decide_eq_false_iff_not]
    omega
  have hlow : isLow c.toNat = false := by
    simp only [isLow, Bool.and_eq_false_iff, decide_eq_false_iff_not]
    omega
  rw [joinParts.eq_def]
  simp only [hhigh, hlow, Bool.false_eq_true, if_false, Char.ofNat_toNat]

/-- A character behind the first plane is the pair it is written as. -/
theorem joinParts_pair {c : Char} (hc : 0x10000 ≤ c.toNat) (more : List StringPart) :
    joinParts (.unit (0xd800 + (c.toNat - 0x10000) / 1024) :: .unit (0xdc00 + (c.toNat - 0x10000) % 1024) :: more) =
      (joinParts more).map (c :: ·) := by
  have hvalid := toNat_valid c
  have hhigh : isHigh (0xd800 + (c.toNat - 0x10000) / 1024) = true := by
    simp only [isHigh, Bool.and_eq_true, decide_eq_true_eq]
    omega
  have hlow : isLow (0xdc00 + (c.toNat - 0x10000) % 1024) = true := by
    simp only [isLow, Bool.and_eq_true, decide_eq_true_eq]
    omega
  have hsum : 0x10000 + 1024 * (0xd800 + (c.toNat - 0x10000) / 1024 - 0xd800) +
      (0xdc00 + (c.toNat - 0x10000) % 1024 - 0xdc00) = c.toNat := by omega
  rw [joinParts.eq_def]
  simp only [hhigh, hlow, if_true, hsum, Char.ofNat_toNat]

/-- The parts that a character is written as. -/
def Reads (c : Char) (parts : List StringPart) : Prop :=
  (∀ t, scanParts (escapeChar c ++ t) = (scanParts t).map fun (more, t) => (parts ++ more, t)) ∧
    ∀ more, joinParts (parts ++ more) = (joinParts more).map (c :: ·)

theorem reads_char {c : Char} (h : ∀ t, scanParts (escapeChar c ++ t) = consPart (.char c) (scanParts t)) :
    Reads c [.char c] := ⟨h, fun _ => rfl⟩

/-- The four ways to write a character. -/
theorem escapeChar_cases (c : Char) :
    (∃ e, escapeChar c = ['\\', e] ∧ unescape? e = some c ∧ e ≠ 'u') ∨
      (escapeChar c = [c] ∧ 32 ≤ c.toNat ∧ c ≠ '"' ∧ c ≠ '\\') ∨
      (escapeChar c = unicodeEscape c.toNat ∧ c.toNat < 0x10000) ∨
      (escapeChar c = unicodeEscape (0xd800 + (c.toNat - 0x10000) / 1024) ++
        unicodeEscape (0xdc00 + (c.toNat - 0x10000) % 1024) ∧ 0x10000 ≤ c.toNat) := by
  have hof : ∀ n, c.toNat = n → c = Char.ofNat n := fun n hn => by rw [← hn, Char.ofNat_toNat]
  -- the branches of `escapeChar`, in its order
  unfold escapeChar
  dsimp only
  split
  · next h => exact .inl ⟨'"', rfl, by rw [beq_iff_eq.mp h]; rfl, by decide⟩
  split
  · next h => exact .inl ⟨'\\', rfl, by rw [beq_iff_eq.mp h]; rfl, by decide⟩
  split
  · next h => exact .inl ⟨'n', rfl, by rw [beq_iff_eq.mp h]; rfl, by decide⟩
  split
  · next h => exact .inl ⟨'r', rfl, by rw [beq_iff_eq.mp h]; rfl, by decide⟩
  split
  · next h => exact .inl ⟨'t', rfl, by rw [beq_iff_eq.mp h]; rfl, by decide⟩
  split
  · next h => exact .inl ⟨'f', rfl, by rw [hof 12 (beq_iff_eq.mp h)]; rfl, by decide⟩
  split
  · next h => exact .inl ⟨'b', rfl, by rw [hof 8 (beq_iff_eq.mp h)]; rfl, by decide⟩
  split
  · next hq hb _ _ _ _ _ h =>
    rw [Bool.and_eq_true, decide_eq_true_eq] at h
    exact .inr (.inl ⟨rfl, h.1, by simpa using hq, by simpa using hb⟩)
  split
  · next h => exact .inr (.inr (.inl ⟨rfl, h⟩))
  · next h => exact .inr (.inr (.inr ⟨rfl, Nat.le_of_not_lt h⟩))

/-- Every character is written as parts that are read and joined to it. -/
theorem exists_reads (c : Char) : ∃ parts, Reads c parts := by
  obtain ⟨e, hescape, hc, hu⟩ | ⟨hescape, hlow, hq, hb⟩ | ⟨hescape, hn⟩ | ⟨hescape, hn⟩ := escapeChar_cases c
  · exact ⟨_, reads_char fun t => by rw [hescape]; exact scanParts_escape hc hu t⟩
  · exact ⟨_, reads_char fun t => by rw [hescape]; exact scanParts_plain hlow hq hb t⟩
  · exact ⟨[.unit c.toNat], fun t => by rw [hescape]; exact scanParts_unicodeEscape hn t, joinParts_unit hn⟩
  · have hvalid := toNat_valid c
    refine ⟨[_, _], fun t => ?_, joinParts_pair hn⟩
    rw [hescape, List.append_assoc, scanParts_unicodeEscape (by omega), scanParts_unicodeEscape (by omega)]
    cases scanParts t <;> rfl

theorem scanString_quoted (s rest : Text) : scanString (s.flatMap escapeChar ++ '"' :: rest) = some (s, rest) := by
  have hparts : ∃ parts, scanParts (s.flatMap escapeChar ++ '"' :: rest) = some (parts, rest) ∧
      joinParts parts = some s := by
    induction s with
    | nil => exact ⟨[], scanParts_quote rest, rfl⟩
    | cons c s ih =>
      obtain ⟨more, hmore, hjoin⟩ := ih
      obtain ⟨parts, hparts, hjoin'⟩ := exists_reads c
      refine ⟨parts ++ more, ?_, ?_⟩
      · rw [List.flatMap_cons, List.append_assoc, hparts, hmore]
        rfl
      · rw [hjoin', hjoin]
        rfl
  obtain ⟨parts, hparts, hjoin⟩ := hparts
  simp only [scanString, hparts, hjoin, Option.bind_eq_bind, Option.bind_some, Option.pure_def]

/-! ## Numbers and constants -/

/-- No number goes on with the text. -/
def Stops (t : Text) : Prop := ∀ c ∈ t.head?, isDecDigit c = false ∧ c ≠ '.' ∧ c ≠ 'e' ∧ c ≠ 'E'

/-- A number is written with a first digit that is no needless zero. -/
theorem ofNat_digits (m : Nat) : ∃ d ds, ofNat m = d :: ds ∧ isDecDigit d = true ∧
    ds.all isDecDigit = true ∧ (d = '0' → ds = []) := by
  have hdec := ofNat_dec m
  rw [ofNat_eq] at hdec ⊢
  induction m using Nat.strongRecOn with
  | ind m ih =>
    rw [Nat.toDigits_eq_if (by decide)] at hdec ⊢
    split
    · next hm =>
      rw [if_pos hm] at hdec
      exact ⟨_, [], rfl, by simpa using hdec, rfl, fun _ => rfl⟩
    · next hm =>
      rw [if_neg hm, List.all_append, Bool.and_eq_true] at hdec
      obtain ⟨d, ds, hds, hd, hall, hzero⟩ := ih (m / 10) (by omega) hdec.1
      refine ⟨d, ds ++ [(m % 10).digitChar], by rw [hds]; rfl, hd, ?_, fun hd0 => ?_⟩
      · rw [List.all_append, hall, hdec.2]
        rfl
      · -- a quotient that is written as 0 is 0
        have hquot : m / 10 = 0 := by
          have hval := Nat.ofDigitChars_ten_toDigits (n := m / 10)
          rw [hds, hzero hd0, hd0] at hval
          exact hval.symm
        omega

section numbers
variable {rest : Text}

theorem fractionPart_stops (h : Stops rest) : fractionPart rest = ([], rest) := by
  cases rest with
  | nil => rfl
  | cons c rest =>
    obtain ⟨-, hc, -, -⟩ := h c rfl
    have hne : (c == '.') = false := beq_eq_false_iff_ne.mpr hc
    simp [fractionPart, hne]

theorem exponentPart_stops (h : Stops rest) : exponentPart rest = ([], rest) := by
  cases rest with
  | nil => rfl
  | cons c rest =>
    obtain ⟨-, -, he, hE⟩ := h c rfl
    have hne : (c == 'e' || c == 'E') = false := by simp [he, hE]
    simp [exponentPart, hne]

theorem wholePart_ofNat (m : Nat) (h : Stops rest) : wholePart (ofNat m ++ rest) = some (ofNat m, rest) := by
  obtain ⟨d, ds, hds, hd, hall, hzero⟩ := ofNat_digits m
  rw [hds, List.cons_append, wholePart]
  split
  · next h0 =>
    rw [hzero (beq_iff_eq.mp h0)]
    rfl
  · have hend : rest.takeWhile isDecDigit = [] ∧ rest.dropWhile isDecDigit = rest := by
      cases rest with
      | nil => exact ⟨rfl, rfl⟩
      | cons c rest =>
        have hc := (h c rfl).1
        simp [hc]
    rw [List.takeWhile_append_of_pos (List.all_eq_true.mp hall),
      List.dropWhile_append_of_pos (List.all_eq_true.mp hall),
      hend.1, hend.2, List.append_nil]

theorem scanUnsigned_ofNat (negative : Bool) {m : Nat} (hm : (ofNat m).length ≤ maxIntDigits) (h : Stops rest) :
    scanUnsigned negative (ofNat m ++ rest) = some (.int (if negative then -m else m), rest) := by
  have hval : (Nat.ofDigitChars 10 (ofNat m) 0) = m := by rw [ofNat_eq, Nat.ofDigitChars_ten_toDigits]
  simp only [scanUnsigned, wholePart_ofNat m h, fractionPart_stops h, exponentPart_stops h, Option.bind_eq_bind,
    Option.bind_some, List.isEmpty_nil, Bool.and_self, if_true, if_neg (Nat.not_lt.mpr hm), hval, Option.pure_def]

theorem beq_of_isDecDigit {c d : Char} (hd : isDecDigit d = true) (hc : isDecDigit c = false) :
    (c == d) = false := by
  rw [beq_eq_false_iff_ne]
  intro he
  rw [he, hd] at hc
  cases hc

theorem find_constants {d : Char} {t : Text} (hd : isDecDigit d = true) :
    (constants.find? fun (word, _) => word.isPrefixOf (d :: t)) = none ∧
      (constants.find? fun (word, _) => word.isPrefixOf ('-' :: d :: t)) = none := by
  have hne : ∀ c, isDecDigit c = false → (c == d) = false := fun c => beq_of_isDecDigit hd
  exact ⟨by simp [constants, List.isPrefixOf, hne 'n' rfl, hne 't' rfl, hne 'f' rfl, hne 'N' rfl, hne 'I' rfl,
      hne '-' rfl],
    by simp [constants, List.isPrefixOf, hne 'I' rfl]⟩

theorem scanAtom_ofInt {n : Int} (hn : (ofNat n.natAbs).length ≤ maxIntDigits) (h : Stops rest) :
    scanAtom (ofInt n ++ rest) = some (.int n, rest) := by
  cases n with
  | ofNat m =>
    -- the first digit is neither a constant's first letter nor the sign
    obtain ⟨d, ds, hds, hd, -, -⟩ := ofNat_digits m
    have hread := scanUnsigned_ofNat (m := m) false hn h
    change scanAtom (ofNat m ++ rest) = _
    rw [hds, List.cons_append] at hread ⊢
    have hsign : (d == '-') = false := Bool.beq_comm.trans (beq_of_isDecDigit hd rfl)
    simp only [scanAtom, (find_constants hd).1, scanNumber, hsign, Bool.false_eq_true, if_false]
    exact hread
  | negSucc m =>
    obtain ⟨d, ds, hds, hd, -, -⟩ := ofNat_digits (m + 1)
    have hread := scanUnsigned_ofNat (m := m + 1) true hn h
    have hwritten : ofInt (Int.negSucc m) = '-' :: ofNat (m + 1) := String.toList_append
    rw [hwritten, hds, List.cons_append, List.cons_append]
    rw [hds, List.cons_append] at hread
    simp only [scanAtom, (find_constants hd).2, scanNumber, beq_self_eq_true, if_true]
    exact hread

end numbers

/-! ## Values -/

mutual

/-- No number with a fraction or an exponent, nor one that `int` does not read. -/
def plain : Json → Bool
  | float _ => false
  | int n => (ofNat n.natAbs).length ≤ maxIntDigits
  | arr items => plainItems items
  | obj members => plainMembers members
  | _ => true

def plainItems : List Json → Bool
  | [] => true
  | j :: js => plain j && plainItems js

def plainMembers : List (Text × Json) → Bool
  | [] => true
  | (_, j) :: js => plain j && plainMembers js

end

mutual

/-- The fuel that reading a value takes. -/
def fuel : Json → Nat
  | arr items => 1 + fuelItems items
  | obj members => 1 + fuelMembers members
  | _ => 1

def fuelItems : List Json → Nat
  | [] => 0
  | j :: js => 1 + fuel j + fuelItems js

def fuelMembers : List (Text × Json) → Nat
  | [] => 0
  | (_, j) :: js => 1 + fuel j + fuelMembers js

end

/-- What a value is written as begins with neither space nor the end of a list. -/
theorem dumps_head {j : Json} (hj : plain j = true) :
    ∃ c t, dumps j = c :: t ∧ isJsonSpace c = false ∧ (c == ']') = false := by
  have hdigit : ∀ d, isDecDigit d = true → isJsonSpace d = false ∧ (d == ']') = false := by
    intro d hd
    have hne : ∀ c, isDecDigit c = false → (d == c) = false := fun c hc =>
      Bool.beq_comm.trans (beq_of_isDecDigit hd hc)
    exact ⟨by simp only [isJsonSpace, hne ' ' rfl, hne '\t' rfl, hne '\n' rfl, hne '\r' rfl, Bool.or_self], hne _ rfl⟩
  cases j with
  | null | str _ | arr _ | obj _ => exact ⟨_, _, rfl, by decide, by decide⟩
  | bool b => cases b <;> exact ⟨_, _, rfl, by decide, by decide⟩
  | float _ => cases hj
  | int n =>
    cases n with
    | ofNat m =>
      obtain ⟨d, ds, hds, hd, -, -⟩ := ofNat_digits m
      exact ⟨d, ds, hds, hdigit d hd⟩
    | negSucc m => exact ⟨'-', ofNat (m + 1), String.toList_append, by decide, by decide⟩

theorem skipSpace_of_not {c : Char} {t : Text} (hc : isJsonSpace c = false) : skipSpace (c :: t) = c :: t := by
  simp [skipSpace, hc]

theorem join_cons_cons (sep p q : Text) (ps : List Text) :
    join sep (p :: q :: ps) = p ++ sep ++ join sep (q :: ps) := rfl

theorem items_head {j : Json} (js : List Json) (hj : plain j = true) :
    ∃ c t, join ", " (dumpsItems (j :: js)) = c :: t ∧ isJsonSpace c = false ∧ (c == ']') = false := by
  obtain ⟨c, t, ht, hc⟩ := dumps_head hj
  cases js with
  | nil => exact ⟨c, t, ht, hc⟩
  | cons j' js =>
    refine ⟨c, t ++ ", " ++ join ", " (dumpsItems (j' :: js)), ?_, hc⟩
    rw [dumpsItems, dumpsItems, join_cons_cons, ht]
    rfl

theorem members_head (k : Text) (j : Json) (js : List (Text × Json)) :
    ∃ t, join ", " (dumpsMembers ((k, j) :: js)) = '"' :: t := by
  cases js with
  | nil => exact ⟨_, rfl⟩
  | cons m js => exact ⟨_, rfl⟩

theorem stops_cons {c : Char} {t : Text} (hd : isDecDigit c = false) (hne : c ≠ '.' ∧ c ≠ 'e' ∧ c ≠ 'E') :
    Stops (c :: t) := fun _ hc => Option.some.inj hc ▸ ⟨hd, hne⟩

theorem scanValue_string (n : Nat) (t : Text) :
    scanValue (n + 1) ('"' :: t) = (scanString t).map fun (s, t) => (str s, t) := by
  change (scanString t >>= fun p => pure (str p.1, p.2)) = _
  cases scanString t <;> rfl

theorem scanValue_int (n : Nat) (m : Int) (rest : Text) :
    scanValue (n + 1) (ofInt m ++ rest) = scanAtom (ofInt m ++ rest) := by
  have hother : ∀ c t, (c == '"') = false → (c == '[') = false → (c == '\x7b') = false →
      scanValue (n + 1) (c :: t) = scanAtom (c :: t) := by
    intro c t hquote hbracket hbrace
    rw [scanValue, hquote, hbracket, hbrace]
    rfl
  cases m with
  | ofNat m =>
    obtain ⟨d, ds, hds, hd, -, -⟩ := ofNat_digits m
    have hne : ∀ c, isDecDigit c = false → (d == c) = false := fun c hc =>
      Bool.beq_comm.trans (beq_of_isDecDigit hd hc)
    change scanValue (n + 1) (ofNat m ++ rest) = scanAtom (ofNat m ++ rest)
    rw [hds, List.cons_append]
    exact hother _ _ (hne _ rfl) (hne _ rfl) (hne _ rfl)
  | negSucc m =>
    have hwritten : ofInt (Int.negSucc m) = '-' :: ofNat (m + 1) := String.toList_append
    rw [hwritten, List.cons_append]
    exact hother _ _ rfl rfl rfl

theorem scanValue_array {n : Nat} {t u : Text} {d : Char} (ht : skipSpace t = d :: u) (hd : (d == ']') = false) :
    scanValue (n + 1) ('[' :: t) = (scanItems n (d :: u)).map fun (items, t) => (arr items, t) := by
  rw [scanValue, if_neg (by decide), if_pos (by decide)]
  simp only [ht]
  rw [hd, if_neg Bool.false_ne_true]
  cases scanItems n (d :: u) <;> rfl

theorem scanValue_object {n : Nat} {t u : Text} {d : Char} (ht : skipSpace t = d :: u) (hd : (d == '\x7d') = false) :
    scanValue (n + 1) ('\x7b' :: t) = (scanMembers n (d :: u)).map fun (members, t) => (obj members, t) := by
  rw [scanValue, if_neg (by decide), if_neg (by decide), if_pos (by decide)]
  simp only [ht]
  rw [hd, if_neg Bool.false_ne_true]
  cases scanMembers n (d :: u) <;> rfl

theorem scanItems_last {n : Nat} {j : Json} {t u v : Text} (hj : scanValue n t = some (j, u))
    (hu : skipSpace u = ']' :: v) : scanItems (n + 1) t = some ([j], v) := by
  rw [scanItems, hj]
  simp [hu]

theorem scanItems_more {n : Nat} {j : Json} {t u v : Text} (hj : scanValue n t = some (j, u))
    (hu : skipSpace u = ',' :: v) :
    scanItems (n + 1) t = (scanItems n (skipSpace v)).map fun (items, t) => (j :: items, t) := by
  rw [scanItems, hj]
  simp only [Option.bind_eq_bind, Option.bind_some, hu]
  rw [if_neg (by decide), if_pos (by decide)]
  cases scanItems n (skipSpace v) <;> rfl

theorem scanMembers_last {n : Nat} {j : Json} {k : Text} {t u v w x : Text} (hk : scanString t = some (k, u))
    (hu : skipSpace u = ':' :: v) (hj : scanValue n (skipSpace v) = some (j, w)) (hw : skipSpace w = '\x7d' :: x) :
    scanMembers (n + 1) ('"' :: t) = some ([(k, j)], x) := by
  rw [scanMembers, if_pos (by decide), hk]
  simp [hu, hj, hw]

theorem scanMembers_more {n : Nat} {j : Json} {k : Text} {t u v w x : Text} (hk : scanString t = some (k, u))
    (hu : skipSpace u = ':' :: v) (hj : scanValue n (skipSpace v) = some (j, w)) (hw : skipSpace w = ',' :: x) :
    scanMembers (n + 1) ('"' :: t) =
      (scanMembers n (skipSpace x)).map fun (members, t) => ((k, j) :: members, t) := by
  rw [scanMembers, if_pos (by decide), hk]
  simp only [Option.bind_eq_bind, Option.bind_some, hu, hj, hw]
  rw [if_pos (by decide), if_neg (by decide), if_pos (by decide)]
  cases scanMembers n (skipSpace x) <;> rfl

mutual

theorem scanValue_dumps : ∀ (j : Json) (n : Nat) (rest : Text), plain j = true → fuel j ≤ n → Stops rest →
    scanValue n (dumps j ++ rest) = some (j, rest)
  | null, n + 1, rest, _, _, _ => rfl
  | bool true, n + 1, rest, _, _, _ => rfl
  | bool false, n + 1, rest, _, _, _ => rfl
  | int m, n + 1, rest, hj, _, hstop =>
    (scanValue_int n m rest).trans (scanAtom_ofInt (of_decide_eq_true hj) hstop)
  | str s, n + 1, rest, _, _, _ => by
    have hwritten : dumps (str s) ++ rest = '"' :: (s.flatMap escapeChar ++ '"' :: rest) := by
      simp [dumps, quote]
    rw [hwritten, scanValue_string, scanString_quoted]
    rfl
  | arr [], n + 1, rest, _, _, _ => rfl
  | arr (j :: js), n + 1, rest, hj, hn, _ => by
    have hitems := scanItems_dumps (j :: js) n rest (List.cons_ne_nil _ _) hj (by rw [fuel] at hn; omega)
    have hwritten : dumps (arr (j :: js)) ++ rest = '[' :: (join ", " (dumpsItems (j :: js)) ++ ']' :: rest) := by
      simp [dumps]
    obtain ⟨c, t, ht, hspace, hend⟩ := items_head js (Bool.and_eq_true_iff.mp hj).1
    rw [ht, List.cons_append] at hitems hwritten
    rw [hwritten, scanValue_array (skipSpace_of_not hspace) hend, hitems]
    rfl
  | obj [], n + 1, rest, _, _, _ => rfl
  | obj ((k, j) :: js), n + 1, rest, hj, hn, _ => by
    have hmembers := scanMembers_dumps ((k, j) :: js) n rest (List.cons_ne_nil _ _) hj (by rw [fuel] at hn; omega)
    have hwritten : dumps (obj ((k, j) :: js)) ++ rest =
        '\x7b' :: (join ", " (dumpsMembers ((k, j) :: js)) ++ '\x7d' :: rest) := by
      simp [dumps]
    obtain ⟨t, ht⟩ := members_head k j js
    rw [ht, List.cons_append] at hmembers hwritten
    rw [hwritten, scanValue_object (skipSpace_of_not rfl) rfl, hmembers]
    rfl
  | float _, _, _, hj, _, _ => by cases hj
  | null, 0, _, _, hn, _ | bool _, 0, _, _, hn, _ | int _, 0, _, _, hn, _ | str _, 0, _, _, hn, _ => by cases hn
  | arr _, 0, _, _, hn, _ | obj _, 0, _, _, hn, _ => by simp [fuel] at hn

theorem scanItems_dumps : ∀ (items : List Json) (n : Nat) (rest : Text), items ≠ [] → plainItems items = true →
    fuelItems items ≤ n → scanItems n (join ", " (dumpsItems items) ++ ']' :: rest) = some (items, rest)
  | [], _, _, hne, _, _ => absurd rfl hne
  | j :: js, 0, _, _, _, hn => by simp [fuelItems] at hn
  | [j], n + 1, rest, _, hj, hn => by
    have hplain : plain j = true := (Bool.and_eq_true_iff.mp hj).1
    exact scanItems_last (scanValue_dumps j n (']' :: rest) hplain (by simp only [fuelItems] at hn; omega)
      (stops_cons rfl (by decide))) rfl
  | j :: j' :: js, n + 1, rest, _, hj, hn => by
    obtain ⟨hplain, hmore⟩ := Bool.and_eq_true_iff.mp hj
    rw [fuelItems] at hn
    have hitems := scanItems_dumps (j' :: js) n rest (List.cons_ne_nil _ _) hmore (by omega)
    obtain ⟨c, t, ht, hspace, -⟩ := items_head js (Bool.and_eq_true_iff.mp hmore).1
    have hskip : skipSpace (' ' :: (join ", " (dumpsItems (j' :: js)) ++ ']' :: rest)) =
        join ", " (dumpsItems (j' :: js)) ++ ']' :: rest := by
      rw [ht]
      exact skipSpace_of_not hspace
    have hfirst := scanValue_dumps j n (',' :: ' ' :: (join ", " (dumpsItems (j' :: js)) ++ ']' :: rest)) hplain
      (by omega) (stops_cons rfl (by decide))
    have hwritten : join ", " (dumpsItems (j :: j' :: js)) ++ ']' :: rest =
        dumps j ++ ',' :: ' ' :: (join ", " (dumpsItems (j' :: js)) ++ ']' :: rest) := by
      rw [dumpsItems, dumpsItems, join_cons_cons]
      simp
    rw [hwritten, scanItems_more hfirst rfl, hskip, hitems]
    rfl

theorem scanMembers_dumps : ∀ (members : List (Text × Json)) (n : Nat) (rest : Text), members ≠ [] →
    plainMembers members = true → fuelMembers members ≤ n →
    scanMembers n (join ", " (dumpsMembers members) ++ '\x7d' :: rest) = some (members, rest)
  | [], _, _, hne, _, _ => absurd rfl hne
  | (k, j) :: js, 0, _, _, _, hn => by simp [fuelMembers] at hn
  | [(k, j)], n + 1, rest, _, hj, hn => by
    have hplain : plain j = true := (Bool.and_eq_true_iff.mp hj).1
    obtain ⟨c, t, ht, hspace, -⟩ := dumps_head hplain
    have hvalue := scanValue_dumps j n ('\x7d' :: rest) hplain (by simp only [fuelMembers] at hn; omega)
      (stops_cons rfl (by decide))
    have hskip : skipSpace (' ' :: (dumps j ++ '\x7d' :: rest)) = dumps j ++ '\x7d' :: rest := by
      rw [ht]
      exact skipSpace_of_not hspace
    have hwritten : join ", " (dumpsMembers [(k, j)]) ++ '\x7d' :: rest =
        '"' :: (k.flatMap escapeChar ++ '"' :: ':' :: ' ' :: (dumps j ++ '\x7d' :: rest)) := by
      simp [dumpsMembers, join, quote]
    rw [hwritten, scanMembers_last (scanString_quoted k _) rfl (hskip ▸ hvalue) rfl]
  | (k, j) :: m :: js, n + 1, rest, _, hj, hn => by
    obtain ⟨k', j'⟩ := m
    obtain ⟨hplain, hmore⟩ := Bool.and_eq_true_iff.mp hj
    rw [fuelMembers] at hn
    have hmembers := scanMembers_dumps ((k', j') :: js) n rest (List.cons_ne_nil _ _) hmore (by omega)
    obtain ⟨c, t, ht, hspace, -⟩ := dumps_head hplain
    have hvalue := scanValue_dumps j n
      (',' :: ' ' :: (join ", " (dumpsMembers ((k', j') :: js)) ++ '\x7d' :: rest)) hplain (by omega)
      (stops_cons rfl (by decide))
    -- `dumps` writes a space behind each colon and each comma
    have hskip : ∀ rest, skipSpace (' ' :: (dumps j ++ rest)) = dumps j ++ rest := by
      intro rest
      rw [ht]
      exact skipSpace_of_not hspace
    have hskip' : skipSpace (' ' :: (join ", " (dumpsMembers ((k', j') :: js)) ++ '\x7d' :: rest)) =
        join ", " (dumpsMembers ((k', j') :: js)) ++ '\x7d' :: rest := by
      obtain ⟨t', ht'⟩ := members_head k' j' js
      rw [ht']
      rfl
    have hwritten : join ", " (dumpsMembers ((k, j) :: (k', j') :: js)) ++ '\x7d' :: rest =
        '"' :: (k.flatMap escapeChar ++ '"' :: ':' :: ' ' ::
          (dumps j ++ ',' :: ' ' :: (join ", " (dumpsMembers ((k', j') :: js)) ++ '\x7d' :: rest))) := by
      rw [dumpsMembers, dumpsMembers, join_cons_cons]
      simp [quote]
    rw [hwritten, scanMembers_more (scanString_quoted k _) rfl ((hskip _).symm ▸ hvalue) rfl, hskip', hmembers]
    rfl

end

/-! ## Whole texts -/

theorem length_dumps_pos {j : Json} (hj : plain j = true) : 0 < (dumps j).length := by
  obtain ⟨c, t, ht, -, -⟩ := dumps_head hj
  rw [ht]
  exact Nat.succ_pos _

mutual

/-- A text has as many characters as reading it takes fuel. -/
theorem fuel_le : ∀ j : Json, plain j = true → fuel j ≤ 2 * (dumps j).length
  | null, _ | bool true, _ | bool false, _ => by decide
  | int m, hj | str s, hj => by
    have := length_dumps_pos hj
    simp only [fuel]
    omega
  | float _, hj => by cases hj
  | arr [], _ => by decide
  | arr (j :: js), hj => by
    have := fuelItems_le (j :: js) (List.cons_ne_nil _ _) hj
    have hlen : (dumps (arr (j :: js))).length = (join ", " (dumpsItems (j :: js))).length + 2 := by
      simp [dumps]
    rw [fuel, hlen]
    omega
  | obj [], _ => by decide
  | obj (m :: js), hj => by
    have := fuelMembers_le (m :: js) (List.cons_ne_nil _ _) hj
    have hlen : (dumps (obj (m :: js))).length = (join ", " (dumpsMembers (m :: js))).length + 2 := by
      simp [dumps]
    rw [fuel, hlen]
    omega

theorem fuelItems_le : ∀ items : List Json, items ≠ [] → plainItems items = true →
    fuelItems items ≤ 2 * (join ", " (dumpsItems items)).length + 1
  | [], hne, _ => absurd rfl hne
  | [j], _, hj => by
    have hlen : join ", " (dumpsItems [j]) = dumps j := rfl
    have := fuel_le j (Bool.and_eq_true_iff.mp hj).1
    rw [hlen]
    simp only [fuelItems]
    omega
  | j :: j' :: js, _, hj => by
    obtain ⟨hplain, hmore⟩ := Bool.and_eq_true_iff.mp hj
    have hfirst := fuel_le j hplain
    have hrest := fuelItems_le (j' :: js) (List.cons_ne_nil _ _) hmore
    have hlen : (join ", " (dumpsItems (j :: j' :: js))).length =
        (dumps j).length + 2 + (join ", " (dumpsItems (j' :: js))).length := by
      rw [dumpsItems, dumpsItems, join_cons_cons]
      simp only [List.length_append]
      rfl
    rw [fuelItems, hlen]
    omega

theorem fuelMembers_le : ∀ members : List (Text × Json), members ≠ [] → plainMembers members = true →
    fuelMembers members ≤ 2 * (join ", " (dumpsMembers members)).length + 1
  | [], hne, _ => absurd rfl hne
  | [(k, j)], _, hj => by
    have hlen : (join ", " (dumpsMembers [(k, j)])).length = (quote k).length + 2 + (dumps j).length := by
      simp only [dumpsMembers, join, List.length_append]
      rfl
    have := fuel_le j (Bool.and_eq_true_iff.mp hj).1
    rw [hlen]
    simp only [fuelMembers]
    omega
  | (k, j) :: (k', j') :: js, _, hj => by
    obtain ⟨hplain, hmore⟩ := Bool.and_eq_true_iff.mp hj
    have hfirst := fuel_le j hplain
    have hrest := fuelMembers_le ((k', j') :: js) (List.cons_ne_nil _ _) hmore
    have hlen : (join ", " (dumpsMembers ((k, j) :: (k', j') :: js))).length =
        (quote k).length + 2 + (dumps j).length + 2 + (join ", " (dumpsMembers ((k', j') :: js))).length := by
      rw [dumpsMembers, dumpsMembers, join_cons_cons]
      simp only [List.length_append]
      rfl
    rw [fuelMembers, hlen]
    omega

end

theorem loads_dumps {j : Json} (hj : plain j = true) : loads (dumps j) = some j := by
  obtain ⟨c, t, ht, hspace, -⟩ := dumps_head hj
  have hskip : skipSpace (dumps j) = dumps j := by rw [ht, skipSpace_of_not hspace]
  have hfuel : fuel j ≤ enoughFuel (dumps j) := (fuel_le j hj).trans (Nat.le_add_right _ 2)
  have hread := scanValue_dumps j _ [] hj hfuel fun c hc => by cases hc
  rw [List.append_nil] at hread
  rw [loads, hskip, hread]
  rfl

theorem loadsUnique_dumps {j : Json} (hj : plain j = true) (hkeys : distinctKeys j = true) :
    loadsUnique (dumps j) = some j := by
  rw [loadsUnique, loads_dumps hj, Option.filter_some, if_pos hkeys]

end Json

end ArubaCertRenewer
