import ArubaCertRenewer.AnsiPreflight
import Mathlib.Data.List.Nodup
import Mathlib.Data.List.Perm.Subperm
import Mathlib.Tactic.Linarith
import Mathlib.Tactic.Ring

/- The preflight of the insert-line codes is exact.

   The length of an expansion is the number of characters between the codes and as many
   line ends for each code as the first one counts. The preflight decides whether that is
   within the budget from the number of codes and from the digits of the first count,
   which it compares as texts. -/
namespace ArubaCertRenewer
open PyText Effects Effects.Py BoundedArubaConnection

/-! ## Decimal texts

A text of ASCII digits without leading zeros is compared by its length, and texts of one length by
their characters. -/

/-- Each character is an ASCII digit. -/
def IsDecimal (t : Text) : Prop := ∀ c ∈ t, 48 ≤ c.toNat ∧ c.toNat ≤ 57

theorem decimal_cons (c : Char) (t : Text) :
    Nat.ofDigitChars 10 (c :: t) 0 = 10 ^ t.length * (c.toNat - 48) + Nat.ofDigitChars 10 t 0 := by
  rw [Nat.ofDigitChars_cons, Nat.ofDigitChars_eq_ofDigitChars_zero, Nat.mul_zero, Nat.zero_add]
  rfl

theorem decimal_lt {t : Text} (ht : IsDecimal t) : Nat.ofDigitChars 10 t 0 < 10 ^ t.length := by
  induction t with
  | nil => exact Nat.one_pos
  | cons c t ih =>
    have hc := ht c List.mem_cons_self
    have hrest := ih fun d hd => ht d (List.mem_cons_of_mem _ hd)
    have hdigit : c.toNat - 48 ≤ 9 := by omega
    have hfirst : 10 ^ t.length * (c.toNat - 48) ≤ 10 ^ t.length * 9 := Nat.mul_le_mul_left _ hdigit
    rw [decimal_cons, List.length_cons, pow_succ]
    omega

/-- A text that does not begin with a zero. -/
theorem le_decimal {c : Char} {t : Text} (hc : 49 ≤ c.toNat) :
    10 ^ t.length ≤ Nat.ofDigitChars 10 (c :: t) 0 := by
  have hdigit : 1 ≤ c.toNat - 48 := by omega
  have hfirst : 10 ^ t.length * 1 ≤ 10 ^ t.length * (c.toNat - 48) := Nat.mul_le_mul_left _ hdigit
  rw [decimal_cons]
  omega

/-- Texts of one length are ordered as their values. -/
theorem decimal_lex {s t : Text} (hs : IsDecimal s) (ht : IsDecimal t) (hlen : s.length = t.length) :
    s < t ↔ Nat.ofDigitChars 10 s 0 < Nat.ofDigitChars 10 t 0 := by
  induction s generalizing t with
  | nil =>
    obtain rfl := List.length_eq_zero_iff.mp hlen.symm
    simp
  | cons a s ih =>
    cases t with
    | nil => cases hlen
    | cons b t =>
      have hlen' : s.length = t.length := Nat.succ.inj hlen
      have hs' : IsDecimal s := fun d hd => hs d (List.mem_cons_of_mem _ hd)
      have ht' : IsDecimal t := fun d hd => ht d (List.mem_cons_of_mem _ hd)
      have ha := hs a List.mem_cons_self
      have hb := ht b List.mem_cons_self
      have hslt := decimal_lt hs'
      have htlt := decimal_lt ht'
      have hchars : a < b ↔ a.toNat < b.toNat := Iff.rfl
      rw [List.cons_lt_cons_iff, ih hs' ht' hlen', decimal_cons, decimal_cons, hlen', hchars]
      rw [hlen'] at hslt
      generalize Nat.ofDigitChars 10 s 0 = x at hslt ⊢
      generalize Nat.ofDigitChars 10 t 0 = y at htlt ⊢
      generalize 10 ^ t.length = p at hslt htlt ⊢
      rcases Nat.lt_trichotomy a.toNat b.toNat with hlt | heq | hgt
      · have hstep : p * (a.toNat - 48) + p ≤ p * (b.toNat - 48) := by
          rw [← Nat.mul_succ]
          exact Nat.mul_le_mul_left _ (by omega)
        constructor
        · intro _
          omega
        · intro _
          exact .inl hlt
      · have hsame : a = b := Char.toNat_inj.mp heq
        subst hsame
        simp
      · have hstep : p * (b.toNat - 48) + p ≤ p * (a.toNat - 48) := by
          rw [← Nat.mul_succ]
          exact Nat.mul_le_mul_left _ (by omega)
        constructor
        · intro h
          obtain h | ⟨rfl, -⟩ := h
          · omega
          · omega
        · intro h
          omega

theorem isDecimal_toDigits (n : Nat) : IsDecimal (Nat.toDigits 10 n) := by
  intro c hc
  have hdigit := Nat.isDigit_of_mem_toDigits (by decide) (by decide) hc
  simpa [Char.isDigit, UInt32.le_iff_toNat_le] using hdigit

/-- Comparing a printed number with a text that does not begin with a zero, as the preflight does. -/
theorem printed_lt_iff {n : Nat} {d : Text} (hd : IsDecimal d)
    (hzero : ∀ c t, d = c :: t → t ≠ [] → 49 ≤ c.toNat) :
    ((Nat.toDigits 10 n).length < d.length ∨
      (d.length = (Nat.toDigits 10 n).length ∧ Nat.toDigits 10 n < d)) ↔
      n < Nat.ofDigitChars 10 d 0 := by
  have hprinted : 0 < (Nat.toDigits 10 n).length := Nat.length_toDigits_pos
  have hvalue : Nat.ofDigitChars 10 (Nat.toDigits 10 n) 0 = n := Nat.ofDigitChars_ten_toDigits
  rcases Nat.lt_trichotomy (Nat.toDigits 10 n).length d.length with hlt | heq | hgt
  · -- a longer text is a greater number
    have hgreater : n < Nat.ofDigitChars 10 d 0 := by
      cases d with
      | nil => cases hlt
      | cons c t =>
        rw [List.length_cons] at hlt
        have hne : t ≠ [] := by
          intro ht
          rw [ht, List.length_nil] at hlt
          omega
        calc n < 10 ^ t.length := (Nat.length_toDigits_le_iff (by decide)
                (List.length_pos_iff.mpr hne)).mp (by omega)
          _ ≤ Nat.ofDigitChars 10 (c :: t) 0 := le_decimal (hzero c t rfl hne)
    simp [hlt, hgreater]
  · have hlex := decimal_lex (isDecimal_toDigits n) hd heq
    rw [hvalue] at hlex
    simp [heq, hlex]
  · have hless : Nat.ofDigitChars 10 d 0 ≤ n := by
      by_cases hnil : d = []
      · rw [hnil]
        exact Nat.zero_le _
      · have hlen : 0 < d.length := List.length_pos_iff.mpr hnil
        have hnot : ¬ n < 10 ^ d.length := by
          intro hn
          have hle := (Nat.length_toDigits_le_iff (by decide) hlen).mpr hn
          omega
        have hbound := decimal_lt hd
        omega
    constructor
    · intro h
      omega
    · intro h
      omega

/-! The digits of a count. -/

/-- A decimal digit of any script as an ASCII one. -/
def asciiDigit (c : Char) : Char := Char.ofNat (48 + (decimal? c).getD 0)

theorem decimal?_le (c : Char) : (decimal? c).getD 0 ≤ 9 := by
  unfold decimal?
  cases hfind : decimalZeros.find? fun z => z ≤ c.toNat && c.toNat < z + 10 with
  | none => exact Nat.zero_le _
  | some z =>
    have hz := List.find?_some hfind
    simp only [Bool.and_eq_true, decide_eq_true_eq] at hz
    show c.toNat - z ≤ 9
    omega

theorem toNat_asciiDigit (c : Char) : (asciiDigit c).toNat = 48 + (decimal? c).getD 0 := by
  have hle := decimal?_le c
  have hvalid : (48 + (decimal? c).getD 0).isValidChar := .inl (by omega)
  rw [asciiDigit, Char.ofNat, dif_pos hvalid]
  rfl

theorem isDecimal_ascii (digits : Text) : IsDecimal (digits.map asciiDigit) := by
  intro c hc
  obtain ⟨d, -, rfl⟩ := List.mem_map.mp hc
  have hle := decimal?_le d
  rw [toNat_asciiDigit]
  omega

theorem decimal_ascii (digits : Text) :
    Nat.ofDigitChars 10 (digits.map asciiDigit) 0 = digitsValue digits := by
  rw [Nat.ofDigitChars_eq_foldl, List.foldl_map]
  unfold digitsValue
  congr 1
  funext n c
  have hzero : '0'.toNat = 48 := rfl
  rw [toNat_asciiDigit, hzero]
  omega

/-- Leading zeros count for nothing. -/
theorem decimal_dropWhile (t : Text) :
    Nat.ofDigitChars 10 (t.dropWhile (· == '0')) 0 = Nat.ofDigitChars 10 t 0 := by
  induction t with
  | nil => rfl
  | cons c t ih =>
    by_cases hc : c = '0'
    · subst hc
      show Nat.ofDigitChars 10 (t.dropWhile (· == '0')) 0 = _
      rw [ih, decimal_cons]
      simp
    · rw [List.dropWhile_cons_of_neg (by simpa using hc)]

theorem asciiDigits_spec (digits : Text) :
    IsDecimal (asciiDigits digits) ∧
      Nat.ofDigitChars 10 (asciiDigits digits) 0 = digitsValue digits ∧
      ∀ c t, asciiDigits digits = c :: t → t ≠ [] → 49 ≤ c.toNat := by
  have hvalue : Nat.ofDigitChars 10 ((digits.map asciiDigit).dropWhile (· == '0')) 0 =
      digitsValue digits := (decimal_dropWhile _).trans (decimal_ascii digits)
  have hdecimal : IsDecimal ((digits.map asciiDigit).dropWhile (· == '0')) := fun c hc =>
    isDecimal_ascii digits c (List.dropWhile_subset _ hc)
  cases hdrop : (digits.map asciiDigit).dropWhile (· == '0') with
  | nil =>
    have hnone : (digits.map fun c => Char.ofNat (48 + (decimal? c).getD 0)).dropWhile
        (· == '0') = [] := hdrop
    have hzero : asciiDigits digits = ['0'] := by
      rw [asciiDigits, hnone]
      rfl
    rw [hdrop] at hvalue
    rw [hzero]
    refine ⟨?_, hvalue, fun c t he hne => ?_⟩
    · intro c hc
      rw [List.mem_singleton] at hc
      subst hc
      decide
    · cases he
      exact absurd rfl hne
  | cons d ds =>
    have hsome : (digits.map fun c => Char.ofNat (48 + (decimal? c).getD 0)).dropWhile
        (· == '0') = d :: ds := hdrop
    have hdigits : asciiDigits digits = d :: ds := by
      rw [asciiDigits, hsome]
    rw [hdrop] at hvalue hdecimal
    rw [hdigits]
    refine ⟨hdecimal, hvalue, fun c t he _ => ?_⟩
    cases he
    have hnot : ¬ (d == '0') = true := by
      have hhead := List.head_dropWhile_not (· == '0')
        (show (digits.map asciiDigit).dropWhile (· == '0') ≠ [] by simp [hdrop])
      simpa [hdrop] using hhead
    have hbounds := hdecimal d List.mem_cons_self
    have hne : d.toNat ≠ 48 := by
      intro he
      exact hnot (beq_iff_eq.mpr (Char.toNat_inj.mp he))
    omega

/-! ## The pieces of a text -/

def AnsiPiece.isPlain : AnsiPiece → Bool
  | .plain _ => true
  | .code _ => false

/-- The characters between the codes. -/
def plainCount (t : Text) : Nat := ((ansiPieces t).filter AnsiPiece.isPlain).length

theorem insertLineDigits_length {t digits : Text} (h : insertLineDigits t = some digits) :
    digits.length + 3 ≤ t.length ∧ 'L' ∈ t := by
  unfold insertLineDigits at h
  split at h
  · next rest =>
    dsimp only at h
    split at h
    · next hcode =>
      cases h
      rw [Bool.and_eq_true, beq_iff_eq] at hcode
      have hL := List.mem_of_head? hcode.2
      have hlen := List.length_pos_of_mem hL
      rw [List.length_drop] at hlen
      refine ⟨?_, ?_⟩
      · rw [List.length_cons, List.length_cons]
        omega
      · exact List.mem_cons_of_mem _ (List.mem_cons_of_mem _ (List.mem_of_mem_drop hL))
    · cases h
  · cases h

theorem ansiPiecesFrom_length (t : Text) : ∀ skip ≤ t.length,
    ((ansiPiecesFrom skip t).filter AnsiPiece.isPlain).length +
      matchedLength ((ansiPiecesFrom skip t).filterMap AnsiPiece.digits?) + skip = t.length := by
  induction t with
  | nil =>
    intro skip hskip
    obtain rfl : skip = 0 := Nat.le_zero.mp hskip
    rfl
  | cons c t ih =>
    intro skip hskip
    rw [List.length_cons] at hskip ⊢
    cases skip with
    | succ skip =>
      have hrest := ih skip (by omega)
      rw [ansiPiecesFrom]
      omega
    | zero =>
      rw [ansiPiecesFrom]
      cases hcode : insertLineDigits (c :: t) with
      | none =>
        have hrest := ih 0 (Nat.zero_le _)
        simp only [List.filter_cons, AnsiPiece.isPlain, if_true, List.length_cons,
          List.filterMap_cons, AnsiPiece.digits?]
        omega
      | some digits =>
        have hlen := (insertLineDigits_length hcode).1
        rw [List.length_cons] at hlen
        have hrest := ih (digits.length + 2) (by omega)
        simp only [List.filter_cons, AnsiPiece.isPlain, Bool.false_eq_true, if_false,
          List.filterMap_cons, AnsiPiece.digits?, matchedLength]
        omega

/-- The characters of a text are those between its codes and those of the codes. -/
theorem length_pieces (t : Text) : plainCount t + matchedLength (insertLines t) = t.length :=
  ansiPiecesFrom_length t 0 (Nat.zero_le _)

/-- Without an L there is no code. -/
theorem insertLines_of_not_mem {t : Text} (h : 'L' ∉ t) : insertLines t = [] := by
  have hfrom : ∀ t : Text, 'L' ∉ t → ∀ skip,
      (ansiPiecesFrom skip t).filterMap AnsiPiece.digits? = [] := by
    intro t
    induction t with
    | nil =>
      intro _ skip
      cases skip <;> rfl
    | cons c t ih =>
      intro hL skip
      have hrest : 'L' ∉ t := fun hm => hL (List.mem_cons_of_mem _ hm)
      cases skip with
      | succ skip => exact ih hrest skip
      | zero =>
        have hcode : insertLineDigits (c :: t) = none := by
          rw [Option.eq_none_iff_forall_ne_some]
          intro digits hdigits
          exact hL (insertLineDigits_length hdigits).2
        rw [ansiPiecesFrom, hcode, List.filterMap_cons]
        exact ih hrest 0
  exact hfrom t h 0

theorem expandInsertLines_of_none {t : Text} (h : insertLines t = []) : expandInsertLines t = t := by
  unfold expandInsertLines
  rw [h]

/-- An expansion has the plain characters, and for each code as many as the first one counts. -/
theorem expandInsertLines_length {t first : Text} {rest : List Text}
    (h : insertLines t = first :: rest) :
    (expandInsertLines t).length =
      plainCount t + (insertLines t).length * digitsValue first := by
  have hpieces : ∀ ps : List AnsiPiece, (ps.flatMap fun
        | .plain c => [c]
        | .code _ => (List.replicate (digitsValue first) netmikoReturn).flatten).length =
      (ps.filter AnsiPiece.isPlain).length +
        (ps.filterMap AnsiPiece.digits?).length * digitsValue first := by
    intro ps
    induction ps with
    | nil => simp
    | cons p ps ih =>
      cases p with
      | plain c =>
        simp only [List.flatMap_cons, List.length_append, ih, List.filter_cons, AnsiPiece.isPlain,
          if_true, List.length_cons, List.filterMap_cons, AnsiPiece.digits?, List.length_nil]
        omega
      | code digits =>
        have hunit : ((List.replicate (digitsValue first) netmikoReturn).flatten).length =
            digitsValue first := by
          simp [netmikoReturn]
        simp only [List.flatMap_cons, List.length_append, ih, hunit, List.filter_cons,
          AnsiPiece.isPlain, Bool.false_eq_true, if_false, List.filterMap_cons, AnsiPiece.digits?,
          List.length_cons]
        ring
  unfold expandInsertLines
  rw [h]
  exact (hpieces (ansiPieces t)).trans (by rw [← h]; rfl)

/-! ## The decision -/

/-- The preflight lets through what has room, and a count that `int` takes. -/
theorem expansionFits_iff {remaining : Int} {safe first : Text} {rest : List Text}
    (h : insertLines safe = first :: rest) :
    expansionFits remaining safe (insertLines safe) first = true ↔
      first.length ≤ strDigitsCheckThreshold ∧
        ((expandInsertLines safe).length : Int) ≤ remaining := by
  have hlength := length_pieces safe
  have hcount : 0 < (insertLines safe).length := by
    rw [h]
    exact Nat.succ_pos _
  rw [expandInsertLines_length h]
  unfold expansionFits
  generalize insertLines safe = codes at hlength hcount ⊢
  obtain ⟨hdecimal, hvalue, hzero⟩ := asciiDigits_spec first
  have hbase : (safe.length : Int) - matchedLength codes = plainCount safe := by omega
  have hunit : (codes.length : Int) * netmikoReturn.length = codes.length := by
    show (codes.length : Int) * 1 = _
    omega
  simp only [hbase, hunit]
  by_cases hroom : remaining < plainCount safe
  · -- the text between the codes is too long already
    have hover : ¬ ((plainCount safe + codes.length * digitsValue first : Nat) : Int) ≤ remaining := by
      have hnonneg : (0 : Int) ≤ codes.length * digitsValue first := by positivity
      push_cast
      omega
    constructor
    · intro hfits
      simp [hroom] at hfits
    · intro hfits
      exact absurd hfits.2 hover
  · have hzeroUnit : ((codes.length : Int) == 0) = false := by
      rw [beq_eq_false_iff_ne]
      omega
    simp only [hroom, decide_false, hzeroUnit, Bool.or_self, Bool.false_eq_true, if_false]
    by_cases hlong : strDigitsCheckThreshold < first.length
    · have hnot : ¬ first.length ≤ strDigitsCheckThreshold := by omega
      simp [hlong, hnot]
    · have hshort : first.length ≤ strDigitsCheckThreshold := by omega
      obtain ⟨room, hroomEq⟩ : ∃ room : Nat, remaining = plainCount safe + room :=
        ⟨(remaining - plainCount safe).toNat, by omega⟩
      have hquotient : ((remaining - plainCount safe) / (codes.length : Int)).toNat =
          room / codes.length := by
        have hsub : remaining - plainCount safe = (room : Int) := by omega
        rw [hsub, ← Int.natCast_ediv, Int.toNat_natCast]
      have hcompare := printed_lt_iff (n := room / codes.length) hdecimal hzero
      rw [hvalue] at hcompare
      have hdivision : room / codes.length < digitsValue first ↔
          room < codes.length * digitsValue first := by
        rw [Nat.div_lt_iff_lt_mul hcount, Nat.mul_comm]
      have hprinted : ofNat (room / codes.length) = Nat.toDigits 10 (room / codes.length) := by
        simp [ofNat]
      rw [hdivision, ← hprinted] at hcompare
      simp only [hlong, if_false, hquotient, hshort, true_and]
      rw [Bool.not_eq_true', ← Bool.not_eq_true, Bool.or_eq_true, Bool.and_eq_true,
        decide_eq_true_eq, beq_iff_eq, decide_eq_true_eq, hcompare, hroomEq]
      push_cast
      constructor
      · intro hle
        have hcast : ((codes.length * digitsValue first : Nat) : Int) ≤ room := by omega
        push_cast at hcast
        omega
      · intro hle hlt
        have hcast : ((codes.length * digitsValue first : Nat) : Int) ≤ room := by
          push_cast
          omega
        omega

section connection
variable {env : Environment Transport} {c : BoundedArubaConnection} {given : List Text}

/-- The connection after a refusal. -/
def refused (c : BoundedArubaConnection) : BoundedArubaConnection :=
  (c.mapChannel fun ch => { ch with poisoned := true }).disposed

/-- The connection after a text of this length was handed on. -/
def charged (c : BoundedArubaConnection) (length : Int) : BoundedArubaConnection :=
  c.mapChannel fun ch => { ch with processedUsed := ch.processedUsed + length }

/-- What the connection may still hand on. -/
def processedRemaining (c : BoundedArubaConnection) : Int :=
  c.channel.processedLimit - c.channel.processedUsed

theorem gives_requireHealthy (hc : c.boundedChannelPoisoned = false)
    (henv : ∀ h, env h .binaryOverflow = false) : Gives env requireHealthy c (.ok ()) c := by
  have hoverflow : Gives env binaryOverflow c (.ok false) c := by
    intro h
    obtain ⟨channel, poisoned, remoteConn, remoteConnPre, active, scope, buffer⟩ := c
    cases remoteConnPre with
    | false => exact ⟨h, rfl⟩
    | true =>
      refine ⟨⟨.binaryOverflow, env h .binaryOverflow⟩ :: h, ?_⟩
      show (some ((.ok (env h .binaryOverflow) : Except ChannelError Bool), _), _) = _
      rw [henv h]
  refine hoverflow.bind ?_
  intro h
  refine ⟨h, ?_⟩
  obtain ⟨channel, poisoned, remoteConn, remoteConnPre, active, scope, buffer⟩ := c
  obtain rfl : poisoned = false := hc
  rfl

theorem gives_overBudget {α : Type} :
    Gives env (overBudget : Channel α) c (.error .outputLimit) (refused c) := by
  intro h
  obtain ⟨channel, poisoned, remoteConn, remoteConnPre, active, scope, buffer⟩ := c
  cases remoteConn <;> cases remoteConnPre <;> exact ⟨_, rfl⟩

theorem gives_chargeProcessed {length : Nat} :
    ((length : Int) ≤ processedRemaining c →
      Gives env (chargeProcessed length) c (.ok ()) (charged c length)) ∧
    (¬ (length : Int) ≤ processedRemaining c →
      Gives env (chargeProcessed length) c (.error .outputLimit) (refused c)) := by
  have hget : Gives env (get : Channel BoundedArubaConnection) c (.ok c) c := fun h => ⟨h, rfl⟩
  have hcond : ((length : Int) < 0 || c.channel.processedLimit < c.channel.processedUsed + length) =
      decide (processedRemaining c < length) := by
    unfold processedRemaining
    rw [Bool.eq_iff_iff, Bool.or_eq_true, decide_eq_true_eq, decide_eq_true_eq, decide_eq_true_eq]
    omega
  unfold chargeProcessed
  constructor
  · intro hle
    refine hget.bind ?_
    rw [hcond, if_neg (by simpa using hle)]
    exact fun h => ⟨h, rfl⟩
  · intro hover
    refine hget.bind ?_
    rw [hcond, if_pos (by simpa using hover)]
    exact gives_overBudget.raise

/-! ## The preflight -/

variable {removal : Text → Text} {t : Text}

/-- What the first pass of Netmiko's method is: it does not know a private-use character from an L,
and it makes no character but line ends. -/
structure IsRemoval (removal : Text → Text) : Prop where
  rename : ∀ t c, firstSentinel ≤ c.toNat → c ∉ t →
    removal (replaceChar 'L' c t) = replaceChar 'L' c (removal t)
  chars : ∀ t, ∀ c ∈ removal t, c ∈ t ∨ c = '\n'

/-- The text lacks one of the private-use characters that are tried. -/
def HasSentinel (t : Text) : Prop := ∃ k < sentinelCount, Char.ofNat (firstSentinel + k) ∉ t

theorem firstAbsent_some {n code : Nat} (h : ∃ k < n, Char.ofNat (code + k) ∉ t) :
    ∃ k < n, firstAbsent t n code = some (Char.ofNat (code + k)) ∧ Char.ofNat (code + k) ∉ t := by
  induction n generalizing code with
  | zero =>
    obtain ⟨k, hk, -⟩ := h
    cases hk
  | succ n ih =>
    unfold firstAbsent
    by_cases hhere : Char.ofNat code ∈ t
    · rw [if_pos (by simpa using hhere)]
      have hlater : ∃ k < n, Char.ofNat (code + 1 + k) ∉ t := by
        obtain ⟨k, hk, hnot⟩ := h
        cases k with
        | zero => exact absurd hhere hnot
        | succ k =>
          refine ⟨k, by omega, ?_⟩
          rw [show code + 1 + k = code + (k + 1) by omega]
          exact hnot
      obtain ⟨k, hk, hfound, hnot⟩ := ih hlater
      refine ⟨k + 1, by omega, ?_⟩
      rw [show code + (k + 1) = code + 1 + k by omega]
      exact ⟨hfound, hnot⟩
    · rw [if_neg (by simpa using hhere)]
      exact ⟨0, Nat.succ_pos _, rfl, hhere⟩

theorem firstAbsent_none {n code : Nat} (h : ∀ k < n, Char.ofNat (code + k) ∈ t) :
    firstAbsent t n code = none := by
  induction n generalizing code with
  | zero => rfl
  | succ n ih =>
    unfold firstAbsent
    rw [if_pos (by simpa using h 0 (Nat.succ_pos n))]
    apply ih
    intro k hk
    rw [show code + 1 + k = code + (k + 1) by omega]
    exact h (k + 1) (by omega)

/-- The code points of the private-use characters that are tried are valid. -/
theorem toNat_sentinel {k : Nat} (hk : k < sentinelCount) :
    (Char.ofNat (firstSentinel + k)).toNat = firstSentinel + k := by
  have hcount : sentinelCount = 0x20000 := rfl
  have hfirst : firstSentinel = 0xf0000 := rfl
  have hvalid : (firstSentinel + k).isValidChar := .inr (by omega)
  rw [Char.ofNat, dif_pos hvalid]
  rfl

/-- The private-use characters that are tried. -/
def sentinels : Text := (List.range sentinelCount).map fun k => Char.ofNat (firstSentinel + k)

/-- A text that is shorter than their number, as every text within the read budget is, lacks one. -/
theorem hasSentinel_of_length (h : t.length < sentinelCount) : HasSentinel t := by
  by_contra hnone
  have hsubset : sentinels ⊆ t := by
    intro c hc
    obtain ⟨k, hk, rfl⟩ := List.mem_map.mp hc
    by_contra hnot
    exact hnone ⟨k, List.mem_range.mp hk, hnot⟩
  have hnodup : sentinels.Nodup := by
    refine List.Nodup.map_on (fun j hj k hk he => ?_) List.nodup_range
    have htoNat := congrArg Char.toNat he
    rw [toNat_sentinel (List.mem_range.mp hj), toNat_sentinel (List.mem_range.mp hk)] at htoNat
    omega
  have hlength := (hnodup.subperm hsubset).length_le
  rw [sentinels, List.length_map, List.length_range] at hlength
  omega

theorem sentinelFor_some (h : HasSentinel t) :
    ∃ c, sentinelFor t = some c ∧ c ∉ t ∧ firstSentinel ≤ c.toNat := by
  obtain ⟨k, hk, hfound, hnot⟩ := firstAbsent_some h
  refine ⟨_, hfound, hnot, ?_⟩
  rw [toNat_sentinel hk]
  exact Nat.le_add_right _ _

/-- A character put in the place of another and taken out again. -/
theorem replaceChar_back {old new : Char} (h : new ∉ t) :
    replaceChar new old (replaceChar old new t) = t := by
  unfold replaceChar
  rw [List.map_map]
  conv => rhs; rw [← List.map_id t]
  apply List.map_congr_left
  intro c hc
  show (if (if c = old then new else c) = new then old else if c = old then new else c) = c
  by_cases hold : c = old
  · rw [if_pos hold, if_pos rfl, hold]
  · have hne : c ≠ new := by
      intro he
      rw [he] at hc
      exact h hc
    rw [if_neg hold, if_neg hne]

theorem not_mem_replaceChar {old new : Char} (h : old ≠ new) : old ∉ replaceChar old new t := by
  intro hm
  obtain ⟨c, -, hc⟩ := List.mem_map.mp hm
  by_cases hold : c = old
  · rw [if_pos hold] at hc
    exact h hc.symm
  · rw [if_neg hold] at hc
    exact hold hc

theorem gives_callNetmikoStrip :
    Gives env (callNetmikoStrip removal t) (c, given) (.ok (netmikoStrip removal t))
      (c, t :: given) :=
  gives_assign.bind gives_pure

/-- What Netmiko was given has no insert-line code left after the removal. -/
def Unexpanded (removal : Text → Text) (given : List Text) : Prop :=
  ∀ t ∈ given, insertLines (removal t) = []

/-- The safe text has the codes that Netmiko would expand. -/
theorem gives_safeBuffer (hremoval : IsRemoval removal) (ht : 'L' ∉ t ∨ HasSentinel t) :
    ∃ safe given, Gives env (safeBuffer removal t) (c, []) (.ok safe) (c, given) ∧
      Unexpanded removal given ∧
      (safe = removal t ∨ insertLines safe = [] ∧ insertLines (removal t) = []) := by
  have hkeeps : ∀ u : Text, 'L' ∉ u → insertLines (removal u) = [] := by
    intro u hu
    apply insertLines_of_not_mem
    intro hm
    obtain hm | hm := hremoval.chars u 'L' hm
    · exact hu hm
    · exact absurd hm (by decide)
  by_cases hL : 'L' ∈ t
  · obtain ⟨sentinel, hfound, hnot, hprivate⟩ := sentinelFor_some (ht.resolve_left (not_not.mpr hL))
    have hne : 'L' ≠ sentinel := by
      intro he
      rw [← he] at hprivate
      exact absurd hprivate (by decide)
    have hclean := hkeeps _ (not_mem_replaceChar (t := t) hne)
    have hstripped : netmikoStrip removal (replaceChar 'L' sentinel t) =
        replaceChar 'L' sentinel (removal t) := by
      unfold netmikoStrip
      rw [expandInsertLines_of_none hclean, hremoval.rename t sentinel hprivate hnot]
    have hout : sentinel ∉ removal t := by
      intro hm
      obtain hm | rfl := hremoval.chars t sentinel hm
      · exact hnot hm
      · exact absurd hprivate (by decide)
    refine ⟨removal t, [replaceChar 'L' sentinel t], ?_, ?_, .inl rfl⟩
    · unfold safeBuffer
      rw [if_neg (by simpa using hL), hfound]
      refine gives_callNetmikoStrip.bind ?_
      rw [hstripped, replaceChar_back hout]
      exact gives_pure
    · intro u hu
      rw [List.mem_singleton] at hu
      rw [hu]
      exact hclean
  · refine ⟨t, [], ?_, fun u hu => (by cases hu), .inr ⟨insertLines_of_not_mem hL, hkeeps t hL⟩⟩
    unfold safeBuffer
    rw [if_pos (by simpa using hL)]
    exact gives_pure

/-- Netmiko's output and its charge. -/
def handOn (removal : Text → Text) (t : Text) : Ansi Text := do
  let output ← callNetmikoStrip removal t
  outer (chargeProcessed output.length)
  return output

/-- The first count, if there is one, is not longer than `int` takes. -/
def CountFits (codes : List Text) : Prop :=
  ∀ first ∈ codes.head?, first.length ≤ strDigitsCheckThreshold

/-- Netmiko's output of the text may be handed on. -/
def Affordable (c : BoundedArubaConnection) (removal : Text → Text) (t : Text) : Prop :=
  ((netmikoStrip removal t).length : Int) ≤ processedRemaining c ∧
    CountFits (insertLines (removal t))

theorem gives_handOn :
    (((netmikoStrip removal t).length : Int) ≤ processedRemaining c →
      Gives env (handOn removal t) (c, given) (.ok (netmikoStrip removal t))
        (charged c (netmikoStrip removal t).length, t :: given)) ∧
    (¬ ((netmikoStrip removal t).length : Int) ≤ processedRemaining c →
      Gives env (handOn removal t) (c, given) (.error .outputLimit) (refused c, t :: given)) := by
  constructor
  · intro hle
    apply gives_callNetmikoStrip.bind
    exact (gives_chargeProcessed.1 hle).outer.bind gives_pure
  · intro hover
    apply gives_callNetmikoStrip.bind
    exact (gives_chargeProcessed.2 hover).outer.raise

/-- What has room is Netmiko's output, and its length is charged; for anything else the channel is
poisoned, and Netmiko was given nothing that it would have expanded. -/
theorem ansi_preflight_exact (hremoval : IsRemoval removal)
    (hc : c.boundedChannelPoisoned = false) (henv : ∀ h, env h .binaryOverflow = false)
    (ht : 'L' ∉ t ∨ HasSentinel t) :
    ∃ given,
      (Affordable c removal t →
        Gives env (stripAnsiEscapeCodes removal t) (c, []) (.ok (netmikoStrip removal t))
          (charged c (netmikoStrip removal t).length, given)) ∧
      (¬ Affordable c removal t → Unexpanded removal given ∧
        Gives env (stripAnsiEscapeCodes removal t) (c, []) (.error .outputLimit)
          (refused c, given)) := by
  obtain ⟨safe, given, (hsafe : Gives env _ (c, []) _ _), hunexpanded, hcodes⟩ :=
    gives_safeBuffer hremoval ht
  have hhealthy := (gives_requireHealthy hc henv).outer (t := ([] : List Text))
  cases hsafeCodes : insertLines safe with
  | nil =>
    -- nothing to expand: only the length of the output decides
    have hnone : insertLines (removal t) = [] := by
      obtain rfl | ⟨-, hnone⟩ := hcodes
      · exact hsafeCodes
      · exact hnone
    have hall : Unexpanded removal (t :: given) := by
      intro u hu
      rw [List.mem_cons] at hu
      obtain rfl | hu := hu
      · exact hnone
      · exact hunexpanded u hu
    have hprogram : ∀ r s', Gives env (handOn removal t) (c, given) r s' →
        Gives env (stripAnsiEscapeCodes removal t) (c, []) r s' := by
      intro r s' hr
      apply hhealthy.bind
      apply hsafe.bind
      rw [hsafeCodes]
      exact hr
    have hfits : CountFits (insertLines (removal t)) := by
      intro first hfirst
      rw [hnone] at hfirst
      cases hfirst
    refine ⟨t :: given, fun hafford => hprogram _ _ (gives_handOn.1 hafford.1), fun hnot => ?_⟩
    refine ⟨hall, hprogram _ _ (gives_handOn.2 ?_)⟩
    intro hle
    exact hnot ⟨hle, hfits⟩
  | cons first rest =>
    have hsame : safe = removal t := by
      obtain rfl | ⟨hnone, -⟩ := hcodes
      · rfl
      · rw [hnone] at hsafeCodes
        cases hsafeCodes
    subst hsame
    have hdecision : expansionFits (processedRemaining c) (removal t) (insertLines (removal t))
        first = true ↔ _ := expansionFits_iff hsafeCodes
    rw [hsafeCodes] at hdecision
    have hafford : Affordable c removal t ↔
        expansionFits (processedRemaining c) (removal t) (first :: rest) first = true := by
      rw [hdecision, Affordable, hsafeCodes]
      show _ ∧ (∀ f ∈ some first, _) ↔ _
      simp [netmikoStrip, and_comm]
    have hget : Gives env (get : Ansi (BoundedArubaConnection × List Text)) (c, given)
        (.ok (c, given)) (c, given) := fun h => ⟨h, rfl⟩
    by_cases hfits : expansionFits (processedRemaining c) (removal t) (first :: rest) first = true
    · refine ⟨t :: given, fun _ => ?_, fun hnot => absurd (hafford.mpr hfits) hnot⟩
      apply hhealthy.bind
      apply hsafe.bind
      rw [hsafeCodes]
      apply hget.bind
      show Gives env (if !expansionFits (processedRemaining c) (removal t) (first :: rest) first then
        _ else _) _ _ _
      rw [hfits]
      exact gives_handOn.1 (hafford.mpr hfits).1
    · refine ⟨given, fun hyes => absurd (hafford.mp hyes) hfits, fun _ => ⟨hunexpanded, ?_⟩⟩
      apply hhealthy.bind
      apply hsafe.bind
      rw [hsafeCodes]
      apply hget.bind
      show Gives env (if !expansionFits (processedRemaining c) (removal t) (first :: rest) first then
        _ else _) _ _ _
      rw [Bool.eq_false_iff.mpr hfits]
      exact gives_overBudget.outer.raise

end connection

/-- A switch that has no more to send. -/
def quietSwitch : Environment Transport
  | _, .binaryOverflow => false
  | _, .recvReady => .ok false
  | _, .recv _ => .ok []
  | _, .sendall _ => .ok ()
  | _, .close => .ok ()

theorem isRemoval_id : IsRemoval id := ⟨fun _ _ _ _ => rfl, fun _ _ hc => .inl hc⟩

theorem ansi_preflight_exact_lines :
    ∃ given,
      (Affordable (opened []) id "a\x1b[2Lb" →
        Gives quietSwitch (stripAnsiEscapeCodes id "a\x1b[2Lb") (opened [], [])
          (.ok (netmikoStrip id "a\x1b[2Lb"))
          (charged (opened []) (netmikoStrip id "a\x1b[2Lb").length, given)) ∧
      (¬ Affordable (opened []) id "a\x1b[2Lb" → Unexpanded id given ∧
        Gives quietSwitch (stripAnsiEscapeCodes id "a\x1b[2Lb") (opened [], [])
          (.error .outputLimit) (refused (opened []), given)) :=
  ansi_preflight_exact isRemoval_id rfl (fun _ => rfl) (.inr (hasSentinel_of_length (by decide)))

/-- A text with an L and every private-use character: there is no sentinel, and the search for one
raises on a channel that stays healthy. -/
theorem ansi_preflight_without_sentinel :
    Gives quietSwitch (stripAnsiEscapeCodes id ('L' :: sentinels)) (opened [], [])
      (.error (.other "StopIteration")) (opened [], []) ∧
      (opened []).channel.poisoned = false := by
  have hhealthy : Gives quietSwitch (outer requireHealthy) (opened [], ([] : List Text)) (.ok ())
      (opened [], []) := (gives_requireHealthy rfl fun _ => rfl).outer
  have hnone : sentinelFor ('L' :: sentinels) = none := by
    apply firstAbsent_none
    intro k hk
    exact List.mem_cons_of_mem _ (List.mem_map.mpr ⟨k, List.mem_range.mpr hk, rfl⟩)
  have hsafe : Gives quietSwitch (safeBuffer id ('L' :: sentinels)) (opened [], [])
      (.error (.other "StopIteration")) (opened [], []) := by
    unfold safeBuffer
    rw [if_neg (by simp), hnone]
    exact fun h => ⟨h, rfl⟩
  refine ⟨?_, rfl⟩
  apply hhealthy.bind
  exact hsafe.raise

end ArubaCertRenewer
