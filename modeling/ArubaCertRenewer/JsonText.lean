import ArubaCertRenewer.Opnsense

/- `json.loads`: the scanner for strings, numbers and nested values, and the hook that
   refuses a key given twice.

   The scanners for nested values take fuel, and `scan_enough` says how much never runs
   out. A number with a fraction or an exponent is kept as it was written; a surrogate
   on its own, which a `Char` cannot be, is refused. -/
namespace ArubaCertRenewer
open PyText IpAddress

namespace Json

/-! ## Strings -/

def hexDigit? (c : Char) : Option Nat :=
  if '0' ≤ c && c ≤ '9' then some (c.toNat - 48)
  else if 'a' ≤ c && c ≤ 'f' then some (c.toNat - 87)
  else if 'A' ≤ c && c ≤ 'F' then some (c.toNat - 55)
  else none

def codeUnit? (a b c d : Char) : Option Nat := do
  let a ← hexDigit? a
  let b ← hexDigit? b
  let c ← hexDigit? c
  let d ← hexDigit? d
  return 4096 * a + 256 * b + 16 * c + d

/-- What a character behind a backslash stands for, `u` apart. -/
def unescape? (c : Char) : Option Char :=
  ([('"', '"'), ('\\', '\\'), ('/', '/'), ('b', Char.ofNat 8), ('f', Char.ofNat 12), ('n', '\n'), ('r', '\r'),
    ('t', '\t')] : List (Char × Char)).lookup c

/-- What a string is written as: its characters, and UTF-16 code units that are written out. -/
inductive StringPart where
  | char (c : Char)
  | unit (n : Nat)

/-- The parts up to the closing quote. -/
def scanParts : Text → Option (List StringPart × Text)
  | [] => none
  | c :: t =>
    if c == '"' then some ([], t)
    else if c == '\\' then
      match t with
      | [] => none
      | e :: t =>
        if e == 'u' then
          match t with
          | a :: b :: c :: d :: t => do
            let n ← codeUnit? a b c d
            let (parts, t) ← scanParts t
            return (.unit n :: parts, t)
          | _ => none
        else do
          let c ← unescape? e
          let (parts, t) ← scanParts t
          return (.char c :: parts, t)
    -- a control character may not stand in a string
    else if c.toNat < 32 then none
    else do
      let (parts, t) ← scanParts t
      return (.char c :: parts, t)

def isHigh (n : Nat) : Bool := 0xd800 ≤ n && n ≤ 0xdbff
def isLow (n : Nat) : Bool := 0xdc00 ≤ n && n ≤ 0xdfff

/-- Two code units after another are one character if they are a pair. -/
def joinParts : List StringPart → Option Text
  | [] => some []
  | .char c :: parts => (joinParts parts).map (c :: ·)
  | .unit n :: parts =>
    if isHigh n then
      match parts with
      | .unit m :: parts =>
        if isLow m then
          (joinParts parts).map (Char.ofNat (0x10000 + 1024 * (n - 0xd800) + (m - 0xdc00)) :: ·)
        else none
      | _ => none
    else if isLow n then none
    else (joinParts parts).map (Char.ofNat n :: ·)

def scanString (t : Text) : Option (Text × Text) := do
  let (parts, rest) ← scanParts t
  let s ← joinParts parts
  return (s, rest)

/-! ## Numbers and constants -/

/-- `0|[1-9][0-9]*`. -/
def wholePart : Text → Option (Text × Text)
  | [] => none
  | c :: t =>
    if c == '0' then some ([c], t)
    else if isDecDigit c then some (c :: t.takeWhile isDecDigit, t.dropWhile isDecDigit)
    else none

/-- `(\.[0-9]+)?`, what it matches and the rest. -/
def fractionPart (t : Text) : Text × Text :=
  match t with
  | [] => ([], [])
  | c :: rest =>
    if c == '.' && !(rest.takeWhile isDecDigit).isEmpty then
      (c :: rest.takeWhile isDecDigit, rest.dropWhile isDecDigit)
    else ([], t)

/-- `[+-]?`, what it matches and the rest. -/
def signPart (t : Text) : Text × Text :=
  match t with
  | [] => ([], [])
  | c :: rest => if c == '+' || c == '-' then ([c], rest) else ([], t)

/-- `([eE][+-]?[0-9]+)?`, what it matches and the rest. -/
def exponentPart (t : Text) : Text × Text :=
  match t with
  | [] => ([], [])
  | c :: rest =>
    let (sign, digits) := signPart rest
    if (c == 'e' || c == 'E') && !(digits.takeWhile isDecDigit).isEmpty then
      (c :: sign ++ digits.takeWhile isDecDigit, digits.dropWhile isDecDigit)
    else ([], t)

/-- `sys.int_info.default_max_str_digits`, past which `int` raises a `ValueError`. -/
def maxIntDigits : Nat := 4300

/-- A number without its sign. -/
def scanUnsigned (negative : Bool) (t : Text) : Option (Json × Text) := do
  let (whole, t) ← wholePart t
  let (fraction, t) := fractionPart t
  let (exponent, t) := exponentPart t
  if fraction.isEmpty && exponent.isEmpty then
    if maxIntDigits < whole.length then none
    else
      let n : Int := Nat.ofDigitChars 10 whole 0
      return (.int (if negative then -n else n), t)
  else
    let written := whole ++ fraction ++ exponent
    return (.float (if negative then '-' :: written else written), t)

def scanNumber : Text → Option (Json × Text)
  | [] => none
  | c :: t => if c == '-' then scanUnsigned true t else scanUnsigned false (c :: t)

def constants : List (Text × Json) :=
  [("null", .null), ("true", .bool true), ("false", .bool false), ("NaN", .float "NaN"),
    ("Infinity", .float "Infinity"), ("-Infinity", .float "-Infinity")]

/-- A value that is no string and holds no others. -/
def scanAtom (t : Text) : Option (Json × Text) :=
  match constants.find? fun (word, _) => word.isPrefixOf t with
  | some (word, j) => some (j, t.drop word.length)
  | none => scanNumber t

/-! ## Values -/

def isJsonSpace (c : Char) : Bool := c == ' ' || c == '\t' || c == '\n' || c == '\r'

def skipSpace (t : Text) : Text := t.dropWhile isJsonSpace

mutual

def scanValue : Nat → Text → Option (Json × Text)
  | 0, _ => none
  | _ + 1, [] => none
  | n + 1, c :: t =>
    if c == '"' then do
      let (s, t) ← scanString t
      return (.str s, t)
    else if c == '[' then
      match skipSpace t with
      | [] => none
      | d :: u =>
        if d == ']' then some (.arr [], u)
        else do
          let (items, t) ← scanItems n (d :: u)
          return (.arr items, t)
    else if c == '\x7b' then
      match skipSpace t with
      | [] => none
      | d :: u =>
        if d == '\x7d' then some (.obj [], u)
        else do
          let (members, t) ← scanMembers n (d :: u)
          return (.obj members, t)
    else scanAtom (c :: t)

/-- The items up to the closing bracket. -/
def scanItems : Nat → Text → Option (List Json × Text)
  | 0, _ => none
  | n + 1, t => do
    let (j, t) ← scanValue n t
    match skipSpace t with
    | [] => none
    | c :: t =>
      if c == ']' then return ([j], t)
      -- a bracket right behind a comma is no value, so a trailing comma fails
      else if c == ',' then
        let (items, t) ← scanItems n (skipSpace t)
        return (j :: items, t)
      else none

/-- The members up to the closing brace. -/
def scanMembers : Nat → Text → Option (List (Text × Json) × Text)
  | 0, _ => none
  | _ + 1, [] => none
  | n + 1, q :: t =>
    if q == '"' then do
      let (k, t) ← scanString t
      match skipSpace t with
      | [] => none
      | c :: t =>
        if c == ':' then
          let (j, t) ← scanValue n (skipSpace t)
          match skipSpace t with
          | [] => none
          | c :: t =>
            if c == '\x7d' then return ([(k, j)], t)
            else if c == ',' then
              let (members, t) ← scanMembers n (skipSpace t)
              return ((k, j) :: members, t)
            else none
        else none
    else none

end

/-- Fuel with which the scanners get through a text. -/
def enoughFuel (t : Text) : Nat := 2 * t.length + 2

def loads (t : Text) : Option Json := do
  let (j, rest) ← scanValue (enoughFuel t) (skipSpace t)
  if (skipSpace rest).isEmpty then return j else none

/-! ## Fuel

Each scanner leaves less than it was given, so that no more calls nest than a text has
characters. -/

/-- What is read is at least a character. -/
def Shortens {α : Type} (scan : Text → Option (α × Text)) : Prop :=
  ∀ t a u, scan t = some (a, u) → u.length < t.length

theorem length_of_skipSpace {t u : Text} {c : Char} (h : skipSpace t = c :: u) : u.length < t.length := by
  have hlen : (skipSpace t).length ≤ t.length := (List.dropWhile_suffix _).length_le
  rw [h] at hlen
  exact hlen

theorem length_skipSpace (t : Text) : (skipSpace t).length ≤ t.length := (List.dropWhile_suffix _).length_le

theorem shortens_scanParts : Shortens scanParts := by
  intro t
  fun_induction scanParts t with
  | case1 | case3 | case5 | case7 => exact fun _ _ h => by cases h
  | case2 c t hc =>
    intro parts u h
    cases h
    exact Nat.lt_succ_self _
  | case4 c hc hb e he a b c' d t ih =>
    intro parts u h
    simp only [Option.bind_eq_bind, Option.bind_eq_some_iff] at h
    obtain ⟨n, -, ⟨more, v⟩, hmore, hv⟩ := h
    cases hv
    have := ih more _ hmore
    simp only [List.length_cons]
    omega
  | case6 c hc hb e t he ih =>
    intro parts u h
    simp only [Option.bind_eq_bind, Option.bind_eq_some_iff] at h
    obtain ⟨d, -, ⟨more, v⟩, hmore, hv⟩ := h
    cases hv
    exact Nat.lt_succ_of_lt (Nat.lt_succ_of_lt (ih more _ hmore))
  | case8 c t hc hb hlow ih =>
    intro parts u h
    simp only [Option.bind_eq_bind, Option.bind_eq_some_iff] at h
    obtain ⟨⟨more, v⟩, hmore, hv⟩ := h
    cases hv
    exact Nat.lt_succ_of_lt (ih more _ hmore)

theorem shortens_scanString : Shortens scanString := by
  intro t s u h
  simp only [scanString, Option.bind_eq_bind, Option.bind_eq_some_iff] at h
  obtain ⟨⟨parts, v⟩, hparts, s', -, hu⟩ := h
  cases hu
  exact shortens_scanParts t parts _ hparts

theorem shortens_wholePart : Shortens wholePart := by
  intro t w u h
  cases t with
  | nil => cases h
  | cons c t =>
    rw [wholePart] at h
    split at h
    · cases h
      exact Nat.lt_succ_self _
    split at h
    · cases h
      exact Nat.lt_succ_of_le (List.dropWhile_suffix _).length_le
    · cases h

theorem length_fractionPart (t : Text) : (fractionPart t).2.length ≤ t.length := by
  cases t with
  | nil => exact Nat.le_refl _
  | cons c t =>
    rw [fractionPart]
    split
    · exact Nat.le_succ_of_le (List.dropWhile_suffix _).length_le
    · exact Nat.le_refl _

theorem length_signPart (t : Text) : (signPart t).2.length ≤ t.length := by
  cases t with
  | nil => exact Nat.le_refl _
  | cons c t =>
    rw [signPart]
    split
    · exact Nat.le_succ _
    · exact Nat.le_refl _

theorem length_exponentPart (t : Text) : (exponentPart t).2.length ≤ t.length := by
  cases t with
  | nil => exact Nat.le_refl _
  | cons c t =>
    rw [exponentPart]
    dsimp only
    split
    · exact Nat.le_succ_of_le ((List.dropWhile_suffix _).length_le.trans (length_signPart t))
    · exact Nat.le_refl _

theorem shortens_scanUnsigned (negative : Bool) : Shortens (scanUnsigned negative) := by
  intro t j u h
  simp only [scanUnsigned, Option.bind_eq_bind, Option.bind_eq_some_iff] at h
  obtain ⟨⟨w, v⟩, hw, h⟩ := h
  have hwhole := shortens_wholePart t w v hw
  have hfraction := length_fractionPart v
  have hexponent := length_exponentPart (fractionPart v).2
  have hu : u = (exponentPart (fractionPart v).2).2 := by
    split at h
    · split at h
      · cases h
      · exact (congrArg Prod.snd (Option.some.inj h)).symm
    · exact (congrArg Prod.snd (Option.some.inj h)).symm
  rw [hu]
  omega

theorem shortens_scanAtom : Shortens scanAtom := by
  intro t j u h
  rw [scanAtom] at h
  split at h
  · next word j' hfound =>
    cases h
    -- no constant is the empty word
    have hword : word.isPrefixOf t = true := List.find?_some (p := fun x : Text × Json => x.1.isPrefixOf t) hfound
    have hprefix := (List.isPrefixOf_iff_prefix.mp hword).length_le
    have hne : ∀ x ∈ constants, 0 < x.1.length := by decide
    have hpos : 0 < word.length := hne _ (List.mem_of_find?_eq_some hfound)
    rw [List.length_drop]
    omega
  · cases t with
    | nil => cases h
    | cons c t =>
      rw [scanNumber] at h
      split at h
      · exact Nat.lt_succ_of_lt (shortens_scanUnsigned _ t j u h)
      · exact shortens_scanUnsigned _ _ j u h

section nested
variable {n : Nat}

theorem shortens_scanValue_succ (hitems : Shortens (scanItems n)) (hmembers : Shortens (scanMembers n)) :
    Shortens (scanValue (n + 1)) := by
  intro t j u h
  cases t with
  | nil =>
    rw [scanValue] at h
    cases h
  | cons c t =>
    have hspace := length_skipSpace t
    rw [scanValue] at h
    split at h
    · simp only [Option.bind_eq_bind, Option.bind_eq_some_iff] at h
      obtain ⟨⟨s, v⟩, hs, hv⟩ := h
      cases hv
      exact Nat.lt_succ_of_lt (shortens_scanString t s _ hs)
    split at h
    · split at h
      · cases h
      · next d v hskip =>
        rw [hskip] at hspace
        split at h
        · cases h
          exact Nat.lt_succ_of_lt hspace
        · simp only [Option.bind_eq_bind, Option.bind_eq_some_iff] at h
          obtain ⟨⟨items, w⟩, hw, hu⟩ := h
          cases hu
          exact Nat.lt_succ_of_lt ((hitems _ items _ hw).trans_le hspace)
    split at h
    · split at h
      · cases h
      · next d v hskip =>
        rw [hskip] at hspace
        split at h
        · cases h
          exact Nat.lt_succ_of_lt hspace
        · simp only [Option.bind_eq_bind, Option.bind_eq_some_iff] at h
          obtain ⟨⟨members, w⟩, hw, hu⟩ := h
          cases hu
          exact Nat.lt_succ_of_lt ((hmembers _ members _ hw).trans_le hspace)
    · exact shortens_scanAtom _ j u h

theorem shortens_scanItems_succ (hvalue : Shortens (scanValue n)) (hitems : Shortens (scanItems n)) :
    Shortens (scanItems (n + 1)) := by
  intro t items u h
  rw [scanItems] at h
  simp only [Option.bind_eq_bind, Option.bind_eq_some_iff] at h
  obtain ⟨⟨j, v⟩, hj, h⟩ := h
  have hfirst := hvalue t j v hj
  dsimp only at h
  split at h
  · cases h
  · next c w hskip =>
    have hlen := length_of_skipSpace hskip
    split at h
    · cases h
      exact hlen.trans hfirst
    split at h
    · simp only [Option.bind_eq_some_iff] at h
      obtain ⟨⟨more, x⟩, hmore, hx⟩ := h
      cases hx
      exact (hitems _ more _ hmore).trans_le ((length_skipSpace w).trans (hlen.trans hfirst).le)
    · cases h

theorem shortens_scanMembers_succ (hvalue : Shortens (scanValue n)) (hmembers : Shortens (scanMembers n)) :
    Shortens (scanMembers (n + 1)) := by
  intro t members u h
  cases t with
  | nil =>
    rw [scanMembers] at h
    cases h
  | cons q t =>
    rw [scanMembers] at h
    split at h
    · simp only [Option.bind_eq_bind, Option.bind_eq_some_iff] at h
      obtain ⟨⟨k, v⟩, hk, h⟩ := h
      have hkey := shortens_scanString t k v hk
      dsimp only at h
      split at h
      · cases h
      · next c w hskip =>
        have hcolon := length_of_skipSpace hskip
        split at h
        · simp only [Option.bind_eq_some_iff] at h
          obtain ⟨⟨j, x⟩, hj, h⟩ := h
          have hlen := (hvalue _ j x hj).trans_le (length_skipSpace w)
          dsimp only at h
          split at h
          · cases h
          · next c y hskip' =>
            have hend := length_of_skipSpace hskip'
            rw [List.length_cons]
            split at h
            · cases h
              omega
            split at h
            · simp only [Option.bind_eq_some_iff] at h
              obtain ⟨⟨more, z⟩, hmore, hz⟩ := h
              cases hz
              have hrest : z.length < y.length := (hmembers _ more _ hmore).trans_le (length_skipSpace y)
              change z.length < t.length + 1
              omega
            · cases h
        · cases h
    · cases h

end nested

theorem shortens_scan (n : Nat) : Shortens (scanValue n) ∧ Shortens (scanItems n) ∧ Shortens (scanMembers n) := by
  induction n with
  | zero =>
    refine ⟨fun t _ _ h => ?_, fun t _ _ h => ?_, fun t _ _ h => ?_⟩
    · rw [scanValue] at h
      cases h
    · rw [scanItems] at h
      cases h
    · rw [scanMembers] at h
      cases h
  | succ n ih =>
    obtain ⟨hvalue, hitems, hmembers⟩ := ih
    exact ⟨shortens_scanValue_succ hitems hmembers, shortens_scanItems_succ hvalue hitems,
      shortens_scanMembers_succ hvalue hmembers⟩

section enough
variable {n : Nat} {t : Text}

theorem scanValue_enough (hitems : ∀ t, 2 * t.length + 2 ≤ n → scanItems (n + 1) t = scanItems n t)
    (hmembers : ∀ t, 2 * t.length + 2 ≤ n → scanMembers (n + 1) t = scanMembers n t)
    (ht : 2 * t.length + 1 ≤ n + 1) : scanValue (n + 2) t = scanValue (n + 1) t := by
  cases t with
  | nil => rw [scanValue, scanValue]
  | cons c t =>
    rw [List.length_cons] at ht
    -- the bracket that was read pays for the level below
    have hlen := length_skipSpace t
    rw [scanValue, scanValue]
    split
    · rfl
    split
    · split
      · rfl
      · next d u hskip =>
        rw [hskip] at hlen
        rw [hitems (d :: u) (by omega)]
    split
    · split
      · rfl
      · next d u hskip =>
        rw [hskip] at hlen
        rw [hmembers (d :: u) (by omega)]
    · rfl

theorem scanItems_enough (hvalue : ∀ t, 2 * t.length + 1 ≤ n → scanValue (n + 1) t = scanValue n t)
    (hitems : ∀ t, 2 * t.length + 2 ≤ n → scanItems (n + 1) t = scanItems n t)
    (ht : 2 * t.length + 2 ≤ n + 1) : scanItems (n + 2) t = scanItems (n + 1) t := by
  rw [scanItems, scanItems, hvalue t (by omega)]
  cases hj : scanValue n t with
  | none => rfl
  | some p =>
    obtain ⟨j, u⟩ := p
    have hrest := (shortens_scan n).1 t j u hj
    simp only [Option.bind_eq_bind, Option.bind_some]
    split
    · rfl
    · next c v hskip =>
      have hlen := length_of_skipSpace hskip
      have hspace := length_skipSpace v
      rw [hitems (skipSpace v) (by omega)]

theorem scanMembers_enough (hvalue : ∀ t, 2 * t.length + 1 ≤ n → scanValue (n + 1) t = scanValue n t)
    (hmembers : ∀ t, 2 * t.length + 2 ≤ n → scanMembers (n + 1) t = scanMembers n t)
    (ht : 2 * t.length + 2 ≤ n + 1) : scanMembers (n + 2) t = scanMembers (n + 1) t := by
  cases t with
  | nil => rw [scanMembers, scanMembers]
  | cons q t =>
    rw [List.length_cons] at ht
    rw [scanMembers, scanMembers]
    split
    · cases hk : scanString t with
      | none => rfl
      | some p =>
        obtain ⟨k, u⟩ := p
        have hkey := shortens_scanString t k u hk
        simp only [Option.bind_eq_bind, Option.bind_some]
        split
        · rfl
        · next c v hskip =>
          have hcolon := length_of_skipSpace hskip
          have hspace := length_skipSpace v
          rw [hvalue (skipSpace v) (by omega)]
          cases hj : scanValue n (skipSpace v) with
          | none => rfl
          | some p =>
            obtain ⟨j, w⟩ := p
            have hrest := (shortens_scan n).1 _ j w hj
            simp only [Option.bind_some]
            split
            · split
              · rfl
              · next d x hskip' =>
                have hend := length_of_skipSpace hskip'
                have hspace' := length_skipSpace x
                rw [hmembers (skipSpace x) (by omega)]
            · rfl
    · rfl

end enough

/-- With so much fuel, more changes nothing. -/
theorem scan_enough (n : Nat) :
    (∀ t, 2 * t.length + 1 ≤ n → scanValue (n + 1) t = scanValue n t) ∧
      (∀ t, 2 * t.length + 2 ≤ n → scanItems (n + 1) t = scanItems n t) ∧
        ∀ t, 2 * t.length + 2 ≤ n → scanMembers (n + 1) t = scanMembers n t := by
  induction n with
  | zero => exact ⟨fun t h => by omega, fun t h => by omega, fun t h => by omega⟩
  | succ n ih =>
    obtain ⟨hvalue, hitems, hmembers⟩ := ih
    exact ⟨fun t => scanValue_enough hitems hmembers, fun t => scanItems_enough hvalue hitems,
      fun t => scanMembers_enough hvalue hmembers⟩

/-- What `loads` reads does not depend on the fuel it was given. -/
theorem scanValue_enoughFuel {n : Nat} {t : Text} (hn : enoughFuel t ≤ n) :
    scanValue n t = scanValue (enoughFuel t) t := by
  induction n, hn using Nat.le_induction with
  | base => rfl
  | succ n hn ih => rw [(scan_enough n).1 t (Nat.le_of_succ_le hn), ih]

/-! ## Duplicate keys -/

mutual

/-- No object has a key twice, so that its members are a `dict`. -/
def distinctKeys : Json → Bool
  | arr items => distinctKeysItems items
  | obj members => (members.map Prod.fst).Nodup && distinctKeysMembers members
  | _ => true

def distinctKeysItems : List Json → Bool
  | [] => true
  | j :: js => distinctKeys j && distinctKeysItems js

def distinctKeysMembers : List (Text × Json) → Bool
  | [] => true
  | (_, j) :: js => distinctKeys j && distinctKeysMembers js

end

/-- `json.loads` with the hook that raises when a key is given twice. -/
def loadsUnique (t : Text) : Option Json := (loads t).filter distinctKeys

end Json

end ArubaCertRenewer
