import Mathlib.Data.List.Basic

/- Strings as Python's `str` sees them: lists of characters, with the Unicode
   tables that `str.isspace`, `str.casefold`, `unicodedata.decimal` and the
   `re` module read (Unicode 16, as in CPython 3.14). -/
namespace PyText

abbrev Text := List Char
abbrev Bytes := List UInt8

instance : Coe String Text := ⟨String.toList⟩

/-- `data.decode("utf-8")`; `none` is its `UnicodeDecodeError`. -/
def decodeUtf8 (data : Bytes) : Option Text := (String.fromUTF8? ⟨data.toArray⟩).map String.toList

/-- `data.decode("ascii")`. -/
def decodeAscii (data : Bytes) : Option Text :=
  if data.all (· < 128) then some (data.map fun b => Char.ofNat b.toNat) else none

/-- `text.encode("ascii")`; `none` is its `UnicodeEncodeError`. -/
def encodeAscii (t : Text) : Option Bytes :=
  if t.all (·.toNat < 128) then some (t.map fun c => c.toNat.toUInt8) else none

/-- `len(text.encode("utf-8"))`. -/
def utf8Length : Text → Nat
  | [] => 0
  | c :: t => c.utf8Size + utf8Length t

def isAscii (t : Text) : Bool := t.all (·.toNat < 128)

/-- `str.isspace` of one character, which is also what `\s` matches. -/
def isSpace (c : Char) : Bool :=
  let n := c.toNat
  (9 ≤ n && n ≤ 13) || (28 ≤ n && n ≤ 32) || n == 0x85 || n == 0xa0 || n == 0x1680 ||
    (0x2000 ≤ n && n ≤ 0x200a) || n == 0x2028 || n == 0x2029 || n == 0x202f || n == 0x205f ||
    n == 0x3000

def rstrip (t : Text) : Text := (t.reverse.dropWhile isSpace).reverse
def strip (t : Text) : Text := rstrip (t.dropWhile isSpace)
def endsWith (t suffix : Text) : Bool := suffix.isSuffixOf t

/-- ASCII lower case: `str.lower` on ASCII text. -/
def lowerAscii (c : Char) : Char := if 'A' ≤ c ∧ c ≤ 'Z' then Char.ofNat (c.toNat + 32) else c

/-- Runs `(first, count, stride, shift)` of code points that fold to one code point. -/
def caseFoldRuns : List (Nat × Nat × Nat × Int) :=
  [(0xb5, 1, 1, 775), (0xc0, 23, 1, 32), (0xd8, 7, 1, 32), (0x100, 24, 2, 1), (0x132, 3, 2, 1),
    (0x139, 8, 2, 1), (0x14a, 23, 2, 1), (0x178, 1, 1, -121), (0x179, 3, 2, 1),
    (0x17f, 1, 1, -268), (0x181, 1, 1, 210), (0x182, 2, 2, 1), (0x186, 1, 1, 206),
    (0x187, 1, 1, 1), (0x189, 2, 1, 205), (0x18b, 1, 1, 1), (0x18e, 1, 1, 79), (0x18f, 1, 1, 202),
    (0x190, 1, 1, 203), (0x191, 1, 1, 1), (0x193, 1, 1, 205), (0x194, 1, 1, 207),
    (0x196, 1, 1, 211), (0x197, 1, 1, 209), (0x198, 1, 1, 1), (0x19c, 1, 1, 211),
    (0x19d, 1, 1, 213), (0x19f, 1, 1, 214), (0x1a0, 3, 2, 1), (0x1a6, 1, 1, 218), (0x1a7, 1, 1, 1),
    (0x1a9, 1, 1, 218), (0x1ac, 1, 1, 1), (0x1ae, 1, 1, 218), (0x1af, 1, 1, 1), (0x1b1, 2, 1, 217),
    (0x1b3, 2, 2, 1), (0x1b7, 1, 1, 219), (0x1b8, 1, 1, 1), (0x1bc, 1, 1, 1), (0x1c4, 1, 1, 2),
    (0x1c5, 1, 1, 1), (0x1c7, 1, 1, 2), (0x1c8, 1, 1, 1), (0x1ca, 1, 1, 2), (0x1cb, 9, 2, 1),
    (0x1de, 9, 2, 1), (0x1f1, 1, 1, 2), (0x1f2, 2, 2, 1), (0x1f6, 1, 1, -97), (0x1f7, 1, 1, -56),
    (0x1f8, 20, 2, 1), (0x220, 1, 1, -130), (0x222, 9, 2, 1), (0x23a, 1, 1, 10795),
    (0x23b, 1, 1, 1), (0x23d, 1, 1, -163), (0x23e, 1, 1, 10792), (0x241, 1, 1, 1),
    (0x243, 1, 1, -195), (0x244, 1, 1, 69), (0x245, 1, 1, 71), (0x246, 5, 2, 1),
    (0x345, 1, 1, 116), (0x370, 2, 2, 1), (0x376, 1, 1, 1), (0x37f, 1, 1, 116), (0x386, 1, 1, 38),
    (0x388, 3, 1, 37), (0x38c, 1, 1, 64), (0x38e, 2, 1, 63), (0x391, 17, 1, 32), (0x3a3, 9, 1, 32),
    (0x3c2, 1, 1, 1), (0x3cf, 1, 1, 8), (0x3d0, 1, 1, -30), (0x3d1, 1, 1, -25), (0x3d5, 1, 1, -15),
    (0x3d6, 1, 1, -22), (0x3d8, 12, 2, 1), (0x3f0, 1, 1, -54), (0x3f1, 1, 1, -48),
    (0x3f4, 1, 1, -60), (0x3f5, 1, 1, -64), (0x3f7, 1, 1, 1), (0x3f9, 1, 1, -7), (0x3fa, 1, 1, 1),
    (0x3fd, 3, 1, -130), (0x400, 16, 1, 80), (0x410, 32, 1, 32), (0x460, 17, 2, 1),
    (0x48a, 27, 2, 1), (0x4c0, 1, 1, 15), (0x4c1, 7, 2, 1), (0x4d0, 48, 2, 1), (0x531, 38, 1, 48),
    (0x10a0, 38, 1, 7264), (0x10c7, 1, 1, 7264), (0x10cd, 1, 1, 7264), (0x13f8, 6, 1, -8),
    (0x1c80, 1, 1, -6222), (0x1c81, 1, 1, -6221), (0x1c82, 1, 1, -6212), (0x1c83, 2, 1, -6210),
    (0x1c85, 1, 1, -6211), (0x1c86, 1, 1, -6204), (0x1c87, 1, 1, -6180), (0x1c88, 1, 1, 35267),
    (0x1c89, 1, 1, 1), (0x1c90, 43, 1, -3008), (0x1cbd, 3, 1, -3008), (0x1e00, 75, 2, 1),
    (0x1e9b, 1, 1, -58), (0x1ea0, 48, 2, 1), (0x1f08, 8, 1, -8), (0x1f18, 6, 1, -8),
    (0x1f28, 8, 1, -8), (0x1f38, 8, 1, -8), (0x1f48, 6, 1, -8), (0x1f59, 4, 2, -8),
    (0x1f68, 8, 1, -8), (0x1fb8, 2, 1, -8), (0x1fba, 2, 1, -74), (0x1fbe, 1, 1, -7173),
    (0x1fc8, 4, 1, -86), (0x1fd8, 2, 1, -8), (0x1fda, 2, 1, -100), (0x1fe8, 2, 1, -8),
    (0x1fea, 2, 1, -112), (0x1fec, 1, 1, -7), (0x1ff8, 2, 1, -128), (0x1ffa, 2, 1, -126),
    (0x2126, 1, 1, -7517), (0x212a, 1, 1, -8383), (0x212b, 1, 1, -8262), (0x2132, 1, 1, 28),
    (0x2160, 16, 1, 16), (0x2183, 1, 1, 1), (0x24b6, 26, 1, 26), (0x2c00, 48, 1, 48),
    (0x2c60, 1, 1, 1), (0x2c62, 1, 1, -10743), (0x2c63, 1, 1, -3814), (0x2c64, 1, 1, -10727),
    (0x2c67, 3, 2, 1), (0x2c6d, 1, 1, -10780), (0x2c6e, 1, 1, -10749), (0x2c6f, 1, 1, -10783),
    (0x2c70, 1, 1, -10782), (0x2c72, 1, 1, 1), (0x2c75, 1, 1, 1), (0x2c7e, 2, 1, -10815),
    (0x2c80, 50, 2, 1), (0x2ceb, 2, 2, 1), (0x2cf2, 1, 1, 1), (0xa640, 23, 2, 1),
    (0xa680, 14, 2, 1), (0xa722, 7, 2, 1), (0xa732, 31, 2, 1), (0xa779, 2, 2, 1),
    (0xa77d, 1, 1, -35332), (0xa77e, 5, 2, 1), (0xa78b, 1, 1, 1), (0xa78d, 1, 1, -42280),
    (0xa790, 2, 2, 1), (0xa796, 10, 2, 1), (0xa7aa, 1, 1, -42308), (0xa7ab, 1, 1, -42319),
    (0xa7ac, 1, 1, -42315), (0xa7ad, 1, 1, -42305), (0xa7ae, 1, 1, -42308), (0xa7b0, 1, 1, -42258),
    (0xa7b1, 1, 1, -42282), (0xa7b2, 1, 1, -42261), (0xa7b3, 1, 1, 928), (0xa7b4, 8, 2, 1),
    (0xa7c4, 1, 1, -48), (0xa7c5, 1, 1, -42307), (0xa7c6, 1, 1, -35384), (0xa7c7, 2, 2, 1),
    (0xa7cb, 1, 1, -42343), (0xa7cc, 1, 1, 1), (0xa7d0, 1, 1, 1), (0xa7d6, 3, 2, 1),
    (0xa7dc, 1, 1, -42561), (0xa7f5, 1, 1, 1), (0xab70, 80, 1, -38864), (0xff21, 26, 1, 32),
    (0x10400, 40, 1, 40), (0x104b0, 36, 1, 40), (0x10570, 11, 1, 39), (0x1057c, 15, 1, 39),
    (0x1058c, 7, 1, 39), (0x10594, 2, 1, 39), (0x10c80, 51, 1, 64), (0x10d50, 22, 1, 32),
    (0x118a0, 32, 1, 32), (0x16e40, 32, 1, 32), (0x1e900, 34, 1, 34)]

/-- The code points that fold to several. -/
def caseFoldFull : List (Nat × List Nat) :=
  [(0xdf, [0x73, 0x73]), (0x130, [0x69, 0x307]), (0x149, [0x2bc, 0x6e]), (0x1f0, [0x6a, 0x30c]),
    (0x390, [0x3b9, 0x308, 0x301]), (0x3b0, [0x3c5, 0x308, 0x301]), (0x587, [0x565, 0x582]),
    (0x1e96, [0x68, 0x331]), (0x1e97, [0x74, 0x308]), (0x1e98, [0x77, 0x30a]),
    (0x1e99, [0x79, 0x30a]), (0x1e9a, [0x61, 0x2be]), (0x1e9e, [0x73, 0x73]),
    (0x1f50, [0x3c5, 0x313]), (0x1f52, [0x3c5, 0x313, 0x300]), (0x1f54, [0x3c5, 0x313, 0x301]),
    (0x1f56, [0x3c5, 0x313, 0x342]), (0x1f80, [0x1f00, 0x3b9]), (0x1f81, [0x1f01, 0x3b9]),
    (0x1f82, [0x1f02, 0x3b9]), (0x1f83, [0x1f03, 0x3b9]), (0x1f84, [0x1f04, 0x3b9]),
    (0x1f85, [0x1f05, 0x3b9]), (0x1f86, [0x1f06, 0x3b9]), (0x1f87, [0x1f07, 0x3b9]),
    (0x1f88, [0x1f00, 0x3b9]), (0x1f89, [0x1f01, 0x3b9]), (0x1f8a, [0x1f02, 0x3b9]),
    (0x1f8b, [0x1f03, 0x3b9]), (0x1f8c, [0x1f04, 0x3b9]), (0x1f8d, [0x1f05, 0x3b9]),
    (0x1f8e, [0x1f06, 0x3b9]), (0x1f8f, [0x1f07, 0x3b9]), (0x1f90, [0x1f20, 0x3b9]),
    (0x1f91, [0x1f21, 0x3b9]), (0x1f92, [0x1f22, 0x3b9]), (0x1f93, [0x1f23, 0x3b9]),
    (0x1f94, [0x1f24, 0x3b9]), (0x1f95, [0x1f25, 0x3b9]), (0x1f96, [0x1f26, 0x3b9]),
    (0x1f97, [0x1f27, 0x3b9]), (0x1f98, [0x1f20, 0x3b9]), (0x1f99, [0x1f21, 0x3b9]),
    (0x1f9a, [0x1f22, 0x3b9]), (0x1f9b, [0x1f23, 0x3b9]), (0x1f9c, [0x1f24, 0x3b9]),
    (0x1f9d, [0x1f25, 0x3b9]), (0x1f9e, [0x1f26, 0x3b9]), (0x1f9f, [0x1f27, 0x3b9]),
    (0x1fa0, [0x1f60, 0x3b9]), (0x1fa1, [0x1f61, 0x3b9]), (0x1fa2, [0x1f62, 0x3b9]),
    (0x1fa3, [0x1f63, 0x3b9]), (0x1fa4, [0x1f64, 0x3b9]), (0x1fa5, [0x1f65, 0x3b9]),
    (0x1fa6, [0x1f66, 0x3b9]), (0x1fa7, [0x1f67, 0x3b9]), (0x1fa8, [0x1f60, 0x3b9]),
    (0x1fa9, [0x1f61, 0x3b9]), (0x1faa, [0x1f62, 0x3b9]), (0x1fab, [0x1f63, 0x3b9]),
    (0x1fac, [0x1f64, 0x3b9]), (0x1fad, [0x1f65, 0x3b9]), (0x1fae, [0x1f66, 0x3b9]),
    (0x1faf, [0x1f67, 0x3b9]), (0x1fb2, [0x1f70, 0x3b9]), (0x1fb3, [0x3b1, 0x3b9]),
    (0x1fb4, [0x3ac, 0x3b9]), (0x1fb6, [0x3b1, 0x342]), (0x1fb7, [0x3b1, 0x342, 0x3b9]),
    (0x1fbc, [0x3b1, 0x3b9]), (0x1fc2, [0x1f74, 0x3b9]), (0x1fc3, [0x3b7, 0x3b9]),
    (0x1fc4, [0x3ae, 0x3b9]), (0x1fc6, [0x3b7, 0x342]), (0x1fc7, [0x3b7, 0x342, 0x3b9]),
    (0x1fcc, [0x3b7, 0x3b9]), (0x1fd2, [0x3b9, 0x308, 0x300]), (0x1fd3, [0x3b9, 0x308, 0x301]),
    (0x1fd6, [0x3b9, 0x342]), (0x1fd7, [0x3b9, 0x308, 0x342]), (0x1fe2, [0x3c5, 0x308, 0x300]),
    (0x1fe3, [0x3c5, 0x308, 0x301]), (0x1fe4, [0x3c1, 0x313]), (0x1fe6, [0x3c5, 0x342]),
    (0x1fe7, [0x3c5, 0x308, 0x342]), (0x1ff2, [0x1f7c, 0x3b9]), (0x1ff3, [0x3c9, 0x3b9]),
    (0x1ff4, [0x3ce, 0x3b9]), (0x1ff6, [0x3c9, 0x342]), (0x1ff7, [0x3c9, 0x342, 0x3b9]),
    (0x1ffc, [0x3c9, 0x3b9]), (0xfb00, [0x66, 0x66]), (0xfb01, [0x66, 0x69]),
    (0xfb02, [0x66, 0x6c]), (0xfb03, [0x66, 0x66, 0x69]), (0xfb04, [0x66, 0x66, 0x6c]),
    (0xfb05, [0x73, 0x74]), (0xfb06, [0x73, 0x74]), (0xfb13, [0x574, 0x576]),
    (0xfb14, [0x574, 0x565]), (0xfb15, [0x574, 0x56b]), (0xfb16, [0x57e, 0x576]),
    (0xfb17, [0x574, 0x56d])]

def casefoldChar (c : Char) : Text :=
  let n := c.toNat
  if n < 128 then [lowerAscii c]
  else match caseFoldFull.find? (·.1 == n) with
    | some (_, ns) => ns.map Char.ofNat
    | none =>
      match caseFoldRuns.find? fun (a, k, st, _) => a ≤ n && n < a + k * st && (n - a) % st == 0 with
      | some (_, _, _, d) => [Char.ofNat (n + d).toNat]
      | none => [c]

/-- `str.casefold`. -/
def casefold (t : Text) : Text := t.flatMap casefoldChar

/-- The zeros of the decimal digit systems (category Nd, ten code points each). -/
def decimalZeros : List Nat :=
  [0x30, 0x660, 0x6f0, 0x7c0, 0x966, 0x9e6, 0xa66, 0xae6, 0xb66, 0xbe6, 0xc66, 0xce6, 0xd66,
    0xde6, 0xe50, 0xed0, 0xf20, 0x1040, 0x1090, 0x17e0, 0x1810, 0x1946, 0x19d0, 0x1a80, 0x1a90,
    0x1b50, 0x1bb0, 0x1c40, 0x1c50, 0xa620, 0xa8d0, 0xa900, 0xa9d0, 0xa9f0, 0xaa50, 0xabf0, 0xff10,
    0x104a0, 0x10d30, 0x10d40, 0x11066, 0x110f0, 0x11136, 0x111d0, 0x112f0, 0x11450, 0x114d0,
    0x11650, 0x116c0, 0x116d0, 0x116da, 0x11730, 0x118e0, 0x11950, 0x11bf0, 0x11c50, 0x11d50,
    0x11da0, 0x11f50, 0x16130, 0x16a60, 0x16ac0, 0x16b50, 0x16d70, 0x1ccf0, 0x1d7ce, 0x1d7d8,
    0x1d7e2, 0x1d7ec, 0x1d7f6, 0x1e140, 0x1e2f0, 0x1e4f0, 0x1e5f1, 0x1e950, 0x1fbf0]

/-- `unicodedata.decimal`; defined exactly on what `\d` matches. -/
def decimal? (c : Char) : Option Nat :=
  (decimalZeros.find? fun z => z ≤ c.toNat && c.toNat < z + 10).map (c.toNat - ·)

def isDigit (c : Char) : Bool := (decimal? c).isSome

/-- `int` of a text of decimal digits. -/
def digitsValue (t : Text) : Nat := t.foldl (fun n c => 10 * n + (decimal? c).getD 0) 0

/-- `sep.join(parts)`. -/
def join (sep : Text) : List Text → Text
  | [] => []
  | [p] => p
  | p :: ps => p ++ sep ++ join sep ps

/-- `str(n)`. -/
def ofNat (n : Nat) : Text := (toString n).toList
def ofInt (n : Int) : Text := (toString n).toList

/-- `text.split(sep)` for a one-character separator. -/
def splitOn (sep : Char) : Text → List Text
  | [] => [[]]
  | c :: cs =>
    match splitOn sep cs with
    | [] => [[c]]
    | p :: ps => if c == sep then [] :: p :: ps else (c :: p) :: ps

theorem splitOn_cons_sep (sep : Char) (t : Text) : splitOn sep (sep :: t) = [] :: splitOn sep t := by
  cases h : splitOn sep t with
  | nil => cases t <;> simp only [splitOn] at h <;> repeat (first | contradiction | split at h)
  | cons p ps => simp [splitOn, h]

theorem splitOn_ne_nil (sep : Char) (t : Text) : splitOn sep t ≠ [] := by
  cases t with
  | nil => simp [splitOn]
  | cons c cs =>
    simp only [splitOn]
    split
    · simp
    · split <;> simp

theorem splitOn_cons_ne {sep c : Char} (hc : c ≠ sep) {t p : Text} {ps : List Text}
    (ht : splitOn sep t = p :: ps) : splitOn sep (c :: t) = (c :: p) :: ps := by
  simp [splitOn, ht, hc]

/-- A part is read off at the first separator. -/
theorem splitOn_append_sep {sep : Char} {p : Text} (hp : sep ∉ p) (t : Text) :
    splitOn sep (p ++ sep :: t) = p :: splitOn sep t := by
  induction p with
  | nil => exact splitOn_cons_sep sep t
  | cons c cs ih =>
    rw [List.mem_cons, not_or] at hp
    exact splitOn_cons_ne (Ne.symm hp.1) (ih hp.2)

theorem splitOn_of_not_mem {sep : Char} {p : Text} (hp : sep ∉ p) : splitOn sep p = [p] := by
  induction p with
  | nil => rfl
  | cons c cs ih =>
    rw [List.mem_cons, not_or] at hp
    exact splitOn_cons_ne (Ne.symm hp.1) (ih hp.2)

/-- Splitting a joined text gives its parts back. -/
theorem splitOn_join {sep : Char} {p : Text} {ps : List Text} (hp : ∀ q ∈ p :: ps, sep ∉ q) :
    splitOn sep (join [sep] (p :: ps)) = p :: ps := by
  induction ps generalizing p with
  | nil => exact splitOn_of_not_mem (hp p (by simp))
  | cons q qs ih =>
    have hq := ih fun r hr => hp r (List.mem_cons_of_mem _ hr)
    show splitOn sep (p ++ [sep] ++ join [sep] (q :: qs)) = _
    rw [List.append_assoc, List.singleton_append, splitOn_append_sep (hp p (by simp)), hq]

/-- Mapping characters maps the parts, when no other character becomes the separator. -/
theorem splitOn_map {sep : Char} {f : Char → Char} (hf : ∀ c, f c = sep ↔ c = sep) (t : Text) :
    splitOn sep (t.map f) = (splitOn sep t).map (List.map f) := by
  induction t with
  | nil => rfl
  | cons c t ih =>
    by_cases hc : c = sep
    · subst hc
      rw [List.map_cons, (hf c).mpr rfl, splitOn_cons_sep, splitOn_cons_sep, ih]
      rfl
    · obtain ⟨p, ps, hs⟩ := List.exists_cons_of_ne_nil (splitOn_ne_nil sep t)
      rw [hs, List.map_cons] at ih
      rw [List.map_cons, splitOn_cons_ne (mt (hf c).mp hc) ih, splitOn_cons_ne hc hs]
      rfl

/-- A character of a text is the separator or in one of the parts. -/
theorem mem_splitOn (sep : Char) {c : Char} {t : Text} (hc : c ∈ t) :
    c = sep ∨ ∃ p ∈ splitOn sep t, c ∈ p := by
  induction t with
  | nil => cases hc
  | cons d ds ih =>
    by_cases hd : d = sep
    · subst hd
      rw [splitOn_cons_sep]
      obtain rfl | hc := List.mem_cons.mp hc
      · exact .inl rfl
      · exact (ih hc).imp id fun ⟨p, hp, hm⟩ => ⟨p, List.mem_cons_of_mem _ hp, hm⟩
    · obtain ⟨p, ps, hs⟩ := List.exists_cons_of_ne_nil (splitOn_ne_nil sep ds)
      rw [splitOn_cons_ne hd hs]
      obtain rfl | hc := List.mem_cons.mp hc
      · exact .inr ⟨_, List.mem_cons_self, List.mem_cons_self⟩
      · obtain hc | ⟨q, hq, hm⟩ := ih hc
        · exact .inl hc
        · rw [hs] at hq
          obtain rfl | hq := List.mem_cons.mp hq
          · exact .inr ⟨_, List.mem_cons_self, List.mem_cons_of_mem _ hm⟩
          · exact .inr ⟨q, List.mem_cons_of_mem _ hq, hm⟩

/-- A character of a joined text is of the separator or of one of the parts. -/
theorem mem_join {sep : Text} {c : Char} {ps : List Text} (hc : c ∈ join sep ps) :
    c ∈ sep ∨ ∃ p ∈ ps, c ∈ p := by
  induction ps with
  | nil => cases hc
  | cons p ps ih =>
    cases ps with
    | nil => exact .inr ⟨p, by simp, hc⟩
    | cons q qs =>
      simp only [join, List.mem_append] at hc
      obtain (hc | hc) | hc := hc
      · exact .inr ⟨p, by simp, hc⟩
      · exact .inl hc
      · exact (ih hc).imp id fun ⟨r, hr, hm⟩ => ⟨r, List.mem_cons_of_mem _ hr, hm⟩

theorem mem_join_of_mem {sep : Text} {c : Char} {p : Text} {ps : List Text} (hp : p ∈ ps)
    (hc : c ∈ p) : c ∈ join sep ps := by
  induction ps with
  | nil => cases hp
  | cons q qs ih =>
    cases qs with
    | nil =>
      obtain rfl := List.mem_singleton.mp hp
      exact hc
    | cons r rs =>
      simp only [join, List.mem_append]
      obtain rfl | hp := List.mem_cons.mp hp
      · exact .inl (.inl hc)
      · exact .inr (ih hp)

/-! Folding. -/

theorem casefold_ascii {t : Text} (ht : ∀ c ∈ t, c.toNat < 128) :
    casefold t = t.map lowerAscii := by
  unfold casefold
  induction t with
  | nil => rfl
  | cons c t ih =>
    have hc : casefoldChar c = [lowerAscii c] := by
      unfold casefoldChar
      rw [if_pos (ht c List.mem_cons_self)]
    rw [List.flatMap_cons, hc, ih fun d hd => ht d (List.mem_cons_of_mem _ hd)]
    rfl

end PyText
