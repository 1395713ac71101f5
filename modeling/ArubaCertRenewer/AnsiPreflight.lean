import ArubaCertRenewer.BoundedChannel

/- The preflight of Netmiko's insert-line codes, `BoundedArubaConnection.strip_ansi_escape_codes`
   of `bounded_netmiko.py`.

   Netmiko's own method is two passes: one that removes the other codes and puts a line end
   for `ESC E`, here a parameter, and one that puts as many line ends as the first count
   says for every insert-line code. What Netmiko is given is kept, last first, next to the
   connection. -/
namespace ArubaCertRenewer
open PyText Effects Effects.Py

/-- `RETURN`; `special_login_handler` accepts no other. -/
def netmikoReturn : Text := "\n"

/-! Insert-line codes. -/

/-- The digits of the insert-line code that a text begins with, by the pattern
`ANSI_INSERT_LINE`. -/
def insertLineDigits : Text → Option Text
  | '\x1b' :: '[' :: t =>
    let digits := t.takeWhile isDigit
    if !digits.isEmpty && (t.drop digits.length).head? == some 'L' then some digits else none
  | _ => none

inductive AnsiPiece where
  | plain (c : Char)
  | code (digits : Text)
  deriving DecidableEq, Repr

/-- The pieces of a text, after some characters that belong to a code. -/
def ansiPiecesFrom : Nat → Text → List AnsiPiece
  | _, [] => []
  | skip + 1, _ :: t => ansiPiecesFrom skip t
  | 0, c :: t =>
    match insertLineDigits (c :: t) with
    | some digits => .code digits :: ansiPiecesFrom (digits.length + 2) t
    | none => .plain c :: ansiPiecesFrom 0 t

/-- `ANSI_INSERT_LINE.finditer`: the codes, and the characters between them. -/
def ansiPieces (t : Text) : List AnsiPiece := ansiPiecesFrom 0 t

def AnsiPiece.digits? : AnsiPiece → Option Text
  | .plain _ => none
  | .code digits => some digits

/-- The digits of the codes, in order. -/
def insertLines (t : Text) : List Text := (ansiPieces t).filterMap AnsiPiece.digits?

/-- The length of the codes, each of `len(match.group())`. -/
def matchedLength : List Text → Nat
  | [] => 0
  | digits :: codes => digits.length + 3 + matchedLength codes

/-! What Netmiko does. -/

/-- Each code replaced by as many line ends as the first one counts. -/
def expandInsertLines (t : Text) : Text :=
  match insertLines t with
  | [] => t
  | first :: _ => (ansiPieces t).flatMap fun
    | .plain c => [c]
    | .code _ => (List.replicate (digitsValue first) netmikoReturn).flatten

/-- A connection, and what Netmiko's method was given. -/
abbrev Ansi (α : Type) := Py Transport ChannelError (BoundedArubaConnection × List Text) α

section netmiko
variable (removal : Text → Text)

/-- `BaseConnection.strip_ansi_escape_codes`. -/
def netmikoStrip (t : Text) : Text := expandInsertLines (removal t)

def callNetmikoStrip (t : Text) : Ansi Text := do
  assign fun given => t :: given
  return netmikoStrip removal t

/-! The preflight. -/

def firstSentinel : Nat := 0xf0000
def sentinelCount : Nat := 0x110000 - firstSentinel

/-- The first of some code points that a text does not have. -/
def firstAbsent (present : Text) : Nat → Nat → Option Char
  | 0, _ => none
  | n + 1, code =>
    if present.contains (Char.ofNat code) then firstAbsent present n (code + 1)
    else some (Char.ofNat code)

/-- `next(...)` of the private-use characters; `none` is its `StopIteration`. -/
def sentinelFor (t : Text) : Option Char := firstAbsent t sentinelCount firstSentinel

/-- `text.replace(old, new)` of characters. -/
def replaceChar (old new : Char) (t : Text) : Text := t.map fun c => if c = old then new else c

/-- The text with the other codes removed, as Netmiko would have it. -/
def safeBuffer (t : Text) : Ansi Text := do
  if !t.contains 'L' then return t
  match sentinelFor t with
  | none => throw (.other "StopIteration")
  | some sentinel =>
    let removed ← callNetmikoStrip removal (replaceChar 'L' sentinel t)
    return replaceChar sentinel 'L' removed

/-- `sys.int_info.str_digits_check_threshold` -/
def strDigitsCheckThreshold : Nat := 640

/-- The count without its leading zeros, in ASCII digits. -/
def asciiDigits (digits : Text) : Text :=
  let ascii := digits.map fun c => Char.ofNat (48 + (decimal? c).getD 0)
  match ascii.dropWhile (· == '0') with
  | [] => "0"
  | significant => significant

/-- Whether the expansion of the codes has room, decided without expanding them and without `int`. -/
def expansionFits (remaining : Int) (safe : Text) (codes : List Text) (first : Text) : Bool :=
  let base : Int := safe.length - matchedLength codes
  let replacementUnit : Int := codes.length * netmikoReturn.length
  if remaining < base || replacementUnit == 0 then false
  else
    let maximumDigits := ofNat ((remaining - base) / replacementUnit).toNat
    if strDigitsCheckThreshold < first.length then false
    else
      let digits := asciiDigits first
      !(maximumDigits.length < digits.length ||
        (digits.length == maximumDigits.length && decide (maximumDigits < digits)))

/-- `BoundedArubaConnection.strip_ansi_escape_codes`. -/
def stripAnsiEscapeCodes (stringBuffer : Text) : Ansi Text := do
  outer requireHealthy
  let safe ← safeBuffer removal stringBuffer
  match insertLines safe with
  | [] => pure ()
  | first :: rest =>
    let (connection, _) ← get
    let remaining := connection.channel.processedLimit - connection.channel.processedUsed
    if !expansionFits remaining safe (first :: rest) first then outer overBudget
  let output ← callNetmikoStrip removal stringBuffer
  outer (chargeProcessed output.length)
  return output

end netmiko

end ArubaCertRenewer
