import ArubaCertRenewer.PyValue

/- `urllib.parse` on texts of code points: `unquote` and `parse_qs`.

   A text is unquoted run by run: the bytes of a run of ASCII characters are decoded
   with replacement, other characters are kept, so that a surrogate is. -/
namespace PyValue

def isHexDigit (c : CodePoint) : Bool :=
  let n := c.val
  (48 ≤ n && n ≤ 57) || (65 ≤ n && n ≤ 70) || (97 ≤ n && n ≤ 102)

def hexDigit (c : CodePoint) : Nat :=
  let n := c.val
  if n ≤ 57 then n - 48 else if n ≤ 70 then n - 55 else n - 87

/-- `unquote_to_bytes`, of ASCII characters. -/
def unquoteToBytes : Str → List Nat
  | [] => []
  | [c] => [c.val]
  | [c, d] => [c.val, d.val]
  | c :: high :: low :: rest =>
    if c.val == 0x25 && isHexDigit high && isHexDigit low then
      (16 * hexDigit high + hexDigit low) :: unquoteToBytes rest
    else c.val :: unquoteToBytes (high :: low :: rest)

def replacement : CodePoint := ⟨0xfffd, by decide⟩

def ofNat (n : Nat) : CodePoint := if h : n < 0x110000 then ⟨n, h⟩ else replacement

def isContinuation (b : Nat) : Bool := 0x80 ≤ b && b ≤ 0xbf

/-- The second bytes that may follow a first byte. -/
def isSecond (first second : Nat) : Bool :=
  if first == 0xe0 then 0xa0 ≤ second && second ≤ 0xbf
  else if first == 0xed then 0x80 ≤ second && second ≤ 0x9f
  else if first == 0xf0 then 0x90 ≤ second && second ≤ 0xbf
  else if first == 0xf4 then 0x80 ≤ second && second ≤ 0x8f
  else isContinuation second

/-- `bytes.decode("utf-8", "replace")`: one replacement for each longest beginning of a code point
that is broken off. -/
def decodeReplace : List Nat → Str
  | [] => []
  | a :: rest =>
    if a < 0x80 then ofNat a :: decodeReplace rest
    else if 0xc2 ≤ a && a ≤ 0xdf then
      match rest with
      | [] => [replacement]
      | b :: rest' =>
        if isContinuation b then ofNat (64 * (a - 0xc0) + (b - 0x80)) :: decodeReplace rest'
        else replacement :: decodeReplace (b :: rest')
    else if 0xe0 ≤ a && a ≤ 0xef then
      match rest with
      | [] => [replacement]
      | [b] => if isSecond a b then [replacement] else replacement :: decodeReplace [b]
      | b :: c :: rest' =>
        if !isSecond a b then replacement :: decodeReplace (b :: c :: rest')
        else if !isContinuation c then replacement :: decodeReplace (c :: rest')
        else ofNat (4096 * (a - 0xe0) + 64 * (b - 0x80) + (c - 0x80)) :: decodeReplace rest'
    else if 0xf0 ≤ a && a ≤ 0xf4 then
      match rest with
      | [] => [replacement]
      | [b] => if isSecond a b then [replacement] else replacement :: decodeReplace [b]
      | [b, c] =>
        if !isSecond a b then replacement :: decodeReplace [b, c]
        else if isContinuation c then [replacement] else replacement :: decodeReplace [c]
      | b :: c :: d :: rest' =>
        if !isSecond a b then replacement :: decodeReplace (b :: c :: d :: rest')
        else if !isContinuation c then replacement :: decodeReplace (c :: d :: rest')
        else if !isContinuation d then replacement :: decodeReplace (d :: rest')
        else ofNat (262144 * (a - 0xf0) + 4096 * (b - 0x80) + 64 * (c - 0x80) + (d - 0x80)) ::
          decodeReplace rest'
    else replacement :: decodeReplace rest

def isAsciiPoint (c : CodePoint) : Bool := c.val < 0x80

/-- `unquote` -/
def unquote (s : Str) : Str :=
  if s.contains (codePoint '%') then
    (s.splitBy fun c d => isAsciiPoint c == isAsciiPoint d).flatMap fun run =>
      if run.all isAsciiPoint then decodeReplace (unquoteToBytes run) else run
  else s

/-- `unquote_plus` -/
def unquotePlus (s : Str) : Str :=
  unquote (s.map fun c => if c = codePoint '+' then codePoint ' ' else c)

/-- A text before and after the first of a character. -/
def cutAtFirst (sep : CodePoint) (s : Str) : Option (Str × Str) :=
  match s.dropWhile (· != sep) with
  | [] => none
  | _ :: rest => some (s.takeWhile (· != sep), rest)

/-- One value more for a name. -/
def addValue (query : List (Str × List Str)) (pair : Str × Str) : List (Str × List Str) :=
  match query with
  | [] => [(pair.1, [pair.2])]
  | (name, values) :: rest =>
    if name = pair.1 then (name, values ++ [pair.2]) :: rest else (name, values) :: addValue rest pair

/-- `parse_qs(query, keep_blank_values=True, strict_parsing=True)`, unless it raises. -/
def parseQs (query : Str) : Option (List (Str × List Str)) := do
  let pairs ← (if query = [] then [] else query.splitOn (codePoint '&')).mapM fun nameValue => do
    let (name, value) ← cutAtFirst (codePoint '=') nameValue
    return (unquotePlus name, unquotePlus value)
  return pairs.foldl addValue []

example : unquote "%C3%A9" = "é" := by decide

end PyValue
