import ArubaCertRenewer.PyText

/- Regular expressions with the order of choices of a backtracking matcher.

   `results r s` lists every way `r` can match from position `s`, in the order
   a backtracking matcher tries them (greedy loops longest first), so its head
   is the match such a matcher reports. `search` takes the leftmost position
   with a match, `finditer` the successive matches that do not overlap,
   `fullmatch` asks for a match that ends at the end of the text. A loop does
   not repeat its body on an empty match. -/
namespace PyText

inductive Regex where
  | empty
  | char (p : Char → Bool)
  | seq (a b : Regex)
  | alt (a b : Regex)
  | star (greedy : Bool) (r : Regex)
  | group (name : String) (r : Regex)
  | lineStart
  | lineEnd
  | textStart
  | textEnd

/-- A position in a text (what is before it, in reverse, and what is after),
and the groups captured on the way there. -/
structure Pos where
  before : Text
  rest : Text
  groups : List (String × Text)

namespace Regex

/-- `r+`. -/
def plus (r : Regex) : Regex := seq r (star true r)

/-- `r?`. -/
def opt (r : Regex) : Regex := alt r empty

/-- `r{n}`. -/
def times : Nat → Regex → Regex
  | 0, _ => empty
  | n + 1, r => seq r (times n r)

def seqs : List Regex → Regex
  | [] => empty
  | [r] => r
  | r :: rs => seq r (seqs rs)

def alts : List Regex → Regex
  | [] => empty
  | [r] => r
  | r :: rs => alt r (alts rs)

/-- A text matched literally. -/
def lit (t : Text) : Regex := seqs (t.map fun c => char (· == c))

/-- Whether `x` matches the ASCII pattern character `c` under `re.IGNORECASE`: besides
the two cases, `i`, `s` and `k` match the non-ASCII letters whose case mapping reaches them. -/
def sameIgnoringCase (c x : Char) : Bool :=
  lowerAscii x == lowerAscii c ||
    (lowerAscii c == 'i' && (x.toNat == 0x130 || x.toNat == 0x131)) ||
    (lowerAscii c == 's' && x.toNat == 0x17f) ||
    (lowerAscii c == 'k' && x.toNat == 0x212a)

/-- An ASCII text matched under `re.IGNORECASE`. -/
def litIgnoringCase (t : Text) : Regex := seqs (t.map fun c => char (sameIgnoringCase c))

/-- `\s`, `\S`, `\d` and `.` under `re.DOTALL`. -/
def space : Regex := char isSpace
def nonSpace : Regex := char fun c => !isSpace c
def digit : Regex := char isDigit
def any : Regex := char fun _ => true

/-- A loop of `step` from `s`, at most `n` times and each time further. -/
def loop (step : Pos → List Pos) (greedy : Bool) : Nat → Pos → List Pos
  | 0, s => [s]
  | n + 1, s =>
    let more := (step s).flatMap fun s' =>
      if s'.rest.length < s.rest.length then loop step greedy n s' else []
    if greedy then more ++ [s] else s :: more

def results : Regex → Pos → List Pos
  | empty, s => [s]
  | char p, s =>
    match s.rest with
    | c :: cs => if p c then [{ s with before := c :: s.before, rest := cs }] else []
    | [] => []
  | seq a b, s => (results a s).flatMap (results b)
  | alt a b, s => results a s ++ results b s
  | star greedy r, s => loop (results r) greedy s.rest.length s
  | group name r, s => (results r s).map fun s' =>
      { s' with groups :=
          (name, (s'.before.take (s.rest.length - s'.rest.length)).reverse) :: s'.groups }
  | lineStart, s => if s.before.head? == none || s.before.head? == some '\n' then [s] else []
  | lineEnd, s => if s.rest.head? == none || s.rest.head? == some '\n' then [s] else []
  | textStart, s => if s.before.isEmpty then [s] else []
  | textEnd, s => if s.rest.isEmpty || s.rest == ['\n'] then [s] else []

end Regex

/-- A match: the text before it in reverse, the text matched, the text after it, the groups. -/
structure Match where
  before : Text
  matched : Text
  after : Text
  groups : List (String × Text)

/-- `match.group(name)`. -/
def Match.group (m : Match) (name : String) : Text := (m.groups.lookup name).getD []

/-- The match at one position. -/
def matchAt (r : Regex) (before rest : Text) : Option Match :=
  (r.results ⟨before, rest, []⟩).head?.map fun s =>
    ⟨before, (s.before.take (rest.length - s.rest.length)).reverse, s.rest, s.groups⟩

/-- The leftmost match from a position on. -/
def searchFrom (r : Regex) (before : Text) : Text → Option Match
  | [] => matchAt r before []
  | c :: cs =>
    match matchAt r before (c :: cs) with
    | some m => some m
    | none => searchFrom r (c :: before) cs

/-- `re.search`. -/
def search (r : Regex) (t : Text) : Option Match := searchFrom r [] t

/-- The successive matches of a pattern that never matches the empty text. -/
def finditerFrom (r : Regex) : Nat → Text → Text → List Match
  | 0, _, _ => []
  | n + 1, before, rest =>
    match searchFrom r before rest with
    | none => []
    | some m =>
      if m.matched.isEmpty then []
      else m :: finditerFrom r n (m.matched.reverse ++ m.before) m.after

/-- `re.finditer` for a pattern that never matches the empty text. -/
def finditer (r : Regex) (t : Text) : List Match := finditerFrom r t.length [] t

/-- `re.fullmatch`, as a test. -/
def fullmatch (r : Regex) (t : Text) : Bool :=
  (r.results ⟨[], t, []⟩).any fun s => s.rest.isEmpty

end PyText
