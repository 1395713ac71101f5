import ArubaCertRenewer.Identity

/- `validate_base_url`, over the parts of `urllib.parse.urlsplit` it reads. The
   text is ASCII without whitespace or controls when it is split, so what
   `urlsplit` strips and its Unicode checks do not apply. -/
namespace ArubaCertRenewer
open PyText

/-- `text.partition(sep)`: what is before the first `sep`, whether there is one, what is after. -/
def partition (sep : Char) (t : Text) : Text × Bool × Text :=
  let a := t.takeWhile (· != sep)
  match t.drop a.length with
  | [] => (a, false, [])
  | _ :: b => (a, true, b)

/-- `text.rpartition(sep)`. -/
def rpartition (sep : Char) (t : Text) : Text × Bool × Text :=
  match partition sep t.reverse with
  | (a, true, b) => (b.reverse, true, a.reverse)
  | (a, false, _) => ([], false, a.reverse)

structure SplitUrl where
  scheme : Text
  netloc : Text
  path : Text

def isSchemeChar (c : Char) : Bool := isAlnumAscii c || c == '+' || c == '-' || c == '.'

def isAlphaAscii (c : Char) : Bool := ('A' ≤ c && c ≤ 'Z') || ('a' ≤ c && c ≤ 'z')

/-- `_check_bracketed_host`: an IPv6 address, or `v` hex digits `.` anything. -/
def bracketedHostOk (host : Text) : Bool :=
  match host with
  | 'v' :: rest =>
    match partition '.' rest with
    | (hex, true, tail) => !hex.isEmpty && hex.all IpAddress.isHexDigit && !tail.isEmpty
    | _ => false
  | _ => match IpAddress.ofText host with
    | some (.v6 _ _) => true
    | _ => false

/-- `_check_bracketed_netloc`, with the test that brackets are paired. -/
def bracketsOk (netloc : Text) : Bool :=
  if netloc.contains '[' != netloc.contains ']' then false
  else if !netloc.contains '[' then true
  else
    match partition '[' (rpartition '@' netloc).2.2 with
    | (before, true, bracketed) =>
      let (host, _, port) := partition ']' bracketed
      before.isEmpty && (port.isEmpty || port.head? == some ':') && bracketedHostOk host
    | (hostAndPort, false, _) => bracketedHostOk (partition ':' hostAndPort).1

/-- `urlsplit`; `none` is its `ValueError`. -/
def urlsplit (url : Text) : Option SplitUrl :=
  let (before, colon, after) := partition ':' url
  let hasScheme := colon && before.head?.any isAlphaAscii && before.all isSchemeChar
  let scheme := if hasScheme then before.map lowerAscii else []
  let rest := if hasScheme then after else url
  let cut := fun t : Text => (partition '?' (partition '#' t).1).1
  match rest with
  | '/' :: '/' :: t =>
    let netloc := t.takeWhile fun c => !(c == '/' || c == '?' || c == '#')
    if bracketsOk netloc then some ⟨scheme, netloc, cut (t.drop netloc.length)⟩ else none
  | _ => some ⟨scheme, [], cut rest⟩

/-- `_hostinfo`: the host and, when there is one, the port text. -/
def SplitUrl.hostinfo (u : SplitUrl) : Text × Option Text :=
  let info := (rpartition '@' u.netloc).2.2
  let (host, port) :=
    match partition '[' info with
    | (_, true, bracketed) =>
      let (host, _, rest) := partition ']' bracketed
      (host, (partition ':' rest).2.2)
    | _ => ((partition ':' info).1, (partition ':' info).2.2)
  (host, if port.isEmpty then none else some port)

/-- `hostname`: lower case up to a zone. -/
def SplitUrl.hostname (u : SplitUrl) : Text :=
  let (host, percent, zone) := partition '%' u.hostinfo.1
  host.map lowerAscii ++ (if percent then '%' :: zone else [])

def SplitUrl.hasUserinfo (u : SplitUrl) : Bool := u.netloc.contains '@'

/-- The digits that `int` reads at most. -/
def intMaxStrDigits : Nat := 4300

/-- `port`; `error` is its `ValueError`, or that of `int`. -/
def SplitUrl.port (u : SplitUrl) : Except Exc (Option Nat) :=
  match u.hostinfo.2 with
  | none => .ok none
  | some p =>
    if p.all IpAddress.isDecDigit && p.length ≤ intMaxStrDigits && IpAddress.decText p ≤ 65535 then
      .ok (some (IpAddress.decText p))
    else .error (valueError [])

/-- `_NUMERIC_HOST_COMPONENT_RE`: `(?:[0-9]+|0[xX][0-9A-Fa-f]+)`, the whole text. -/
def isNumericHostComponent (t : Text) : Bool :=
  (!t.isEmpty && t.all IpAddress.isDecDigit) ||
    match t with
    | '0' :: x :: hex => (x == 'x' || x == 'X') && !hex.isEmpty && hex.all IpAddress.isHexDigit
    | _ => false

def validateUrlHostname (hostname : Text) (bracketed : Bool) : Except Exc Unit := do
  let invalid := valueError "opnsense.base_url contains an invalid hostname"
  raiseWhen (hostname.contains '%') invalid
  match IpAddress.ofText hostname with
  | some (.v4 _) => raiseWhen bracketed invalid
  | some (.v6 _ _) => raiseWhen (!bracketed) invalid
  | none =>
    raiseWhen (bracketed || (splitOn '.' hostname).all isNumericHostComponent) invalid
    raiseWhen (253 < hostname.length || (splitOn '.' hostname).any fun l => !isDnsLabel l) invalid

/-- The text after the colon of an authority, when it has one. -/
def portText (authority : Text) : Except Exc (Option Text) :=
  if authority.head? == some '[' then
    let suffix := (partition ']' authority).2.2
    match suffix with
    | [] => .ok none
    | ':' :: port => .ok (some port)
    | _ => .error (valueError "opnsense.base_url must be a valid HTTPS URL")
  else
    match partition ':' authority with
    | (_, true, port) => .ok (some port)
    | _ => .ok none

def validateBaseUrl (baseUrl : Text) : Except Exc Text := do
  raiseWhen baseUrl.isEmpty (valueError "opnsense.base_url must be a non-empty HTTPS URL")
  raiseWhen (baseUrl.any fun c => 128 ≤ c.toNat || isSpace c || c.toNat < 32 || c.toNat == 127)
    (valueError "opnsense.base_url contains unsupported characters")
  let invalid := valueError "opnsense.base_url must be a valid HTTPS URL"
  match urlsplit baseUrl with
  | none => .error invalid
  | some parsed =>
    raiseWhen (parsed.scheme != "https" || parsed.hostname.isEmpty) invalid
    raiseWhen parsed.hasUserinfo (valueError "opnsense.base_url must not contain credentials")
    raiseWhen (baseUrl.contains '?' || baseUrl.contains '#')
      (valueError "opnsense.base_url must not contain a query or fragment")
    raiseWhen (parsed.path != [] && parsed.path != ['/'])
      (valueError "opnsense.base_url must not contain a path")
    let invalidPort := valueError "opnsense.base_url contains an invalid port"
    let text ← portText parsed.netloc
    raiseWhen (text.any fun p => p.isEmpty || !p.all IpAddress.isDecDigit) invalidPort
    match parsed.port with
    | .error _ => .error invalidPort
    | .ok port =>
      raiseWhen (port == some 0) invalidPort
      validateUrlHostname parsed.hostname (parsed.netloc.head? == some '[')
      return if parsed.path == ['/'] then baseUrl.dropLast else baseUrl

end ArubaCertRenewer
