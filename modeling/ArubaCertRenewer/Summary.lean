import ArubaCertRenewer.Identity
import ArubaCertRenewer.Regex

/- The readers of `show crypto pki local-certificate summary`, and the dates in it. -/
namespace ArubaCertRenewer
open PyText

/-! Dates, as days since 1970-01-01. -/

def isLeapYear (y : Nat) : Bool := y % 4 == 0 && (y % 100 != 0 || y % 400 == 0)

def daysInMonth (y m : Nat) : Nat :=
  if m == 2 then (if isLeapYear y then 29 else 28)
  else if m == 4 || m == 6 || m == 9 || m == 11 then 30 else 31

/-- The days before 1 January of year `y`, counted from 1 January of year 1. -/
def daysBeforeYear (y : Nat) : Nat := (y - 1) * 365 + (y - 1) / 4 - (y - 1) / 100 + (y - 1) / 400

def daysBeforeMonth (y m : Nat) : Nat := ((List.range (m - 1)).map fun i => daysInMonth y (i + 1)).sum

/-- `date(y, m, d)`; `none` is its `ValueError`. -/
def dateOf (y m d : Nat) : Option Int :=
  if 1 ≤ y ∧ y ≤ 9999 ∧ 1 ≤ m ∧ m ≤ 12 ∧ 1 ≤ d ∧ d ≤ daysInMonth y m then
    some ((daysBeforeYear y + daysBeforeMonth y m + d : Nat) - 719163)
  else none

/-- Microseconds in a day. -/
def dayMicros : Int := 86400000000

/-- `instant.astimezone(UTC).date()`. -/
def utcDate (instant : Int) : Int := instant / dayMicros

/-- `datetime.strptime(text, "%Y/%m/%d").date()` on text the summary patterns let through:
the year may be written in any decimal digits, the month and the tens of the day only in ASCII. -/
def strptimeDate (t : Text) : Except Exc Int :=
  let bad := valueError ("time data '" ++ t ++ "' does not match format '%Y/%m/%d'")
  match t with
  | [y₁, y₂, y₃, y₄, '/', m₁, m₂, '/', d₁, d₂] =>
    let monthOk := (m₁ == '1' && '0' ≤ m₂ && m₂ ≤ '2') || (m₁ == '0' && '1' ≤ m₂ && m₂ ≤ '9')
    let dayOk := (d₁ == '3' && (d₂ == '0' || d₂ == '1')) ||
      ((d₁ == '1' || d₁ == '2') && isDigit d₂) || (d₁ == '0' && '1' ≤ d₂ && d₂ ≤ '9')
    if [y₁, y₂, y₃, y₄].all isDigit && monthOk && dayOk then
      match dateOf (digitsValue [y₁, y₂, y₃, y₄]) (digitsValue [m₁, m₂]) (digitsValue [d₁, d₂]) with
      | some d => .ok d
      | none => .error (valueError "day is out of range for month")
    else .error bad
  | _ => .error bad

/-! The summary. -/

def maxCertificateSummaryOutputBytes : Nat := 64 * 1024

def summaryCommand : Text := "show crypto pki local-certificate summary"

def checkSummarySize (output : Text) : Except Exc Unit :=
  checkOutputSize output maxCertificateSummaryOutputBytes "certificate summary"

open Regex in
/-- `\d{4}/\d{2}/\d{2}|CSR`, the literal `csr` matched as `lit` says. -/
def expirationPattern (literal : Text → Regex) : Regex :=
  group "expiration"
    (alt (seqs [times 4 digit, lit "/", times 2 digit, lit "/", times 2 digit]) (literal "CSR"))

open Regex in
def webCertificatePattern : Regex :=
  seqs [lineStart, star true space, group "name" (plus nonSpace), plus space,
    group "usage" (lit "Web"), plus space, expirationPattern lit, plus space,
    group "profile" (plus nonSpace), star true space, lineEnd]

structure WebCertificate where
  name : Text
  expiration : Option Int
  profile : Text
  pending : Bool
  deriving DecidableEq, Repr

def webCertificateOf (m : Match) : Except Exc WebCertificate :=
  let expirationText := m.group "expiration"
  if expirationText == "CSR" then
    .ok ⟨m.group "name", none, m.group "profile", true⟩
  else do
    let expiration ← strptimeDate expirationText
    return ⟨m.group "name", some expiration, m.group "profile", false⟩

def parseWebCertificates (output : Text) : Except Exc (List WebCertificate) := do
  checkSummarySize output
  (finditer webCertificatePattern output).mapM webCertificateOf

def pendingNames (certificates : List WebCertificate) : Text :=
  join ", " ((certificates.filter (·.pending)).map (·.name))

def getActiveWebCertificate (certificates : List WebCertificate) : Except Exc WebCertificate :=
  let pending := certificates.filter (·.pending)
  let installed := certificates.filter fun c => !c.pending
  if !pending.isEmpty then
    .error (valueError ("Found pending Web CSR: " ++ pendingNames certificates))
  else
    match installed with
    | [] => .error (valueError "Could not find an installed Web certificate")
    | [c] => .ok c
    | _ => .error (valueError
        ("Found " ++ ofNat installed.length ++ " installed Web certificates; expected 1"))

open Regex in
def certificateNameExists (summaryOutput certificateName : Text) : Except Exc Bool := do
  checkSummarySize summaryOutput
  validateCliIdentifier certificateName "certificate name"
  return (search (seqs [lineStart, star true space, litIgnoringCase certificateName, plus space])
    summaryOutput).isSome

structure SummaryEntry where
  name : Text
  usage : Text
  expiration : Text
  profile : Text
  deriving DecidableEq, Repr

open Regex in
def summaryEntryPattern (certificateName : Text) : Regex :=
  seqs [lineStart, star true space, group "name" (litIgnoringCase certificateName), plus space,
    group "usage" (plus nonSpace), plus space, expirationPattern litIgnoringCase, plus space,
    group "profile" (plus nonSpace), star true space, lineEnd]

def getCertificateSummaryEntry (summaryOutput certificateName : Text) : Except Exc SummaryEntry := do
  checkSummarySize summaryOutput
  validateCliIdentifier certificateName "certificate name"
  match finditer (summaryEntryPattern certificateName) summaryOutput with
  | [] => .error (valueError ("Certificate name not found on the switch: " ++ certificateName))
  | [m] => .ok ⟨m.group "name", m.group "usage", m.group "expiration", m.group "profile"⟩
  | _ => .error (valueError ("Certificate name is ambiguous: " ++ certificateName))

def requirePendingWebCertificate (summaryOutput certificateName : Text) : Except Exc SummaryEntry := do
  let entry ← getCertificateSummaryEntry summaryOutput certificateName
  raiseWhen (casefold entry.usage != "web")
    (valueError
      ("Certificate " ++ certificateName ++ " has usage " ++ entry.usage ++ "; expected Web"))
  raiseWhen (casefold entry.expiration != "csr")
    (valueError
      ("Certificate " ++ certificateName ++ " is installed; expected a pending CSR"))
  return entry

/-! Renewal names. -/

/-- `n` in decimal with at least `width` digits. -/
def zeroPadded (width n : Nat) : Text :=
  let digits := ofNat n
  List.replicate (width - digits.length) '0' ++ digits

/-- The year, month and day of a date. -/
def civilOf (date : Int) : Nat × Nat × Nat :=
  let z := date + 719468
  let era := z / 146097
  let doe := (z % 146097).toNat
  let yoe := (doe - doe / 1460 + doe / 36524 - doe / 146096) / 365
  let doy := doe - (365 * yoe + yoe / 4 - yoe / 100)
  let mp := (5 * doy + 2) / 153
  let m := if mp < 10 then mp + 3 else mp - 9
  ((yoe + era * 400 + if m ≤ 2 then 1 else 0).toNat, m, doy - (153 * mp + 2) / 5 + 1)

/-- A date as `%Y`, `%m` and `%d` joined by a separator. -/
def strftimeDate (sep : Text) (date : Int) : Text :=
  let (y, m, d) := civilOf date
  join sep [zeroPadded 4 y, zeroPadded 2 m, zeroPadded 2 d]

/-- `f"webcert-{date:%Y%m%d}-"`. -/
def renewalNamePrefix (date : Int) : Text := "webcert-" ++ strftimeDate [] date ++ "-"

/-- The first unused name among the sequence numbers given. -/
def firstUnusedName (summaryOutput namePrefix : Text) : List Nat → Except Exc (Option Text)
  | [] => .ok none
  | n :: ns => do
    let candidate := namePrefix ++ zeroPadded 2 n
    if ← certificateNameExists summaryOutput candidate then firstUnusedName summaryOutput namePrefix ns
    else
      validateCliIdentifier candidate "certificate name"
      return some candidate

def chooseRenewalCertificateName (summaryOutput : Text) (now : Int) : Except Exc Text := do
  match ← firstUnusedName summaryOutput (renewalNamePrefix (utcDate now)) (List.range' 1 99) with
  | some name => return name
  | none => .error (valueError
      ("All 99 renewal certificate names for " ++ strftimeDate "-" (utcDate now) ++
        " already exist on the switch"))

end ArubaCertRenewer
