import ArubaCertRenewer.Url

/- The configuration: what `validate_config`, `validate_csr_settings` and
   `get_opnsense_settings` accept, and the settings they hand on. Settings carry
   the tests they passed, so checking them again where the code does is no step. -/
namespace ArubaCertRenewer
open PyText

def maxAdditionalSans : Nat := 100
def maxConfigFileBytes : Nat := 1024 * 1024
def maxVerificationCaFileBytes : Nat := 1024 * 1024

namespace Toml

/-- `table.get(key)`. -/
def get? (members : List (Text × Toml)) (key : Text) : Option Toml := members.lookup key

def asText : Toml → Option Text
  | string t => some t
  | _ => none

def asInt : Toml → Option Int
  | integer n => some n
  | _ => none

end Toml

/-! CSR settings. -/

/-- The subject pattern of `validate_csr_settings`, the whole text. -/
def isSubjectText (t : Text) : Bool :=
  t.head?.any isAlnumAscii &&
    t.all fun c => isAlnumAscii c || (" .,'()&/-".toList).contains c

def isCountryCode (t : Text) : Bool := t.length == 2 && t.all fun c => 'A' ≤ c && c ≤ 'Z'

/-- The `[csr]` table. `keySize` is the configured number as it prints: TOML also lets
2048 be written as a float, which compares equal and prints otherwise. -/
structure CsrSettings where
  organization : Text
  organizationalUnit : Text
  locality : Text
  state : Text
  country : Text
  keySize : Text
  organization_ok : isSubjectText organization ∧ organization.length ≤ 100
  organizationalUnit_ok : isSubjectText organizationalUnit ∧ organizationalUnit.length ≤ 100
  locality_ok : isSubjectText locality ∧ locality.length ≤ 100
  state_ok : isSubjectText state ∧ state.length ≤ 100
  country_ok : isCountryCode country
  keySize_ok : keySize = "2048" ∨ keySize = "2048.0"

/-- One text field of the `[csr]` table. -/
def csrTextField (members : List (Text × Toml)) (field : Text) :
    Except Exc { t : Text // isSubjectText t ∧ t.length ≤ 100 } := do
  let name := "csr." ++ field
  match (Toml.get? members field).bind Toml.asText with
  | none => .error (valueError (name ++ " must be a non-empty string"))
  | some t =>
    raiseWhen (strip t).isEmpty (valueError (name ++ " must be a non-empty string"))
    if hs : isSubjectText t then
      if hl : t.length ≤ 100 then return ⟨t, hs, hl⟩
      else .error (valueError (name ++ " exceeds 100 characters"))
    else .error (valueError (name ++ " contains unsupported characters"))

def csrRequiredFields : List Text :=
  ["organization", "organizational_unit", "locality", "state", "country", "key_type", "key_size"]

/-- Every required field is there, the first missing one named otherwise. -/
def requireFields (table : Text) (members : List (Text × Toml)) (fields : List Text) :
    Except Exc Unit :=
  match fields.find? fun f => (Toml.get? members f).isNone with
  | some f => .error (valueError (table ++ "." ++ f ++ " must be configured"))
  | none => .ok ()

def validateCsrSettings (members : List (Text × Toml)) : Except Exc CsrSettings := do
  requireFields "csr" members csrRequiredFields
  let organization ← csrTextField members "organization"
  let unit ← csrTextField members "organizational_unit"
  let locality ← csrTextField members "locality"
  let state ← csrTextField members "state"
  let badCountry := valueError "csr.country must be a two-letter uppercase country code"
  match (Toml.get? members "country").bind Toml.asText with
  | none => .error badCountry
  | some country =>
    if hc : isCountryCode country then
      raiseWhen (((Toml.get? members "key_type").bind Toml.asText) != some "rsa".toList)
        (valueError "csr.key_type must currently be 'rsa'")
      let settings := fun keySize hk => CsrSettings.mk organization.1 unit.1 locality.1 state.1
        country keySize organization.2 unit.2 locality.2 state.2 hc hk
      match Toml.get? members "key_size" with
      | some (.integer 2048) => return settings "2048" (.inl rfl)
      | some (.float t) =>
        if hk : t = "2048.0" then return settings t (.inr hk)
        else .error (valueError "csr.key_size must currently be 2048")
      | _ => .error (valueError "csr.key_size must currently be 2048")
    else .error badCountry

def getCsrSettings (config : List (Text × Toml)) : Except Exc CsrSettings :=
  match Toml.get? config "csr" with
  | some (.table members) => validateCsrSettings members
  | _ => .error (valueError "A [csr] configuration section is required")

/-! OPNsense settings. -/

structure OpnsenseSettings where
  baseUrl : Text
  ca : Text
  lifetimeDays : Nat
  digest : Text
  lifetime_ok : 1 ≤ lifetimeDays ∧ lifetimeDays ≤ 3650
  digest_ok : digest ∈ ["sha256".toList, "sha384".toList, "sha512".toList]

def opnsenseRequiredFields : List Text := ["base_url", "ca", "lifetime_days", "digest"]

def getOpnsenseSettings (config : List (Text × Toml)) : Except Exc OpnsenseSettings := do
  match Toml.get? config "opnsense" with
  | some (.table members) =>
    raiseWhen ((Toml.get? members "api_key").isSome || (Toml.get? members "api_secret").isSome)
      (valueError
        "OPNsense API credentials must be supplied only through environment variables")
    requireFields "opnsense" members opnsenseRequiredFields
    let baseUrl ← match (Toml.get? members "base_url").bind Toml.asText with
      | some url => validateBaseUrl url
      | none => .error (valueError "opnsense.base_url must be a non-empty HTTPS URL")
    let badCa := valueError "opnsense.ca must be a non-empty safe description"
    match (Toml.get? members "ca").bind Toml.asText with
    | none => .error badCa
    | some ca =>
      raiseWhen ((strip ca).isEmpty || 255 < ca.length || ca.any (·.toNat < 32)) badCa
      let badLifetime := valueError "opnsense.lifetime_days must be between 1 and 3650"
      match (Toml.get? members "lifetime_days").bind Toml.asInt with
      | none => .error badLifetime
      | some days =>
        if hl : 1 ≤ days.toNat ∧ days.toNat ≤ 3650 then
          match (Toml.get? members "digest").bind Toml.asText with
          | some digest =>
            if hd : digest ∈ ["sha256".toList, "sha384".toList, "sha512".toList] then
              return ⟨baseUrl, strip ca, days.toNat, digest, hl, hd⟩
            else .error (valueError "opnsense.digest must be sha256, sha384, or sha512")
          | none => .error (valueError "opnsense.digest must be sha256, sha384, or sha512")
        else .error badLifetime
  | _ => .error (valueError "An [opnsense] configuration section is required")

def validateAutomaticRenewalWindow (warningDays : Nat) (opnsense : OpnsenseSettings) :
    Except Exc Unit :=
  raiseWhen (opnsense.lifetimeDays ≤ warningDays)
    (valueError
      "--renew-due requires settings.warning_days to be less than opnsense.lifetime_days")

/-! Switches. -/

def isSshUsername (t : Text) : Bool :=
  !(strip t).isEmpty && !t.any fun c => c.toNat < 32 || c.toNat == 127

def validateSshUsername (username fieldName : Text) : Except Exc Unit :=
  raiseWhen (!isSshUsername username)
    (valueError (fieldName ++ " must be a non-empty string without controls"))

/-- The text fields of an entry, `none` when the value is not a string. -/
def switchTextField (entry : Text) (members : List (Text × Toml)) (field : Text) :
    Except Exc Text :=
  let missing := valueError (entry ++ " must contain a non-empty '" ++ field ++ "'")
  match (Toml.get? members field).bind Toml.asText with
  | none => .error missing
  | some t => if (strip t).isEmpty then .error missing else .ok t

def additionalSansOf (entry : Text) (members : List (Text × Toml)) : Except Exc (List Text) := do
  let bad := valueError (entry ++ " additional_sans must be an array of strings")
  let items ← match Toml.get? members "additional_sans" with
    | none => .ok []
    | some (.array items) =>
      match items.mapM Toml.asText with
      | some texts => .ok texts
      | none => .error bad
    | some _ => .error bad
  raiseWhen (maxAdditionalSans < items.length)
    (valueError (entry ++ " additional_sans cannot contain more than " ++ ofNat maxAdditionalSans ++
      " entries"))
  items.mapM fun v => do
    let identity ← parseIdentity v (entry ++ " additional_sans item")
    return identity.value

/-- The optional `password_file` of an entry. -/
def passwordFileOf (entry : Text) (members : List (Text × Toml)) : Except Exc (Option Text) :=
  let bad := valueError (entry ++ " password_file must be a non-empty safe path")
  match Toml.get? members "password_file" with
  | none => .ok none
  | some (.string path) =>
    if (strip path).isEmpty || path.any fun c => c.toNat < 32 || c.toNat == 127 then .error bad
    else .ok (some path)
  | some _ => .error bad

def usernameOf (entry : Text) (members : List (Text × Toml)) : Except Exc (Option Text) := do
  match Toml.get? members "username" with
  | none => return none
  | some (.string t) =>
    validateSshUsername t (entry ++ " username")
    return some t
  | some _ => .error (valueError (entry ++ " username must be a non-empty string without controls"))

def validateSwitch (index : Nat) (knownHostsFile : Text) (members : List (Text × Toml)) :
    Except Exc Switch := do
  let entry := "Switch entry " ++ ofNat index
  raiseWhen (Toml.get? members "fqdn").isSome
    (valueError "switches.fqdn is no longer supported; use host and optional additional_sans")
  raiseWhen (Toml.get? members "password").isSome
    (valueError ("switches.password is not supported; passwords must come from password_file, " ++
      "ARUBA_SSH_PASSWORD, or interactive input"))
  let name ← switchTextField entry members "name"
  let host ← switchTextField entry members "host"
  let host ← parseIdentity host (entry ++ " host")
  let additionalSans ← additionalSansOf entry members
  let username ← usernameOf entry members
  let passwordFile ← passwordFileOf entry members
  return ⟨name, host.value, additionalSans, username, passwordFile, knownHostsFile⟩

/-- The `[[switches]]` entries from `index` on, whose folded names are not in `seen`. -/
def validateSwitches (knownHostsFile : Text) :
    Nat → List Text → List Toml → Except Exc (List Switch)
  | _, _, [] => .ok []
  | index, seen, .table members :: rest => do
    let switch ← validateSwitch index knownHostsFile members
    raiseWhen (seen.contains (casefold switch.name))
      (valueError ("Duplicate switch name: " ++ switch.name))
    return switch ::
      (← validateSwitches knownHostsFile (index + 1) (casefold switch.name :: seen) rest)
  | index, _, _ :: _ =>
    .error (valueError ("Switch entry " ++ ofNat index ++ " must be a TOML table"))

def warningDaysOf (config : List (Text × Toml)) : Except Exc Nat :=
  let table := match Toml.get? config "settings" with
    | none => .ok []
    | some (.table members) => .ok members
    | some _ => .error (runtimeError "settings is not a table")
  do
    let members ← table
    match Toml.get? members "warning_days" with
    | none => return 30
    | some (.integer n) =>
      if n < 0 then .error (valueError "settings.warning_days cannot be negative")
      else return n.toNat
    | some _ => .error (valueError "settings.warning_days must be an integer")

/-- `validate_config` once `ssh.known_hosts_file` is known: the warning days and the switches. -/
def validateConfig (config : List (Text × Toml)) (knownHostsFile : Text) :
    Except Exc (Nat × List Switch) := do
  let warningDays ← warningDaysOf config
  match Toml.get? config "switches" with
  | some (.array (entry :: entries)) =>
    return (warningDays, ← validateSwitches knownHostsFile 1 [] (entry :: entries))
  | _ => .error (valueError "At least one [[switches]] entry must be configured")

def selectSwitches (switches : List Switch) (switchName : Option Text) :
    Except Exc (List Switch) :=
  match switchName with
  | none => .ok switches
  | some name =>
    match switches.filter fun s => casefold s.name == casefold name with
    | [] => .error (valueError ("Switch not found in configuration: " ++ name))
    | matching => .ok matching

end ArubaCertRenewer
