import ArubaCertRenewer.Calls

/- Switch identities: `parse_identity` and `get_certificate_identities`. -/
namespace ArubaCertRenewer
open PyText

/-- `if b: raise e`. -/
def raiseWhen (b : Bool) (e : Exc) : Except Exc Unit := if b then .error e else .ok ()

@[simp] theorem raiseWhen_eq_ok {b : Bool} {e : Exc} {u : Unit} :
    raiseWhen b e = .ok u ↔ b = false := by
  cases b <;> simp [raiseWhen]

theorem bind_of_ok {ε α β : Type} (a : α) (f : α → Except ε β) : (Except.ok a >>= f) = f a := rfl

/-- What a sequence of checks accepted passed each of them. -/
theorem bind_eq_ok {ε α β : Type} {x : Except ε α} {f : α → Except ε β} {b : β} :
    (x >>= f) = .ok b ↔ ∃ a, x = .ok a ∧ f a = .ok b := by
  cases x with
  | error e => exact ⟨fun h => (nomatch h), fun ⟨_, h, _⟩ => (nomatch h)⟩
  | ok a => exact ⟨fun h => ⟨a, rfl, h⟩, fun ⟨_, ha, h⟩ => Except.ok.inj ha ▸ h⟩

theorem length_of_mapM {α β ε : Type} {f : α → Except ε β} {xs : List α} {ys : List β}
    (h : xs.mapM f = .ok ys) : ys.length = xs.length := by
  induction xs generalizing ys with
  | nil =>
    cases h
    rfl
  | cons x xs ih =>
    rw [List.mapM_cons] at h
    obtain ⟨y, -, h⟩ := bind_eq_ok.mp h
    obtain ⟨zs, hzs, h⟩ := bind_eq_ok.mp h
    cases h
    rw [List.length_cons, List.length_cons, ih hzs]

def isAlnumAscii (c : Char) : Bool :=
  ('A' ≤ c && c ≤ 'Z') || ('a' ≤ c && c ≤ 'z') || ('0' ≤ c && c ≤ '9')

/-- `[A-Za-z0-9](?:[A-Za-z0-9-]{0,61}[A-Za-z0-9])?`, the whole text. -/
def isDnsLabel (t : Text) : Bool :=
  t.length ≤ 63 && t.head?.any isAlnumAscii && t.getLast?.any isAlnumAscii &&
    t.all fun c => isAlnumAscii c || c == '-'

inductive IdentityKind where
  | dns | ipv4 | ipv6
  deriving DecidableEq, Repr

inductive IdentityKey where
  | dns (canonical : Text)
  | ip (address : IpAddress)
  deriving DecidableEq, Repr

structure Identity where
  kind : IdentityKind
  value : Text
  key : IdentityKey
  deriving DecidableEq, Repr

def parseIdentity (value fieldName : Text) : Except Exc Identity := do
  raiseWhen
    (value.isEmpty || 253 < value.length || value.any fun c => isSpace c || c.toNat < 32)
    (valueError (fieldName ++ " contains unsupported characters"))
  match IpAddress.ofText value with
  | some (.v4 ip) => .ok ⟨.ipv4, (IpAddress.v4 ip).str, .ip (.v4 ip)⟩
  | some (.v6 ip scope) => .ok ⟨.ipv6, (IpAddress.v6 ip scope).str, .ip (.v6 ip scope)⟩
  | none =>
    -- a colon or an all-numeric dotted text is a malformed address, never a DNS name
    raiseWhen (value.contains ':' || value.all fun c => ('0' ≤ c && c ≤ '9') || c == '.')
      (valueError (fieldName ++ " is not a valid IP address"))
    raiseWhen (value.contains '*' || (splitOn '.' value).any fun l => !isDnsLabel l)
      (valueError (fieldName ++ " is not a valid DNS hostname"))
    let canonical := value.map lowerAscii
    .ok ⟨.dns, canonical, .dns canonical⟩

/-- A validated `[[switches]]` entry. -/
structure Switch where
  name : Text
  host : Text
  additionalSans : List Text
  username : Option Text
  passwordFile : Option Text
  sshKnownHostsFile : Text

structure CertificateIdentities where
  commonName : Text
  dnsNames : List Text
  ipAddresses : List Text

/-- The identities of the texts whose key was not seen before, in order. -/
def distinctIdentities (seen : List IdentityKey) : List Text → Except Exc (List Identity)
  | [] => .ok []
  | v :: vs => do
    let identity ← parseIdentity v "switch identity"
    if seen.contains identity.key then distinctIdentities seen vs
    else return identity :: (← distinctIdentities (identity.key :: seen) vs)

def getCertificateIdentities (switch : Switch) : Except Exc CertificateIdentities := do
  let identities ← distinctIdentities [] (switch.host :: switch.additionalSans)
  return {
    commonName := (identities.head?.map Identity.value).getD []
    dnsNames := (identities.filter (·.kind == .dns)).map Identity.value
    ipAddresses := (identities.filter (·.kind != .dns)).map Identity.value }

def validateSwitchSigningIdentity (switch : Switch) : Except Exc CertificateIdentities :=
  getCertificateIdentities switch

/-- `_check_output_size`. -/
def checkOutputSize (output : Text) (limit : Nat) (label : Text) : Except Exc Unit :=
  raiseWhen (limit < utf8Length output)
    (valueError (label ++ " output exceeds " ++ ofNat limit ++ " bytes"))

/-- `validate_cli_identifier`: `[A-Za-z0-9][A-Za-z0-9_.-]*`. -/
def isCliIdentifier (value : Text) : Bool :=
  value.head?.any isAlnumAscii &&
    value.all fun c => isAlnumAscii c || c == '_' || c == '.' || c == '-'

def validateCliIdentifier (value fieldName : Text) : Except Exc Unit :=
  raiseWhen (!isCliIdentifier value) (valueError (fieldName ++ " contains unsupported characters"))

end ArubaCertRenewer
