import ArubaCertRenewer.Gate

/- Environments for runs that are played: a site at which no call fails.

   What such a site still chooses is what a switch shows, what OPNsense answers,
   what the live endpoint presents and what the clocks say, each from the history
   so far. `site` is one at which a whole renewal succeeds. -/
namespace ArubaCertRenewer
open PyText Effects Effects.Py

structure Site where
  summary : History World → Text
  details : History World → Text
  response : History World → Bytes
  leaf : Bytes
  now : Int
  day : Int

/-- What `fstat` says of the lock directory and of the lock file. -/
def lockMetadata (fd : Nat) : Metadata :=
  if fd == 3 then ⟨false, true, 0o700, 2, 0, 0, 0, 1, 1⟩ else ⟨true, false, 0o600, 1, 0, 0, 0, 1, 2⟩

/-- The environment of a site: every call succeeds. -/
def Site.calm (site : Site) : Environment World := fun h c =>
  match c with
  | .pathExists _ => .ok false
  | .resolvePath path _ => .ok path
  | .openSecureFile _ _ | .openInputFile _ | .closeFile | .createFile _ | .writeFile _
  | .writeSnapshot _ _ | .rmtree _ | .openPasswordFile _ | .closePasswordFile => .ok ()
  | .inputIsRegular => .ok true
  | .readFile _ | .readPassword _ => .ok [97]
  | .mkdtemp => .ok "/tmp/known-hosts"
  | .statDirectory _ => .ok 0o700
  | .inputUsername | .getpass => .ok "admin"
  | .connect _ | .disconnect _ | .enterReadBudget _ | .exitReadBudget _ | .configMode
  | .exitConfigMode | .writeChannel _ => .ok ()
  | .basePrompt => ("switch" : Text)
  | .sendCommand command =>
    .ok (if command == summaryCommand then site.summary h else site.details h)
  | .sendCommandTiming command =>
    .ok (if command == installCommand then certificatePastePrompt else [])
  | .readChannelTiming => .ok certificateReplacementPrompt
  | .poisoned => false
  | .loadAuthorization | .openUrl _ _ _ | .closeResponse _ => .ok ()
  | .createTlsContext _ => .ok ⟨true, true⟩
  | .readResponse _ => .ok (site.response h)
  | .verifyServer _ _ _ => .ok none
  | .utcNow => site.now
  | .today => site.day
  | .monotonic => (0 : Rat)
  | .sleep _ => ()
  | .resolveHostname host _ => .ok [⟨.inet, host⟩]
  | .openSocket _ | .setTimeout _ | .connectSocket _ | .wrapSocket _ | .closeTls _
  | .closeSocket _ => .ok ()
  | .getPeerCert => .ok site.leaf
  | .openLockDirectory => .ok (3 : Nat)
  | .openLockFile _ _ => .ok (4 : Nat)
  | .fstat fd => .ok (lockMetadata fd)
  | .flock _ | .closeFd _ => .ok ()
  | .statLockPath _ _ => .ok (lockMetadata 4)
  | .openDevnull | .closeDevnull _ => .ok ()

/-! A renewal that goes well, on 2020-01-01. -/

def activeRow : Text := " active-cert  Web  2020/01/31  default-ta\n"
def pendingRow : Text := " webcert-20200101-01  Web  CSR  default-ta\n"
def installedRow : Text := " webcert-20200101-01  Web  2020/12/31  default-ta\n"

def csrPemText : Text :=
  "-----BEGIN CERTIFICATE REQUEST-----\nAA==\n-----END CERTIFICATE REQUEST-----\n"

def certificatePemText : Text := "-----BEGIN CERTIFICATE-----\nAA==\n-----END CERTIFICATE-----"

/-- 2020-01-01, in days since the epoch. -/
def newYear : Int := 18262

def site : Site where
  summary h :=
    if (marks h).any Mark.isInstall then activeRow ++ installedRow
    else if (marks h).any Mark.isCreateCsr then activeRow ++ pendingRow
    else activeRow
  details h := if (marks h).any Mark.isInstall then "Certificate Detail:\n" else csrPemText
  response
    | ⟨.openUrl _ path _, _⟩ :: _ =>
      if path == caListPath then [0] else if path == certAddPath then [1] else [2]
    | _ => []
  leaf := [7]
  now := newYear * dayMicros
  day := newYear

def siteSwitch : Switch := ⟨"lab", "switch.example", [], some "admin", none, "/known_hosts"⟩

def siteCredentials : Credentials := ⟨"admin", "secret"⟩

theorem siteKeySize_ok : ("2048" : Text) = "2048" ∨ ("2048" : Text) = "2048.0" := .inl rfl

def siteCsrSettings : CsrSettings where
  organization := "Org"
  organizationalUnit := "Unit"
  locality := "City"
  state := "State"
  country := "US"
  keySize := "2048"
  organization_ok := by decide
  organizationalUnit_ok := by decide
  locality_ok := by decide
  state_ok := by decide
  country_ok := by decide
  keySize_ok := siteKeySize_ok

def siteOpnsense : OpnsenseSettings where
  baseUrl := "https://fw.example"
  ca := "Lab CA"
  lifetimeDays := 365
  digest := "sha256"
  lifetime_ok := by decide
  digest_ok := by decide

def siteCa : VerificationCaSnapshot := ⟨"/ca.pem", [97]⟩

def siteSubject : Name :=
  (expectedSubject "switch.example" siteCsrSettings).map fun (oid, _, value) => [⟨oid, value⟩]

def siteCsr : Csr where
  publicKey := .ok ⟨true, 2048, [1]⟩
  signatureOid := oidRsaWithSha256
  verify _ := .valid
  subject := .ok siteSubject
  attributes := .ok []
  extensions := .ok []
  pem := csrPemText

def siteCertificate : Certificate where
  publicKey := .ok ⟨true, 2048, [1]⟩
  subject := .ok siteSubject
  extensions := .ok ⟨some [.dns "switch.example"], some false, some issuedEkuOids,
    some ⟨true, true, false, false, false, false, false⟩⟩
  notValidBeforeUtc := newYear * dayMicros
  notValidAfterUtc := (newYear + 365) * dayMicros
  signatureHash := .ok (some "sha256")
  signatureOid := "1.2.840.113549.1.1.11"
  der := [7]
  sha256 := "00"

/-- A platform on which the site's answers parse; `payload` is what OPNsense answers with. -/
def sitePlatform (payload : Text) : Platform where
  loadPemX509Csr _ := .ok siteCsr
  loadPemX509Certificates _ := .ok [siteCertificate]
  loadPemX509Certificate _ := .ok siteCertificate
  tomlLoads _ := none
  jsonLoads
    | [0] => some (.obj [("rows", .arr [.obj [("descr", .str "Lab CA"),
        ("caref", .str "0123456789abc")]]), ("count", .int 1)])
    | [1] => some (.obj [("result", .str "saved"),
        ("uuid", .str "01234567-89ab-cdef-0123-456789abcdef")])
    | [2] => some (.obj [("status", .str "ok"), ("payload", .str payload)])
    | _ => none
  sha256Hexdigest := id
  repr := id
  environ _ := some "secret"
  euid := 0
  egid := 0
  liveAttempts := 17

end ArubaCertRenewer
