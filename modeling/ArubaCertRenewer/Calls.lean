import ArubaCertRenewer.Errors
import ArubaCertRenewer.Ipaddress
import ArubaCertRenewer.Py

/- What the program calls and what it can be answered with.

   Every call answers with a value or with an exception, and nothing here says
   which: the switch, the CA, the file system, the lock store, the clock and the
   live endpoint are all adversaries. The parsed certificates and requests are
   the fields the program reads of the `cryptography` objects, a field that can
   raise when it is read being an `Except`. `Platform` holds the pure functions
   of packages and of the process (PEM, TOML and JSON parsing, SHA-256, the
   environment); every statement holds whatever they are. -/
namespace ArubaCertRenewer
open PyText

abbrev Oid := Text

structure PublicKey where
  rsa : Bool
  keySize : Nat
  spki : Bytes
  deriving DecidableEq

structure NameAttribute where
  oid : Oid
  value : Text
  deriving DecidableEq

/-- A subject: its relative distinguished names, each a list of attributes. -/
abbrev Name := List (List NameAttribute)

inductive GeneralName where
  | dns (value : Text)
  | ip (address : IpAddress)
  | ipNetwork (printed : Text)
  | other
  deriving DecidableEq

structure CsrExtension where
  oid : Oid
  critical : Bool
  names : List GeneralName

inductive SignatureHash where
  | sha1 | sha256
  deriving DecidableEq

inductive Verification where
  | valid | invalidSignature | unsupportedAlgorithm
  deriving DecidableEq

/-- `x509.CertificateSigningRequest`. -/
structure Csr where
  publicKey : Except StdError PublicKey
  signatureOid : Oid
  verify : SignatureHash → Verification
  subject : Except StdError Name
  attributes : Except StdError (List Oid)
  extensions : Except StdError (List CsrExtension)
  pem : Text

structure KeyUsage where
  digitalSignature : Bool
  keyEncipherment : Bool
  contentCommitment : Bool
  dataEncipherment : Bool
  keyAgreement : Bool
  keyCertSign : Bool
  crlSign : Bool

structure Extensions where
  subjectAltName : Option (List GeneralName)
  basicConstraintsCa : Option Bool
  extendedKeyUsage : Option (List Oid)
  keyUsage : Option KeyUsage

/-- `x509.Certificate`; times are microseconds since the epoch. -/
structure Certificate where
  publicKey : Except StdError PublicKey
  subject : Except StdError Name
  extensions : Except StdError Extensions
  notValidBeforeUtc : Int
  notValidAfterUtc : Int
  signatureHash : Except StdError (Option Text)
  signatureOid : Oid
  der : Bytes
  sha256 : Text

inductive Json where
  | null
  | bool (b : Bool)
  | int (n : Int)
  | float (printed : Text)
  | str (t : Text)
  | arr (items : List Json)
  | obj (members : List (Text × Json))

inductive Toml where
  | string (t : Text)
  | integer (n : Int)
  | boolean (b : Bool)
  | float (printed : Text)
  | datetime (printed : Text)
  | array (items : List Toml)
  | table (members : List (Text × Toml))

structure Platform where
  loadPemX509Csr : Bytes → Except StdError Csr
  loadPemX509Certificates : Bytes → Except StdError (List Certificate)
  loadPemX509Certificate : Bytes → Except StdError Certificate
  tomlLoads : Bytes → Option (List (Text × Toml))
  jsonLoads : Bytes → Option Json
  sha256Hexdigest : Text → Text
  repr : Text → Text
  environ : Text → Option Text
  euid : Nat
  egid : Nat
  /-- The iterations of the live verification loop that a run may take. -/
  liveAttempts : Nat

/-- What `get_device_parameters` reads of a switch. -/
structure Device where
  host : Text
  username : Text
  password : Text
  altKeyFile : Text

structure TlsContext where
  checkHostname : Bool
  certRequired : Bool

inductive AddressFamily where
  | inet | inet6
  deriving DecidableEq

structure SocketAddress where
  family : AddressFamily
  host : Text

/-- The fields of `os.stat_result` the lock store reads. -/
structure Metadata where
  regular : Bool
  directory : Bool
  mode : Nat
  nlink : Nat
  size : Nat
  uid : Nat
  gid : Nat
  dev : Nat
  ino : Nat

inductive Call where
  -- local files
  | pathExists (path : Text)
  | resolvePath (path configFile : Text)
  | openSecureFile (path sourceName : Text)
  | openInputFile (path : Text)
  | inputIsRegular
  | readFile (limit : Nat)
  | closeFile
  | createFile (path : Text)
  | writeFile (text : Text)
  | mkdtemp
  | statDirectory (directory : Text)
  | writeSnapshot (path : Text) (contents : Bytes)
  | rmtree (directory : Text)
  -- credentials
  | inputUsername
  | getpass
  | openPasswordFile (path : Text)
  | readPassword (limit : Nat)
  | closePasswordFile
  -- the SSH connection to a switch
  | connect (device : Device)
  | disconnect (inFlight : Option Exc)
  | basePrompt
  | enterReadBudget (limit : Nat)
  | exitReadBudget (inFlight : Option Exc)
  | sendCommand (command : Text)
  | sendCommandTiming (command : Text)
  | configMode
  | exitConfigMode
  | writeChannel (data : Text)
  | readChannelTiming
  | poisoned
  -- the OPNsense API and certificate verification
  | loadAuthorization
  | createTlsContext (cadata : Option Text)
  | openUrl (method path : Text) (payload : Option Json)
  | readResponse (limit : Nat)
  | closeResponse (inFlight : Option Exc)
  | verifyServer (trusted : List Certificate) (identity : GeneralName) (certificate : Certificate)
  -- clocks
  | utcNow
  | today
  | monotonic
  | sleep (seconds : Rat)
  -- the live HTTPS endpoint
  | resolveHostname (host : Text) (deadline : Rat)
  | openSocket (family : AddressFamily)
  | setTimeout (seconds : Rat)
  | connectSocket (address : SocketAddress)
  | wrapSocket (serverHostname : Text)
  | getPeerCert
  | closeTls (inFlight : Option Exc)
  | closeSocket (inFlight : Option Exc)
  -- the lifecycle lock store
  | openLockDirectory
  | openLockFile (name : Text) (directory : Nat)
  | fstat (fd : Nat)
  | flock (fd : Nat)
  | statLockPath (name : Text) (directory : Nat)
  | closeFd (fd : Nat)
  -- structured output
  | openDevnull
  | closeDevnull (inFlight : Option Exc)

/-- The answer to a call. The calls of Python's own clocks and `getattr(connection,
"poisoned", False)` do not raise; every other call may raise anything. -/
def Call.Ans : Call → Type
  | pathExists _ => Except StdError Bool
  | resolvePath _ _ => Except StdError Text
  | openSecureFile _ _ => Except StdError Unit
  | openInputFile _ => Except StdError Unit
  | inputIsRegular => Except StdError Bool
  | readFile _ => Except StdError Bytes
  | closeFile => Except StdError Unit
  | createFile _ => Except StdError Unit
  | writeFile _ => Except StdError Unit
  | mkdtemp => Except StdError Text
  | statDirectory _ => Except StdError Nat
  | writeSnapshot _ _ => Except StdError Unit
  | rmtree _ => Except StdError Unit
  | inputUsername => Except StdError Text
  | getpass => Except StdError Text
  | openPasswordFile _ => Except StdError Unit
  | readPassword _ => Except StdError Bytes
  | closePasswordFile => Except StdError Unit
  | connect _ => Except StdError Unit
  | disconnect _ => Except StdError Unit
  | basePrompt => Text
  | enterReadBudget _ => Except StdError Unit
  | exitReadBudget _ => Except StdError Unit
  | sendCommand _ => Except StdError Text
  | sendCommandTiming _ => Except StdError Text
  | configMode => Except StdError Unit
  | exitConfigMode => Except StdError Unit
  | writeChannel _ => Except StdError Unit
  | readChannelTiming => Except StdError Text
  | poisoned => Bool
  | loadAuthorization => Except StdError Unit
  | createTlsContext _ => Except StdError TlsContext
  | openUrl _ _ _ => Except StdError Unit
  | readResponse _ => Except StdError Bytes
  | closeResponse _ => Except StdError Unit
  | verifyServer _ _ _ => Except StdError (Option Text)
  | utcNow => Int
  | today => Int
  | monotonic => Rat
  | sleep _ => Unit
  | resolveHostname _ _ => Except StdError (List SocketAddress)
  | openSocket _ => Except StdError Unit
  | setTimeout _ => Except StdError Unit
  | connectSocket _ => Except StdError Unit
  | wrapSocket _ => Except StdError Unit
  | getPeerCert => Except StdError Bytes
  | closeTls _ => Except StdError Unit
  | closeSocket _ => Except StdError Unit
  | openLockDirectory => Except StdError Nat
  | openLockFile _ _ => Except StdError Nat
  | fstat _ => Except StdError Metadata
  | flock _ => Except StdError Unit
  | statLockPath _ _ => Except StdError Metadata
  | closeFd _ => Except StdError Unit
  | openDevnull => Except StdError Unit
  | closeDevnull _ => Except StdError Unit

/-- The interface of every program below. -/
abbrev World : Effects.Interface := ⟨Call, Call.Ans⟩

/-- A computation of the program over variables `σ`. -/
abbrev Act (σ : Type) := Effects.Py World Exc σ

end ArubaCertRenewer
