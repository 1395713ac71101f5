import ArubaCertRenewer.Install

/- The OPNsense client: its requests, the checks on what it sends and on what it
   is answered, and `sign_pending_csr`. -/
namespace ArubaCertRenewer
open PyText Effects Effects.Py

def caListPath : Text := "/api/trust/cert/ca_list"
def certAddPath : Text := "/api/trust/cert/add"

/-- `CERTIFICATE_PATH.format(uuid=uuid)`. -/
def certificatePath (uuid : Text) : Text := "/api/trust/cert/generate_file/" ++ uuid ++ "/crt"

def maxResponseBytes : Nat := 1024 * 1024
def maxCertificatePemBytes : Nat := 64 * 1024
def maxOpnsenseSignRequestBytes : Nat := 144 * 1024
def maxDescriptionChars : Nat := 255
def maxSanEntries : Nat := 101

/-- `OPNsenseAPIError`, which nothing tells from a `ValueError`. -/
def opnsenseApiError (message : Text) : Exc := valueError message

/-! JSON. -/

namespace Json

def hexDigit (n : Nat) : Char :=
  if n < 10 then Char.ofNat (48 + n) else Char.ofNat (87 + n)

/-- `\uXXXX` of one UTF-16 code unit. -/
def unicodeEscape (n : Nat) : Text :=
  ['\\', 'u', hexDigit (n / 4096 % 16), hexDigit (n / 256 % 16), hexDigit (n / 16 % 16),
    hexDigit (n % 16)]

def escapeChar (c : Char) : Text :=
  let n := c.toNat
  if c == '"' then ['\\', '"']
  else if c == '\\' then ['\\', '\\']
  else if c == '\n' then ['\\', 'n']
  else if c == '\r' then ['\\', 'r']
  else if c == '\t' then ['\\', 't']
  else if n == 12 then ['\\', 'f']
  else if n == 8 then ['\\', 'b']
  else if 32 ≤ n && n ≤ 126 then [c]
  else if n < 0x10000 then unicodeEscape n
  else unicodeEscape (0xd800 + (n - 0x10000) / 1024) ++ unicodeEscape (0xdc00 + (n - 0x10000) % 1024)

def quote (t : Text) : Text := "\"" ++ t.flatMap escapeChar ++ "\""

mutual

/-- `json.dumps`. -/
def dumps : Json → Text
  | null => "null"
  | bool true => "true"
  | bool false => "false"
  | int n => ofInt n
  | float printed => printed
  | str t => quote t
  | arr items => "[" ++ join ", " (dumpsItems items) ++ "]"
  | obj members => "\x7b" ++ join ", " (dumpsMembers members) ++ "\x7d"

def dumpsItems : List Json → List Text
  | [] => []
  | j :: js => dumps j :: dumpsItems js

def dumpsMembers : List (Text × Json) → List Text
  | [] => []
  | (k, j) :: js => (quote k ++ ": " ++ dumps j) :: dumpsMembers js

end

def asStr : Json → Option Text
  | str t => some t
  | _ => none

end Json

/-- `response.get(key)`. -/
def member (members : List (Text × Json)) (key : Text) : Option Json := members.lookup key

/-- `response.get(key)` when it is a text. -/
def textMember (members : List (Text × Json)) (key : Text) : Option Text :=
  (member members key).bind Json.asStr

/-! Requests. -/

/-- What an exception of a request becomes: `URLError` and `TimeoutError` are `OSError`s. -/
def requestError (e : Exc) : Exc :=
  match e with
  | .std { os := some { httpCode := some code, .. }, .. } =>
    opnsenseApiError ("OPNsense API request failed with HTTP " ++ ofNat code)
  | .std { os := some _, .. } => opnsenseApiError "OPNsense API connection failed"
  | e => e

def checkRequestSize (path : Text) : Option Json → Except Exc Unit
  | none => .ok ()
  | some payload =>
    raiseWhen (path == certAddPath && maxOpnsenseSignRequestBytes < payload.dumps.length)
      (opnsenseApiError "OPNsense signing request exceeds the size limit")

def parseResponse (P : Platform) (data : Bytes) : Except Exc (List (Text × Json)) := do
  raiseWhen (maxResponseBytes < data.length)
    (opnsenseApiError "OPNsense API response is too large")
  match P.jsonLoads data with
  | none => .error (opnsenseApiError "OPNsense API returned malformed JSON")
  | some (.obj members) => return members
  | some _ => .error (opnsenseApiError "OPNsense API returned an invalid JSON response")

/-- `_request_json`; `onDispatch` runs right before the request is opened. -/
def requestJson (P : Platform) (method path : Text) (payload : Option Json)
    (onDispatch : Act Log Unit) : Act Log (List (Text × Json)) := do
  result (checkRequestSize path payload)
  let data ← handle
    (do
      onDispatch
      within (ask (.openUrl method path payload) fun r => r)
        (fun _ inFlight => ask (.closeResponse inFlight) fun r => r) fun _ =>
          ask (.readResponse (maxResponseBytes + 1)) fun r => r)
    fun e => throw (requestError e)
  result (parseResponse P data)

/-! Checks on texts, names and references. -/

/-- The code points of the categories Cc, Cf, Zl and Zp, as ranges. -/
def unsafeTextRanges : List (Nat × Nat) :=
  [(0, 0x1f), (0x7f, 0x9f), (0xad, 0xad), (0x600, 0x605), (0x61c, 0x61c), (0x6dd, 0x6dd),
    (0x70f, 0x70f), (0x890, 0x891), (0x8e2, 0x8e2), (0x180e, 0x180e), (0x200b, 0x200f),
    (0x2028, 0x202e), (0x2060, 0x2064), (0x2066, 0x206f), (0xfeff, 0xfeff), (0xfff9, 0xfffb),
    (0x110bd, 0x110bd), (0x110cd, 0x110cd), (0x13430, 0x1343f), (0x1bca0, 0x1bca3),
    (0x1d173, 0x1d17a), (0xe0001, 0xe0001), (0xe0020, 0xe007f)]

def isUnsafeText (c : Char) : Bool := unsafeTextRanges.any fun (a, b) => a ≤ c.toNat && c.toNat ≤ b

/-- `_validate_safe_text`. -/
def validateSafeText (value label : Text) : Except Exc Unit := do
  raiseWhen (maxDescriptionChars < value.length)
    (opnsenseApiError (label ++ " exceeds the size limit"))
  raiseWhen (strip value).isEmpty (opnsenseApiError (label ++ " must be non-empty text"))
  raiseWhen (value.any isUnsafeText) (opnsenseApiError (label ++ " contains unsafe characters"))

/-- `[0-9a-f]{13}`. -/
def isCaReference (t : Text) : Bool :=
  t.length == 13 && t.all fun c => ('0' ≤ c && c ≤ '9') || ('a' ≤ c && c ≤ 'f')

def checkDnsSan (name : Text) : Except Exc Unit := do
  raiseWhen (name.isEmpty || 253 < name.length) (opnsenseApiError "DNS SAN is invalid")
  raiseWhen ((name.all fun c => ('0' ≤ c && c ≤ '9') || c == '.') ||
      (splitOn '.' name).any fun label => !isDnsLabel label)
    (opnsenseApiError "DNS SAN is invalid")

def checkDnsSans : List Text → List Text → Except Exc Unit
  | _, [] => .ok ()
  | seen, name :: names => do
    checkDnsSan name
    let canonical := name.map lowerAscii
    raiseWhen (seen.contains canonical) (opnsenseApiError "DNS SAN is duplicated")
    checkDnsSans (canonical :: seen) names

/-- The canonical texts of the IP names. -/
def canonicalIpSans : List Text → List Text → Except Exc (List Text)
  | _, [] => .ok []
  | seen, value :: values => do
    raiseWhen (value.isEmpty || 64 < value.length || value.contains '%')
      (opnsenseApiError "IP SAN is invalid")
    match IpAddress.ofText value with
    | none => .error (opnsenseApiError "IP SAN is invalid")
    | some address =>
      raiseWhen (seen.contains address.str) (opnsenseApiError "IP SAN is duplicated")
      return address.str :: (← canonicalIpSans (address.str :: seen) values)

/-- `_validate_sans`, the canonical IP names its result. -/
def validateSans (dnsNames ipAddresses : List Text) : Except Exc (List Text) := do
  let count := dnsNames.length + ipAddresses.length
  raiseWhen (count < 1 || maxSanEntries < count)
    (opnsenseApiError "SAN count must be between 1 and 101")
  checkDnsSans [] dnsNames
  canonicalIpSans [] ipAddresses

/-! UUIDs. -/

/-- Every occurrence of a text taken out, as `text.replace(part, "")`. -/
def removeAll (part : Text) : Nat → Text → Text
  | 0, t => t
  | _, [] => []
  | n + 1, c :: cs =>
    if part.isPrefixOf (c :: cs) then removeAll part n ((c :: cs).drop part.length)
    else c :: removeAll part n cs

def hexValue (c : Char) : Option Nat :=
  if 'a' ≤ c && c ≤ 'f' then some (c.toNat - 87)
  else if 'A' ≤ c && c ≤ 'F' then some (c.toNat - 55)
  else decimal? c

/-- Digits of base 16, single underscores between them. -/
def hexDigits (acc : Nat) : Text → Option Nat
  | [] => some acc
  | ['_'] => none
  | '_' :: c :: cs => (hexValue c).bind fun d => hexDigits (16 * acc + d) cs
  | c :: cs => (hexValue c).bind fun d => hexDigits (16 * acc + d) cs

/-- `int(text, 16)` of a text without `-`. -/
def intBase16 (t : Text) : Option Nat :=
  let unsigned := match strip t with
    | '+' :: cs => cs
    | cs => cs
  match unsigned with
  | '0' :: 'x' :: cs | '0' :: 'X' :: cs =>
    match cs with
    | [] => none
    | '_' :: c :: cs => hexDigits 0 (c :: cs)
    | cs => hexDigits 0 cs
  | [] => none
  | '_' :: _ => none
  | cs => hexDigits 0 cs

def hexPadded : Nat → Nat → Text
  | 0, _ => []
  | width + 1, n => hexPadded width (n / 16) ++ [Json.hexDigit (n % 16)]

/-- `str(uuid.UUID(text))`. -/
def canonicalUuid (t : Text) : Option Text :=
  let bare := removeAll "uuid:" t.length (removeAll "urn:" t.length t)
  let isBrace := fun c : Char => c.toNat == 123 || c.toNat == 125
  let unbraced := ((bare.dropWhile isBrace).reverse.dropWhile isBrace).reverse
  let hex := unbraced.filter (· != '-')
  if hex.length != 32 then none
  else (intBase16 hex).map fun n =>
    let digits := hexPadded 32 n
    join "-" [digits.take 8, (digits.drop 8).take 4, (digits.drop 12).take 4,
      (digits.drop 16).take 4, digits.drop 20]

/-! The client. -/

/-- The references of the CAs with the description, from the rows of the answer. -/
def matchingReferences (description : Text) : List Json → Except Exc (List Text)
  | [] => .ok []
  | row :: rows =>
    let malformed := opnsenseApiError "OPNsense CA list response is malformed"
    match row with
    | .obj members =>
      match textMember members "descr", textMember members "caref" with
      | some descr, some caref => do
        let rest ← matchingReferences description rows
        return if descr == description then caref :: rest else rest
      | _, _ => .error malformed
    | _ => .error malformed

def caReferenceOf (description : Text) (response : List (Text × Json)) : Except Exc Text := do
  let malformed := opnsenseApiError "OPNsense CA list response is malformed"
  match member response "rows", member response "count" with
  | some (.arr rows), some (.int count) =>
    raiseWhen (count != rows.length) malformed
    match ← matchingReferences description rows with
    | [] => .error (opnsenseApiError "OPNsense CA description was not found")
    | [caref] =>
      raiseWhen (!isCaReference caref)
        (opnsenseApiError "OPNsense returned an invalid CA reference")
      return caref
    | _ => .error (opnsenseApiError "OPNsense CA description is not unique")
  | _, _ => .error malformed

/-- `OPNsenseClient(base_url)`. -/
def openOpnsenseClient {σ : Type} (settings : OpnsenseSettings) : Act σ Unit := do
  let _ ← result (validateBaseUrl settings.baseUrl)
  ask .loadAuthorization fun r => r
  let _ ← createClientTlsContext none

def resolveCa (P : Platform) (description : Text) : Act Log Text := do
  result (validateSafeText description "OPNsense CA description")
  let response ← requestJson P "GET" caListPath none (pure ())
  result (caReferenceOf description response)

open Regex in
/-- The PEM text of a request, as `sign_csr` accepts it. -/
def csrRequestPattern : Regex :=
  let base64 := plus (char isBase64)
  seqs [lit "-----BEGIN CERTIFICATE REQUEST-----", crlf, base64, star true (seq crlf base64), crlf,
    lit "-----END CERTIFICATE REQUEST-----", crlf]

/-- What `sign_csr` checks before it sends anything, and the request it then sends. -/
def signRequest (csrPem caref : Text) (settings : OpnsenseSettings) (dnsNames ipAddresses : List Text)
    (description : Text) : Except Exc Json := do
  raiseWhen (maxCsrPemBytes < utf8Length csrPem) (opnsenseApiError "CSR PEM exceeds the size limit")
  raiseWhen (!isAscii csrPem) (opnsenseApiError "CSR PEM must be ASCII")
  raiseWhen (!fullmatch csrRequestPattern csrPem) (opnsenseApiError "CSR PEM is malformed")
  raiseWhen (!isCaReference caref) (opnsenseApiError "OPNsense CA reference is invalid")
  validateSafeText description "Certificate description"
  let ipAddresses ← validateSans dnsNames ipAddresses
  return .obj [("cert", .obj
    [("action", .str "sign_csr"),
     ("caref", .str caref),
     ("digest", .str settings.digest),
     ("cert_type", .str "server_cert"),
     ("lifetime", .int settings.lifetimeDays),
     ("key_type", .str "2048"),
     ("csr_payload", .str csrPem),
     ("altnames_dns", .str (join "\n" dnsNames)),
     ("altnames_ip", .str (join "\n" ipAddresses)),
     ("descr", .str description)])]

/-- The UUID a saved certificate is answered with. -/
def savedUuid (response : List (Text × Json)) : Except Exc Text := do
  raiseWhen (textMember response "result" != some "saved".toList)
    (opnsenseApiError "OPNsense did not save the signed certificate")
  let bad := opnsenseApiError "OPNsense response did not contain a valid UUID"
  match textMember response "uuid" with
  | none => .error bad
  | some certificateUuid =>
    match canonicalUuid certificateUuid with
    | none => .error bad
    | some parsed =>
      raiseWhen (parsed != casefold certificateUuid) bad
      return parsed

def signCsr (P : Platform) (csrPem caref : Text) (settings : OpnsenseSettings)
    (dnsNames ipAddresses : List Text) (description : Text) : Act Log Text := do
  let payload ← result (signRequest csrPem caref settings dnsNames ipAddresses description)
  let response ← requestJson P "POST" certAddPath (some payload) (progress .issuanceDispatched)
  result (savedUuid response)

/-- The certificate text of an answer: its payload stripped, and one line end. -/
def certificatePayload (response : List (Text × Json)) : Except Exc Text := do
  let malformed := opnsenseApiError "OPNsense public certificate response is malformed"
  match textMember response "payload" with
  | none => .error malformed
  | some payload =>
    raiseWhen (textMember response "status" != some "ok".toList) malformed
    raiseWhen (!isAscii payload)
      (opnsenseApiError "OPNsense public certificate response is not ASCII")
    raiseWhen (strip payload).isEmpty malformed
    let certificatePem := strip payload ++ "\n"
    raiseWhen (maxCertificatePemBytes < certificatePem.length)
      (opnsenseApiError "OPNsense public certificate payload exceeds the size limit")
    return certificatePem

def getCertificate (P : Platform) (certificateUuid : Text) : Act Log Text := do
  match canonicalUuid certificateUuid with
  | none => throw (opnsenseApiError "Certificate UUID is invalid")
  | some uuid =>
    let response ← requestJson P "POST" (certificatePath uuid) (some (.obj [])) (pure ())
    result (certificatePayload response)

/-! `sign_pending_csr`. -/

def buildOpnsenseCertificateDescription (certificateName commonName : Text) : Text :=
  ("Aruba Web certificate " ++ certificateName ++ " for " ++ commonName).take maxDescriptionChars

/-- The pending CSR, retrieved and checked again. -/
def retrievePendingCsr (P : Platform) (switch : Switch) (credentials : Credentials)
    (certificateName : Text) (settings : CsrSettings) : Act Log Csr := do
  progress .csrRetrievalStarted
  let csrPem ← retrieveCsr P switch credentials certificateName settings
  let csr ← result (validateCsrPem P csrPem switch settings)
  progress .csrRetrieved
  return csr

/-- The exchange with OPNsense: the CA, the signature, the certificate. -/
def obtainCertificate (P : Platform) (csr : Csr) (identities : CertificateIdentities)
    (description : Text) (opnsense : OpnsenseSettings) : Act Log Text := do
  progress .signingPreparation
  openOpnsenseClient opnsense
  let caref ← resolveCa P opnsense.ca
  let certificateUuid ← signCsr P csr.pem caref opnsense identities.dnsNames identities.ipAddresses
    description
  progress .issuanceConfirmed
  let certificatePem ← getCertificate P certificateUuid
  progress .certificateRetrieved
  return certificatePem

def signPendingCsr (P : Platform) (switch : Switch) (credentials : Credentials)
    (certificateName : Text) (settings : CsrSettings) (opnsense : OpnsenseSettings)
    (minimumRemainingDays : Option Nat) : Act Log Text := do
  let identities ← result (validateSwitchSigningIdentity switch)
  let description := buildOpnsenseCertificateDescription certificateName identities.commonName
  let csr ← retrievePendingCsr P switch credentials certificateName settings
  let certificatePem ← obtainCertificate P csr identities description opnsense
  let _ ← validateIssuedCertificate P certificatePem csr switch opnsense.lifetimeDays opnsense.digest
    true minimumRemainingDays
  progress .issuedValidated
  return certificatePem

end ArubaCertRenewer
