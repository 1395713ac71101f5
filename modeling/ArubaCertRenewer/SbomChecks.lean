import ArubaCertRenewer.PyQuery

/- `validate_spdx` of `release_candidate.py`: what the SBOM of a release candidate must say.

   The document is any JSON object. A `CandidateError` is `PyError.raised`; the other
   errors are those of Python's operations on values that do not have them. -/
namespace ArubaCertRenewer
open PyValue

def identityMaxBytes : Nat := 512
def expectedSbomName : Str := "aruba-cert-renewer"

/-- `_bounded_string` with its default bound -/
def boundedString (value : Option Value) (name : Str) : Except PyError Str :=
  match value with
  | some (.str s) => do
    rejectWhen s.isEmpty (name ++ " must be a non-empty bounded string")
    let length ← encodedLength s
    rejectWhen (identityMaxBytes < length) (name ++ " must be a non-empty bounded string")
    rejectWhen (s.any isControl) (name ++ " must not contain control characters")
    return s
  | _ => .error (.raised (name ++ " must be a non-empty bounded string"))

def isLowerHex (c : CodePoint) : Bool := (48 ≤ c.val && c.val ≤ 57) || (97 ≤ c.val && c.val ≤ 102)

/-- `HASH_RE.fullmatch` -/
def isHash (s : Str) : Bool := s.length == 64 && s.all isLowerHex

/-- `DIGEST_RE.fullmatch` -/
def isSha256Digest (s : Str) : Bool :=
  List.isPrefixOf ("sha256:" : Str) s && isHash (s.drop 7)

/-! ## The document -/

def required : List (Str × Str) :=
  [("spdxVersion", "SPDX-2.3"), ("dataLicense", "CC0-1.0"), ("SPDXID", "SPDXRef-DOCUMENT")]

def checkRequired (document : Members) (_ : Unit) (field : Str × Str) : Except PyError Unit :=
  rejectWhen (!isStr (get document field.1) field.2)
    (("SBOM " : Str) ++ field.1 ++ " must equal " ++ field.2)

def sbomCreators (document : Members) : Except PyError (List Value) :=
  match get document "creationInfo" with
  | some (.obj creation) =>
    match get creation "creators" with
    | some (.arr creators) => do
      rejectWhen (creators.isEmpty || 32 < creators.length)
        "SBOM creators must be a non-empty bounded list"
      return creators
    | _ => .error (.raised "SBOM creators must be a non-empty bounded list")
  | _ => .error (.raised "SBOM creationInfo must be an object")

def checkCreator (_ : Unit) (creator : Value) : Except PyError Unit := do
  let _ ← boundedString (some creator) "SBOM creator"
  return ()

/-- A list of the document that is not empty and within its bound. -/
def boundedList (document : Members) (key : Str) (bound : Nat) : Except PyError (List Value) :=
  match get document key with
  | some (.arr items) => do
    rejectWhen (items.isEmpty || bound < items.length)
      (("SBOM " : Str) ++ key ++ " must be a non-empty bounded list")
    return items
  | _ => .error (.raised (("SBOM " : Str) ++ key ++ " must be a non-empty bounded list"))

def sbomPackages (document : Members) : Except PyError (List Value) :=
  boundedList document "packages" 100000

def sbomRelationships (document : Members) : Except PyError (List Value) :=
  boundedList document "relationships" 500000

/-- `package_by_id` after one package more. -/
def addPackage (packageById : List (Str × Members)) (package : Value) :
    Except PyError (List (Str × Members)) :=
  match package with
  | .obj members => do
    let packageId ← boundedString (get members "SPDXID") "package SPDXID"
    let _ ← boundedString (get members "name") "package name"
    rejectWhen (packageById.lookup packageId).isSome (("duplicate package SPDXID: " : Str) ++ packageId)
    return packageById ++ [(packageId, members)]
  | _ => .error (.raised "every SBOM package must be an object")

/-- `described` after one relationship more. -/
def addDescribed (described : List Str) (relationship : Value) : Except PyError (List Str) :=
  match relationship with
  | .obj members => do
    let source ← boundedString (get members "spdxElementId") "relationship source"
    let target ← boundedString (get members "relatedSpdxElement") "relationship target"
    let relation ← boundedString (get members "relationshipType") "relationship type"
    return if source == "SPDXRef-DOCUMENT" && relation == "DESCRIBES" then described ++ [target]
      else described
  | _ => .error (.raised "every SBOM relationship must be an object")

/-- The package that the document describes, with its ID. -/
def describedRoot (packageById : List (Str × Members)) (described : List Str) :
    Except PyError (Str × Members) :=
  match described with
  | [rootId] =>
    match packageById.lookup rootId with
    | some root => .ok (rootId, root)
    | none => .error (.raised "SBOM must describe exactly one package in the document")
  | _ => .error (.raised "SBOM must describe exactly one package in the document")

/-! ## The root package -/

def checkRoot (root : Members) (configDigest syftManifestDigest : Str) : Except PyError Unit := do
  rejectWhen (!isStr (get root "name") expectedSbomName) "SBOM describes the wrong image name"
  rejectWhen (!isStr (get root "primaryPackagePurpose") "CONTAINER")
    "SBOM root package must represent a container"
  rejectWhen (!isStr (get root "versionInfo") syftManifestDigest)
    "SBOM root version does not match the archive image"
  rejectWhen (!isSha256Digest configDigest) "archive config digest is invalid"

/-- The value, when it is a text that `HASH_RE` matches. -/
def hashValue (value : Option Value) : Option Str :=
  match value with
  | some (.str s) => if isHash s then some s else none
  | _ => none

/-- `image_checksums` after one checksum more. -/
def addChecksum (imageChecksums : List Str) (checksum : Value) : Except PyError (List Str) :=
  match checksum with
  | .obj members => do
    let known ← inSet (get members "algorithm") ["SHA256", "SHA-256"]
    return if known then imageChecksums ++ (hashValue (get members "checksumValue")).toList
      else imageChecksums
  | _ => .ok imageChecksums

/-- The one SHA-256 checksum of the root package. -/
def imageChecksum (root : Members) (syftManifestDigest : Str) : Except PyError Str := do
  let checksums ← iterated (get root "checksums")
  match ← checksums.foldlM addChecksum [] with
  | [checksum] =>
    rejectWhen (("sha256:" : Str) ++ checksum != syftManifestDigest)
      "SBOM root checksum does not match the archive image"
    return checksum
  | _ => .error (.raised "SBOM root must have exactly one SHA-256 image checksum")

/-- `all(len(values) == 1 and len(values[0].encode("utf-8")) <= IDENTITY_MAX_BYTES for ...)` -/
def allBounded : List (List Str) → Except PyError Bool
  | [] => .ok true
  | [value] :: rest => do
    if (← encodedLength value) ≤ identityMaxBytes then allBounded rest else return false
  | _ :: _ => .ok false

def queryNames : List Str := ["arch", "os", "repository_url", "tag"]

/-- `valid_query` -/
def validQuery (query : List (Str × List Str)) : Except PyError Bool := do
  if (query.lookup ("arch" : Str)).isSome && query.all fun q => queryNames.contains q.1 then
    if ← allBounded (query.map Prod.snd) then
      return (query.lookup ("tag" : Str)).getD ["release-candidate"] == [("release-candidate" : Str)]
    else return false
  else return false

/-- The locator of a reference that is a purl with a query. -/
def purlLocator (reference : Value) : Option Str :=
  match reference with
  | .obj members =>
    match get members "referenceLocator" with
    | some (.str locator) =>
      if isStr (get members "referenceCategory") "PACKAGE-MANAGER" &&
        isStr (get members "referenceType") "purl" then some locator else none
    | _ => none
  | _ => none

/-- `matching_purls` after one reference more. -/
def addPurl (checksum : Str) (matchingPurls : List Str) (reference : Value) :
    Except PyError (List Str) :=
  match purlLocator reference with
  | none => .ok matchingPurls
  | some locator =>
    match cutAtFirst (codePoint '?') locator with
    | none => .ok matchingPurls
    | some (identity, queryText) =>
      match parseQs queryText with
      | none => .error (.raised "SBOM OCI subject purl is malformed")
      | some query => do
        let valid ← validQuery query
        return if unquote identity == ("pkg:oci/" : Str) ++ expectedSbomName ++ "@sha256:" ++ checksum && valid
          then matchingPurls ++ [locator] else matchingPurls

def checkPurls (root : Members) (checksum : Str) : Except PyError Unit :=
  match get root "externalRefs" with
  | some (.arr references) => do
    let matchingPurls ← references.foldlM (addPurl checksum) []
    rejectWhen (matchingPurls.length != 1) "SBOM OCI subject does not identify the tested image"
  | _ => .error (.raised "SBOM root package has no external references")

/-- The relationship says that the root contains another package. -/
def containsPackage (rootId : Str) (packageIds : List Str) (relationship : Value) :
    Except PyError Bool :=
  match relationship with
  | .obj members => do
    if isStr (get members "spdxElementId") rootId &&
        isStr (get members "relationshipType") "CONTAINS" then
      if ← inSet (get members "relatedSpdxElement") packageIds then
        return !isStr (get members "relatedSpdxElement") rootId
      else return false
    else return false
  | _ => .ok false

def checkInventory (packages relationships : List Value) (rootId : Str) (packageIds : List Str) :
    Except PyError Unit := do
  if 1 < packages.length then
    let contains ← relationships.anyM (containsPackage rootId packageIds)
    rejectWhen (!contains) "SBOM root package does not contain its package inventory"

/-- `validate_spdx` -/
def validateSpdx (document : Members) (configDigest syftManifestDigest : Str) :
    Except PyError Unit := do
  required.foldlM (checkRequired document) ()
  let _ ← boundedString (get document "name") "SBOM name"
  let _ ← boundedString (get document "documentNamespace") "SBOM documentNamespace"
  let creators ← sbomCreators document
  creators.foldlM checkCreator ()
  let packages ← sbomPackages document
  let relationships ← sbomRelationships document
  let packageById ← packages.foldlM addPackage []
  let described ← relationships.foldlM addDescribed []
  let (rootId, root) ← describedRoot packageById described
  checkRoot root configDigest syftManifestDigest
  let checksum ← imageChecksum root syftManifestDigest
  checkPurls root checksum
  checkInventory packages relationships rootId (packageById.map Prod.fst)

end ArubaCertRenewer
