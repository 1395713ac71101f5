import ArubaCertRenewer.Calls
import ArubaCertRenewer.Identity
import ArubaCertRenewer.Py
import ArubaCertRenewer.Regex

/- The publisher of a release, the job `publish` of `publish-container.yml`.

   A candidate that was validated is pushed under the alias of its version and
   copied to the alias of its source, unless an alias exists: then its digest is
   taken, after it was verified to be the candidate. `latest` comes last. The
   scripts run under `set -e`, so a command that fails ends the job. -/
namespace ArubaCertRenewer
open PyText Effects Effects.Py

/-! Docker. -/

/-- What a command printed, and its exit status. -/
structure CommandOutput where
  status : Nat
  stdout : Text
  stderr : Text
  deriving DecidableEq, Repr

inductive DockerCall where
  /-- `docker buildx imagetools inspect "$reference" --format '\x7b\x7b.Manifest\x7d\x7d'` -/
  | inspect (reference : Text)
  /-- `docker buildx imagetools inspect "$IMAGE_NAME@$digest" --raw` -/
  | inspectRaw (digest : Text)
  | pull (digest : Text)
  | imageId (digest : Text)
  | rootfsLayers (digest : Text)
  /-- `docker image tag "$CANDIDATE_IMAGE" "$reference"` -/
  | tag (reference : Text)
  | push (reference : Text)
  /-- `docker buildx imagetools create --prefer-index=false --tag "$destination"` -/
  | create (destination digest : Text)
  /-- The attestation of the build provenance, or of the SBOM. -/
  | attest (sbom : Bool) (digest : Text)
  deriving DecidableEq, Repr

/-- A command answers with its output, or with nothing when its status is not zero. -/
def DockerCall.Ans : DockerCall → Type
  | .inspect _ => CommandOutput
  | .inspectRaw _ => Option Bytes
  | .imageId _ | .rootfsLayers _ => Option Text
  | .pull _ | .tag _ | .push _ | .create _ _ | .attest _ _ => Option Unit

abbrev Docker : Interface := ⟨DockerCall, DockerCall.Ans⟩

/-- The alias a command writes. -/
def DockerCall.writes : DockerCall → Option Text
  | .push reference => some reference
  | .create destination _ => some destination
  | _ => none

/-- The shell and Python functions that the checks rest on: `sha256sum`, and `json.loads` of a file,
of an argument with the hooks of the first script, and of one with those of the second. -/
structure Tools where
  sha256 : Bytes → Text
  loads : Bytes → Option Json
  loadsArgument : Text → Option Json
  loadsPlain : Text → Option Json

/-! The candidate. -/

section patterns
open Regex

def hexDigit : Regex := char fun c => ('0' ≤ c && c ≤ '9') || ('a' ≤ c && c ≤ 'f')

def digestPattern : Regex := seq (lit "sha256:") (times 64 hexDigit)

def commitPattern : Regex := times 40 hexDigit

def decimalNumber : Regex :=
  alt (char (· == '0')) (seq (char fun c => '1' ≤ c && c ≤ '9') (star true (char fun c => '0' ≤ c && c ≤ '9')))

/-- `tag_pattern` -/
def tagPattern : Regex :=
  let alnum := plus (char isAlnumAscii)
  seqs [char (· == 'v'), decimalNumber, lit ".", decimalNumber, lit ".", decimalNumber,
    opt (seqs [lit "-", alnum, star true (seq (char fun c => c == '.' || c == '-') alnum)])]

def isDigest (t : Text) : Bool := fullmatch digestPattern t

end patterns

def imageName : Text := "ghcr.io/lloydsmart/aruba-cert-renewer"

/-- The metadata of a candidate, as `Validate verified release metadata` leaves it. -/
structure Candidate where
  releaseTag : Text
  commitSha : Text
  testedConfigDigest : Text
  archiveManifestDigest : Text
  candidateLayerDiffIds : Text
  publishLatest : Bool
  tagValid : fullmatch tagPattern releaseTag = true
  commitValid : fullmatch commitPattern commitSha = true

def Candidate.versionRef (c : Candidate) : Text := imageName ++ ":" ++ c.releaseTag
def Candidate.sourceRef (c : Candidate) : Text := imageName ++ ":sha-" ++ c.commitSha
def latestRef : Text := imageName ++ ":latest"

/-- The message of a check, or a command whose status ends the script. -/
inductive PublishError where
  | message (t : Text)
  | command
  deriving DecidableEq, Repr

/-- A publisher with its `publication_state`, which the exit trap reports. -/
abbrev Publisher (α : Type) := Py Docker PublishError Text α

/-- A command of the script: a status other than zero ends it. -/
def orFail {α : Type} : Option α → Except PublishError α
  | none => .error .command
  | some a => .ok a

def refuseWhen {E : Type} (b : Bool) (e : E) : Except E Unit := if b then .error e else .ok ()

/-! The state of an alias. -/

inductive AliasState where
  | absent
  | present (digest : Text)
  deriving DecidableEq, Repr

/-- `$(...)` and `$(<file)`: without NUL, and without the newlines at the end. -/
def captured (t : Text) : Text :=
  ((t.filter (· != Char.ofNat 0)).reverse.dropWhile (· == '\n')).reverse

/-- The fields of a line, as `awk` splits it. -/
def awkFields (line : Text) : List Text :=
  (splitOn ' ' (line.map fun c => if c == '\t' then ' ' else c)).filter (!·.isEmpty)

/-- `$1 == "Digest:" \x7b print $2 \x7d` -/
def digestField (line : Text) : Option Text :=
  match awkFields line with
  | first :: rest => if first = "Digest:".toList then some (rest.headD []) else none
  | [] => none

def printedDigest (stdout : Text) : Text :=
  captured (join ['\n'] ((splitOn '\n' stdout).filterMap digestField))

/-- `grep -c '^Digest:'` -/
def digestLines (stdout : Text) : Nat :=
  ((splitOn '\n' stdout).filter ("Digest:".toList.isPrefixOf ·)).length

/-- `inspect_alias`, after the registry was asked. -/
def aliasState (reference : Text) (o : CommandOutput) : Except PublishError AliasState := do
  refuseWhen (1048576 < utf8Length o.stdout || 1048576 < utf8Length o.stderr)
    (.message ("Registry diagnostic for " ++ reference ++ " exceeds its safety bound."))
  let stdout := captured o.stdout
  let stderr := captured o.stderr
  let ambiguous (why : Text) : PublishError :=
    .message ("Registry state for " ++ reference ++ " is ambiguous: " ++ why)
  if o.status = 0 then
    refuseWhen (!stderr.isEmpty) (ambiguous "successful inspection also wrote stderr.")
    refuseWhen (digestLines stdout != 1 || !isDigest (printedDigest stdout))
      (.message ("Registry returned a malformed manifest for " ++ reference ++ "."))
    return .present (printedDigest stdout)
  else
    refuseWhen (!stdout.isEmpty) (ambiguous "failed inspection also wrote stdout.")
    refuseWhen
      (stderr != "ERROR: " ++ reference ++ ": not found" &&
        stderr != "ERROR: " ++ reference ++ ": manifest unknown")
      (ambiguous stderr)
    return .absent

/-- `inspect_alias` -/
def inspectAlias (reference : Text) : Publisher AliasState := do
  let outcome ← perform (I := Docker) (.inspect reference)
  result (aliasState reference outcome)

/-! The identity of a digest. -/

def objectMembers : Json → Option (List (Text × Json))
  | .obj members => some members
  | _ => none

def arrayItems : Json → Option (List Json)
  | .arr items => some items
  | _ => none

def textValue : Json → Option Text
  | .str t => some t
  | _ => none

/-- `value.get(key)` of an object. -/
def field (members : List (Text × Json)) (key : Text) : Option Json := members.lookup key

/-- `value in {...}`; the script fails as well on a value without a hash. -/
def isOneOf (value : Option Json) (texts : List Text) : Bool := (value.bind textValue).any texts.contains

def isInteger (value : Option Json) (n : Int) : Bool :=
  match value with
  | some (.int m) => m == n
  | _ => false

/-- A positive integer, and not a boolean, within a bound. -/
def boundedSize (value : Option Json) (limit : Int) : Option Int :=
  match value with
  | some (.int n) => if 0 < n ∧ n ≤ limit then some n else none
  | _ => none

def digestText (value : Option Json) : Option Text := (value.bind textValue).filter isDigest

/-- A list of one to 128 digests. -/
def diffIds (value : Json) : Option (List Text) :=
  match value with
  | .arr items =>
    if items.isEmpty || 128 < items.length then none
    else items.mapM fun item => digestText (some item)
  | _ => none

def orInvalid {α : Type} (value : Option α) (text : Text) : Except Text α :=
  match value with
  | some a => .ok a
  | none => .error text

/-- The loop over the layer descriptors: the position, the digests and the total size so far. -/
def checkLayers (position : Nat) (seen : List Text) (total : Int) : List Json → Except Text Unit
  | [] => .ok ()
  | layer :: layers => do
    let invalid : Text := "layer descriptor " ++ ofNat position ++ " is invalid"
    let members ← orInvalid (objectMembers layer) invalid
    refuseWhen
      (!isOneOf (field members "mediaType")
        ["application/vnd.oci.image.layer.v1.tar+gzip",
          "application/vnd.docker.image.rootfs.diff.tar.gzip"])
      invalid
    let digest ← orInvalid (digestText (field members "digest")) invalid
    let size ← orInvalid (boundedSize (field members "size") (1024 * 1024 * 1024)) invalid
    refuseWhen (seen.contains digest) "layer descriptors repeat a compressed digest"
    refuseWhen (1024 * 1024 * 1024 < total + size) "compressed layers exceed their total bound"
    checkLayers (position + 1) (digest :: seen) (total + size) layers

/-- The config descriptor that a manifest holds. -/
def configMembers (manifest : Json) : Option (List (Text × Json)) :=
  (objectMembers manifest).bind fun members => (field members "config").bind objectMembers

/-- The config digest that a manifest names. -/
def configDigest (manifest : Json) : Option Text :=
  (configMembers manifest).bind fun config => (field config "digest").bind textValue

/-- The first script: the raw manifest is that of one image, the tested one. -/
def checkManifest (T : Tools) (c : Candidate) (raw : Bytes) : Except Text Unit := do
  let manifest ← orInvalid (T.loads raw) "not JSON"
  let members ← orInvalid (objectMembers manifest) "manifest is not an object"
  refuseWhen (!isInteger (field members "schemaVersion") 2) "schemaVersion is not 2"
  refuseWhen
    (!isOneOf (field members "mediaType")
      ["application/vnd.oci.image.manifest.v1+json",
        "application/vnd.docker.distribution.manifest.v2+json"])
    "an index or unsupported media type was returned"
  let config ← orInvalid (configMembers manifest) "config digest does not match the candidate"
  refuseWhen
    (configDigest manifest != some c.testedConfigDigest || !isDigest c.testedConfigDigest ||
      !isOneOf (field config "mediaType")
        ["application/vnd.oci.image.config.v1+json",
          "application/vnd.docker.container.image.v1+json"] ||
      (boundedSize (field config "size") (4 * 1024 * 1024)).isNone)
    "config digest does not match the candidate"
  let argument ← orInvalid (T.loadsArgument c.candidateLayerDiffIds) "not JSON"
  let expected ← orInvalid (diffIds argument) "candidate layer diff IDs are invalid"
  let layers ← orInvalid ((field members "layers").bind arrayItems)
    "manifest has no bounded single-image layer list"
  refuseWhen (layers.length != expected.length) "manifest has no bounded single-image layer list"
  checkLayers 0 [] 0 layers

/-- The second script: the layers of the pulled image are those of the candidate, in order. -/
def checkDiffIds (T : Tools) (c : Candidate) (pulled : Text) : Except Text Unit := do
  let expected ← orInvalid (T.loadsPlain c.candidateLayerDiffIds) "not JSON"
  let actual ← orInvalid (T.loadsPlain pulled) "not JSON"
  let expected ← orInvalid (diffIds expected) "candidate layer diff IDs are invalid"
  let actual ← orInvalid (diffIds actual) "pulled layer diff IDs are invalid"
  refuseWhen (actual != expected) "ordered layer diff IDs do not match the candidate"

/-- What a script prints before its status ends the job. -/
def scriptFails (context : Text) : Except Text Unit → Except PublishError Unit
  | .ok () => .ok ()
  | .error e => .error (.message (context ++ e))

/-- The checks on the raw manifest, and the first script. -/
def verifyRaw (T : Tools) (c : Candidate) (digest : Text) (raw : Bytes) : Except PublishError Unit := do
  refuseWhen (raw.isEmpty || 4194304 < raw.length)
    (.message ("Registry manifest size " ++ ofNat raw.length ++ " is outside its safety bound."))
  let actual := "sha256:" ++ T.sha256 raw
  refuseWhen (actual != digest)
    (.message ("Registry returned bytes hashing to " ++ actual ++ " for requested digest " ++ digest ++ "."))
  refuseWhen (!c.archiveManifestDigest.isEmpty && digest != c.archiveManifestDigest)
    (.message ("Registry manifest " ++ digest ++ " is not the candidate archive manifest " ++
      c.archiveManifestDigest ++ "."))
  scriptFails "Registry manifest identity is invalid: " (checkManifest T c raw)

/-- `verify_digest_identity` -/
def verifyDigestIdentity (T : Tools) (c : Candidate) (digest : Text) : Publisher Unit := do
  let answer ← perform (I := Docker) (.inspectRaw digest)
  let raw ← result (orFail answer)
  result (verifyRaw T c digest raw)
  let pulled ← perform (I := Docker) (.pull digest)
  result (orFail pulled)
  let answer ← perform (I := Docker) (.imageId digest)
  let pulledId ← result (orFail answer)
  result (refuseWhen (pulledId != c.testedConfigDigest)
    (.message ("Pulled registry content has config " ++ pulledId ++ "; expected candidate config " ++
      c.testedConfigDigest ++ ".")))
  let answer ← perform (I := Docker) (.rootfsLayers digest)
  let layers ← result (orFail answer)
  result (scriptFails "Pulled registry rootfs identity is invalid: " (checkDiffIds T c layers))

/-! The immutable aliases. -/

/-- `copy_alias`, and what `publication_state` says of it. -/
def copyAlias (digest destination state : Text) : Publisher Unit := do
  set state
  let answer ← perform (I := Docker) (.create destination digest)
  result (orFail answer)

/-- The outputs of the stage: the digest of both aliases, and where each comes from. -/
structure Published where
  digest : Text
  versionOrigin : Text
  sourceOrigin : Text
  deriving DecidableEq, Repr

/-- Both aliases exist. -/
def reuseAliases (T : Tools) (c : Candidate) (version source : Text) : Publisher Published := do
  raiseIf (version != source)
    (.message "Immutable aliases disagree. No aliases were changed; investigate the existing registry state.")
  set ("No mutation attempted by this run; both pre-existing aliases await identity verification at " ++
    version ++ ".")
  verifyDigestIdentity T c version
  return ⟨version, "reused", "reused"⟩

/-- Neither exists: the candidate is pushed under its version. -/
def publishAliases (T : Tools) (c : Candidate) : Publisher Published := do
  let tagged ← perform (I := Docker) (.tag c.versionRef)
  result (orFail tagged)
  set ("Mutation attempted; the remote outcome of version alias " ++ c.versionRef ++
    " is not established.")
  let pushed ← perform (I := Docker) (.push c.versionRef)
  result (orFail pushed)
  match ← inspectAlias c.versionRef with
  | .absent => throw .command
  | .present selected => do
    set ("Confirmed version alias publication by this run at " ++ selected ++
      "; source alias remains incomplete.")
    verifyDigestIdentity T c selected
    copyAlias selected c.sourceRef
      ("Mutation attempted; version publication is confirmed, but the remote outcome of source alias " ++
        c.sourceRef ++ " is not established.")
    return ⟨selected, "published", "published"⟩

/-- One exists, and the other is copied from it. -/
def completeAlias (T : Tools) (c : Candidate) (existing missing missingRef : Text) (p : Published) :
    Publisher Published := do
  set ("No mutation attempted by this run; pre-existing " ++ existing ++
    " alias awaits identity verification at " ++ p.digest ++ ".")
  verifyDigestIdentity T c p.digest
  copyAlias p.digest missingRef
    ("Mutation attempted; " ++ existing ++ " reuse is confirmed, but the remote outcome of " ++
      missing ++ " alias " ++ missingRef ++ " is not established.")
  return p

/-- The digest of the aliases, by what was found. -/
def selectDigest (T : Tools) (c : Candidate) : AliasState → AliasState → Publisher Published
  | .present version, .present source => reuseAliases T c version source
  | .absent, .absent => publishAliases T c
  | .present version, .absent =>
    completeAlias T c "version" "source" c.sourceRef ⟨version, "reused", "published"⟩
  | .absent, .present source =>
    completeAlias T c "source" "version" c.versionRef ⟨source, "published", "reused"⟩

/-- The postcheck of both aliases. -/
def confirmAliases (T : Tools) (c : Candidate) (p : Published) : Publisher Unit := do
  let version ← inspectAlias c.versionRef
  let source ← inspectAlias c.sourceRef
  raiseIf (version != .present p.digest || source != .present p.digest)
    (.message ("Immutable alias postcheck failed. Selected digest " ++ p.digest ++
      "; inspect both aliases."))
  let confirmed : Text := "Confirmed immutable aliases at " ++ p.digest ++ " (version: " ++
    p.versionOrigin ++ "; source: " ++ p.sourceOrigin ++ ")"
  set (confirmed ++ "; final identity re-verification remains incomplete.")
  verifyDigestIdentity T c p.digest
  set (confirmed ++ ".")

/-- `Promote immutable release aliases` -/
def promoteAliases (T : Tools) (c : Candidate) : Publisher Published := do
  let version ← inspectAlias c.versionRef
  let source ← inspectAlias c.sourceRef
  let published ← selectDigest T c version source
  confirmAliases T c published
  return published

/-! The attestations and `latest`. -/

def attest (sbom : Bool) (digest : Text) : Publisher Unit := do
  let answer ← perform (I := Docker) (.attest sbom digest)
  result (orFail answer)

/-- `Promote eligible latest alias last` -/
def promoteLatest (selected : Text) : Publisher Unit := do
  copyAlias selected latestRef
    ("Latest mutation attempted; the remote outcome for " ++ latestRef ++ " is not established.")
  let o ← perform (I := Docker) (.inspect latestRef)
  raiseIf (o.status ≠ 0) .command
  let manifest := captured o.stdout
  raiseIf (digestLines manifest != 1 || printedDigest manifest != selected)
    (.message ("Latest postcheck failed: expected " ++ selected ++ ", got " ++ printedDigest manifest ++
      ". Immutable aliases remain valid."))
  set ("Confirmed latest publication at " ++ selected ++ ".")

/-- The job, from the immutable aliases on. -/
def publish (T : Tools) (c : Candidate) : Publisher Published := do
  let published ← promoteAliases T c
  attest false published.digest
  attest true published.digest
  if c.publishLatest then
    promoteLatest published.digest
  return published

end ArubaCertRenewer
