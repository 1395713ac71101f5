import ArubaCertRenewer.SbomChecks
import ArubaCertRenewer.LayerStreams

/- `inspect_archive` of `release_candidate.py` on the JSON that a candidate archive holds.

   The archive is the members that `tarfile` lists, with what reading each gives. What
   `json.loads` makes of bytes, the hash and what the inspection of the layers comes to
   (`inspectLayers` has its program) are the environment's. Errors are those of
   `validate_spdx`. -/
namespace ArubaCertRenewer.Inspection
open PyValue PyText

structure Member where
  name : Str
  isFile : Bool
  isDir : Bool
  size : Nat
  content : Bytes

structure Archive where
  members : List Member
  /-- `json.loads` with the hooks of the module: a value, or the text of what it raises. -/
  readJson : Bytes → Except Str Value
  /-- `hashlib.sha256(raw).hexdigest()` -/
  sha256 : Bytes → Str
  /-- The layers by path, media type and diff ID: they are as they should be, or the message of the
  `CandidateError`. -/
  layers : List (Str × Str × Str) → Except Str Unit

def archiveMetadataMaxBytes : Nat := 4 * 1024 * 1024
def archiveLayerMax : Nat := 128
def expectedCandidateImage : Str := "aruba-cert-renewer:release-candidate"

def ociManifestMediaTypes : List Str :=
  ["application/vnd.oci.image.manifest.v1+json",
   "application/vnd.docker.distribution.manifest.v2+json"]

def ociConfigMediaTypes : List Str :=
  ["application/vnd.oci.image.config.v1+json", "application/vnd.docker.container.image.v1+json"]

def gzipMediaTypes : List Str := gzipLayerMediaTypes.map ofChars

/-! ## Members -/

def isUnsafePath (name : Str) : Bool :=
  name.isEmpty || name.head? == some (codePoint '/') || name.contains (codePoint '\\') ||
    (name.splitOn (codePoint '/')).any fun part => (["", ".", ".."] : List Str).contains part

/-- `by_name` after one member more. -/
def addMember (byName : List (Str × Member)) (member : Member) :
    Except PyError (List (Str × Member)) := do
  rejectWhen (archiveMemberMax ≤ byName.length) "candidate archive member count is outside its bound"
  rejectWhen (isUnsafePath member.name) "candidate archive contains an unsafe path"
  rejectWhen (byName.lookup member.name).isSome
    (("candidate archive repeats member " : Str) ++ member.name)
  rejectWhen (!(member.isFile || member.isDir)) "candidate archive contains a non-regular member"
  return byName ++ [(member.name, member)]

/-- `member_bytes` -/
def memberBytes (byName : List (Str × Member)) (name : Str) : Except PyError Bytes :=
  match byName.lookup name with
  | none => .error (.raised (("candidate archive is missing regular file " : Str) ++ name))
  | some member => do
    rejectWhen (!member.isFile) (("candidate archive is missing regular file " : Str) ++ name)
    rejectWhen (member.size = 0 || archiveMetadataMaxBytes < member.size)
      (("candidate archive member " : Str) ++ name ++ " has invalid size")
    rejectWhen (member.content.length != member.size)
      (("candidate archive member " : Str) ++ name ++ " changed while read")
    return member.content

/-- `by_name.get(name, tarfile.TarInfo()).size` -/
def memberSize (byName : List (Str × Member)) (name : Str) : Nat :=
  match byName.lookup name with
  | some member => member.size
  | none => 0

/-- `_json_value`, before the type of the value is looked at. -/
def jsonValue (a : Archive) (raw : Bytes) (name : Str) : Except PyError Value := do
  rejectWhen (List.isPrefixOf [0xef, 0xbb, 0xbf] raw) (name ++ " must not contain a UTF-8 BOM")
  match a.readJson raw with
  | .ok value => return value
  | .error text => .error (.raised (("invalid " : Str) ++ name ++ ": " ++ text))

def jsonList (a : Archive) (raw : Bytes) (name : Str) : Except PyError (List Value) := do
  match ← jsonValue a raw name with
  | .arr items => return items
  | _ => .error (.raised (name ++ " has the wrong JSON type"))

def jsonObject (a : Archive) (raw : Bytes) (name : Str) : Except PyError Members := do
  match ← jsonValue a raw name with
  | .obj members => return members
  | _ => .error (.raised (name ++ " has the wrong JSON type"))

/-- The texts of a list that holds nothing else. -/
def texts : List Value → Option (List Str)
  | [] => some []
  | .str s :: items => (texts items).map (s :: ·)
  | _ :: _ => none

/-- The objects of a list that holds nothing else. -/
def objects : List Value → Option (List Members)
  | [] => some []
  | .obj members :: items => (objects items).map (members :: ·)
  | _ :: _ => none

/-- The path of content with this hash. -/
def contentPath (hash : Str) (classicConfig : Bool) : Str :=
  if classicConfig then hash ++ (".json" : Str) else ("blobs/sha256/" : Str) ++ hash

/-- Where a path has the hash. -/
def pathHash (name : Str) (classicConfig : Bool) : Str :=
  if classicConfig then name.take 64 else name.drop 13

/-- `_digest_from_path` -/
def digestFromPath (name : Str) (classicConfig : Bool) : Except PyError Str :=
  let hash := pathHash name classicConfig
  if isHash hash && name == contentPath hash classicConfig then .ok (("sha256:" : Str) ++ hash)
  else .error (.raised (("unsupported archive content path: " : Str) ++ name))

/-! ## The image and its config -/

structure ImageDescriptor where
  configPath : Str
  layerPaths : List Str

def ImageDescriptor.isOci (d : ImageDescriptor) : Bool :=
  List.isPrefixOf ("blobs/sha256/" : Str) d.configPath

/-- `repo_tags != [EXPECTED_CANDIDATE_IMAGE]` does not hold. -/
def isExpectedTags (repoTags : Option Value) : Bool :=
  match repoTags with
  | some (.arr [tag]) => isStr (some tag) expectedCandidateImage
  | _ => false

def imageDescriptor (manifest : List Value) : Except PyError ImageDescriptor :=
  match manifest with
  | [.obj entry] =>
    match get entry "Layers" with
    | some (.arr layers) => do
      rejectWhen (layers.isEmpty || archiveLayerMax < layers.length)
        "candidate archive layer count exceeds its bound"
      match get entry "Config", texts layers with
      | some (.str configPath), some layerPaths => do
        rejectWhen (!decide layerPaths.Nodup || !isExpectedTags (get entry "RepoTags"))
          "candidate archive image descriptor is ambiguous"
        return ⟨configPath, layerPaths⟩
      | _, _ => .error (.raised "candidate archive image descriptor is ambiguous")
    | _ => .error (.raised "candidate archive layer count exceeds its bound")
  | _ => .error (.raised "candidate archive must contain exactly one image")

structure ImageConfig where
  digest : Str
  raw : Bytes
  members : Members

def imageConfig (a : Archive) (byName : List (Str × Member)) (d : ImageDescriptor) :
    Except PyError ImageConfig := do
  let digest ← digestFromPath d.configPath (!d.isOci)
  let raw ← memberBytes byName d.configPath
  rejectWhen (("sha256:" : Str) ++ a.sha256 raw != digest)
    "candidate archive config digest does not match its bytes"
  let members ← jsonObject a raw "archive image config"
  return ⟨digest, raw, members⟩

/-- The diff IDs of the config. -/
def rootfsIdentities (config : Members) (layerCount : Nat) : Except PyError (List Str) :=
  match get config "rootfs" with
  | none => .error (.raised "candidate archive config has invalid rootfs identities")
  | some .null => .error (.raised "candidate archive config has invalid rootfs identities")
  | some (.obj rootfs) => do
    rejectWhen (!isStr (get rootfs "type") "layers")
      "candidate archive config has invalid rootfs identities"
    match get rootfs "diff_ids" with
    | some (.arr ids) => do
      rejectWhen (archiveLayerMax < ids.length || ids.length != layerCount)
        "candidate archive config has invalid rootfs identities"
      match texts ids with
      | some diffIds => do
        rejectWhen (!diffIds.all isSha256Digest) "candidate archive config has invalid rootfs identities"
        return diffIds
      | none => .error (.raised "candidate archive config has invalid rootfs identities")
    | _ => .error (.raised "candidate archive config has invalid rootfs identities")
  -- `rootfs.get` of a value that is no object
  | some _ => .error .attributeError

/-! ## The image manifest -/

/-- The one descriptor of the index. -/
def selectedDescriptor (index : Members) : Except PyError Members :=
  match get index "manifests" with
  | some (.arr [.obj descriptor]) => do
    rejectWhen (!isInt (get index "schemaVersion") 2) "candidate archive index is ambiguous"
    return descriptor
  | _ => .error (.raised "candidate archive index is ambiguous")

def manifestDigest (descriptor : Members) : Except PyError Str := do
  let known ← inSet (get descriptor "mediaType") ociManifestMediaTypes
  rejectWhen (!known) "candidate archive index does not select one image manifest"
  let digest ← boundedString (get descriptor "digest") "archive manifest digest"
  rejectWhen (!isSha256Digest digest) "candidate archive manifest digest is invalid"
  return digest

def imageManifest (a : Archive) (byName : List (Str × Member)) (descriptor : Members) (digest : Str) :
    Except PyError Members := do
  let raw ← memberBytes byName (("blobs/sha256/" : Str) ++ digest.drop 7)
  rejectWhen (("sha256:" : Str) ++ a.sha256 raw != digest)
    "candidate archive manifest digest does not match its bytes"
  rejectWhen (!isInt (get descriptor "size") raw.length) "candidate archive manifest size is inconsistent"
  jsonObject a raw "archive image manifest"

/-- The config that a manifest names is the one of the archive. -/
def checkImage (image : Members) (config : ImageConfig) : Except PyError Unit := do
  let known ← inSet (get image "mediaType") ociConfigMediaTypes
  rejectWhen (!known || !isStr (get image "digest") config.digest ||
    !isInt (get image "size") config.raw.length) "candidate archive image manifest is inconsistent"

/-- The layers that a manifest lists. -/
def listedLayers (manifest : Members) (layerCount : Nat) : Except PyError (List Members) :=
  match get manifest "layers" with
  | some (.arr items) => do
    rejectWhen (items.length != layerCount) "candidate archive image manifest is inconsistent"
    match objects items with
    | some layers => return layers
    | none => .error (.raised "candidate archive image manifest is inconsistent")
  | _ => .error (.raised "candidate archive image manifest is inconsistent")

/-- The layers of the manifest, when it is of the config. -/
def manifestLayers (manifest : Members) (config : ImageConfig) (layerCount : Nat) :
    Except PyError (List Members) := do
  rejectWhen (!isInt (get manifest "schemaVersion") 2)
    "candidate archive image manifest is inconsistent"
  let known ← inSet (get manifest "mediaType") ociManifestMediaTypes
  rejectWhen (!known) "candidate archive image manifest is inconsistent"
  match get manifest "config" with
  | some (.obj image) => do
    checkImage image config
    listedLayers manifest layerCount
  | _ => .error (.raised "candidate archive image manifest is inconsistent")

/-- `type(value) is int and value == n` -/
def isIntegerOf (value : Option Value) (n : Nat) : Bool :=
  match value with
  | some (.int m) => m == n
  | _ => false

/-- One layer of the manifest, with its path; the next position. -/
def checkLayer (byName : List (Str × Member)) (position : Nat) (layer : Members × Str) :
    Except PyError Nat := do
  let message : Str :=
    ("candidate archive layer " : Str) ++ ofChars (toString position).toList ++ " is inconsistent"
  let known ← inSet (get layer.1 "mediaType") gzipMediaTypes
  rejectWhen (!known) message
  let digest ← digestFromPath layer.2 false
  rejectWhen (!isStr (get layer.1 "digest") digest ||
    !isIntegerOf (get layer.1 "size") (memberSize byName layer.2) ||
    layer.2 != ("blobs/sha256/" : Str) ++ digest.drop 7) message
  return position + 1

/-- A layer as it is inspected: its media type and its size. -/
structure LayerForm where
  mediaType : Str
  size : Int

def layerForm (layer : Members) : LayerForm where
  mediaType :=
    match get layer "mediaType" with
    | some (.str s) => s
    | _ => []
  size :=
    match get layer "size" with
    | some (.int n) => n
    | _ => 0

/-- The digests of an OCI archive, and its layers. -/
structure OciImage where
  manifestDigest : Str
  indexDigest : Str
  layers : List LayerForm

def hasName (byName : List (Str × Member)) (name : Str) : Bool := (byName.lookup name).isSome

def ociImage (a : Archive) (byName : List (Str × Member)) (d : ImageDescriptor) (config : ImageConfig) :
    Except PyError OciImage := do
  rejectWhen (!(hasName byName "index.json" && hasName byName "oci-layout"))
    "OCI candidate archive metadata is incomplete"
  let raw ← memberBytes byName "index.json"
  let index ← jsonObject a raw "archive index.json"
  let descriptor ← selectedDescriptor index
  let digest ← manifestDigest descriptor
  let manifest ← imageManifest a byName descriptor digest
  let layers ← manifestLayers manifest config d.layerPaths.length
  let _ ← (layers.zip d.layerPaths).foldlM (checkLayer byName) 0
  return ⟨digest, ("sha256:" : Str) ++ a.sha256 raw, layers.map layerForm⟩

def classicLayers (byName : List (Str × Member)) (d : ImageDescriptor) :
    Except PyError (List LayerForm) := do
  rejectWhen (hasName byName "index.json" || hasName byName "oci-layout")
    "candidate archive mixes classic and OCI representations"
  return d.layerPaths.map fun name =>
    ⟨"application/vnd.docker.image.rootfs.diff.tar", memberSize byName name⟩

/-! ## The result -/

def number (n : Int) : Str := ofChars (toString n).toList

/-- `json.dumps(syft_manifest, separators=(",", ":"))`, whose texts need no escape. -/
def syftManifest (config : ImageConfig) (layers : List (LayerForm × Str)) : Str :=
  let layer := fun (form : LayerForm × Str) =>
    ("\x7b\"mediaType\":\"application/vnd.docker.image.rootfs.diff.tar.gzip\",\"size\":" : Str) ++
      number form.1.size ++ ",\"digest\":\"" ++ form.2 ++ "\"\x7d"
  ("\x7b\"schemaVersion\":2,\"mediaType\":\"application/vnd.docker.distribution.manifest.v2+json\"," : Str) ++
    "\"config\":\x7b\"mediaType\":\"application/vnd.docker.container.image.v1+json\",\"size\":" ++
    number config.raw.length ++ ",\"digest\":\"" ++ config.digest ++ "\"\x7d,\"layers\":[" ++
    List.intercalate (",") (layers.map layer) ++ "]\x7d"

/-- What is derived from an archive. -/
structure Inspected where
  format : Str
  reference : Str
  configDigest : Str
  layerDiffIds : List Str
  manifestDigest : Option Str
  indexDigest : Option Str
  syftManifestDigest : Str

/-- The layers inspected, and the result. -/
def conclude (a : Archive) (d : ImageDescriptor) (config : ImageConfig) (diffIds : List Str)
    (oci : Option OciImage) (forms : List LayerForm) : Except PyError Inspected := do
  match a.layers ((d.layerPaths.zip forms).zip diffIds |>.map fun l => (l.1.1, l.1.2.mediaType, l.2)) with
  | .error message => .error (.raised message)
  | .ok _ =>
    let raw := (syftManifest config (forms.zip diffIds)).map fun c => UInt8.ofNat c.val
    return {
      format := if d.isOci then "oci-single-manifest" else "docker-single-image"
      reference := expectedCandidateImage
      configDigest := config.digest
      layerDiffIds := diffIds
      manifestDigest := oci.map OciImage.manifestDigest
      indexDigest := oci.map OciImage.indexDigest
      syftManifestDigest := ("sha256:" : Str) ++ a.sha256 raw }

/-- `inspect_archive`, after the preflight of the file. -/
def inspectArchive (a : Archive) : Except PyError Inspected := do
  let byName ← a.members.foldlM addMember []
  rejectWhen byName.isEmpty "candidate archive is empty"
  let raw ← memberBytes byName "manifest.json"
  let manifest ← jsonList a raw "archive manifest.json"
  let d ← imageDescriptor manifest
  let config ← imageConfig a byName d
  let diffIds ← rootfsIdentities config.members d.layerPaths.length
  if d.isOci then
    let oci ← ociImage a byName d config
    conclude a d config diffIds (some oci) oci.layers
  else
    let forms ← classicLayers byName d
    conclude a d config diffIds none forms

end ArubaCertRenewer.Inspection
