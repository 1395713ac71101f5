import ArubaCertRenewer.CandidateArchive
import ArubaCertRenewer.Py

/- The streams that `release_candidate.py` decompresses: the reader that bounds an archive, the
   check of a single gzip member, and the layers of an image.

   A file gives what it likes when it is read, and so does the decompressor of `zlib` when it is
   called; only what is asked of them is the program's. Sizes and bounds are integers, since a
   negative one would be a request without bound. A loop that lasts as long as its stream is given
   a number of rounds. -/
namespace ArubaCertRenewer
open PyText Effects Effects.Py

def gzipHeaderTextMaxBytes : Nat := 64 * 1024
def uncompressedLayersMaxBytes : Int := 4 * archiveMaxBytes

def gzipLayerMediaTypes : List Text :=
  ["application/vnd.oci.image.layer.v1.tar+gzip",
    "application/vnd.docker.image.rootfs.diff.tar.gzip"]

inductive StreamError where
  /-- `CandidateError` -/
  | candidate (message : Text)
  /-- `OSError` and `EOFError` -/
  | os
  | eof
  | other (name : Text)
  deriving DecidableEq, Repr

inductive Stream where
  /-- The archive file, as it is and decompressed. -/
  | archive
  | decoded
  /-- The file of a layer, as it is and through `gzip.GzipFile`. -/
  | layer (name : Text)
  | gunzip (name : Text)
  deriving DecidableEq, Repr

inductive StreamCall where
  | read (source : Stream) (size : Int)
  /-- `archive.extractfile(member)`: whether there is a file. -/
  | extractFile (name : Text)
  /-- `zlib.decompressobj(-zlib.MAX_WBITS)` -/
  | decompressobj
  /-- `decompressor.decompress(pending, max_length)` -/
  | decompress (pending : Bytes) (maxLength : Int)
  deriving DecidableEq, Repr

/-- What a call of the decompressor gives, and the attributes it leaves. -/
structure Inflated where
  raw : Bytes
  eof : Bool
  unconsumedTail : Bytes
  unusedData : Bytes
  deriving DecidableEq, Repr

/-- `none` is `zlib.error`. -/
def StreamCall.Ans : StreamCall → Type
  | .read _ _ => Except StreamError Bytes
  | .extractFile _ => Bool
  | .decompressobj => Unit
  | .decompress _ _ => Option Inflated

abbrev Streams : Interface := ⟨StreamCall, StreamCall.Ans⟩

abbrev Decoding (σ α : Type) := Py Streams StreamError σ α

section
variable {σ : Type}

def readFrom (source : Stream) (size : Int) : Decoding σ Bytes := do
  let answer ← perform (I := Streams) (.read source size)
  result answer

end

/-! `_BoundedReader`, its variable the number of bytes consumed. -/

/-- `_BoundedReader.read` -/
def boundedRead (source : Stream) (maximum size : Int) : Decoding Int Bytes := do
  raiseIf (size < 0) (.candidate "unbounded archive read is forbidden")
  let consumed ← get
  let raw ← readFrom source (min size (maximum - consumed + 1))
  modify fun consumed => consumed + (raw.length : Int)
  let consumed ← get
  raiseIf (maximum < consumed) (.candidate "expanded candidate archive exceeds its safety bound")
  return raw

/-- Reads of these sizes in order, whatever each ends with. -/
def boundedReads (source : Stream) (maximum : Int) :
    List Int → Decoding Int (List (Except StreamError Bytes))
  | [] => return []
  | size :: sizes => do
    let answer ← attempt (boundedRead source maximum size)
    let answers ← boundedReads source maximum sizes
    return answer :: answers

/-! `_validate_single_gzip`. -/

section gzip
variable (source : Stream) (name : Text)

/-- The loop of `_gzip_exact`, over what was read: a round reads a byte at least. -/
def gzipExactFrom (size : Nat) : Nat → Bytes → Decoding Unit Bytes
  | 0, raw => return raw
  | rounds + 1, raw =>
    if size ≤ raw.length then return raw
    else do
      let chunk ← readFrom source (size - raw.length)
      raiseIf chunk.isEmpty (.candidate (name ++ " gzip stream is truncated"))
      gzipExactFrom size rounds (raw ++ chunk)

def gzipExact (size : Nat) : Decoding Unit Bytes := gzipExactFrom source name size size []

/-- A header text up to its zero, with the number of bytes that header texts may still have. -/
def headerText : Nat → Decoding Unit Nat
  | 0 => throw (.candidate (name ++ " gzip header text exceeds its safety bound"))
  | left + 1 => do
    let byte ← gzipExact source name 1
    if byte = [0] then return left
    headerText left

/-- The texts whose flags are set, the name of the file and the comment. -/
def headerTexts (flags : UInt8) : List UInt8 → Nat → Decoding Unit Unit
  | [], _ => pure ()
  | flag :: rest, left =>
    if flags &&& flag != 0 then do
      let left ← headerText source name left
      headerTexts flags rest left
    else headerTexts flags rest left

/-- The extra field, behind its length. -/
def extraField (flags : UInt8) : Decoding Unit Unit :=
  if flags &&& 0x04 != 0 then do
    let extra ← gzipExact source name 2
    let _ ← gzipExact source name (extra.foldr (fun b n => b.toNat + 256 * n) 0)
  else pure ()

def headerChecksum (flags : UInt8) : Decoding Unit Unit :=
  if flags &&& 0x02 != 0 then do
    let _ ← gzipExact source name 2
  else pure ()

/-- The header of a gzip member. -/
def gzipHeader : Decoding Unit Unit := do
  let header ← gzipExact source name 10
  let flags := header.getD 3 0
  raiseIf (header.take 3 != [0x1f, 0x8b, 0x08] || flags &&& 0xe0 != 0)
    (.candidate (name ++ " is not valid gzip"))
  extraField source name flags
  headerTexts source name flags [0x08, 0x10] gzipHeaderTextMaxBytes
  headerChecksum source name flags

/-- The input of the next call of the decompressor. -/
def nextPending (pending : Bytes) : Decoding Unit Bytes :=
  if pending.isEmpty then do
    let chunk ← readFrom source (64 * 1024)
    raiseIf chunk.isEmpty (.candidate (name ++ " gzip stream is truncated"))
    return chunk
  else return pending

/-- The loop over the decompressor, with `pending` and `expanded`; gives its `unused_data`. -/
def inflateFrom (maximum : Int) : Nat → Bytes → Int → Decoding Unit Bytes
  | 0, _, _ => ofProg fun _ => .unfinished
  | rounds + 1, pending, expanded => do
    let pending ← nextPending source name pending
    let answer ← perform (I := Streams)
      (.decompress pending (min (64 * 1024) (maximum - expanded + 1)))
    match answer with
    | none => throw (.candidate (name ++ " is not valid gzip"))
    | some inflated => do
      raiseIf (maximum < expanded + inflated.raw.length)
        (.candidate (name ++ " exceeds its uncompressed safety bound"))
      if inflated.eof then return inflated.unusedData
      inflateFrom maximum rounds inflated.unconsumedTail (expanded + inflated.raw.length)

/-- The eight bytes of the trailer, as far as the decompressor has not read them. -/
def trailerBytes (unusedData : Bytes) : Decoding Unit Bytes :=
  if unusedData.length < 8 then do
    let rest ← gzipExact source name (8 - unusedData.length)
    return unusedData ++ rest
  else return unusedData

/-- The trailer of a gzip member, and nothing behind it. -/
def gzipTrailer (unusedData : Bytes) : Decoding Unit Unit := do
  let concatenated := StreamError.candidate (name ++ " concatenated gzip members are unsupported")
  let trailer ← trailerBytes source name unusedData
  raiseIf (8 < trailer.length) concatenated
  let more ← readFrom source 1
  raiseIf (!more.isEmpty) concatenated

/-- `_validate_single_gzip` -/
def validateSingleGzip (maximum : Int) (rounds : Nat) : Decoding Unit Unit := do
  gzipHeader source name
  let _ ← perform (I := Streams) .decompressobj
  let unusedData ← inflateFrom source name maximum rounds [] 0
  gzipTrailer source name unusedData

end gzip

/-! The layers. -/

structure ArchiveMember where
  isFile : Bool
  size : Int
  deriving DecidableEq, Repr

structure ImageLayer where
  name : Text
  mediaType : Text
  expectedDiffId : Text
  deriving DecidableEq, Repr

section layers
-- `hashlib.sha256(data).hexdigest()`
variable (sha256 : Bytes → Text)

/-- The loop of `_hash_stream`, over what was read. -/
def hashFrom (stream : Stream) (maximum : Int) (name : Text) :
    Nat → Bytes → Decoding Unit (Text × Int)
  | 0, _ => ofProg fun _ => .unfinished
  | rounds + 1, data => do
    let chunk ← readFrom stream (1024 * 1024)
    if chunk = [] then return ("sha256:" ++ sha256 data, data.length)
    raiseIf (maximum < (data ++ chunk).length)
      (.candidate (name ++ " exceeds its uncompressed safety bound"))
    hashFrom stream maximum name rounds (data ++ chunk)

/-- `_hash_stream` -/
def hashStream (stream : Stream) (maximum : Int) (name : Text) (rounds : Nat) :
    Decoding Unit (Text × Int) := hashFrom sha256 stream maximum name rounds []

/-- `_digest_from_path` of a content path. -/
def digestFromPath (name : Text) : Except StreamError Text :=
  let blobs := "blobs/sha256/".toList
  let digest := name.drop blobs.length
  if blobs.isPrefixOf name && digest.length == 64 &&
      digest.all fun c => ('0' ≤ c && c ≤ '9') || ('a' ≤ c && c ≤ 'f') then
    .ok ("sha256:" ++ digest)
  else .error (.candidate ("unsupported archive content path: " ++ name))

def extractFile (name message : Text) : Decoding Unit Unit := do
  let found ← perform (I := Streams) (.extractFile name)
  raiseIf (!found) (.candidate message)

/-- A compressed layer: its stored bytes, its single member, and its content. -/
def hashGzipLayer (layer : ImageLayer) (size : Int) (label : Text) (remaining : Int) (rounds : Nat) :
    Decoding Unit (Text × Int) := do
  let (compressedHash, compressedSize) ← hashStream sha256 (.layer layer.name) archiveMaxBytes label rounds
  let digest ← result (digestFromPath layer.name)
  raiseIf (compressedHash != digest || compressedSize != size)
    (.candidate (label ++ " digest is invalid"))
  extractFile layer.name (label ++ " cannot be reread")
  validateSingleGzip (.layer layer.name) label remaining rounds
  extractFile layer.name (label ++ " cannot be reread")
  handle (hashStream sha256 (.gunzip layer.name) remaining label rounds) fun e =>
    if e = .os ∨ e = .eof then throw (.candidate (label ++ " is not valid gzip")) else throw e

/-- The diff ID and the size of the content of a layer. -/
def hashLayer (layer : ImageLayer) (size : Int) (label : Text) (remaining : Int) (rounds : Nat) :
    Decoding Unit (Text × Int) :=
  if gzipLayerMediaTypes.contains layer.mediaType then
    hashGzipLayer sha256 layer size label remaining rounds
  else hashStream sha256 (.layer layer.name) remaining label rounds

-- `by_name`
variable (byName : List (Text × ArchiveMember))

/-- One round of the loop over the layers, with what is left of the bound; gives the size of the
content. -/
def inspectLayer (rounds position : Nat) (layer : ImageLayer) (remaining : Int) : Decoding Unit Int := do
  let label := "candidate archive layer " ++ ofNat position
  let member := byName.lookup layer.name
  raiseIf (!member.any fun m => m.isFile && 0 < m.size) (.candidate (label ++ " is missing"))
  extractFile layer.name (label ++ " cannot be read")
  let (actualDiffId, uncompressedSize) ←
    hashLayer sha256 layer ((member.map ArchiveMember.size).getD 0) label remaining rounds
  raiseIf (actualDiffId != layer.expectedDiffId) (.candidate (label ++ " diff ID is invalid"))
  return uncompressedSize

/-- The loop over the layers in `inspect_archive`, with `total_uncompressed`. -/
def inspectLayers (rounds : Nat) : Nat → Int → List ImageLayer → Decoding Unit Int
  | _, total, [] => return total
  | position, total, layer :: layers => do
    let size ← inspectLayer sha256 byName rounds position layer (uncompressedLayersMaxBytes - total)
    inspectLayers rounds (position + 1) (total + size) layers

end layers

end ArubaCertRenewer
