import ArubaCertRenewer.Regex

/- The candidate archive, `release_candidate.py`: the preflight, and the walk of
   `tarfile` that `inspect_archive` makes after it.

   Both read the decompressed archive header by header. The preflight returns the
   offsets of the headers it read, which the source does not keep. A
   `CandidateError` is its message.

   `tarfile` skips the data of regular files and of types it does not know, and
   of no other member. A size in an `x` header replaces the size of the member,
   the first of several such headers is applied last, and a global size does not
   move the reader. The sparse formats are left out. -/
namespace ArubaCertRenewer
open PyText

def archiveMaxBytes : Nat := 1024 * 1024 * 1024
def archiveMemberMax : Nat := 1024
def tarExtensionMaxBytes : Nat := 64 * 1024
def tarExtensionsTotalMaxBytes : Nat := 256 * 1024
def tarExtensionCountMax : Nat := 2 * archiveMemberMax
def tarConsecutiveExtensionMax : Nat := 4
def tarPaxRecordMax : Nat := 4 * archiveMemberMax
def tarPaxGlobalRecordMax : Nat := 64
def tarTrailingMaxBytes : Nat := 1024 * 1024

/-- `if b: raise CandidateError(message)` -/
def candidateWhen (b : Bool) (message : Text) : Except Text Unit := if b then .error message else .ok ()

/-! Bytes. -/

def slice (raw : Bytes) (first last : Nat) : Bytes := (raw.drop first).take (last - first)

/-- `int.from_bytes(raw, "big")` -/
def bigEndian (raw : Bytes) : Nat := raw.foldl (fun n b => 256 * n + b.toNat) 0

def isOctal (b : UInt8) : Bool := 48 ≤ b && b ≤ 55

/-- `int(raw, 8)` of octal digits. -/
def octalValue (raw : Bytes) : Nat := raw.foldl (fun n b => 8 * n + (b.toNat - 48)) 0

/-- `raw.rstrip(b"\0 ").lstrip(b" ")` -/
def octalField (raw : Bytes) : Bytes :=
  ((raw.reverse.dropWhile fun b => b == 0 || b == 32).reverse).dropWhile (· == 32)

/-- `_tar_number` -/
def tarNumber (raw : Bytes) (name : Text) : Except Text Nat :=
  match raw with
  | first :: rest =>
    if first &&& 0x80 ≠ 0 then
      if first &&& 0x40 ≠ 0 then .error ("negative tar " ++ name ++ " is forbidden")
      else .ok (bigEndian ((first &&& 0x7f) :: rest))
    else octal
  | [] => octal
where
  octal : Except Text Nat :=
    let value := octalField raw
    if value.isEmpty then .ok 0
    else if value.all isOctal then .ok (octalValue value)
    else .error ("invalid tar " ++ name)

/-- The bytes of data and padding behind a header: `size + (-size) % 512`. -/
def padded (size : Nat) : Nat := (size + 511) / 512 * 512

/-! `_BoundedReader`. -/

structure BoundedReader where
  source : Bytes
  consumed : Nat
  deriving DecidableEq, Repr

namespace BoundedReader

/-- `read` of a size that is not negative. -/
def read (r : BoundedReader) (size : Nat) : Except Text (Bytes × BoundedReader) := do
  let raw := r.source.take (min size (archiveMaxBytes - r.consumed + 1))
  candidateWhen (archiveMaxBytes < r.consumed + raw.length)
    "expanded candidate archive exceeds its safety bound"
  return (raw, ⟨r.source.drop raw.length, r.consumed + raw.length⟩)

/-- The loop of `_read_exact`: each chunk takes at least one byte of what remains. -/
def readChunks (name : Text) : Nat → BoundedReader → Nat → Except Text (Bytes × BoundedReader)
  | 0, r, _ => .ok ([], r)
  | n + 1, r, remaining =>
    if remaining = 0 then .ok ([], r)
    else do
      let (chunk, r) ← r.read (min remaining (64 * 1024))
      candidateWhen chunk.isEmpty ("candidate archive is truncated in " ++ name)
      let (rest, r) ← readChunks name n r (remaining - chunk.length)
      return (chunk ++ rest, r)

/-- `_read_exact` -/
def readExact (r : BoundedReader) (size : Nat) (name : Text) : Except Text (Bytes × BoundedReader) :=
  readChunks name size r size

/-- `_skip_exact` -/
def skipExact (r : BoundedReader) (size : Nat) (name : Text) : Except Text BoundedReader := do
  let (_, r) ← r.readExact size name
  return r

/-- What is read after the end marker: zeros only, and not too many. -/
def trailing : Nat → BoundedReader → Nat → Except Text Unit
  | 0, _, _ => .ok ()
  | n + 1, r, trailingSize => do
    let (raw, r) ← r.read (64 * 1024)
    if raw.isEmpty then return
    candidateWhen (tarTrailingMaxBytes < trailingSize + raw.length)
      "candidate archive trailing padding exceeds its bound"
    candidateWhen (raw.any (· != 0)) "candidate archive has data after its end marker"
    trailing n r (trailingSize + raw.length)

end BoundedReader

/-! PAX records. -/

/-- The items of a dictionary, the latest first. -/
abbrev PaxHeaders := List (Text × Text)

def isAsciiDigit (b : UInt8) : Bool := 48 ≤ b && b ≤ 57

/-- `int(raw)` of ASCII digits. -/
def decimalValue (raw : Bytes) : Nat := raw.foldl (fun n b => 10 * n + (b.toNat - 48)) 0

def malformedPax : Text := "candidate archive contains malformed PAX metadata"

/-- One record `length key=value\n` at the front of `raw`: its key, its value and its length. -/
def paxRecord (raw : Bytes) : Except Text (Text × Text × Nat) := do
  let lengthRaw := raw.takeWhile (· != 32)
  candidateWhen (lengthRaw.length = raw.length || lengthRaw.isEmpty || !lengthRaw.all isAsciiDigit ||
    (ofNat tarExtensionMaxBytes).length < lengthRaw.length) malformedPax
  let length := decimalValue lengthRaw
  candidateWhen (length ≤ lengthRaw.length + 2 || raw.length < length ||
    (slice raw (length - 1) length) != [10]) malformedPax
  let record := slice raw (lengthRaw.length + 1) (length - 1)
  let keyRaw := record.takeWhile (· != 61)
  candidateWhen (keyRaw.length = record.length) malformedPax
  match decodeUtf8 keyRaw, decodeUtf8 (record.drop (keyRaw.length + 1)) with
  | some key, some value => return (key, value, length)
  | _, _ => .error "candidate archive PAX metadata is not UTF-8"

/-- The loop of `_pax_values`, over what is left of the payload. -/
def paxValuesFrom : Nat → PaxHeaders → Nat → Bytes → Except Text (PaxHeaders × Nat)
  | 0, values, count, _ => .ok (values, count)
  | n + 1, values, count, raw =>
    if raw.isEmpty then .ok (values, count)
    else do
      let (key, value, length) ← paxRecord raw
      candidateWhen (key.isEmpty || (values.lookup key).isSome || "GNU.sparse".toList.isPrefixOf key)
        "candidate archive contains ambiguous PAX metadata"
      paxValuesFrom n ((key, value) :: values) (count + 1) (raw.drop length)

/-- `_pax_values` -/
def paxValues (raw : Bytes) : Except Text (PaxHeaders × Nat) := paxValuesFrom raw.length [] 0 raw

/-! The preflight. -/

structure TarPreflight where
  source : BoundedReader
  memberCount : Nat
  extensionCount : Nat
  consecutiveExtensionCount : Nat
  extensionTotal : Nat
  paxRecordCount : Nat
  globalPaxRecordCount : Nat
  globalPax : PaxHeaders
  nextPax : PaxHeaders
  deriving DecidableEq, Repr

def zeroBlock : Bytes := List.replicate 512 0

/-- The `kind` of a header. -/
def headerKind (header : Bytes) : UInt8 := (header.drop 156).headD 0

/-- `kind in \x7bb"x", b"X", b"g", b"L", b"K"\x7d` -/
def isExtensionKind (kind : UInt8) : Bool :=
  kind == 120 || kind == 88 || kind == 103 || kind == 76 || kind == 75

def byteSum (raw : Bytes) : Nat := raw.foldl (fun n b => n + b.toNat) 0

/-- The bytes of a header with its checksum field as blanks. -/
def headerSum (header : Bytes) : Nat :=
  byteSum (header.take 148) + 8 * 32 + byteSum (header.drop 156)

def sizeText : Text := "size"

open Regex in
/-- `0|[1-9][0-9]*` -/
def plainNumber : Regex :=
  alt (char (· == '0')) (seq (char fun c => '1' ≤ c && c ≤ '9') (star true (char fun c => '0' ≤ c && c ≤ '9')))

/-- The size of a member: of its PAX headers if they have one, else of its header. -/
def memberSize (paxSize : Option Text) (size : Nat) : Except Text Nat := do
  let size ← match paxSize with
    | none => pure size
    | some text => do
      candidateWhen ((ofNat archiveMaxBytes).length < text.length || !fullmatch plainNumber text)
        "candidate archive PAX size is invalid"
      pure (digitsValue text)
  candidateWhen (archiveMaxBytes < size) "candidate archive member exceeds its safety bound"
  return size

/-- What the payload of an extension adds: a long name, or PAX records. -/
def applyExtension (s : TarPreflight) (kind : UInt8) (extension : Bytes) : Except Text TarPreflight :=
  if kind = 75 then .error "candidate archive contains a long link"
  else if kind = 76 then
    match decodeUtf8 (extension.reverse.dropWhile (· == 0)).reverse with
    | none => .error "candidate archive long name is not UTF-8"
    | some longName => do
      candidateWhen (longName.isEmpty || tarExtensionMaxBytes < utf8Length longName)
        "candidate archive long name is invalid"
      return { s with nextPax := ("path".toList, longName) :: s.nextPax }
  else do
    let (values, recordCount) ← paxValues extension
    let s := { s with paxRecordCount := s.paxRecordCount + recordCount }
    candidateWhen (tarPaxRecordMax < s.paxRecordCount)
      "candidate archive PAX record count exceeds its bound"
    if kind = 103 then
      let s := { s with globalPaxRecordCount := s.globalPaxRecordCount + recordCount }
      candidateWhen (tarPaxGlobalRecordMax < s.globalPaxRecordCount)
        "candidate archive global PAX record count exceeds its bound"
      return { s with globalPax := values ++ s.globalPax }
    else return { s with nextPax := values ++ s.nextPax }

/-- An extension header. -/
def preflightExtension (s : TarPreflight) (kind : UInt8) (size : Nat) : Except Text TarPreflight := do
  let s := { s with
    extensionCount := s.extensionCount + 1
    consecutiveExtensionCount := s.consecutiveExtensionCount + 1 }
  candidateWhen (tarExtensionCountMax < s.extensionCount)
    "candidate archive tar extension count exceeds its bound"
  candidateWhen (tarConsecutiveExtensionMax < s.consecutiveExtensionCount)
    "candidate archive consecutive tar extensions exceed their bound"
  candidateWhen (tarExtensionMaxBytes < size) "candidate archive tar extension exceeds its safety bound"
  let s := { s with extensionTotal := s.extensionTotal + size }
  candidateWhen (tarExtensionsTotalMaxBytes < s.extensionTotal)
    "candidate archive tar extensions exceed their total bound"
  let (extension, source) ← s.source.readExact size "tar extension"
  let source ← source.skipExact (padded size - size) "tar extension padding"
  applyExtension { s with source := source } kind extension

/-- A member header. -/
def preflightMember (s : TarPreflight) (kind : UInt8) (size : Nat) : Except Text TarPreflight := do
  candidateWhen (kind == 83) "candidate archive contains unsupported sparse metadata"
  let s := { s with consecutiveExtensionCount := 0, memberCount := s.memberCount + 1 }
  candidateWhen (archiveMemberMax < s.memberCount) "candidate archive member count exceeds its bound"
  let size ← memberSize ((s.nextPax.lookup sizeText).or (s.globalPax.lookup sizeText)) size
  let source ← s.source.skipExact size "tar member"
  let source ← source.skipExact (padded size - size) "tar member padding"
  return { s with nextPax := [], source := source }

/-- The header of an extension or a member, after it was read. -/
def preflightHeader (s : TarPreflight) (header : Bytes) : Except Text TarPreflight := do
  let storedChecksum ← tarNumber (slice header 148 156) "checksum"
  candidateWhen (headerSum header != storedChecksum) "candidate archive tar checksum is invalid"
  let size ← tarNumber (slice header 124 136) "member size"
  if isExtensionKind (headerKind header) then preflightExtension s (headerKind header) size
  else preflightMember s (headerKind header) size

/-- The end marker after its first block. -/
def preflightEnd (source : BoundedReader) : Except Text Unit := do
  let (header, source) ← source.read 512
  candidateWhen header.isEmpty "candidate archive has no complete end marker"
  candidateWhen (header.length != 512) "candidate archive has a truncated tar header"
  candidateWhen (header != zeroBlock) "candidate archive has an invalid end marker"
  source.trailing (source.source.length + 1) 0

/-- The loop of `_preflight_archive`, with the offsets of the headers it reads. -/
def preflightFrom : Nat → TarPreflight → Except Text (List Nat)
  | 0, _ => .error "out of steps"
  | n + 1, s => do
    let (header, source) ← s.source.read 512
    candidateWhen header.isEmpty "candidate archive has no complete end marker"
    candidateWhen (header.length != 512) "candidate archive has a truncated tar header"
    if header = zeroBlock then
      preflightEnd source
      return []
    else
      let next ← preflightHeader { s with source := source } header
      let offsets ← preflightFrom n next
      return s.source.consumed :: offsets

/-- `_preflight_archive` of a decompressed archive. Each header takes 512 bytes of it. -/
def preflightArchive (data : Bytes) : Except Text (List Nat) :=
  preflightFrom (data.length + 1) ⟨⟨data, 0⟩, 0, 0, 0, 0, 0, 0, [], []⟩

/-! `tarfile`. -/

/-- `nts`: a field up to its first NUL. -/
def nts (raw : Bytes) : Bytes := raw.takeWhile (· != 0)

/-- Digits in groups that underscores separate. -/
def digitGroups (base : Nat) (t : Text) : Option Nat :=
  if (splitOn '_' t).any List.isEmpty then none
  else (t.filter (· != '_')).foldlM (fun n c => do
    let digit ← decimal? c
    if digit < base then some (base * n + digit) else none) 0

/-- The number after a sign. -/
def unsignedInt (base : Nat) (t : Text) : Option Nat :=
  if base = 8 then
    match t with
    | '0' :: 'o' :: '_' :: rest | '0' :: 'O' :: '_' :: rest => digitGroups base rest
    | '0' :: 'o' :: rest | '0' :: 'O' :: rest => digitGroups base rest
    | _ => digitGroups base t
  else if 4300 < (t.filter (· != '_')).length then none
  else digitGroups base t

/-- `int(text, base)`, for the bases 8 and 10. -/
def pyInt (base : Nat) (t : Text) : Option Int :=
  match strip t with
  | '-' :: rest => (unsignedInt base rest).map fun n => -(n : Int)
  | '+' :: rest => (unsignedInt base rest).map Int.ofNat
  | t => (unsignedInt base t).map Int.ofNat

/-- A number field in octal digits. -/
def ntiOctal (raw : Bytes) : Option Int := do
  let t ← decodeAscii (nts raw)
  pyInt 8 (if (strip t).isEmpty then "0".toList else t)

/-- `nti`: a number field. -/
def nti (raw : Bytes) : Option Int :=
  match raw with
  | [] => ntiOctal raw
  | first :: rest =>
    if first = 0x80 then some (bigEndian rest)
    else if first = 0xff then some (bigEndian rest - Nat.pow 256 rest.length)
    else ntiOctal raw

structure TarInfo where
  kind : UInt8
  /-- The bytes of the name, as characters. -/
  name : Text
  size : Int
  deriving DecidableEq, Repr

def latin1 (raw : Bytes) : Text := raw.map fun b => Char.ofNat b.toNat

def signedSum (raw : Bytes) : Int :=
  raw.foldl (fun n b => n + (if b < 128 then (b.toNat : Int) else b.toNat - 256)) 0

/-- `rstrip("/")` -/
def rstripSlash (t : Text) : Text := (t.reverse.dropWhile (· == '/')).reverse

/-- The type of a header; an old directory is a file whose name ends with a slash. -/
def tarKind (header : Bytes) : UInt8 :=
  if headerKind header = 0 ∧ endsWith (latin1 (nts (header.take 100))) ['/'] then 53
  else headerKind header

/-- The name of a header, behind the directory part that POSIX keeps in a field of its own. -/
def tarName (header : Bytes) : Text :=
  let name := latin1 (nts (header.take 100))
  let name := if tarKind header = 53 then rstripSlash name else name
  let directory := latin1 (nts (slice header 345 500))
  if directory.isEmpty || tarKind header == 76 || tarKind header == 75 || tarKind header == 83 then name
  else directory ++ ['/'] ++ name

/-- The other number fields of a header, which must be numbers as well. -/
def otherNumbers : List (Nat × Nat) :=
  [(100, 108), (108, 116), (116, 124), (136, 148), (329, 337), (337, 345)]

/-- `TarInfo.frombuf`; `none` is a `HeaderError`. -/
def frombuf (header : Bytes) : Option TarInfo := do
  guard (header.length = 512 ∧ header ≠ zeroBlock)
  let stored ← nti (slice header 148 156)
  guard (stored = headerSum header ∨
    stored = signedSum (header.take 148) + 8 * 32 + signedSum (header.drop 156))
  let size ← nti (slice header 124 136)
  guard (otherNumbers.all fun f => (nti (slice header f.1 f.2)).isSome)
  return ⟨tarKind header, tarName header, size⟩

/-- `int` of a PAX size, and 0 where it is not a number. -/
def paxNumber (raw : Bytes) : Int := ((decodeUtf8 raw).bind (pyInt 10)).getD 0

/-- One record at the front of the payload, as `_proc_pax` reads it: its key, its value and its
length. -/
def tarPaxRecord (raw : Bytes) : Option (Bytes × Bytes × Nat) := do
  let digits := raw.takeWhile isAsciiDigit
  guard (digits ≠ [] ∧ digits.length ≤ 20 ∧ raw[digits.length]? = some 32)
  let length := decimalValue digits
  guard (5 ≤ length ∧ length ≤ raw.length)
  let record := slice raw (digits.length + 1) (length - 1)
  let key := record.takeWhile (· != 61)
  guard (key ≠ [] ∧ key.length ≠ record.length ∧ raw[length - 1]? = some 10)
  return (key, record.drop (key.length + 1), length)

/-- The records of a payload up to its first zero, the latest first. -/
def tarPaxRecords : Nat → List (Bytes × Bytes) → Bytes → Option (List (Bytes × Bytes))
  | 0, values, _ => some values
  | n + 1, values, raw =>
    if raw.isEmpty || raw.head? = some 0 then some values
    else do
      let (key, value, length) ← tarPaxRecord raw
      tarPaxRecords n ((key, value) :: values) (raw.drop length)

/-- The blocks that hold `size` bytes of data behind the header at an offset. -/
def payloadBlocks (data : Bytes) (size : Nat) : Bytes := (data.drop 512).take (padded size)

/-- What `_proc_pax` reads of the blocks behind a header, the padding with the payload. -/
def procPax (raw : Bytes) : Option (List (Bytes × Bytes)) := tarPaxRecords raw.length [] raw

def sizeKey : Bytes := [115, 105, 122, 101]
def pathKey : Bytes := [112, 97, 116, 104]

/-- The size that PAX records give a member. -/
def procPaxSize (raw : Bytes) : Option Int :=
  ((procPax raw).bind (List.lookup sizeKey)).map paxNumber

/-- The name that PAX records give a member. -/
def procPaxName (raw : Bytes) : Option Text :=
  ((procPax raw).bind (List.lookup pathKey)).map fun value => rstripSlash (latin1 value)

/-- `tarfile` between two headers: the names and the size of the headers before the next member,
and the names of the members so far. -/
structure TarReader where
  offset : Nat
  nextName : Option Text
  nextSize : Option Int
  globalName : Option Text
  names : List Text
  deriving DecidableEq, Repr

/-- An extension header, its payload read whole. -/
def tarExtension (data : Bytes) (s : TarReader) (info : TarInfo) : Option TarReader := do
  guard (0 ≤ info.size)
  let size := info.size.toNat
  let payload := payloadBlocks (data.drop s.offset) size
  let s := { s with offset := s.offset + 512 + padded size }
  if info.kind = 76 then return { s with nextName := s.nextName.or (some (latin1 (nts payload))) }
  else if info.kind = 75 then return s
  else do
    guard (procPax payload).isSome
    if info.kind = 103 then return { s with globalName := (procPaxName payload).or s.globalName }
    else return { s with
      nextName := s.nextName.or (procPaxName payload)
      nextSize := s.nextSize.or (procPaxSize payload) }

end ArubaCertRenewer
