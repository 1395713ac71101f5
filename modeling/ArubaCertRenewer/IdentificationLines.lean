import ArubaCertRenewer.PyText

/- Identification lines, `BoundedPacketizer.readline` of `bounded_paramiko.py`.

   The socket is the list of what it still delivers: pieces of the stream, each handed
   out in as many receives as the sizes that are asked for make of it, and timeouts. A
   socket that has nothing left blocks. Every loop takes something off the list, so a
   call is given as many rounds as the list can last. -/
namespace ArubaCertRenewer
open PyText

/-- `MAX_SSH_BANNER_LINE_BYTES`. -/
def maxSshBannerLineBytes : Nat := 255

/-- `MAX_SSH_PRE_IDENTIFICATION_LINES`. -/
def maxSshPreIdentificationLines : Nat := 99

/-- `MAX_SSH_PREAUTH_TEXT_BYTES`. -/
def maxSshPreauthTextBytes : Nat := 25500

/-- `_TEXT_READ_CHUNK_BYTES`. -/
def textReadChunkBytes : Nat := 128

def lineFeed : UInt8 := 10
def carriageReturn : UInt8 := 13

/-- What `recv` meets: bytes, of which none are the end of the stream, or a `TimeoutError` so long
after the call began to wait. -/
inductive Delivery where
  | bytes (piece : Bytes)
  | timedOut (elapsed : Nat)
  deriving DecidableEq, Repr

/-- A delivery, and whether the packetizer is found closed after it. -/
structure Arrival where
  delivery : Delivery
  closed : Bool
  deriving DecidableEq, Repr

/-- `BoundedPacketizer` as it reads text: Paramiko's remainder and the counters, and the socket with
the number of bytes acquired from it. -/
structure TextReader where
  remainder : Bytes
  textBytes : Nat
  preIdentificationLines : Nat
  bannerLimitExceeded : Bool
  socket : List Arrival
  acquired : Nat
  deriving DecidableEq, Repr

/-- How a call ends: with a line, with `SSHBannerLimitError`, `UnicodeDecodeError`, `EOFError` or
`TimeoutError`, or not at all. -/
inductive LineEnd where
  | line (decoded : Text)
  | limit | undecodable | closed | timedOut | blocked
  deriving DecidableEq, Repr

/-- `_limit`. -/
def textLimit (r : TextReader) : LineEnd × TextReader :=
  (.limit, { r with bannerLimitExceeded := true })

/-- The text of a line: without its line feed and one carriage return before that. -/
def lineText (line : Bytes) : Option Text :=
  let raw := line.dropLast
  decodeUtf8 (if raw.getLast? == some carriageReturn then raw.dropLast else raw)

def isIdentification (decoded : Text) : Bool := "SSH-".toList.isPrefixOf decoded

/-- What becomes of a whole line. -/
def finishLine (line : Bytes) (r : TextReader) : LineEnd × TextReader :=
  match lineText line with
  | none => (.undecodable, r)
  | some decoded =>
    if isIdentification decoded then (.line decoded, r)
    else if maxSshPreIdentificationLines ≤ r.preIdentificationLines then textLimit r
    else (.line decoded, { r with preIdentificationLines := r.preIdentificationLines + 1 })

/-- `recv(size)` of a piece: what is left of it comes next. -/
def cutPiece (size : Nat) (piece : Bytes) (closed : Bool) (socket : List Arrival) :
    Bytes × List Arrival :=
  if piece.length ≤ size then (piece, socket)
  else (piece.take size, ⟨.bytes (piece.drop size), closed⟩ :: socket)

/-- The next `recv`, bounded by what the line may still have, and the loop going on with what came of
it. -/
def receiveMore (timeout : Nat) (goOn : Bytes → TextReader → LineEnd × TextReader) (line : Bytes)
    (r : TextReader) : LineEnd × TextReader :=
  let remaining := min (maxSshBannerLineBytes - line.length) (maxSshPreauthTextBytes - r.textBytes)
  if remaining = 0 then textLimit r
  else match r.socket with
    | [] => (.blocked, r)
    | ⟨.bytes piece, closed⟩ :: socket =>
      let (chunk, socket) := cutPiece (min textReadChunkBytes remaining) piece closed socket
      let r := { r with socket, acquired := r.acquired + chunk.length }
      if chunk.isEmpty || closed then (.closed, r)
      else goOn chunk r
    | ⟨.timedOut elapsed, closed⟩ :: socket =>
      let r := { r with socket }
      if closed then (.closed, r)
      else if timeout ≤ elapsed then (.timedOut, r)
      else goOn [] r

/-- The loop of `readline`, for some rounds: the line so far, and what is at hand. -/
def readlineLoop (timeout : Nat) : Nat → Bytes → Bytes → TextReader → LineEnd × TextReader
  | 0, _, _, r => (.blocked, r)
  | n + 1, line, remainder, r =>
    let newline := remainder.findIdx? (· == lineFeed)
    let length := match newline with
      | none => remainder.length
      | some i => i + 1
    if !remainder.isEmpty && (maxSshBannerLineBytes < line.length + length ||
        maxSshPreauthTextBytes < r.textBytes + length) then textLimit r
    else
      let line := line ++ remainder.take length
      let r := { r with textBytes := r.textBytes + length }
      if newline.isSome then finishLine line { r with remainder := remainder.drop length }
      else receiveMore timeout (readlineLoop timeout n line) line r

/-- How many receives the socket can last for. -/
def receives : List Arrival → Nat
  | [] => 0
  | ⟨.bytes piece, _⟩ :: socket => piece.length + 1 + receives socket
  | ⟨.timedOut _, _⟩ :: socket => 1 + receives socket

/-- `readline(timeout)`. -/
def readline (timeout : Nat) (r : TextReader) : LineEnd × TextReader :=
  readlineLoop timeout (receives r.socket + 1) [] r.remainder { r with remainder := [] }

/-- Calls of `readline`, one after another; one that blocks is the last. -/
def readlines (timeout : Nat) : Nat → TextReader → List LineEnd × TextReader
  | 0, r => ([], r)
  | n + 1, r =>
    match readline timeout r with
    | (.blocked, r) => ([.blocked], r)
    | (ended, r) =>
      let (rest, r) := readlines timeout n r
      (ended :: rest, r)

/-- A packetizer on a socket that nothing has been read from. -/
def openedReader (socket : List Arrival) : TextReader := ⟨[], 0, 0, false, socket, 0⟩

end ArubaCertRenewer
