import ArubaCertRenewer.Py
import ArubaCertRenewer.PyText
import Mathlib.Data.BitVec

/- The guard on binary SSH packets, `BoundedPacketizer` of `bounded_paramiko.py`.

   Paramiko reads a packet as a header of one cipher block, from which it knows the
   length field, a body and, with encrypt-then-MAC, a MAC. The guard sees only the
   sizes it is asked for. `paramikoReadMessage` asks for them by the formulas
   of the pinned release; what the socket delivers, what the first block decrypts
   to and which exception Paramiko raises in between are answers. -/
namespace ArubaCertRenewer
open PyText Effects Effects.Py

/-- `MAX_SSH_PACKET_LENGTH`. -/
def maxSshPacketLength : Int := 256 * 1024

/-- `SSHBinaryPacketLimitError`, or any other exception. -/
inductive PacketError where
  | limit
  | other (name : Text)
  deriving DecidableEq, Repr

inductive WireCall where
  /-- `Packetizer.read_all(n, check_rekey)` of Paramiko, which reads the socket. -/
  | read (n : Int) (checkRekey : Bool)
  /-- The first block of a classic packet decrypted: its length field. -/
  | decrypt (header : Bytes)
  /-- What Paramiko does with a whole packet. -/
  | accept
  | close
  deriving DecidableEq, Repr

def WireCall.Ans : WireCall → Type
  | .read _ _ => Except PacketError Bytes
  | .decrypt _ => Except PacketError (BitVec 32)
  | .accept => Except PacketError Unit
  | .close => Except PacketError Unit

abbrev Wire : Interface := ⟨WireCall, WireCall.Ans⟩

/-- Paramiko's inbound settings: block and MAC sizes, encrypt-then-MAC, AEAD. -/
structure InboundCipher where
  block : Int
  mac : Int
  etm : Bool
  aead : Bool
  deriving DecidableEq, Repr

inductive PacketPhase where
  | header | body | mac | done
  deriving DecidableEq, Repr

inductive PacketMode where
  | classic | etm | aead
  deriving DecidableEq, Repr

structure BoundedPacketizer where
  inbound : InboundCipher
  binaryPacketLimitExceeded : Bool
  packetPhase : Option PacketPhase
  packetMode : Option PacketMode
  packetBlock : Option Int
  packetMac : Option Int
  packetClearLength : Option Int
  deriving DecidableEq, Repr

namespace BoundedPacketizer

/-- A new packetizer: Paramiko starts without a cipher. -/
def init : BoundedPacketizer := ⟨⟨8, 0, false, false⟩, false, none, none, none, none, none⟩

/-- What `read_message` leaves behind in any case. -/
def disarmed (p : BoundedPacketizer) : BoundedPacketizer :=
  { p with
    packetPhase := none, packetMode := none, packetBlock := none, packetMac := none,
    packetClearLength := none }

end BoundedPacketizer

abbrev Packets (α : Type) := Py Wire PacketError BoundedPacketizer α

/-! The guard. -/

/-- `super().read_all(n, check_rekey)`. -/
def socketReadAll (n : Int) (checkRekey : Bool) : Packets Bytes := do
  let answer ← perform (I := Wire) (.read n checkRekey)
  result answer

/-- `_binary_limit`. An exception of `close` is suppressed. -/
def binaryLimit {α : Type} : Packets α := do
  modify fun p => { p with binaryPacketLimitExceeded := true }
  let _ ← perform (I := Wire) .close
  throw .limit

def limitWhen (b : Bool) : Packets Unit := if b then binaryLimit else pure ()

/-- `int.from_bytes(header[:4], "big")`. -/
def lengthField (header : Bytes) : Nat := (header.take 4).foldl (fun n b => 256 * n + b.toNat) 0

def InboundCipher.mode (i : InboundCipher) : PacketMode :=
  if i.etm then .etm else if i.aead then .aead else .classic

/-- What `read_all` refuses of a header request. -/
def InboundCipher.refuses (i : InboundCipher) (n : Int) (checkRekey : Bool) : Bool :=
  !checkRekey || n != i.block || (i.block != 8 && i.block != 16) || i.mac < 0 || 64 < i.mac ||
    (i.etm && i.aead) || (i.etm && i.mac == 0) || (i.aead && i.mac != 16)

/-- `read_all` in the phase `header`. -/
def readHeader (n : Int) (checkRekey : Bool) : Packets Bytes := do
  let i := (← get).inbound
  limitWhen (i.refuses n checkRekey)
  let header ← socketReadAll n checkRekey
  modify fun p => { p with
    packetBlock := some i.block, packetMac := some i.mac, packetMode := some i.mode }
  if i.etm || i.aead then
    modify fun p => { p with packetClearLength := some (lengthField header) }
    limitWhen (maxSshPacketLength < lengthField header)
  modify fun p => { p with packetPhase := some .body }
  return header

/-- The length field behind a body request of `n` bytes. -/
def requestedField (mode : PacketMode) (n block mac : Int) : Int :=
  let overhead := if mode = .etm then 0 else mac
  n + block - 4 - overhead

/-- What `read_all` refuses of the length field of a body. -/
def refusesField (field : Int) (clearLength : Option Int) : Bool :=
  field < 5 || maxSshPacketLength < field || clearLength.any (field != ·)

/-- `read_all` in the phase `body`: the length field is read off the size asked for. -/
def readBody (n : Int) (checkRekey : Bool) : Packets Bytes := do
  let p ← get
  match p.packetMode, p.packetBlock, p.packetMac with
  | some mode, some block, some mac => do
    limitWhen checkRekey
    limitWhen (refusesField (requestedField mode n block mac) p.packetClearLength)
    let body ← socketReadAll n false
    modify fun p => { p with packetPhase := some (if mode = .etm then .mac else .done) }
    return body
  | _, _, _ => binaryLimit

/-- `read_all` in the phase `mac`. -/
def readMac (n : Int) (checkRekey : Bool) : Packets Bytes := do
  let p ← get
  limitWhen (checkRekey || p.packetMac != some n)
  let mac ← socketReadAll n false
  modify fun p => { p with packetPhase := some .done }
  return mac

/-- `read_all` by phase, for a size within its first bound. -/
def readInPhase (n : Int) (checkRekey : Bool) : Option PacketPhase → Packets Bytes
  | some .header => readHeader n checkRekey
  | some .body => readBody n checkRekey
  | some .mac => readMac n checkRekey
  | some .done => binaryLimit
  | none => do
    limitWhen checkRekey
    socketReadAll n false

def readAll (n : Int) (checkRekey : Bool) : Packets Bytes := do
  let p ← get
  limitWhen p.binaryPacketLimitExceeded
  limitWhen (n < 0 || maxSshPacketLength + 64 < n)
  readInPhase n checkRekey p.packetPhase

/-! Paramiko's `read_message`. -/

/-- The size of the body read for a length field. -/
def InboundCipher.bodyRequest (i : InboundCipher) (length : Nat) : Int :=
  if i.etm then length - (i.block - 4) else length + i.mac - (i.block - 4)

/-- The length field: in the clear, or decrypted with the first block. -/
def packetLength (i : InboundCipher) (header : Bytes) : Packets Nat :=
  if i.etm || i.aead then pure (lengthField header)
  else do
    let answer ← perform (I := Wire) (.decrypt header)
    let length ← result answer
    return length.toNat

/-- The reads after the length field is known: the body and, with encrypt-then-MAC, the MAC. -/
def paramikoReadBody (i : InboundCipher) (length : Nat) : Packets Unit := do
  let _ ← readAll (i.bodyRequest length) false
  if i.etm then
    let _ ← readAll i.mac false
  let answer ← perform (I := Wire) .accept
  result answer

/-- `Packetizer.read_message` of the pinned Paramiko, through the guarded `read_all`. -/
def paramikoReadMessage : Packets Unit := do
  let p ← get
  let header ← readAll p.inbound.block true
  let length ← packetLength p.inbound header
  paramikoReadBody p.inbound length

def readMessage : Packets Unit := do
  let p ← get
  limitWhen (p.binaryPacketLimitExceeded || p.packetPhase.isSome)
  modify fun p => { p with packetPhase := some .header }
  andFinally paramikoReadMessage (modify BoundedPacketizer.disarmed)

/-! The packets of a connection. -/

/-- What is done with the packetizer: a packet is read, the inbound cipher is switched, or
`read_all` is called on its own. -/
inductive WireStep where
  | message
  | setInbound (i : InboundCipher)
  | readAll (n : Int) (checkRekey : Bool)

def WireStep.run : WireStep → Packets Unit
  | .message => readMessage
  | .setInbound i => modify fun p => { p with inbound := i }
  | .readAll n checkRekey => do let _ ← ArubaCertRenewer.readAll n checkRekey

/-- The steps in order, whatever each ends with. -/
def serve : List WireStep → Packets Unit
  | [] => pure ()
  | step :: steps => do
    let _ ← attempt step.run
    serve steps

end ArubaCertRenewer
