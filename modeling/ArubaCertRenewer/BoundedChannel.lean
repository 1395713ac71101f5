import ArubaCertRenewer.Py
import ArubaCertRenewer.PyText

/- The budgets of the SSH channel, `bounded_netmiko.py`.

   The channel counts the raw bytes it receives, the connection the characters it
   hands on. A budget scope replaces both counters and both limits, and puts the
   outer ones back when it is left. What Netmiko does on top of the channel (its
   patterns, its prompts, its buffer of unread text) is a caller: it may do any of
   these steps in any order. -/
namespace ArubaCertRenewer
open PyText Effects Effects.Py

def setupReadBytes : Int := 32 * 1024

/-- Netmiko's `MAX_BUFFER`. -/
def maxBuffer : Int := 65535

inductive ChannelError where
  /-- `SSHOutputLimitError` -/
  | outputLimit
  /-- `SSHBinaryPacketLimitError` -/
  | binaryLimit
  /-- Netmiko's `ReadException` and `WriteException` -/
  | read
  | write
  | value
  | runtime
  | other (name : Text)
  deriving DecidableEq, Repr

inductive ChannelCall where
  /-- The packetizer's `binary_packet_limit_exceeded`. -/
  | binaryOverflow
  | recvReady
  | recv (n : Int)
  | sendall (data : Text)
  | close
  deriving DecidableEq, Repr

def ChannelCall.Ans : ChannelCall → Type
  | .binaryOverflow => Bool
  | .recvReady => Except ChannelError Bool
  | .recv _ => Except ChannelError Bytes
  | .sendall _ => Except ChannelError Unit
  | .close => Except ChannelError Unit

abbrev Transport : Interface := ⟨ChannelCall, ChannelCall.Ans⟩

structure BoundedSSHChannel where
  remoteConn : Bool
  limit : Int
  used : Int
  processedLimit : Int
  processedUsed : Int
  poisoned : Bool
  deriving DecidableEq, Repr

/-- The variables of an open `read_budget`. -/
structure BudgetScope where
  oldLimit : Int
  oldUsed : Int
  oldProcessedLimit : Int
  oldProcessedUsed : Int
  deriving DecidableEq, Repr

structure BoundedArubaConnection where
  channel : BoundedSSHChannel
  boundedChannelPoisoned : Bool
  remoteConn : Bool
  remoteConnPre : Bool
  budgetScopeActive : Bool
  scope : Option BudgetScope
  readBuffer : Text
  deriving DecidableEq, Repr

namespace BoundedArubaConnection

/-- After `special_login_handler`. -/
def opened (readBuffer : Text) : BoundedArubaConnection :=
  ⟨⟨true, setupReadBytes, 0, setupReadBytes, 0, false⟩, false, true, true, false, none, readBuffer⟩

def mapChannel (f : BoundedSSHChannel → BoundedSSHChannel) (s : BoundedArubaConnection) :
    BoundedArubaConnection :=
  { s with channel := f s.channel }

/-- What `_dispose_poisoned` leaves. -/
def disposed (s : BoundedArubaConnection) : BoundedArubaConnection :=
  { s with boundedChannelPoisoned := true, remoteConn := false, remoteConnPre := false }

/-- `len(self._read_buffer.encode("utf-8"))` -/
def retained (s : BoundedArubaConnection) : Nat := utf8Length s.readBuffer

/-- `len(self._read_buffer)` -/
def processedRetained (s : BoundedArubaConnection) : Nat := s.readBuffer.length

def currentScope (s : BoundedArubaConnection) : BudgetScope :=
  ⟨s.channel.limit, s.channel.used, s.channel.processedLimit, s.channel.processedUsed⟩

/-- The budget of a scope that is entered. -/
def entered (s : BoundedArubaConnection) (limit : Int) : BoundedArubaConnection :=
  { s with
    budgetScopeActive := true
    scope := some s.currentScope
    channel := { s.channel with
      limit := limit, used := s.retained
      processedLimit := limit, processedUsed := s.processedRetained } }

/-- The outer budget, charged with what the scope left unread. -/
def left (s : BoundedArubaConnection) (outer : BudgetScope) : BoundedArubaConnection :=
  { s with
    budgetScopeActive := false
    scope := none
    channel := { s.channel with
      limit := outer.oldLimit, used := outer.oldUsed + s.retained
      processedLimit := outer.oldProcessedLimit
      processedUsed := outer.oldProcessedUsed + s.processedRetained } }

end BoundedArubaConnection

open BoundedArubaConnection

abbrev Channel (α : Type) := Py Transport ChannelError BoundedArubaConnection α

/-! The health of the connection. -/

/-- `transport.close()`, its exceptions suppressed. -/
def closeIf (present : Bool) : Channel Unit := do
  if present then
    let _ ← perform (I := Transport) .close

/-- `_dispose_poisoned` -/
def disposePoisoned : Channel Unit := do
  let s ← get
  set s.disposed
  closeIf s.remoteConn
  closeIf s.remoteConnPre

/-- `BoundedSSHChannel.poison` -/
def poison : Channel Unit := do
  modify (mapChannel fun c => { c with poisoned := true })
  disposePoisoned

/-- `_binary_overflow`: the flag of the packetizer, as long as its client is kept. -/
def binaryOverflow : Channel Bool := do
  let s ← get
  if s.remoteConnPre then perform (I := Transport) .binaryOverflow else pure false

/-- `BoundedArubaConnection._require_healthy` -/
def requireHealthy : Channel Unit := do
  if ← binaryOverflow then
    disposePoisoned
    throw .binaryLimit
  let s ← get
  raiseIf s.boundedChannelPoisoned .outputLimit

/-- `BoundedSSHChannel._require_healthy` -/
def requireChannelHealthy : Channel Unit := do
  requireHealthy
  let s ← get
  raiseIf s.channel.poisoned .outputLimit

/-- `channel.poison()` and the exception of every refusal. -/
def overBudget {α : Type} : Channel α := do
  poison
  throw .outputLimit

/-! Reads and writes. -/

/-- What one `recv` may bring. -/
def BoundedSSHChannel.request (c : BoundedSSHChannel) : Int := min maxBuffer (c.limit - c.used + 1)

/-- The received bytes are counted, and refused when they are over the budget. -/
def countReceived (length : Nat) : Channel Unit := do
  modify (mapChannel fun c => { c with used := c.used + length })
  let s ← get
  if s.channel.limit < s.channel.used then overBudget

section encoding
-- `raw.decode(self.encoding, "ignore")`
variable (decode : Bytes → Text)

def readBuffer : Channel Text := do
  requireChannelHealthy
  let s ← get
  raiseIf (!s.channel.remoteConn) .read
  let ready ← perform (I := Transport) .recvReady
  if !(← result ready) then
    return []
  let raw ← andFinally
    (do
      let answer ← perform (I := Transport) (.recv s.channel.request)
      result answer)
    requireChannelHealthy
  raiseIf raw.isEmpty .read
  countReceived raw.length
  return decode raw

/-- Netmiko's `SSHChannel.read_channel`: what is there to read, until nothing comes. -/
def vendorReadChannel : Nat → Channel Text
  | 0 => ofProg fun _ => .unfinished
  | rounds + 1 => do
    let text ← readBuffer decode
    if text = [] then return []
    let rest ← vendorReadChannel rounds
    return text ++ rest

/-- `read_channel` and `write_channel` of the channel, around what Netmiko does. -/
def whileHealthy {α : Type} (vendor : Channel α) : Channel α := do
  requireChannelHealthy
  let answer ← handle vendor fun e =>
    if e = .binaryLimit then throw e
    else do
      requireChannelHealthy
      throw e
  requireChannelHealthy
  return answer

def readChannel (rounds : Nat) : Channel Text := whileHealthy (vendorReadChannel decode rounds)

/-- Netmiko's `SSHChannel.write_channel`. -/
def vendorWriteChannel (data : Text) : Channel Unit := do
  let s ← get
  raiseIf (!s.channel.remoteConn) .write
  let answer ← perform (I := Transport) (.sendall data)
  result answer

def writeChannel (data : Text) : Channel Unit := whileHealthy (vendorWriteChannel data)

end encoding

/-- `_charge_processed` -/
def chargeProcessed (length : Int) : Channel Unit := do
  let s ← get
  if length < 0 || s.channel.processedLimit < s.channel.processedUsed + length then
    overBudget
  modify (mapChannel fun c => { c with processedUsed := c.processedUsed + length })

/-! Budget scopes. -/

/-- `read_budget` up to its `yield`. -/
def enterReadBudget (limit : Int) : Channel Unit := do
  requireHealthy
  raiseIf (limit ≤ 0) .value
  let s ← get
  raiseIf s.budgetScopeActive .runtime
  if limit < s.retained || limit < s.processedRetained then
    overBudget
  set (s.entered limit)

/-- The counters are over their limits. -/
def BoundedSSHChannel.overdrawn (c : BoundedSSHChannel) : Bool :=
  c.limit < c.used || c.processedLimit < c.processedUsed

/-- `read_budget` from its `yield` on; `handling` is whether `sys.exception()` is set. Nothing is
left when no scope is open. -/
def leaveReadBudget (handling : Bool) : Channel Unit := do
  let s ← get
  match s.scope with
  | none => pure ()
  | some outer => do
    set (s.left outer)
    if !s.channel.poisoned && (s.left outer).channel.overdrawn then
      poison
      raiseIf (!handling) .outputLimit

/-! What is done with a connection. -/

inductive ChannelStep where
  /-- `read_channel`, with at most so many receives. -/
  | readChannel (rounds : Nat)
  | readBuffer
  | writeChannel (data : Text)
  | chargeProcessed (length : Int)
  /-- A check that refuses, as the preflight of the ANSI codes does. -/
  | refuse
  | enterReadBudget (limit : Int)
  | leaveReadBudget (handling : Bool)
  /-- Netmiko keeps text for the next read. -/
  | retain (text : Text)

/-- A step, and the text it hands on. -/
def ChannelStep.run (decode : Bytes → Text) : ChannelStep → Channel Text
  | .readChannel rounds => ArubaCertRenewer.readChannel decode rounds
  | .readBuffer => ArubaCertRenewer.readBuffer decode
  | .writeChannel data => do ArubaCertRenewer.writeChannel data; return []
  | .chargeProcessed length => do ArubaCertRenewer.chargeProcessed length; return []
  | .refuse => overBudget
  | .enterReadBudget limit => do ArubaCertRenewer.enterReadBudget limit; return []
  | .leaveReadBudget handling => do ArubaCertRenewer.leaveReadBudget handling; return []
  | .retain text => do modify fun s => { s with readBuffer := text }; return []

end ArubaCertRenewer
