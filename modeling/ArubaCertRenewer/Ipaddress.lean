import ArubaCertRenewer.PyText
import Mathlib.Data.BitVec

/- `ipaddress.ip_address` of CPython 3.14: strict dotted IPv4, and IPv6 with `::`, an
   IPv4 suffix and a scope, each with its printed form. -/
namespace ArubaCertRenewer
open PyText

inductive IpAddress where
  | v4 (ip : BitVec 32)
  | v6 (ip : BitVec 128) (scope : Option Text)
  deriving DecidableEq, Repr

namespace IpAddress

def isDecDigit (c : Char) : Bool := '0' ≤ c && c ≤ '9'
def isHexDigit (c : Char) : Bool :=
  isDecDigit c || ('a' ≤ c && c ≤ 'f') || ('A' ≤ c && c ≤ 'F')

def hexValue (c : Char) : Nat :=
  if isDecDigit c then c.toNat - 48 else if c.toNat < 97 then c.toNat - 55 else c.toNat - 87

def decText (t : Text) : Nat := t.foldl (fun n c => 10 * n + (c.toNat - 48)) 0
def hexText (t : Text) : Nat := t.foldl (fun n c => 16 * n + hexValue c) 0

/-- `_parse_octet`. -/
def parseOctet (t : Text) : Option Nat :=
  if t.isEmpty || !t.all isDecDigit || 3 < t.length then none
  else if t != ['0'] && t.head? == some '0' then none
  else if 255 < decText t then none
  else some (decText t)

/-- The value of a number written with `digits` of base `2 ^ w`, most significant first. -/
def fromDigits (w : Nat) (digits : List Nat) : Nat := digits.foldl (fun n d => n * 2 ^ w + d) 0

def parseIpv4 (t : Text) : Option (BitVec 32) :=
  if t.contains '/' then none
  else
    let octets := splitOn '.' t
    if octets.length != 4 then none
    else (octets.mapM parseOctet).map fun os => BitVec.ofNat 32 (fromDigits 8 os)

/-- `_parse_hextet`. -/
def parseHextet (t : Text) : Option Nat :=
  if t.isEmpty || !t.all isHexDigit || 4 < t.length then none else some (hexText t)

/-- The parts of the address with an IPv4 suffix rewritten as two hextets. -/
def ipv6Parts (t : Text) : Option (List Text) :=
  let parts := splitOn ':' t
  if parts.length < 3 then none
  else
    match parts.getLast? with
    | none => none
    | some last =>
      if last.contains '.' then
        (parseIpv4 last).map fun ip =>
          parts.dropLast ++
            [(Nat.toDigits 16 (ip.toNat / 2 ^ 16)), (Nat.toDigits 16 (ip.toNat % 2 ^ 16))]
      else some parts

/-- `_ip_int_from_string`: at most one `::`, written as an empty inner part. -/
def ipv6FromString (t : Text) : Option (BitVec 128) := do
  let parts ← ipv6Parts t
  if 9 < parts.length then none
  else
    let inner := (List.range parts.length).filter fun i =>
      0 < i && i + 1 < parts.length && (parts.getD i []).isEmpty
    let first := parts.getD 0 []
    let last := parts.getD (parts.length - 1) []
    match inner with
    | [] =>
      if parts.length != 8 || first.isEmpty || last.isEmpty then none
      else (parts.mapM parseHextet).map fun hs => BitVec.ofNat 128 (fromDigits 16 hs)
    | [skip] =>
      let hi := if first.isEmpty then skip - 1 else skip
      let lo := if last.isEmpty then parts.length - skip - 2 else parts.length - skip - 1
      if (first.isEmpty && hi != 0) || (last.isEmpty && lo != 0) || 8 < hi + lo + 1 then none
      else do
        let his ← (parts.take hi).mapM parseHextet
        let los ← (parts.drop (parts.length - lo)).mapM parseHextet
        some (BitVec.ofNat 128
          (fromDigits 16 (his ++ List.replicate (8 - (hi + lo)) 0 ++ los)))
    | _ => none

/-- `_split_scope_id`. -/
def splitScope (t : Text) : Option (Text × Option Text) :=
  let addr := t.takeWhile (· != '%')
  match t.drop addr.length with
  | [] => some (addr, none)
  | _ :: scope => if scope.isEmpty || scope.contains '%' then none else some (addr, some scope)

def parseIpv6 (t : Text) : Option IpAddress :=
  if t.contains '/' then none
  else do
    let (addr, scope) ← splitScope t
    (ipv6FromString addr).map (v6 · scope)

/-- `ipaddress.ip_address`; `none` is its `ValueError`. -/
def ofText (t : Text) : Option IpAddress := ((parseIpv4 t).map v4).or (parseIpv6 t)

def printIpv4 (ip : BitVec 32) : Text :=
  let n := ip.toNat
  join ['.'] [ofNat (n / 2 ^ 24), ofNat (n / 2 ^ 16 % 256), ofNat (n / 2 ^ 8 % 256), ofNat (n % 256)]

/-- The hextets of an address, most significant first. -/
def hextets (n : Nat) : List Nat := (List.range 8).map fun i => n / 2 ^ (16 * (7 - i)) % 2 ^ 16

/-- The length of the run of zeros a list of hextets starts with. -/
def zeroRun (hs : List Nat) : Nat := (hs.takeWhile (· == 0)).length

/-- `_compress_hextets`: the first longest run of two zeros or more becomes `::`. -/
def compressHextets (hs : List Nat) : Text :=
  let runs := (List.range hs.length).map fun i => (i, zeroRun (hs.drop i))
  let best := runs.foldl (fun b r => if b.2 < r.2 then r else b) (0, 0)
  let hex := fun l : List Nat => join [':'] (l.map (Nat.toDigits 16))
  if best.2 ≤ 1 then hex hs
  else hex (hs.take best.1) ++ "::" ++ hex (hs.drop (best.1 + best.2))

/-- `str(address)`; an IPv4-mapped IPv6 address keeps its dotted suffix. -/
def str : IpAddress → Text
  | v4 ip => printIpv4 ip
  | v6 ip scope =>
    let addr :=
      if ip.toNat / 2 ^ 32 == 0xffff then "::ffff:" ++ printIpv4 (BitVec.ofNat 32 ip.toNat)
      else compressHextets (hextets ip.toNat)
    match scope with
    | none => addr
    | some s => addr ++ "%" ++ s

end IpAddress

end ArubaCertRenewer
