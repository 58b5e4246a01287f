import Rankuno.Python.Text

/-!
# Python's `ipaddress`

Parsing, printing and the range predicates of IPv4 and IPv6 addresses, as
`ipaddress.py` has them. `ip_address` swallows the reason one family's parser
gives, so the parsers here only say whether there is an address.
-/

namespace Rankuno.Python

open Text

/-- What `ip_address` returns. -/
inductive IPAddress where
  | v4 (ip : BitVec 32)
  | v6 (ip : BitVec 128) (scopeId : Option Text)
  deriving DecidableEq

/-- An `IPv4Network` or `IPv6Network`. -/
structure IPNetwork (w : Nat) where
  base : BitVec w
  prefixLen : Nat
  deriving DecidableEq

namespace IPNetwork

/-- `ip in net`. -/
def contains {w : Nat} (net : IPNetwork w) (ip : BitVec w) : Bool :=
  ip >>> (w - net.prefixLen) = net.base >>> (w - net.prefixLen)

/-- `IPv4Network('a.b.c.d/n')`. -/
def v4 (a b c d prefixLen : Nat) : IPNetwork 32 :=
  ⟨BitVec.ofNat 32 (((a * 256 + b) * 256 + c) * 256 + d), prefixLen⟩

/-- `IPv6Network`, by its first four hextets and its last. -/
def v6 (a b c d last prefixLen : Nat) : IPNetwork 128 :=
  ⟨BitVec.ofNat 128 ((((a * 65536 + b) * 65536 + c) * 65536 + d) * 65536 * 65536 * 65536 * 65536
    + last), prefixLen⟩

end IPNetwork

namespace IPv4

/-- `_IPv4Constants._private_networks`. -/
def privateNetworks : List (IPNetwork 32) :=
  [.v4 0 0 0 0 8, .v4 10 0 0 0 8, .v4 127 0 0 0 8, .v4 169 254 0 0 16, .v4 172 16 0 0 12,
    .v4 192 0 0 0 24, .v4 192 0 0 170 31, .v4 192 0 2 0 24, .v4 192 168 0 0 16,
    .v4 198 18 0 0 15, .v4 198 51 100 0 24, .v4 203 0 113 0 24, .v4 240 0 0 0 4,
    .v4 255 255 255 255 32]

/-- `_IPv4Constants._private_networks_exceptions`. -/
def privateNetworksExceptions : List (IPNetwork 32) := [.v4 192 0 0 9 32, .v4 192 0 0 10 32]

/-- `_parse_octet`. -/
def parseOctet (s : Text) : Option Nat :=
  if s = [] ∨ ¬s.all isAsciiDigit ∨ 3 < s.length ∨ (s ≠ ['0'] ∧ s.head? = some '0') ∨
    255 < decimal s then none
  else some (decimal s)

/-- `IPv4Address` of a text. -/
def parse (s : Text) : Option (BitVec 32) :=
  if '/' ∈ s then none
  else
    match (split '.' s).map parseOctet with
    | [some a, some b, some c, some d] =>
      some (BitVec.ofNat 32 (((a * 256 + b) * 256 + c) * 256 + d))
    | _ => none

/-- `_string_from_ip_int`. -/
def toText (ip : BitVec 32) : Text :=
  join ['.'] ([24, 16, 8, 0].map fun shift => ofNat ((ip >>> shift).toNat % 256))

def isUnspecified (ip : BitVec 32) : Bool := ip = 0

def isLoopback (ip : BitVec 32) : Bool := (IPNetwork.v4 127 0 0 0 8).contains ip

def isLinkLocal (ip : BitVec 32) : Bool := (IPNetwork.v4 169 254 0 0 16).contains ip

def isMulticast (ip : BitVec 32) : Bool := (IPNetwork.v4 224 0 0 0 4).contains ip

def isReserved (ip : BitVec 32) : Bool := (IPNetwork.v4 240 0 0 0 4).contains ip

def isPrivate (ip : BitVec 32) : Bool :=
  privateNetworks.any (·.contains ip) && privateNetworksExceptions.all fun net => !net.contains ip

end IPv4

namespace IPv6

/-- `_IPv6Constants._private_networks`. -/
def privateNetworks : List (IPNetwork 128) :=
  [.v6 0 0 0 0 1 128, .v6 0 0 0 0 0 128, .v6 0 0 0 0 0xffff00000000 96,
    .v6 0x64 0xff9b 1 0 0 48, .v6 0x100 0 0 0 0 64, .v6 0x2001 0 0 0 0 23,
    .v6 0x2001 0xdb8 0 0 0 32, .v6 0x2002 0 0 0 0 16, .v6 0x3fff 0 0 0 0 20,
    .v6 0xfc00 0 0 0 0 7, .v6 0xfe80 0 0 0 0 10]

/-- `_IPv6Constants._private_networks_exceptions`. -/
def privateNetworksExceptions : List (IPNetwork 128) :=
  [.v6 0x2001 1 0 0 1 128, .v6 0x2001 1 0 0 2 128, .v6 0x2001 3 0 0 0 32,
    .v6 0x2001 4 0x112 0 0 48, .v6 0x2001 0x20 0 0 0 28, .v6 0x2001 0x30 0 0 0 28]

/-- `_IPv6Constants._reserved_networks`. -/
def reservedNetworks : List (IPNetwork 128) :=
  [.v6 0 0 0 0 0 8, .v6 0x100 0 0 0 0 8, .v6 0x200 0 0 0 0 7, .v6 0x400 0 0 0 0 6,
    .v6 0x800 0 0 0 0 5, .v6 0x1000 0 0 0 0 4, .v6 0x4000 0 0 0 0 3, .v6 0x6000 0 0 0 0 3,
    .v6 0x8000 0 0 0 0 3, .v6 0xa000 0 0 0 0 3, .v6 0xc000 0 0 0 0 3, .v6 0xe000 0 0 0 0 4,
    .v6 0xf000 0 0 0 0 5, .v6 0xf800 0 0 0 0 6, .v6 0xfe00 0 0 0 0 9]

/-- `_parse_hextet`. An empty one is no hexadecimal number. -/
def parseHextet (s : Text) : Option Nat :=
  if s = [] ∨ 4 < s.length then none
  else s.foldlM (fun n c => (hexDigit? c).map (16 * n + ·)) 0

/-- The parts of an address text with an IPv4-style suffix turned into two
hextets. -/
def expandSuffix (parts : List Text) : Option (List Text) :=
  match parts.getLast? with
  | none => none
  | some last =>
    if '.' ∈ last then
      (IPv4.parse last).map fun ip =>
        parts.dropLast ++ [ofNatHex (ip.toNat / 65536), ofNatHex (ip.toNat % 65536)]
    else some parts

/-- The hextets before and after a `::` at place `skip`. An empty end is only
allowed as part of the `::`. -/
def splitAtSkip (parts : List Text) (skip : Nat) : Option (List Text × List Text) :=
  let hi := parts.take skip
  let lo := parts.drop (skip + 1)
  if hi.head? = some [] ∧ hi.length ≠ 1 ∨ lo.getLast? = some [] ∧ lo.length ≠ 1 then none
  else some (if hi.head? = some [] then [] else hi, if lo.getLast? = some [] then [] else lo)

/-- The eight hextets the parts stand for. -/
def hextets (parts : List Text) : Option (List Nat) :=
  if 9 < parts.length then none
  else
    match (List.range (parts.length - 1)).filter fun i => 0 < i ∧ parts[i]? = some [] with
    | [] => if parts.length = 8 then parts.mapM parseHextet else none
    | [skip] =>
      match splitAtSkip parts skip with
      | none => none
      | some (hi, lo) =>
        if 8 ≤ hi.length + lo.length then none
        else
          match hi.mapM parseHextet, lo.mapM parseHextet with
          | some hi, some lo =>
            some (hi ++ List.replicate (8 - (hi.length + lo.length)) 0 ++ lo)
          | _, _ => none
    | _ => none

/-- `_ip_int_from_string`. -/
def parseInt (s : Text) : Option (BitVec 128) :=
  if s = [] ∨ (split ':' s).length < 3 then none
  else
    match expandSuffix (split ':' s) with
    | none => none
    | some parts =>
      (hextets parts).map fun hs => BitVec.ofNat 128 (hs.foldl (fun n h => 65536 * n + h) 0)

/-- `IPv6Address` of a text, with its scope id. -/
def parse (s : Text) : Option (BitVec 128 × Option Text) :=
  if '/' ∈ s then none
  else
    match partition '%' s with
    | (addr, none) => (parseInt addr).map (·, none)
    | (addr, some scopeId) =>
      if scopeId = [] ∨ '%' ∈ scopeId then none else (parseInt addr).map (·, some scopeId)

/-- The first longest run of zero hextets: its start and its length. -/
def longestZeros (hs : List Nat) : Nat × Nat :=
  let scan := hs.zipIdx.foldl
    (fun (best, start, length) (h, index) =>
      if h = 0 then
        let start := if length = 0 then index else start
        (if best.2 < length + 1 then (start, length + 1) else best, start, length + 1)
      else (best, 0, 0))
    ((0, 0), 0, 0)
  scan.1

/-- `_compress_hextets`. -/
def compressHextets (hs : List Nat) : List Text :=
  let (start, length) := longestZeros hs
  if 1 < length then
    (if start = 0 then [[]] else []) ++ (hs.take start).map ofNatHex ++ [[]] ++
      (hs.drop (start + length)).map ofNatHex ++
      if start + length = hs.length then [[]] else []
  else hs.map ofNatHex

/-- `IPv6Address.__str__`. -/
def toText (ip : BitVec 128) (scopeId : Option Text) : Text :=
  let hs := [112, 96, 80, 64, 48, 32, 16, 0].map fun shift => (ip >>> shift).toNat % 65536
  join [':'] (compressHextets hs) ++
    match scopeId with
    | none => []
    | some scope => '%' :: scope

def isUnspecified (ip : BitVec 128) : Bool := ip = 0

def isLoopback (ip : BitVec 128) : Bool := ip = 1

def isLinkLocal (ip : BitVec 128) : Bool := (IPNetwork.v6 0xfe80 0 0 0 0 10).contains ip

def isMulticast (ip : BitVec 128) : Bool := (IPNetwork.v6 0xff00 0 0 0 0 8).contains ip

def isReserved (ip : BitVec 128) : Bool := reservedNetworks.any (·.contains ip)

/-- `ipv4_mapped`. -/
def ipv4Mapped (ip : BitVec 128) : Option (BitVec 32) :=
  if ip >>> 32 = 0xffff then some (ip.setWidth 32) else none

/-- `sixtofour`. -/
def sixtofour (ip : BitVec 128) : Option (BitVec 32) :=
  if ip >>> 112 = 0x2002 then some ((ip >>> 80).setWidth 32) else none

/-- `teredo`, whose two addresses are the server's and the client's. -/
def teredo (ip : BitVec 128) : Option (BitVec 32 × BitVec 32) :=
  if ip >>> 96 = 0x20010000 then some ((ip >>> 64).setWidth 32, (~~~ip).setWidth 32) else none

def isPrivate (ip : BitVec 128) : Bool :=
  match ipv4Mapped ip with
  | some mapped => IPv4.isPrivate mapped
  | none =>
    privateNetworks.any (·.contains ip) && privateNetworksExceptions.all fun net => !net.contains ip

end IPv6

/-- `ip_address`, with the text of its `ValueError`. -/
def ipAddress (unicode : UnicodeData) (s : Text) : Except Text IPAddress :=
  match IPv4.parse s with
  | some ip => .ok (.v4 ip)
  | none =>
    match IPv6.parse s with
    | some (ip, scopeId) => .ok (.v6 ip scopeId)
    | none =>
      .error (unicode.repr s ++ " does not appear to be an IPv4 or IPv6 address".toList)

/-- `str` of an address. -/
def IPAddress.toText : IPAddress → Text
  | .v4 ip => IPv4.toText ip
  | .v6 ip scopeId => IPv6.toText ip scopeId

end Rankuno.Python
