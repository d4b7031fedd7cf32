import Mathlib.Data.BitVec
import Pertexo.Addresses.AddressText

/-!
# Address policy

## Numbers of addresses

Bit operators work on the 32 bits of a number, and shifts count modulo 32.
-/

namespace Pertexo
namespace Addresses

open Library

def toInt32 (n : Nat) : BitVec 32 :=
  BitVec.ofNat 32 n

def shiftLeft (x : BitVec 32) (count : Nat) : BitVec 32 :=
  x <<< (count % 32)

/-- The number a text of decimal digits stands for; no other text reaches it. -/
def numberOf (text : List Char) : Option Nat :=
  if text.all Char.isDigit then some (Nat.ofDigitChars 10 text 0) else none

def ipv4Number (address : List Char) : Except String Nat :=
  let octets := (address.splitOn '.').map numberOf
  if octets.length ≠ 4 ∨ octets.any (fun octet => octet.all fun value => decide (255 < value)) then
    .error "invalid IPv4 address"
  else
    let octet (index : Nat) : Nat := (octets[index]?.join).getD 0
    .ok (shiftLeft (toInt32 (octet 0)) 24 ||| shiftLeft (toInt32 (octet 1)) 16 |||
      shiftLeft (toInt32 (octet 2)) 8 ||| toInt32 (octet 3)).toNat

def matchesIpv4Prefix (address network prefixLength : Nat) : Bool :=
  let mask := if prefixLength = 0 then 0 else shiftLeft (toInt32 0xffffffff) (32 - prefixLength)
  toInt32 address &&& mask == toInt32 network &&& mask

def highWord (value : Nat) : Nat :=
  (toInt32 value >>> 16 &&& toInt32 0xffff).toNat

def lowWord (value : Nat) : Nat :=
  (toInt32 value &&& toInt32 0xffff).toNat

def ipv4Words (address : List Char) : Except String (List Nat) := do
  let value ← ipv4Number address
  return [highWord value, lowWord value]

def isIpv6Segment (segment : List Char) : Bool :=
  decide (1 ≤ segment.length ∧ segment.length ≤ 4) &&
    segment.all fun c => c.isDigit || decide ('a' ≤ c ∧ c ≤ 'f')

def parseSegments : List (List Char) -> Except String (List Nat)
  | [] => .ok []
  | segment :: rest =>
      if '.' ∈ segment then
        if rest ≠ [] then .error "invalid embedded IPv4 address"
        else do
          let ipv4 ← ipv4Number segment
          return [highWord ipv4, lowWord ipv4]
      else if ¬ isIpv6Segment segment then .error "invalid IPv6 segment"
      else do
        let words ← parseSegments rest
        return hexGroupValue segment :: words

def parseIpv6Half (value : List Char) : Except String (List Nat) :=
  if value = [] then .ok [] else parseSegments (value.splitOn ':')

def ipv6Words (address : List Char) : Except String (List Nat) := do
  let normalized := address.map Char.toLower
  if '%' ∈ normalized then .error "scoped IPv6 is blocked"
  else
    let halves := splitHalves normalized
    if halves.length > 2 then .error "invalid IPv6 address"
    else
      let left ← parseIpv6Half (halves[0]?.getD [])
      let right ← parseIpv6Half (halves[1]?.getD [])
      let missing : Int := 8 - left.length - right.length
      if (halves.length = 1 ∧ missing ≠ 0) ∨ (halves.length = 2 ∧ missing < 1) then
        .error "invalid IPv6 address"
      else .ok (left ++ List.replicate missing.toNat 0 ++ right)

def wordAt (words : List Nat) (index : Nat) : Nat :=
  words[index]?.getD 0

def matchesIpv6Prefix (address network : List Nat) (prefixLength : Nat) : Bool :=
  let wholeWords := prefixLength / 16
  let remaining := prefixLength % 16
  (List.range wholeWords).all (fun index => wordAt address index == wordAt network index) &&
    if remaining = 0 then true
    else
      let mask := shiftLeft (toInt32 0xffff) (16 - remaining) &&& toInt32 0xffff
      toInt32 (wordAt address wholeWords) &&& mask == toInt32 (wordAt network wholeWords) &&& mask

/-!
## Networks
-/

def BLOCKED_IPV4_PREFIXES : List (String × Nat) :=
  [("0.0.0.0", 8), ("10.0.0.0", 8), ("100.64.0.0", 10), ("127.0.0.0", 8), ("169.254.0.0", 16),
    ("172.16.0.0", 12), ("192.0.0.0", 24), ("192.0.2.0", 24), ("192.88.99.0", 24),
    ("192.168.0.0", 16), ("198.18.0.0", 15), ("198.51.100.0", 24), ("203.0.113.0", 24),
    ("224.0.0.0", 4), ("240.0.0.0", 4)]

structure Ipv6Network where
  network : List Nat
  prefixLength : Nat
deriving DecidableEq, Repr

def BLOCKED_IPV6_PREFIXES : List Ipv6Network :=
  [{ network := [0x2001, 0x0], prefixLength := 23 },
    { network := [0x2001, 0x0db8], prefixLength := 32 },
    { network := [0x2002], prefixLength := 16 },
    { network := [0x3fff], prefixLength := 20 }]

inductive Family where
  | ipv4
  | ipv6
deriving DecidableEq, Repr

structure AllowedPrivateNetwork where
  family : Family
  words : List Nat
  prefixLength : Nat
deriving DecidableEq, Repr

def metadataNetwork (family : Family) (network : String × Nat) :
    Except String AllowedPrivateNetwork := do
  let words ← match family with
    | .ipv4 => ipv4Words network.1.toList
    | .ipv6 => ipv6Words network.1.toList
  return { family := family, words := words, prefixLength := network.2 }

/-- What a constant of the module is once it has loaded. -/
def loaded {α : Type u} (constant : Except String (List α)) : List α :=
  match constant with
  | .ok value => value
  | .error _ => []

def METADATA_IPV4_PREFIXES : List (String × Nat) :=
  [("169.254.0.0", 16), ("100.100.100.200", 32), ("168.63.129.16", 32)]

def METADATA_IPV6_PREFIXES : List (String × Nat) :=
  [("fd00:ec2::", 32), ("fd20:ce::254", 128), ("fe80::a9fe:a9fe", 128),
    ("fd00:a9fe:a9fe::1", 128)]

def METADATA_NETWORKS : List AllowedPrivateNetwork :=
  loaded (METADATA_IPV4_PREFIXES.mapM (metadataNetwork .ipv4)) ++
    loaded (METADATA_IPV6_PREFIXES.mapM (metadataNetwork .ipv6))

def inNetwork (family : Family) (words : List Nat) (network : AllowedPrivateNetwork) : Bool :=
  if network.family ≠ family then false
  else
    -- IPv4 networks are stored behind 96 zero bits, so one matcher serves both.
    let padded := match family with
      | .ipv4 => [0, 0, 0, 0, 0, 0] ++ words
      | .ipv6 => words
    let base := match network.family with
      | .ipv4 => [0, 0, 0, 0, 0, 0] ++ network.words
      | .ipv6 => network.words
    matchesIpv6Prefix padded base network.prefixLength

def trailingNetwork (network : String × Nat) : Except String Ipv6Network := do
  let words ← ipv6Words network.1.toList
  return { network := words, prefixLength := network.2 }

/-- IPv4-compatible and IPv4-mapped, IPv4-translated, NAT64 well-known and local-use. -/
def TRAILING_IPV4_NETWORKS : List Ipv6Network :=
  loaded ([("::", 80), ("::ffff:0:0:0", 96), ("64:ff9b::", 96), ("64:ff9b:1::", 48)].mapM
    trailingNetwork)

def SIX_TO_FOUR : List Nat :=
  loaded (ipv6Words "2002::".toList)

def embeddedIpv4 (words : List Nat) : Option (List Nat) :=
  if matchesIpv6Prefix words SIX_TO_FOUR 16 then some ((words.drop 1).take 2)
  else if TRAILING_IPV4_NETWORKS.any (fun entry =>
      matchesIpv6Prefix words entry.network entry.prefixLength) then some (words.drop 6)
  else none

def isMetadataAddress (family : Family) (words : List Nat) : Bool :=
  let embedded := match family with
    | .ipv6 => embeddedIpv4 words
    | .ipv4 => none
  let (checkedFamily, checked) := match embedded with
    | none => (family, words)
    | some embedded => (.ipv4, embedded)
  METADATA_NETWORKS.any fun network =>
    inNetwork checkedFamily checked
      { network with
        prefixLength := match network.family with
          | .ipv4 => network.prefixLength + 96
          | .ipv6 => network.prefixLength }

/-!
## The policy
-/

def matchesBlockedIpv4 (value : Nat) (network : String × Nat) : Except String Bool := do
  let number ← ipv4Number network.1.toList
  return matchesIpv4Prefix value number network.2

/-- Whether a value matches one of the prefixes, tried in order. -/
def someBlockedIpv4 (value : Nat) : List (String × Nat) -> Except String Bool
  | [] => .ok false
  | network :: rest => do
      if ← matchesBlockedIpv4 value network then return true
      else someBlockedIpv4 value rest

def assertPublicAddress (address : List Char) : Except String Family :=
  let family := isIP address
  if family = 4 then do
    let value ← ipv4Number address
    let words ← ipv4Words address
    if isMetadataAddress .ipv4 words then .error "blocked address"
    else if ← someBlockedIpv4 value BLOCKED_IPV4_PREFIXES then .error "blocked address"
    else return .ipv4
  else if family = 6 then do
    let words ← ipv6Words address
    let first := wordAt words 0
    if isMetadataAddress .ipv6 words ∨ (toInt32 first &&& toInt32 0xe000) ≠ toInt32 0x2000 then
      .error "blocked address"
    else if BLOCKED_IPV6_PREFIXES.any (fun blocked =>
        matchesIpv6Prefix words blocked.network blocked.prefixLength) then
      .error "blocked address"
    else return .ipv6
  else .error "invalid address"

/-- Whether the operator allowed this private address; metadata never is. -/
def isAllowedPrivateAddress (address : List Char) (networks : List AllowedPrivateNetwork) :
    Except String Bool :=
  if networks.length = 0 then .ok false
  else
    let family := isIP address
    if family = 4 then do
      let words ← ipv4Words address
      if isMetadataAddress .ipv4 words then return false
      else return networks.any (inNetwork .ipv4 words)
    else if family = 6 then do
      let words ← ipv6Words address
      if isMetadataAddress .ipv6 words then return false
      else return networks.any (inNetwork .ipv6 words)
    else .ok false

end Addresses
end Pertexo
