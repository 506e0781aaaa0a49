import Eef.Node.Identity

/-!
# Advertised addresses

`validate_address` of `network.rs`: the bounded `host` or `host:port` a coordinator may
advertise. `IpAddr.parse` is the standard library's reading of an address: four decimal octets,
or eight hexadecimal groups of which one run may be written `::` and the last two as an IPv4
address.
-/

namespace Eef.Node.Network

open Eef.Lib

/-- `std::net::IpAddr`, as its octets or its 16-bit groups. -/
inductive IpAddr where
  | v4 (octets : List Nat)
  | v6 (groups : List Nat)
  deriving DecidableEq, Repr

namespace IpAddr

/-- The value of a digit. -/
def digit (c : Char) : Option Nat :=
  if c.isDigit then some (c.toNat - '0'.toNat)
  else if 'a' ≤ c ∧ c ≤ 'f' then some (c.toNat - 'a'.toNat + 10)
  else if 'A' ≤ c ∧ c ≤ 'F' then some (c.toNat - 'A'.toNat + 10)
  else none

/-- A number of at most `width` digits below `radix`. -/
def number (radix width : Nat) (cs : List Char) : Option Nat :=
  if cs = [] ∨ width < cs.length then none
  else cs.foldlM (fun n c => (digit c).bind fun d =>
    if d < radix then some (n * radix + d) else none) 0

/-- An octet has no leading zero. -/
def octet (cs : List Char) : Option Nat :=
  if cs.head? = some '0' ∧ cs.length ≠ 1 then none else (number 10 3 cs).filter (· ≤ 255)

/-- Four octets. -/
def octets (cs : List Char) : Option (List Nat) :=
  match cs.splitOn '.' with
  | [a, b, c, d] => [a, b, c, d].mapM octet
  | _ => none

/-- The groups of a part that has no `::` in it; only the last two may be an IPv4 address. -/
def groups (tail : Bool) : List (List Char) → Option (List Nat)
  | [] => some []
  | [last] =>
    match octets last with
    | some [a, b, c, d] => if tail then some [a * 256 + b, c * 256 + d] else none
    | _ => (number 16 4 last).map ([·])
  | cs :: rest => do
    let g ← number 16 4 cs
    let gs ← groups tail rest
    return g :: gs

/-- The groups on one side of `::`. -/
def part (tail : Bool) (cs : List Char) : Option (List Nat) :=
  if cs = [] then some [] else groups tail (cs.splitOn ':')

/-- What stands before and after the first `::`. -/
def compressed : List Char → List Char → Option (List Char × List Char)
  | before, ':' :: ':' :: after => some (before.reverse, after)
  | before, c :: rest => compressed (c :: before) rest
  | _, [] => none

/-- `s.parse::<IpAddr>()`. -/
def parse (s : String) : Option IpAddr :=
  match octets s.toList with
  | some o => some (.v4 o)
  | none =>
    match compressed [] s.toList with
    | none => ((part true s.toList).filter (·.length = 8)).map .v6
    | some (before, after) => do
      let head ← part false before
      let tail ← part true after
      if head.length + tail.length ≤ 7 then
        some (.v6 (head ++ List.replicate (8 - head.length - tail.length) 0 ++ tail))
      else none

/-- `is_unspecified`. -/
def isUnspecified : IpAddr → Bool
  | .v4 o => o.all (· == 0)
  | .v6 g => g.all (· == 0)

/-- `is_multicast`. -/
def isMulticast : IpAddr → Bool
  | .v4 o => o.head?.any fun a => 224 ≤ a && a ≤ 239
  | .v6 g => g.head?.any fun a => a / 256 == 255

end IpAddr

/-- `split_once(c)`. -/
def splitOnce (c : Char) (s : String) : Option (String × String) :=
  match s.toList.span (· ≠ c) with
  | (before, _ :: after) => some (String.ofList before, String.ofList after)
  | (_, []) => none

/-- Host and port of an address. -/
def hostPort (address : String) : Result (String × Option String) :=
  match address.toList with
  | '[' :: rest =>
    match splitOnce ']' (String.ofList rest) with
    | none => .error "invalid bracketed IPv6 address"
    | some (host, suffix) =>
      match IpAddr.parse host with
      | some (.v6 _) =>
        match suffix.toList with
        | [] => .ok (host, none)
        | ':' :: port => .ok (host, some (String.ofList port))
        | _ => .error "invalid IPv6 port"
      | _ => .error "brackets require IPv6"
  | _ =>
    if (IpAddr.parse address).isSome then .ok (address, none)
    else match splitOnce ':' address with
      | some (host, port) => .ok (host, some port)
      | none => .ok (address, none)

/-- The value of decimal digits. -/
def decimal (cs : List Char) : Nat := cs.foldl (fun n c => n * 10 + (c.toNat - '0'.toNat)) 0

/-- A port from 1 to 65535, in digits. -/
def validatePort (port : Option String) (required : Bool) : Result Unit :=
  match port with
  | some port =>
    ensure (port.toList ≠ [] ∧ port.toList.all Char.isDigit ∧ 0 < decimal port.toList
      ∧ decimal port.toList ≤ 65535) "advertised service port must be 1-65535"
  | none => bailIf required "coordinator advertisement requires an explicit service port"

/-- A label of a host name. -/
def isLabel (cs : List Char) : Bool :=
  cs != [] && cs.length ≤ 63 && cs.head? != some '-' && cs.getLast? != some '-'
    && cs.all fun c => c.isAlphanum || c == '-'

/-- A unicast address or a host name. -/
def validateHost (host : String) : Result Unit :=
  match IpAddr.parse host with
  | some ip =>
    bailIf (ip.isUnspecified ∨ ip.isMulticast ∨ ip = .v4 [255, 255, 255, 255])
      "advertise a unicast address, not a wildcard, multicast or broadcast address"
  | none =>
    bailIf (host = "" ∨ 253 < host.utf8ByteSize ∨ host.toList.all (fun c => c.isDigit || c == '.')
      ∨ ¬(host.toList.splitOn '.').all isLabel) "invalid advertised hostname or IP address"

/-- `validate_address`. -/
def validateAddress (address : String) (requirePort : Bool) : Result Unit := do
  bailIf (address = "" ∨ 320 < address.utf8ByteSize ∨ ¬isTrimmed address
    ∨ address.toList.any fun c => isControl c || isWhitespace c)
    "advertised address must be a bounded host or host:port"
  let (host, port) ← hostPort address
  validatePort port requirePort
  validateHost host

example : validateAddress "127.0.0.1:51335" true = .ok () := by decide +kernel

example : IpAddr.parse "fe80::1:192.168.0.1" = some (.v6 [0xfe80, 0, 0, 0, 0, 1, 0xc0a8, 1]) := by
  decide +kernel

end Eef.Node.Network
