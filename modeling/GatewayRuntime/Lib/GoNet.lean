import GatewayRuntime.Lib.GoText

/-!
# Addresses of the Go standard library

`net.SplitHostPort`, `net.ParseIP`, `IPNet.Contains` and `IP.String`, after their
documented behaviour.

A `net.IP` is a slice of 4 or 16 bytes, and every function takes a 16-byte
address that is an IPv4 address mapped into IPv6 for the IPv4 address.  Here
the two kinds are the constructors of `IP`, with their bytes in one word.
-/

namespace GatewayRuntime
namespace GoNet

/-- `net.IP`. -/
inductive IP where
  | v4 (addr : BitVec 32)
  | v6 (addr : BitVec 128)
deriving DecidableEq

/-- `net.IPNet`. -/
inductive IPNet where
  | v4 (addr mask : BitVec 32)
  | v6 (addr mask : BitVec 128)
deriving DecidableEq

/-- `IPNet.Contains`. -/
def IPNet.contains : IPNet → IP → Bool
  | .v4 addr mask, .v4 ip => addr &&& mask == ip &&& mask
  | .v6 addr mask, .v6 ip => addr &&& mask == ip &&& mask
  | _, _ => false

section Split

/-- The runes before and after the last colon. -/
def cutLastColon (l : List Char) : Option (List Char × List Char) :=
  match l.reverse.span (fun c => c != ':') with
  | (_, []) => none
  | (after, _ :: before) => some (before.reverse, after.reverse)

/-- `net.SplitHostPort`; `none` on an error. -/
def splitHostPort (hostport : String) : Option (String × String) :=
  match cutLastColon hostport.toList with
  | none => none
  | some (host, port) =>
      match host with
      | '[' :: inner =>
          -- The first closing bracket must stand right before the last colon.
          match inner.span (fun c => c != ']') with
          | (addr, [']']) =>
              if addr.contains '[' || port.contains '[' || port.contains ']' then none
              else some (String.ofList addr, String.ofList port)
          | _ => none
      | _ =>
          if host.contains ':' || host.contains '[' || host.contains ']' ||
              port.contains '[' || port.contains ']' then none
          else some (String.ofList host, String.ofList port)

end Split

section Parse

/-- An octet of an IPv4 address: at most 255, without a leading zero. -/
def parseOctet (l : List Char) : Option Nat :=
  match l with
  | '0' :: _ :: _ => none
  | _ => (GoText.parseDigits l).bind fun n => if n ≤ 255 then some n else none

/-- The four octets of a dotted address. -/
def parseIPv4Fields (l : List Char) : Option (Nat × Nat × Nat × Nat) :=
  match (l.splitOn '.').map parseOctet with
  | [some a, some b, some c, some d] => some (a, b, c, d)
  | _ => none

def isHexDigit (c : Char) : Bool :=
  c.isDigit || ('a' ≤ c && c ≤ 'f') || ('A' ≤ c && c ≤ 'F')

def hexDigit (c : Char) : Nat :=
  if c.isDigit then c.toNat - 48
  else if 'a' ≤ c then c.toNat - 87
  else c.toNat - 55

def hexValue (l : List Char) : Nat :=
  l.foldl (fun acc c => acc * 16 + hexDigit c) 0

/-- The loop of the IPv6 parser, with room for `room` more groups: the groups
read so far and the position of the ellipsis. -/
def parseGroups :
    (room : Nat) → List Nat → Option Nat → List Char → Option (List Nat × Option Nat)
  | 0, groups, ellipsis, rest => if rest.isEmpty then some (groups, ellipsis) else none
  | room + 1, groups, ellipsis, l =>
      match l.span isHexDigit with
      | (digits, rest) =>
          if digits.isEmpty || 4 < digits.length then none
          else
            let groups' := groups ++ [hexValue digits]
            match rest with
            | [] => some (groups', ellipsis)
            | '.' :: _ =>
                -- An embedded IPv4 address takes the place of the last two groups.
                if (ellipsis.isNone && groups.length != 6) || room == 0 then none
                else
                  (parseIPv4Fields l).map fun (a, b, c, d) =>
                    (groups ++ [a * 256 + b, c * 256 + d], ellipsis)
            | [':'] => none
            | ':' :: ':' :: rest' =>
                if ellipsis.isSome then none
                else if rest'.isEmpty then some (groups', some groups'.length)
                else parseGroups room groups' (some groups'.length) rest'
            | ':' :: rest' => parseGroups room groups' ellipsis rest'
            | _ => none

/-- The eight groups of an IPv6 address, with the ellipsis filled by zeros; it
stands for at least one group. -/
def expandGroups (groups : List Nat) (ellipsis : Option Nat) : Option (List Nat) :=
  match ellipsis with
  | none => if groups.length = 8 then some groups else none
  | some i =>
      if groups.length < 8 then
        some (groups.take i ++ List.replicate (8 - groups.length) 0 ++ groups.drop i)
      else none

/-- The groups of an IPv6 address. -/
def parseIPv6 (l : List Char) : Option (List Nat) :=
  match l with
  | [':', ':'] => some (List.replicate 8 0)
  | ':' :: ':' :: rest =>
      (parseGroups 8 [] (some 0) rest).bind fun (groups, ellipsis) => expandGroups groups ellipsis
  | _ => (parseGroups 8 [] none l).bind fun (groups, ellipsis) => expandGroups groups ellipsis

/-- The address with the given groups; one that is mapped from IPv4 is that IPv4
address. -/
def IP.ofGroups (groups : List Nat) : IP :=
  let value := groups.foldl (fun acc g => acc * 65536 + g) 0
  if value / 2 ^ 32 = 0xffff then .v4 (BitVec.ofNat 32 value) else .v6 (BitVec.ofNat 128 value)

/-- `net.ParseIP`; an address with a zone is none. -/
def parseIP (s : String) : Option IP :=
  match s.toList.find? (fun c => c == '.' || c == ':' || c == '%') with
  | some '.' =>
      (parseIPv4Fields s.toList).map fun (a, b, c, d) =>
        .v4 (BitVec.ofNat 32 (((a * 256 + b) * 256 + c) * 256 + d))
  | some ':' => if s.toList.contains '%' then none else (parseIPv6 s.toList).map IP.ofGroups
  | _ => none

end Parse

section Text

/-- A group in lower-case hexadecimal digits, without leading zeros. -/
def hexText (n : Nat) : String :=
  String.ofList ((Nat.toDigits 16 n).map fun c => c.toLower)

/-- The longest run of at least two zero groups, the first of them if there are
several: its start and its end. -/
def zeroRun (groups : List Nat) : Nat × Nat :=
  (List.range groups.length).foldl
    (fun best i =>
      let length := ((groups.drop i).takeWhile (· == 0)).length
      if 2 ≤ length && best.2 - best.1 < length then (i, i + length) else best)
    (0, 0)

/-- The groups of an IPv6 address from the left. -/
def groupsOf (addr : BitVec 128) : List Nat :=
  (List.range 8).map fun i => addr.toNat / 65536 ^ (7 - i) % 65536

/-- `IP.String`. -/
def IP.text : IP → String
  | .v4 addr =>
      String.intercalate "."
        ((List.range 4).map fun i => toString (addr.toNat / 256 ^ (3 - i) % 256))
  | .v6 addr =>
      let groups := groupsOf addr
      let (first, last) := zeroRun groups
      let join (l : List Nat) := String.intercalate ":" (l.map hexText)
      if first = last then join groups
      else join (groups.take first) ++ "::" ++ join (groups.drop last)

end Text

section Tests

example : parseIP "10.1.2.3" = some (.v4 0x0a010203) := by
  decide +kernel

example : parseIP "::ffff:10.1.2.3" = some (.v4 0x0a010203) := by
  decide +kernel

example : parseIP "2001:db8::1" = some (.v6 0x20010db8000000000000000000000001) := by
  decide +kernel

example : (IP.v6 0x20010db8000000000000000000000001).text = "2001:db8::1" := by
  decide +kernel

end Tests

end GoNet
end GatewayRuntime
