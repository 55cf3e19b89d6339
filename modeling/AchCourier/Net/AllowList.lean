import AchCourier.Net.Endpoint
import AchCourier.Remote.Error

/-!
# Allowed addresses

An agent with a list of allowed addresses dials its host only if every address of the host is in
one of the ranges listed.  An entry is a range in prefix notation or a single address.  An
IPv4-mapped address is looked for as the IPv4 address behind it; entries are taken as they are.

## Main definitions

* `Range` — the addresses that share a prefix.
* `AllowList` — the ranges of a list of entries.
* `Lookup` — how the addresses of a name are found.
* `AllowList.screen` — the check of a host name against a list of entries.
-/

namespace AchCourier.Net

/-- The addresses of one family that share the first `length` bits of an address. -/
inductive Range where
  /-- A range of IPv4 addresses. -/
  | v4 (address : BitVec 32) (length : Nat)
  /-- A range of IPv6 addresses. -/
  | v6 (address : BitVec 128) (length : Nat)
  deriving DecidableEq, Repr

namespace Range

/-- The address lies in the range. -/
def contains : Range → Ip → Bool
  | .v4 address length, .v4 ip => address >>> (32 - length) == ip >>> (32 - length)
  | .v6 address length, .v6 ip => address >>> (128 - length) == ip >>> (128 - length)
  | _, _ => false

/-- The range that holds one address. -/
def single : Ip → Range
  | .v4 a => .v4 a 32
  | .v6 a => .v6 a 128

/-- The prefix length behind an address, which must end the text. -/
def readLength (most bound : Nat) : List Char → Option Nat
  | '/' :: cs =>
      match readNumber 10 most bound cs with
      | some (n, []) => some n
      | _ => none
  | _ => none

/-- The range in prefix notation that a whole text shows. -/
def ofPrefix? (s : String) : Option Range :=
  match (readV4 .beforePrefix s.toList).bind fun (a, rest) =>
      (readLength 2 33 rest).map (Range.v4 a) with
  | some r => some r
  | none =>
      (readV6 .beforePrefix s.toList).bind fun (a, rest) =>
        (readLength 3 129 rest).map (Range.v6 a)

/-- The range that an entry stands for. -/
def parse? (entry : String) : Option Range :=
  match ofPrefix? entry with
  | some r => some r
  | none => (Ip.parse? entry).map single

end Range

/-- The ranges of a list of entries. -/
structure AllowList where
  ranges : List Range
  deriving DecidableEq, Repr

/-- Why a host is not admitted. -/
inductive Refusal where
  /-- An entry of the list is neither a range nor an address. -/
  | badEntry (entry : String)
  /-- The host name stands for no endpoint. -/
  | malformed (cause : Endpoint.Malformed)
  /-- The addresses of the host could not be found. -/
  | unresolved (host message : String)
  /-- The host has no address. -/
  | noAddress (hostname : String)
  /-- An address of the host is in none of the ranges. -/
  | outside (hostname : String) (ip : Ip)
  deriving DecidableEq, Repr

/-- The wording of a refusal. -/
def Refusal.message : Refusal → String
  | .badEntry entry => "invalid IP or CIDR range: " ++ entry
  | .malformed cause => cause.message
  | .unresolved host message => "failed to resolve " ++ host ++ ": " ++ message
  | .noAddress hostname => hostname ++ " resolved to no addresses"
  | .outside hostname ip =>
      hostname ++ " is not whitelisted: " ++ ip.text ++ " is outside the allowed IP ranges"

/-- The failure that a refusal is for an agent.  What the network has to answer for is a failure of
the connection; the rest lies in the configuration. -/
def Refusal.toError (protocol : Remote.Protocol) (r : Refusal) : Remote.Error :=
  match r with
  | .unresolved .. | .noAddress _ => .connection protocol r.message
  | _ => .config protocol r.message

/-- How the addresses of a host name are found: all of them, or a message that says why not. -/
abbrev Lookup := String → Except String (List Ip)

/-- The lookup of a host without a network. -/
def Lookup.offline : Lookup := fun _ =>
  .error "failed to lookup address information: Temporary failure in name resolution"

namespace AllowList

/-- The list of the given entries. -/
def parse : List String → Except Refusal AllowList
  | [] => .ok ⟨[]⟩
  | entry :: entries =>
      match Range.parse? entry with
      | none => .error (.badEntry entry)
      | some r => (parse entries).map fun l => ⟨r :: l.ranges⟩

/-- The list has no entry. -/
def isEmpty (l : AllowList) : Bool :=
  l.ranges.isEmpty

/-- The address is in one of the ranges. -/
def contains (l : AllowList) (ip : Ip) : Bool :=
  -- the address that is asked about is unmapped, the ranges stay as they were given
  l.ranges.any (·.contains ip.unmapped)

/-- The addresses of a host: an address names itself. -/
def addressesOf (lookup : Lookup) (host : String) : Except Refusal (List Ip) :=
  match Ip.parse? host with
  | some ip => .ok [ip]
  | none => (lookup host).mapError (.unresolved host)

/-- Checks the addresses of a host. -/
def check (l : AllowList) (hostname : String) (ips : List Ip) : Except Refusal Unit :=
  if ips.isEmpty then .error (.noAddress hostname)
  else match ips.find? (!l.contains ·) with
    | some ip => .error (.outside hostname ip)
    | none => .ok ()

/-- Checks a host name against a list of entries.  An empty list admits every host without a
lookup. -/
def screen (lookup : Lookup) (entries : List String) (hostname : String) : Except Refusal Unit := do
  let l ← parse entries
  if l.isEmpty then return ()
  -- of the endpoint only the host is looked at
  let endpoint ← (Endpoint.parse hostname 1).mapError .malformed
  let ips ← addressesOf lookup endpoint.host
  l.check hostname ips

end AllowList

end AchCourier.Net
