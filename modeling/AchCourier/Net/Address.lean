import AchCourier.Text.Digit

/-!
# IP addresses

Addresses of both families, their texts, and the IPv4 addresses that are written as IPv6 ones.

Two readers of the same grammar differ in two points.  An address that stands alone must not have
leading zeros in its decimal parts, and its double colon must stand for at least one group; before
a prefix length both are let through.

## Main definitions

* `Ip` — an address.
* `Dialect` — the two points in which readers differ.
* `Ip.parse?` — the address that a text names.
* `Ip.text` — the text of an address.
* `Ip.unmapped` — the IPv4 address behind an IPv4-mapped one.
-/

namespace AchCourier.Net

open Text

/-- An address of either family. -/
inductive Ip where
  /-- An IPv4 address. -/
  | v4 (bits : BitVec 32)
  /-- An IPv6 address. -/
  | v6 (bits : BitVec 128)
  deriving DecidableEq, Repr

/-- A number below `bound` of one to `most` digits, and what follows it.  The digits must not go on
behind it. -/
def readNumber (base most bound : Nat) (cs : List Char) : Option (Nat × List Char) :=
  let digits := cs.takeWhile (isDigitIn base)
  let n := valueOf base digits
  if 0 < digits.length ∧ digits.length ≤ most ∧ n < bound then
    some (n, cs.dropWhile (isDigitIn base))
  else none

/-- The points in which readers of addresses differ. -/
structure Dialect where
  /-- Decimal parts may have leading zeros. -/
  leadingZeros : Bool
  /-- A double colon may stand for no group at all. -/
  emptyGap : Bool
  deriving DecidableEq, Repr

/-- How an address is read that stands alone. -/
def Dialect.alone : Dialect := ⟨false, false⟩

/-- How an address is read before a prefix length. -/
def Dialect.beforePrefix : Dialect := ⟨true, true⟩

/-- One decimal part of an IPv4 address. -/
def readOctet (dialect : Dialect) (cs : List Char) : Option (Nat × List Char) :=
  match cs with
  | '0' :: c :: _ => if c.isDigit && !dialect.leadingZeros then none else readNumber 10 3 256 cs
  | _ => readNumber 10 3 256 cs

/-- The parts of an IPv4 address that are left, each behind a point. -/
def readOctets (dialect : Dialect) : Nat → List Char → Option (List Nat × List Char)
  | 0, cs => some ([], cs)
  | n + 1, '.' :: cs =>
      match readOctet dialect cs with
      | none => none
      | some (o, rest) => (readOctets dialect n rest).map fun r => (o :: r.1, r.2)
  | _ + 1, _ => none

/-- The number that parts of the same width make up. -/
def joinParts (base : Nat) (parts : List Nat) : Nat :=
  parts.foldl (fun n p => n * base + p) 0

/-- An IPv4 address at the front of a text, and what follows it. -/
def readV4 (dialect : Dialect) (cs : List Char) : Option (BitVec 32 × List Char) :=
  match readOctet dialect cs with
  | none => none
  | some (o, rest) =>
      (readOctets dialect 3 rest).map fun r => (BitVec.ofNat 32 (joinParts 256 (o :: r.1)), r.2)

/-- What follows the colon between two groups; before the first group there is none. -/
def afterSeparator (first : Bool) (cs : List Char) : Option (List Char) :=
  if first then some cs
  else match cs with
    | ':' :: rest => some rest
    | _ => none

/-- At most `n` groups of 16 bits from the front of a text, whether the last two came from an
IPv4 address, and what follows them. -/
def readGroups (dialect : Dialect) : Nat → Bool → List Char → List Nat × Bool × List Char
  | 0, _, cs => ([], false, cs)
  | n + 1, first, cs =>
      match afterSeparator first cs with
      | none => ([], false, cs)
      | some body =>
          -- an IPv4 address takes the room of two groups
          match if 0 < n then readV4 dialect body else none with
          | some (a, rest) => ([a.toNat / 65536, a.toNat % 65536], true, rest)
          | none =>
              match readNumber 16 4 65536 body with
              | none => ([], false, cs)
              | some (g, rest) =>
                  let (gs, quad, rest) := readGroups dialect n false rest
                  (g :: gs, quad, rest)

/-- An IPv6 address at the front of a text, and what follows it.  One double colon stands for the
groups that are left out. -/
def readV6 (dialect : Dialect) (cs : List Char) : Option (BitVec 128 × List Char) :=
  let (head, quad, rest) := readGroups dialect 8 true cs
  if head.length = 8 then some (BitVec.ofNat 128 (joinParts 65536 head), rest)
  -- nothing can follow an IPv4 address
  else if quad then none
  else match rest with
    | ':' :: ':' :: rest =>
        let room := if dialect.emptyGap then 8 - head.length else 7 - head.length
        let (tail, _, rest) := readGroups dialect room true rest
        let gap := List.replicate (8 - head.length - tail.length) 0
        some (BitVec.ofNat 128 (joinParts 65536 (head ++ gap ++ tail)), rest)
    | _ => none

namespace Ip

/-- The IPv4 address that a whole text names. -/
def parseV4? (s : String) : Option (BitVec 32) :=
  match readV4 .alone s.toList with
  | some (a, []) => some a
  | _ => none

/-- The IPv6 address that a whole text names. -/
def parseV6? (s : String) : Option (BitVec 128) :=
  match readV6 .alone s.toList with
  | some (a, []) => some a
  | _ => none

/-- The address of either family that a whole text names. -/
def parse? (s : String) : Option Ip :=
  match parseV4? s with
  | some a => some (.v4 a)
  | none => (parseV6? s).map .v6

/-- The IPv4 address behind an IPv4-mapped IPv6 address; any other address is left as it is. -/
def unmapped : Ip → Ip
  | .v4 a => .v4 a
  | .v6 a => if a >>> 32 = 0xffff#128 then .v4 (a.setWidth 32) else .v6 a

/-! ### Texts of addresses -/

/-- The `count` parts of `n` in the given base, high part first. -/
def parts (base count n : Nat) : List Nat :=
  (List.range count).reverse.map fun i => n / Nat.pow base i % base

/-- The text of an IPv4 address. -/
def textV4 (a : BitVec 32) : String :=
  String.intercalate "." ((parts 256 4 a.toNat).map Nat.repr)

/-- The length of the run of zeros at the front. -/
def zeroRun (gs : List Nat) : Nat :=
  (gs.takeWhile (· == 0)).length

/-- The first of the longest runs of zeros, as start and length. -/
def longestZeroRun (gs : List Nat) : Nat × Nat :=
  (List.range gs.length).foldl
    (fun best i =>
      let n := zeroRun (gs.drop i)
      if best.2 < n then (i, n) else best)
    (0, 0)

/-- Groups in hexadecimal, with colons between them. -/
def groupsText (gs : List Nat) : String :=
  String.intercalate ":" (gs.map fun g => String.ofList (Nat.toDigits 16 g))

/-- The text of an IPv6 address: a double colon stands for the longest run of two or more zero
groups, and an IPv4-mapped address ends in the text of the IPv4 address. -/
def textV6 (a : BitVec 128) : String :=
  match unmapped (.v6 a) with
  | .v4 b => "::ffff:" ++ textV4 b
  | .v6 _ =>
      let gs := parts 65536 8 a.toNat
      let (start, length) := longestZeroRun gs
      if 1 < length then
        groupsText (gs.take start) ++ "::" ++ groupsText (gs.drop (start + length))
      else groupsText gs

/-- The text of an address. -/
def text : Ip → String
  | .v4 a => textV4 a
  | .v6 a => textV6 a

end Ip

end AchCourier.Net
