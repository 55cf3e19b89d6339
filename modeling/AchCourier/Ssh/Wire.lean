import AchCourier.Text.Utf8

/-!
# The SSH wire format

Keys travel as sequences of blocks, each behind its length in four bytes.  A length that no key
needs is refused.  A number is a block in two's complement without a superfluous first byte.

## Main definitions

* `readWord`, `readBlock` — a length and a block at the front of bytes, and what follows.
* `writeBlock` — a block behind its length.
* `isNumber` — the blocks that are numbers.
-/

namespace AchCourier.Ssh

/-- The number in the first four bytes, high byte first, and what follows. -/
def readWord : Bytes → Option (Nat × Bytes)
  | a :: b :: c :: d :: rest =>
      some (((a.toNat * 256 + b.toNat) * 256 + c.toNat) * 256 + d.toNat, rest)
  | _ => none

/-- The first `n` bytes, and what follows. -/
def readBytes (n : Nat) (bs : Bytes) : Option (Bytes × Bytes) :=
  if n ≤ bs.length then some (bs.take n, bs.drop n) else none

/-- The bytes in the longest block that is read. -/
def longestBlock : Nat := 0xFFFFF

/-- The block at the front of bytes, and what follows. -/
def readBlock (bs : Bytes) : Option (Bytes × Bytes) :=
  match readWord bs with
  | none => none
  | some (n, rest) => if n ≤ longestBlock then readBytes n rest else none

/-- Four bytes that show a number, high byte first. -/
def writeWord (n : Nat) : Bytes :=
  [(n / 0x1000000).toUInt8, (n / 0x10000).toUInt8, (n / 0x100).toUInt8, n.toUInt8]

/-- A block behind its length. -/
def writeBlock (bs : Bytes) : Bytes :=
  writeWord bs.length ++ bs

/-- The bytes are a number without a superfluous zero byte in front. -/
def isNumber : Bytes → Bool
  | [] => true
  | [a] => a ≠ 0
  | a :: b :: _ => a ≠ 0 ∨ 0x80 ≤ b

end AchCourier.Ssh
