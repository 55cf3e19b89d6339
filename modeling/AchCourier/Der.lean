import AchCourier.Text.Utf8

/-!
# DER

Private keys can be trees in DER: every node has a tag, a length and a content, and the content of
a constructed node is a sequence of nodes.  DER leaves no choice in how a node is written, so a
length in more bytes than it needs is refused, and so is a tag that the standard does not know.

## Main definitions

* `Item` — a node with its content still in bytes.
* `read` — the node at the front of bytes, and what follows.
* `items?` — the nodes that a content consists of.
-/

namespace AchCourier.Der

/-- A node. -/
structure Item where
  tag : UInt8
  content : Bytes
  deriving DecidableEq, Repr

/-- The number that bytes show, high byte first. -/
def valueOf (bs : Bytes) : Nat :=
  bs.foldl (fun n b => n * 256 + b.toNat) 0

/-- The tags of the types that the standard itself defines. -/
def standardTags : List UInt8 :=
  [0x01, 0x02, 0x03, 0x04, 0x05, 0x06, 0x09, 0x0A, 0x0C, 0x12, 0x13, 0x14, 0x15, 0x16, 0x17, 0x18,
    0x1A, 0x1E, 0x30, 0x31]

/-- The tag is one of the standard's, or one that has a meaning of its own where it stands.  A
number of 31 or more takes several bytes and has no use here. -/
def isTag (tag : UInt8) : Bool :=
  standardTags.contains tag || (0x40 ≤ tag && tag % 32 ≠ 31)

/-- The length at the front of bytes, and what follows.  A length below 128 takes one byte, any
other says first how many bytes it takes. -/
def readLength : Bytes → Option (Nat × Bytes)
  | [] => none
  | b :: rest =>
      if b < 0x80 then some (b.toNat, rest)
      else
        let size := b.toNat - 0x80
        let digits := rest.take size
        if size = 0 ∨ digits.length < size ∨ digits.head? = some 0 ∨
            valueOf digits < 0x80 then none
        else some (valueOf digits, rest.drop size)

/-- The node at the front of bytes, and what follows. -/
def read : Bytes → Option (Item × Bytes)
  | [] => none
  | tag :: rest =>
      match readLength rest with
      | none => none
      | some (n, rest) =>
          if isTag tag ∧ n ≤ rest.length then some (⟨tag, rest.take n⟩, rest.drop n) else none

/-- The nodes that bytes consist of, of which there are at most `n`. -/
def itemsUpTo : Nat → Bytes → Option (List Item)
  | _, [] => some []
  | 0, _ => none
  | n + 1, bs =>
      match read bs with
      | none => none
      | some (item, rest) => (itemsUpTo n rest).map (item :: ·)

/-- The nodes that a content consists of. -/
def items? (bs : Bytes) : Option (List Item) :=
  itemsUpTo bs.length bs

/-- The parts of a sequence. -/
def Item.sequence? (i : Item) : Option (List Item) :=
  if i.tag = 0x30 then items? i.content else none

/-- The node that is the only one in the content of a node. -/
def Item.only? (i : Item) : Option Item :=
  match items? i.content with
  | some [inner] => some inner
  | _ => none

/-- The bytes of a bit string without unused bits. -/
def wholeBytes? : Bytes → Option Bytes
  | 0 :: bytes => some bytes
  | _ => none

/-- The node has a tag whose meaning depends on where it stands, with the given number. -/
def Item.isPart (number : Nat) (i : Item) : Bool :=
  i.tag = (0x80 + number).toUInt8 || i.tag = (0xA0 + number).toUInt8

/-- The node has a tag whose meaning depends on where it stands, and holds one other node. -/
def Item.isWrapper (i : Item) : Bool :=
  0xA0 ≤ i.tag && i.tag < 0xC0 && i.only?.isSome

end AchCourier.Der
