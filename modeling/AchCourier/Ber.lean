import AchCourier.Text.Utf8

/-!
# BER

Certificates are trees: every node has a tag, a length and a content.  The content of a constructed
node is a sequence of nodes; a constructed node can also leave its length open and end with a mark.
BER is the liberal way to write such trees: lengths may have superfluous zeros, and a string may
come in parts.

## Main definitions

* `Tag`, `Node` — the tag of a node, and a node with its content still in bytes.
* `read` — the node at the front of bytes, and what follows.
* `items?` — the nodes that a content consists of.
* `Node.is` — a node is a well formed value of a type.
-/

namespace AchCourier.Ber

/-! ### Tags -/

/-- The classes of tags. -/
inductive Class where
  /-- A type of the standard. -/
  | universal
  /-- A type of an application. -/
  | application
  /-- A part whose meaning depends on where it stands. -/
  | context
  /-- A type that some parties have agreed on. -/
  | agreed
  deriving DecidableEq, Repr

/-- The class in the first byte of a node. -/
def Class.ofByte (b : UInt8) : Class :=
  if b < 0x40 then .universal
  else if b < 0x80 then .application
  else if b < 0xC0 then .context
  else .agreed

/-- A tag. -/
structure Tag where
  cls : Class
  number : Nat
  deriving DecidableEq, Repr

namespace Tag

/-- A truth value. -/
@[match_pattern] abbrev boolean : Tag := ⟨.universal, 1⟩

/-- An integer. -/
@[match_pattern] abbrev integer : Tag := ⟨.universal, 2⟩

/-- A string of bits. -/
@[match_pattern] abbrev bitString : Tag := ⟨.universal, 3⟩

/-- A string of bytes. -/
@[match_pattern] abbrev byteString : Tag := ⟨.universal, 4⟩

/-- A value that says nothing. -/
@[match_pattern] abbrev null : Tag := ⟨.universal, 5⟩

/-- The identifier of an object. -/
@[match_pattern] abbrev identifier : Tag := ⟨.universal, 6⟩

/-- One of several values. -/
@[match_pattern] abbrev enumerated : Tag := ⟨.universal, 10⟩

/-- A text in UTF-8. -/
@[match_pattern] abbrev utf8Text : Tag := ⟨.universal, 12⟩

/-- A sequence. -/
@[match_pattern] abbrev sequence : Tag := ⟨.universal, 16⟩

/-- A set. -/
@[match_pattern] abbrev set : Tag := ⟨.universal, 17⟩

/-- A time with two digits for the year. -/
@[match_pattern] abbrev shortTime : Tag := ⟨.universal, 23⟩

/-- A time with four digits for the year. -/
@[match_pattern] abbrev longTime : Tag := ⟨.universal, 24⟩

/-- A text with four bytes for each character. -/
@[match_pattern] abbrev wideText : Tag := ⟨.universal, 28⟩

/-- A text with two bytes for each character. -/
@[match_pattern] abbrev pairText : Tag := ⟨.universal, 30⟩

/-- The part with a number. -/
abbrev part (number : Nat) : Tag := ⟨.context, number⟩

end Tag

/-- The number that bytes show seven bits at a time, high bits first, and what follows.  The last
byte is the first one below 128. -/
def readNumber (n : Nat) : Bytes → Option (Nat × Bytes)
  | [] => none
  | b :: rest =>
      let n := n * 128 + b.toNat % 128
      if b < 0x80 then some (n, rest)
      else if n < Nat.pow 2 24 then readNumber n rest
      else none

/-- The tag at the front of bytes, whether its node is constructed, and what follows. -/
def readTag : Bytes → Option (Tag × Bool × Bytes)
  | [] => none
  | b :: rest => do
      let (number, rest) ← if b % 32 = 31 then readNumber 0 rest else some (b.toNat % 32, rest)
      some (⟨.ofByte b, number⟩, b % 64 ≥ 32, rest)

/-! ### Nodes -/

/-- A node. -/
structure Node where
  tag : Tag
  isConstructed : Bool
  content : Bytes
  deriving DecidableEq, Repr

/-- The length at the front of bytes, if it is not left open, and what follows.  A length in bytes
of its own has something behind it. -/
def readLength : Bytes → Option (Option Nat × Bytes)
  | [] => none
  | b :: rest =>
      if b < 0x80 then some (some b.toNat, rest)
      else if b = 0x80 then some (none, rest)
      else
        let size := b.toNat - 0x80
        if size < rest.length then
          some (some ((rest.take size).foldl (fun n b => n * 256 + b.toNat) 0), rest.drop size)
        else none

/-- The start of a node at the front of bytes: the tag, whether the node is constructed, the length
of its content, and what follows. -/
def readStart (bs : Bytes) : Option (Tag × Bool × Option Nat × Bytes) := do
  let (tag, isConstructed, rest) ← readTag bs
  let (length, rest) ← readLength rest
  match length with
  | some n => if n ≤ rest.length then some (tag, isConstructed, some n, rest) else none
  | none => if isConstructed then some (tag, true, none, rest) else none

/-- The bytes that follow the mark that ends `depth` open nodes.  There are at most `n` nodes and
marks before it. -/
def afterMark : Nat → Nat → Bytes → Option Bytes
  | _, 0, bs => some bs
  | 0, _ + 1, _ => none
  | n + 1, depth + 1, bs =>
      match bs with
      | 0 :: 0 :: rest => afterMark n depth rest
      | bs =>
          match readStart bs with
          | none => none
          | some (_, _, some size, rest) => afterMark n (depth + 1) (rest.drop size)
          | some (_, _, none, rest) => afterMark n (depth + 2) rest

/-- The node at the front of bytes, and what follows. -/
def read (bs : Bytes) : Option (Node × Bytes) := do
  let (tag, isConstructed, length, rest) ← readStart bs
  match length with
  | some n => some (⟨tag, isConstructed, rest.take n⟩, rest.drop n)
  | none =>
      let after ← afterMark rest.length 1 rest
      some (⟨tag, isConstructed, rest.take (rest.length - after.length - 2)⟩, after)

/-- The nodes that bytes consist of, of which there are at most `n`.  A mark is no node. -/
def itemsUpTo : Nat → Bytes → Option (List Node)
  | _, [] => some []
  | 0, _ => none
  | n + 1, bs =>
      if bs.take 2 = [0, 0] then none
      else
        match read bs with
        | none => none
        | some (item, rest) => (itemsUpTo n rest).map (item :: ·)

/-- The nodes that a content consists of. -/
def items? (bs : Bytes) : Option (List Node) :=
  itemsUpTo bs.length bs

/-- The bytes of a string in parts, which may come in parts themselves, `levels - 1` times at
most. -/
def joined : Nat → Bytes → Option Bytes
  | 0, _ => none
  | levels + 1, bs => do
      let parts ← (← items? bs).mapM fun i =>
        if i.isConstructed then joined levels i.content else some i.content
      some parts.flatten

/-- How deep strings in parts may be nested. -/
def deepest : Nat := 6

/-- The bytes of a string, which may come in parts. -/
def Node.bytes? (i : Node) : Option Bytes :=
  if i.isConstructed then joined deepest i.content else some i.content

/-! ### Values -/

/-- The bytes are an integer in two's complement without a superfluous first byte. -/
def isInteger : Bytes → Bool
  | [] => false
  | [_] => true
  | a :: b :: _ => !((a = 0 && b < 0x80) || (a = 0xFF && 0x80 ≤ b))

/-- The bytes are numbers, seven bits at a time, none of which begins with zeros; `isStart` says that
the next byte begins one. -/
def areArcs (isStart : Bool) : Bytes → Bool
  | [] => isStart
  | b :: rest => !(isStart && b = 0x80) && areArcs (b < 0x80) rest

/-- The bytes can stand for a value of the standard's type. -/
def Tag.accepts (t : Tag) (bs : Bytes) : Bool :=
  match t with
  | .boolean => bs.length = 1
  | .integer | .enumerated => isInteger bs
  | .bitString => bs.head?.any (· < 8)
  | .null => bs.isEmpty
  | .identifier => !bs.isEmpty && areArcs true bs
  | .wideText => bs.length % 4 = 0
  | .pairText => bs.length % 2 = 0
  | _ => true

/-- Values of the type never come in parts. -/
def Tag.isWhole (t : Tag) : Bool :=
  t ∈ [.boolean, .integer, .null, .identifier, .enumerated]

/-- The content of the node is that of a value of the standard's type.  What is in a sequence or a
set does not count. -/
def Node.holds (t : Tag) (i : Node) : Bool :=
  if t = .sequence ∨ t = .set then i.isConstructed
  else !(t.isWhole && i.isConstructed) && i.bytes?.any t.accepts

/-- The node is a value of the standard's type. -/
def Node.is (t : Tag) (i : Node) : Bool :=
  i.tag = t && i.holds t

/-- The node is a value of any type; the standard's types know their values. -/
def Node.isValue (i : Node) : Bool :=
  i.tag.cls ≠ .universal || i.holds i.tag

/-- The parts of a sequence. -/
def Node.sequence? (i : Node) : Option (List Node) :=
  if i.is .sequence then items? i.content else none

/-- The members of a sequence or a set of like nodes. -/
def Node.members? (t : Tag) (i : Node) : Option (List Node) :=
  if i.tag = t then items? i.content else none

/-- The node that a constructed node holds. -/
def Node.only? (i : Node) : Option Node :=
  match i.isConstructed, items? i.content with
  | true, some [inner] => some inner
  | _, _ => none

end AchCourier.Ber
