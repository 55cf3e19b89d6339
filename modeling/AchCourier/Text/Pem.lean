import AchCourier.Text.Base64
import AchCourier.Text.Blank

/-!
# Armoured text

Certificates are kept in text files as blocks of base64 between a line that begins the block and
one that ends it, both with the block's label.  A block can have a header, which a blank line
divides from its body.  Text between blocks is skipped.

Long lines are read in pieces, each of which counts as a line of its own.

## Main definitions

* `Line`, `lines` — the lines of a file.
* `Block` — a label and the bytes of a block.
* `Reading` — where a reader is in a file.
* `blocks?` — the blocks of a file, when none of them is damaged.
-/

namespace AchCourier.Pem

/-! ### Lines -/

/-- The bytes in the longest piece of a line. -/
def longestPiece : Nat := 254

/-- The pieces of the lines that follow, with `piece` the one being read, in reverse, and `room` the
bytes that it can still take. -/
def piecesFrom (piece : Bytes) (room : Nat) : Bytes → List Bytes
  | [] => if piece.isEmpty then [] else [piece.reverse]
  | b :: bs =>
      if b = 0x0A ∨ room ≤ 1 then (b :: piece).reverse :: piecesFrom [] longestPiece bs
      else piecesFrom (b :: piece) (room - 1) bs

/-- A line, or a piece of a long one. -/
structure Line where
  /-- The bytes without the blanks and the bytes outside ASCII at their end. -/
  text : Bytes
  /-- There is a colon, as in a header. -/
  hasColon : Bool
  /-- The line goes on behind this piece. -/
  isCut : Bool
  deriving DecidableEq, Repr

/-- The line in a piece. -/
def Line.ofPiece (piece : Bytes) : Line where
  text := Text.dropEndWhile (fun b => b ≤ 0x20 || 0x80 ≤ b) piece
  hasColon := piece.contains 0x3A
  isCut := piece.length = longestPiece && piece.getLast? ≠ some 0x0A

/-- The lines of a file. -/
def lines (file : Bytes) : List Line :=
  (piecesFrom [] longestPiece file).map Line.ofPiece

/-- The bytes up to the first zero byte. -/
def upToZero (bs : Bytes) : Bytes :=
  bs.takeWhile (· ≠ 0)

/-- The start of a line that begins a block. -/
def beginMark : Bytes := Utf8.ofString "-----BEGIN "

/-- The start of a line that ends a block. -/
def endMark : Bytes := Utf8.ofString "-----END "

/-- The end of a line that begins or ends a block. -/
def dashes : Bytes := Utf8.ofString "-----"

/-- The label of the block that a line begins. -/
def begins? (text : Bytes) : Option Bytes :=
  if beginMark.isPrefixOf text ∧ dashes.isSuffixOf text then
    some (upToZero ((text.take (text.length - dashes.length)).drop beginMark.length))
  else none

/-- A text without the mark of UTF-8 in front of it. -/
def withoutMark (text : Bytes) : Bytes :=
  match text with
  | 0xEF :: 0xBB :: 0xBF :: rest => rest
  | _ => text

/-! ### Blocks -/

/-- A block. -/
structure Block where
  label : Bytes
  hasHeader : Bool
  content : Bytes
  deriving DecidableEq, Repr

/-- The parts of a block. -/
inductive Part where
  /-- The header or, if there is none, the body. -/
  | first
  /-- The header. -/
  | header
  /-- The body, behind a blank line. -/
  | body
  deriving DecidableEq, Repr

/-- A block that has begun. -/
structure Draft where
  label : Bytes
  /-- The part of the block that is being read. -/
  part : Part := .first
  /-- The lines before the blank line, the last one first. -/
  head : List Bytes := []
  /-- The lines behind the blank line, the last one first. -/
  tail : List Bytes := []
  /-- Behind the blank line there was one that is not full, so no other may follow. -/
  isComplete : Bool := false
  /-- The line goes on behind what was read of it. -/
  isCut : Bool := false
  deriving DecidableEq, Repr

/-- The text of lines. -/
def textOf (lines : List Bytes) : List Char :=
  (lines.reverse.flatMap fun line => line ++ [0x0A]).map fun b => Char.ofNat b.toNat

/-- The block that ends here.  It must have a body. -/
def Draft.close? (d : Draft) : Option Block := do
  let body := if d.part = .first then d.head else d.tail
  let content ← Base64.decodeLoose? (textOf body)
  if content.isEmpty then none
  else some ⟨d.label, d.part ≠ .first && d.head.any (!·.isEmpty), content⟩

/-- The bytes in a full line of a body. -/
def fullLine : Nat := 64

/-- The block with another line in it.  Behind a blank line only the last line may be shorter than
a full one, and none may be longer. -/
def Draft.addLine? (d : Draft) (text : Bytes) : Option Draft :=
  if d.isComplete then none
  else if d.part = .body then
    if text.length ≤ fullLine then
      some { d with tail := upToZero text :: d.tail, isComplete := text.length < fullLine }
    else none
  else some { d with head := upToZero text :: d.head }

/-- The block after a blank line, which begins the body; there can be one.  The end of a line that
was read in pieces is no blank line. -/
def Draft.addBlank? (d : Draft) : Option Draft :=
  if d.isCut then some d
  else if d.part = .body then none
  else some { d with part := .body }

/-- Where a reader is in a file. -/
inductive Reading where
  /-- Between blocks; true says that no line has been read since the last one. -/
  | outside (isFresh : Bool)
  /-- In a block. -/
  | inside (draft : Draft)
  /-- Behind a damage. -/
  | damaged
  deriving DecidableEq, Repr

/-- The header begins with the first line that has a colon, unless a blank line came before. -/
def Draft.notice (line : Line) (d : Draft) : Draft :=
  if d.part = .first ∧ line.hasColon then { d with part := .header } else d

/-- The block after a line that does not end it. -/
def Draft.add? (line : Line) (d : Draft) : Option Draft :=
  let d := if line.text.isEmpty then d.addBlank? else d.addLine? line.text
  d.map fun d => { d with isCut := line.isCut }

/-- Where the reader gets by a line, and the block that the line ends. -/
def Reading.step (line : Line) : Reading → Reading × Option Block
  | .damaged => (.damaged, none)
  | .outside isFresh =>
      match begins? (if isFresh then withoutMark line.text else line.text) with
      | some label => (.inside { label }, none)
      | none => (.outside false, none)
  | .inside d =>
      let d := d.notice line
      if endMark.isPrefixOf line.text then
        let block := if line.text = endMark ++ d.label ++ dashes then d.close? else none
        -- one damaged block spoils the whole file
        (if block.isSome then .outside true else .damaged, block)
      else
        match d.add? line with
        | some d => (.inside d, none)
        | none => (.damaged, none)

/-- The blocks that end in the lines that follow, when none of them is damaged. -/
def blocksFrom (r : Reading) : List Line → Option (List Block)
  | [] =>
      match r with
      | .outside _ => some []
      | _ => none
  | line :: lines =>
      let (r, block) := r.step line
      (blocksFrom r lines).map (block.toList ++ ·)

/-- The blocks of a file, when none of them is damaged. -/
def blocks? (file : Bytes) : Option (List Block) :=
  blocksFrom (.outside true) (lines file)

end AchCourier.Pem
