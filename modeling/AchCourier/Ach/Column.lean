import AchCourier.Text.Blank
import AchCourier.Total

/-!
# Columns of a record

A record of an ACH file is a line of 94 columns.  Every field owns a fixed range of them and fills
it in one of four ways.  Texts are cut to their columns; numbers are not, because a cut number
would be a different number, so a number that is too large makes its line too long.

## Main definitions

* `recordLength` — the number of columns of a record.
* `cut`, `textAt`, `naturalAt?`, `naturalAt` — what a line says in a range of columns.
* `Cell` — a field together with the way in which it fills its columns.
* `lineOf` — the line of a list of cells.
-/

namespace AchCourier.Ach

/-- The number of columns of a record. -/
def recordLength : Nat := 94

/-! ### Reading columns -/

/-- The characters of `line` in the columns `first` to `last`, counted from one. -/
def cut (first last : Nat) (line : List Char) : List Char :=
  (line.drop (first - 1)).take (last - (first - 1))

/-- The text in the columns `first` to `last`, without the blanks around it. -/
def textAt (first last : Nat) (line : List Char) : String :=
  String.ofList (Text.trim (cut first last line))

/-- The number that a trimmed field shows; a blank field shows zero. -/
def shownNumber? (field : List Char) : Option Nat :=
  if field.isEmpty then some 0
  else if field.all Char.isDigit then some (Nat.ofDigitChars 10 field 0)
  else none

/-- The number in the columns `first` to `last`, if they hold digits or blanks alone. -/
def naturalAt? (first last : Nat) (line : List Char) : Option Nat :=
  shownNumber? (Text.trim (cut first last line))

/-- The number in the columns `first` to `last`, or zero if they hold none. -/
def naturalAt (first last : Nat) (line : List Char) : Nat :=
  (naturalAt? first last line).getD 0

/-! ### Filling columns -/

/-- A field and the way in which it fills its columns. -/
inductive Cell where
  /-- Characters that are the same in every record of a kind. -/
  | fixed (text : List Char)
  /-- A text that starts in the first column; blanks follow. -/
  | left (width : Nat) (text : String)
  /-- A text that ends in the last column; blanks go before. -/
  | right (width : Nat) (text : String)
  /-- Digits that end in the last column; zeros go before. -/
  | zeros (width : Nat) (digits : List Char)
  deriving DecidableEq, Repr

/-- A number in columns filled up with zeros. -/
def Cell.number (width n : Nat) : Cell :=
  .zeros width (Nat.toDigits 10 n)

/-- Columns that are left blank. -/
def Cell.blank (width : Nat) : Cell :=
  .left width ""

/-- The characters of a cell. -/
def Cell.render : Cell → List Char
  | .fixed text => text
  | .left width text => (text.toList.take width).rightpad width ' '
  | .right width text => (text.toList.take width).leftpad width ' '
  | .zeros width digits => digits.leftpad width '0'

/-- The number of columns that a cell is meant to fill. -/
def Cell.width : Cell → Nat
  | .fixed text => text.length
  | .left width _ => width
  | .right width _ => width
  | .zeros width _ => width

/-- The number of characters by which a cell goes beyond its columns. -/
def Cell.excess : Cell → Nat
  | .zeros width digits => digits.length - width
  | _ => 0

/-- The line of a list of cells. -/
def lineOf (cells : List Cell) : List Char :=
  cells.flatMap Cell.render

/-- A cell fills its columns and goes beyond them by its excess. -/
theorem Cell.length_render (c : Cell) : c.render.length = c.width + c.excess := by
  cases c <;> simp [Cell.render, Cell.width, Cell.excess, List.rightpad, List.leftpad]
  all_goals omega

/-- A line is as long as its columns and the excesses of its cells together. -/
theorem length_lineOf (cells : List Cell) :
    (lineOf cells).length = total (cells.map Cell.width) + total (cells.map Cell.excess) := by
  induction cells with
  | nil => rfl
  | cons c cells ih =>
    simp only [lineOf, List.flatMap_cons, List.length_append, List.map_cons, total_cons] at ih ⊢
    rw [ih, c.length_render]
    omega

end AchCourier.Ach
