import AchCourier.Ach.File

/-!
# Writing an ACH file

A file is written record by record, each on a line of its own, and filled up with lines of nines
to whole blocks of ten records.

## Main definitions

* `File.lines` — the records of a file as lines.
* `File.paddedLines` — the same, up to a whole block.
* `File.text` — the text of a file.
-/

namespace AchCourier.Ach

/-- The number of records in a block. -/
def blockingFactor : Nat := 10

/-- A record that only fills up a block. -/
def paddingLine : List Char :=
  List.replicate recordLength '9'

/-- An entry and its addenda, in the order 05, 98, 99. -/
def Entry.lines (e : Entry) : List (List Char) :=
  lineOf e.cells ::
    e.remittances.map (lineOf ·.cells) ++ e.changeNotice.toList.map (lineOf ·.cells) ++
      e.returnNotice.toList.map (lineOf ·.cells)

/-- A batch from its header to its control. -/
def Batch.lines (b : Batch) : List (List Char) :=
  lineOf b.header.cells :: b.entries.flatMap Entry.lines ++ [lineOf b.control.cells]

/-- The records of a file, without padding. -/
def File.lines (f : File) : List (List Char) :=
  lineOf f.header.cells :: f.batches.flatMap Batch.lines ++ [lineOf f.control.cells]

/-- The records of a file up to a whole block. -/
def File.paddedLines (f : File) : List (List Char) :=
  let missing := (blockingFactor - f.lines.length % blockingFactor) % blockingFactor
  f.lines ++ List.replicate missing paddingLine

/-- The text of a file: each record and a line feed. -/
def File.text (f : File) : List Char :=
  f.paddedLines.flatMap (· ++ ['\n'])

end AchCourier.Ach
