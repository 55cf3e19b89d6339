import AchCourier.Ach.Field
import AchCourier.Ach.File
import AchCourier.Text.Utf8

/-!
# Reading an ACH file

A file is cut into records, and the records are read one after another.  Nothing that can be
recovered is thrown away: a fault is noted, and the batches and entries around it are kept.

Between two records the reader knows the file up to there, the batch that is still open, and
whether a header and a control have been seen.  The control of a batch is compared with the batch
that it closes, and the control of the file with the batches closed before it.

## Main definitions

* `rawLines` — the records of a text, at line breaks or, in an unbroken text, every 94 characters.
* `Line`, `classify` — what kind of record a raw line is.
* `Reading`, `Reading.step` — what is known between two records, and what one record adds.
* `read` — the file that a byte string holds, or the faults and what could be recovered.
-/

namespace AchCourier.Ach

/-! ### Cutting a text into records -/

/-- The character belongs to ASCII. -/
def isAscii (c : Char) : Bool :=
  c.toNat < 0x80

/-- The parts of a text between its line feeds. -/
def splitLines (text : List Char) : List (List Char) :=
  text.splitOn '\n'

/-- The first `count` slices of `width` characters. -/
def slices (width : Nat) : Nat → List Char → List (List Char)
  | 0, _ => []
  | count + 1, cs => cs.take width :: slices width count (cs.drop width)

/-- A text without line breaks that holds several whole records. -/
def isUnbroken (text : List Char) : Bool :=
  !text.contains '\n' && recordLength < text.length && text.length % recordLength == 0 &&
    text.all isAscii

/-- The records of a text: its lines without carriage returns at their ends or, if it is unbroken,
slices of 94 characters. -/
def rawLines (text : List Char) : List (List Char) :=
  if isUnbroken text then slices recordLength (text.length / recordLength) text
  else (splitLines text).map (Text.dropEndWhile (· == '\r'))

/-! ### Kinds of lines -/

/-- A raw line, by the kind of record on it. -/
inductive Line where
  /-- Blanks alone. -/
  | blank
  /-- Something else than 94 ASCII characters. -/
  | misshapen (length : Nat)
  /-- Nines alone, which fill up a block. -/
  | padding
  /-- A type 1 record. -/
  | fileHeader (line : List Char)
  /-- A type 5 record. -/
  | batchHeader (line : List Char)
  /-- A type 6 record. -/
  | entry (line : List Char)
  /-- A type 7 record. -/
  | addenda (line : List Char)
  /-- A type 8 record. -/
  | batchControl (line : List Char)
  /-- A type 9 record that is no padding. -/
  | fileControl (line : List Char)
  /-- A record of another type. -/
  | unknown (type : Char)
  deriving DecidableEq, Repr

/-- The kind of a raw line. -/
def classify (line : List Char) : Line :=
  if line.all Text.isBlank then .blank
  else if !line.all isAscii || line.length != recordLength then .misshapen line.length
  else if line.all (· == '9') then .padding
  else match line with
    | '1' :: _ => .fileHeader line
    | '5' :: _ => .batchHeader line
    | '6' :: _ => .entry line
    | '7' :: _ => .addenda line
    | '8' :: _ => .batchControl line
    | '9' :: _ => .fileControl line
    | type :: _ => .unknown type
    | [] => .blank

/-! ### What is known between two records -/

/-- What has been read so far. -/
structure Reading where
  /-- The file with the batches that have been closed. -/
  file : File := {}
  /-- The batch whose control has not been read. -/
  openBatch : Option Batch := none
  /-- A file header has been read. -/
  seenHeader : Bool := false
  /-- A file control has been read. -/
  seenControl : Bool := false
  /-- The faults, in the order in which they were found. -/
  faults : List Fault := []
  deriving DecidableEq, Repr

namespace Reading

/-- The reading with more faults. -/
def note (r : Reading) (faults : List Fault) : Reading :=
  { r with faults := r.faults ++ faults }

/-- The reading in which `b` has been closed. -/
def close (r : Reading) (b : Batch) : Reading :=
  { r with
    file := { r.file with batches := r.file.batches ++ [b] }
    openBatch := none }

/-- A file header.  Only the first one counts. -/
def fileHeader (r : Reading) (n : Nat) (line : List Char) : Reading :=
  if r.seenHeader then r.note [.ofRecord n .fileHeader .duplicateFileHeader]
  else
    let complaints := FileHeader.complaints line
    { r with
      file := { r.file with
        header := .ofLine line
        hasValidHeader := complaints.isEmpty }
      seenHeader := true
      faults := r.faults ++ faultsAt n .fileHeader complaints }

/-- A batch header.  A batch that is still open ends here without its control. -/
def batchHeader (r : Reading) (n : Nat) (line : List Char) : Reading :=
  let r := match r.openBatch with
    | none => r
    | some b => (r.note [.ofRecord n .batchControl .batchLeftOpen]).close b
  { r.note (faultsAt n .batchHeader (BatchHeader.complaints line)) with
    openBatch := some { header := .ofLine line } }

/-- An entry, which belongs to the open batch. -/
def entry (r : Reading) (n : Nat) (line : List Char) : Reading :=
  let r := r.note (faultsAt n .entryDetail (Entry.complaints line))
  match r.openBatch with
  | none => r.note [.ofRecord n .entryDetail .entryOutsideBatch]
  | some b => { r with openBatch := some { b with entries := b.entries ++ [.ofLine line] } }

/-- Addenda, which belong to the last entry of the open batch. -/
def addenda (r : Reading) (n : Nat) (line : List Char) : Reading :=
  let r := r.note (faultsAt n .addenda (Addenda.complaints line))
  match Addenda.ofLine? line with
  -- the unknown type is among the complaints already
  | none => r
  | some a =>
      match r.openBatch with
      | none => r.note [.ofRecord n .addenda .addendaWithoutEntry]
      | some b =>
          match b.entries.getLast? with
          | none => r.note [.ofRecord n .addenda .addendaWithoutEntry]
          | some e =>
              if e.addendaRecordIndicator = 1 then
                { r with
                  openBatch := some { b with entries := b.entries.dropLast ++ [e.attach a] } }
              else
                r.note [⟨n, .addenda, "AddendaRecordIndicator", .addendaUnexpected e.traceNumber⟩]

/-- A complaint if a control field differs from what it controls. -/
def mustMatch (field : String) (calculated found : Nat) : List Complaint :=
  complainUnless (calculated == found) field (.mismatch found calculated)

/-- Where a batch control differs from the batch that it closes. -/
def batchMismatches (b : Batch) (c : BatchControl) : List Complaint :=
  mustMatch "ServiceClassCode" b.header.serviceClassCode c.serviceClassCode ++
    mustMatch "EntryAddendaCount" b.entryAddendaCount c.entryAddendaCount ++
    mustMatch "EntryHash" b.entryHash c.entryHash ++
    mustMatch "TotalDebitEntryDollarAmount" b.totalDebit c.totalDebit ++
    mustMatch "TotalCreditEntryDollarAmount" b.totalCredit c.totalCredit ++
    mustMatch "BatchNumber" b.header.batchNumber c.batchNumber

/-- A batch control, which closes the open batch. -/
def batchControl (r : Reading) (n : Nat) (line : List Char) : Reading :=
  let r := r.note (faultsAt n .batchControl (BatchControl.complaints line))
  match r.openBatch with
  | none => r.note [.ofRecord n .batchControl .controlWithoutBatch]
  | some b =>
      -- the batch is closed with this control, whether the two agree or not
      let control := BatchControl.ofLine line
      (r.note (faultsAt n .batchControl (batchMismatches b control))).close { b with control }

/-- Where a file control differs from the batches closed before it. -/
def fileMismatches (f : File) (c : FileControl) : List Complaint :=
  let expected := f.expectedControl
  mustMatch "BatchCount" expected.batchCount c.batchCount ++
    mustMatch "EntryAddendaCount" expected.entryAddendaCount c.entryAddendaCount ++
    mustMatch "EntryHash" expected.entryHash c.entryHash ++
    mustMatch "TotalDebitEntryDollarAmountInFile" expected.totalDebit c.totalDebit ++
    mustMatch "TotalCreditEntryDollarAmountInFile" expected.totalCredit c.totalCredit

/-- A file control.  Only the first one counts. -/
def fileControl (r : Reading) (n : Nat) (line : List Char) : Reading :=
  if r.seenControl then r.note [.ofRecord n .fileControl .duplicateFileControl]
  else
    -- only the batches that are closed by now count
    let control := FileControl.ofLine line
    { r with
      file := { r.file with control }
      seenControl := true
      faults := r.faults ++
        faultsAt n .fileControl (FileControl.complaints line ++ fileMismatches r.file control) }

/-- What the line with number `n` adds. -/
def step (r : Reading) (n : Nat) : Line → Reading
  | .blank => r
  | .padding => r
  | .misshapen length => r.note [⟨n, .unrecognised, "RecordLength", .badLength length⟩]
  | .fileHeader line => r.fileHeader n line
  | .batchHeader line => r.batchHeader n line
  | .entry line => r.entry n line
  | .addenda line => r.addenda n line
  | .batchControl line => r.batchControl n line
  | .fileControl line => r.fileControl n line
  | .unknown type => r.note [.ofRecord n .unrecognised (.unknownType type)]

/-- What the lines from number `n` on add. -/
def run (r : Reading) (n : Nat) : List Line → Reading
  | [] => r
  | line :: lines => (r.step n line).run (n + 1) lines

/-- The end of the file, after the line with number `last`. -/
def finish (r : Reading) (last : Nat) : Reading :=
  let r := match r.openBatch with
    | none => r
    | some b => (r.note [.ofRecord last .batchControl .batchLeftOpenAtEnd]).close b
  -- what is missing is looked for where it should be: at the first line and at the last
  let r := if r.seenHeader then r
    else r.note [.ofRecord 1 .fileHeader .fileHeaderMissing]
  if r.seenControl then r else r.note [.ofRecord last .fileControl .fileControlMissing]

end Reading

/-! ### Whole files -/

/-- Faults, and the file as far as it could be recovered. -/
structure ReadError where
  recovered : File
  faults : List Fault
  deriving DecidableEq, Repr

/-- The number of the last line that is not blank, or one. -/
def lastLine (lines : List Line) : Nat :=
  Nat.max 1 (Text.dropEndWhile (· == .blank) lines).length

/-- What reading the lines of a file ends with. -/
def readLines (lines : List Line) : Reading :=
  (Reading.run {} 1 lines).finish (lastLine lines)

/-- The lines of a byte string by kind. -/
def linesOf (bytes : Bytes) : List Line :=
  (rawLines (Utf8.decodeLossy bytes)).map classify

/-- The file that a byte string holds. -/
def read (bytes : Bytes) : Except ReadError File :=
  let r := readLines (linesOf bytes)
  if r.faults.isEmpty then .ok r.file else .error ⟨r.file, r.faults⟩

/-- The file that a byte string holds, as far as it can be recovered. -/
def recover (bytes : Bytes) : File :=
  (readLines (linesOf bytes)).file

/-- The faults of a byte string. -/
def faultsOf (bytes : Bytes) : List Fault :=
  (readLines (linesOf bytes)).faults

end AchCourier.Ach
