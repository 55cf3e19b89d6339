import AchCourier.Ach.Record
import AchCourier.Text.Quoted

/-!
# Faults of an ACH file

Reading reports every fault with the line on which it stands, the kind of record and the field it
concerns, and goes on.

## Main definitions

* `RecordKind` — what a faulty line was taken for.
* `Cause` — what is wrong, with its wording in `Cause.message`.
* `Complaint` — a cause with the field that it concerns.
* `Fault` — a complaint with its line and record.
* `summary` — all faults of a file in one sentence.
-/

namespace AchCourier.Ach

/-- What a line was taken for. -/
inductive RecordKind where
  /-- A line of no known kind. -/
  | unrecognised
  /-- A type 1 record. -/
  | fileHeader
  /-- A type 5 record. -/
  | batchHeader
  /-- A type 6 record. -/
  | entryDetail
  /-- A type 7 record. -/
  | addenda
  /-- A type 8 record. -/
  | batchControl
  /-- A type 9 record. -/
  | fileControl
  deriving DecidableEq, Repr

/-- The name of a kind of record in a report. -/
def RecordKind.name : RecordKind → String
  | .unrecognised => "Record"
  | .fileHeader => "FileHeader"
  | .batchHeader => "BatchHeader"
  | .entryDetail => "EntryDetail"
  | .addenda => "Addenda"
  | .batchControl => "BatchControl"
  | .fileControl => "FileControl"

/-- What is wrong with a field, a record or the order of records. -/
inductive Cause where
  /-- A number has other characters than digits. -/
  | notNumeric (found : String)
  /-- A field must not be blank. -/
  | mandatory
  /-- A field must be a certain number of digits. -/
  | notDigits (found : String) (count : Nat)
  /-- A field must have a certain text. -/
  | notFixed (found expected : String)
  /-- A creation date is none. -/
  | notADate (found : String)
  /-- A file modifier is neither an upper case letter nor a digit. -/
  | badModifier
  /-- A service class is not one of the four. -/
  | badServiceClass (found : Nat)
  /-- An entry class is not three upper case letters. -/
  | badEntryClass (found : String)
  /-- A transaction code is unknown. -/
  | badTransactionCode (found : Nat)
  /-- A check digit is not that of the routing number. -/
  | badCheckDigit (found : String) (expected : Nat)
  /-- An addenda indicator is above one. -/
  | badIndicator
  /-- A prenote moves money. -/
  | prenoteAmount
  /-- A change code is not `C` and two digits. -/
  | badChangeCode (found : String)
  /-- A return code is not `R` and two digits. -/
  | badReturnCode (found : String)
  /-- The type code of an addenda record is unknown. -/
  | badAddendaType (found : String)
  /-- A line is not 94 ASCII characters. -/
  | badLength (found : Nat)
  /-- The type of a record is unknown. -/
  | unknownType (found : Char)
  /-- There is a file header already. -/
  | duplicateFileHeader
  /-- There is a file control already. -/
  | duplicateFileControl
  /-- A batch begins before the one before it ends. -/
  | batchLeftOpen
  /-- The file ends before its last batch. -/
  | batchLeftOpenAtEnd
  /-- An entry stands outside of a batch. -/
  | entryOutsideBatch
  /-- Addenda stand behind no entry. -/
  | addendaWithoutEntry
  /-- Addenda stand behind an entry that announces none. -/
  | addendaUnexpected (trace : String)
  /-- A batch ends that never began. -/
  | controlWithoutBatch
  /-- There is no file header. -/
  | fileHeaderMissing
  /-- There is no file control. -/
  | fileControlMissing
  /-- A control differs from what it controls. -/
  | mismatch (found calculated : Nat)
  deriving DecidableEq, Repr

/-- The wording of a cause. -/
def Cause.message : Cause → String
  | .notNumeric found => Text.quoted found ++ " is not numeric"
  | .mandatory => "is a mandatory field"
  | .notDigits found count => Text.quoted found ++ " must be " ++ count.repr ++ " digits"
  | .notFixed found expected => Text.quoted found ++ " must be " ++ expected
  | .notADate found => Text.quoted found ++ " is not a YYMMDD date"
  | .badModifier => "must be A-Z or 0-9"
  | .badServiceClass found => found.repr ++ " is not a valid service class code"
  | .badEntryClass found => Text.quoted found ++ " is not a valid SEC code"
  | .badTransactionCode found => found.repr ++ " is not a valid transaction code"
  | .badCheckDigit found expected =>
      Text.quoted found ++ " does not match calculated check digit " ++ expected.repr
  | .badIndicator => "must be 0 or 1"
  | .prenoteAmount => "prenote entries must have a zero amount"
  | .badChangeCode found => Text.quoted found ++ " is not a valid change code"
  | .badReturnCode found => Text.quoted found ++ " is not a valid return code"
  | .badAddendaType found => Text.quoted found ++ " is not a supported addenda type"
  | .badLength found =>
      "must be " ++ recordLength.repr ++ " ASCII characters, found " ++ found.repr
  | .unknownType found => "unknown record type " ++ Text.quotedChar found
  | .duplicateFileHeader => "duplicate file header"
  | .duplicateFileControl => "duplicate file control"
  | .batchLeftOpen => "batch control missing before next batch header"
  | .batchLeftOpenAtEnd => "batch control missing at end of file"
  | .entryOutsideBatch => "entry detail outside of a batch"
  | .addendaWithoutEntry => "addenda without a preceding entry detail"
  | .addendaUnexpected trace => "entry " ++ trace ++ " does not expect addenda"
  | .controlWithoutBatch => "batch control without a batch header"
  | .fileHeaderMissing => "file header is missing"
  | .fileControlMissing => "file control is missing"
  | .mismatch found calculated =>
      found.repr ++ " does not match calculated " ++ calculated.repr

/-- A cause and the field that it concerns. -/
structure Complaint where
  field : String
  cause : Cause
  deriving DecidableEq, Repr

/-- A complaint about one line. -/
structure Fault where
  /-- The number of the line, counted from one. -/
  line : Nat
  record : RecordKind
  field : String
  cause : Cause
  deriving DecidableEq, Repr

/-- The complaints about a line as faults. -/
def faultsAt (line : Nat) (record : RecordKind) (complaints : List Complaint) : List Fault :=
  complaints.map fun c => ⟨line, record, c.field, c.cause⟩

/-- A fault in the order or the number of records. -/
def Fault.ofRecord (line : Nat) (record : RecordKind) (cause : Cause) : Fault :=
  ⟨line, record, "RecordType", cause⟩

/-- A fault in one sentence. -/
def Fault.report (f : Fault) : String :=
  "line:" ++ f.line.repr ++ " record:" ++ f.record.name ++ " field:" ++ f.field ++ " " ++
    f.cause.message

/-- All faults in one sentence. -/
def summary : List Fault → String
  | [only] => only.report
  | faults =>
      faults.length.repr ++ " errors: " ++ String.intercalate "; " (faults.map Fault.report)

end AchCourier.Ach
