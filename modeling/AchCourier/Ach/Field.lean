import AchCourier.Ach.Calendar
import AchCourier.Ach.Fault

/-!
# Reading the fields of a record

Each kind of record is read in two ways from its line.  `ofLine` gives the record whatever the line
holds: a number that is none reads as zero.  `complaints` lists what is wrong with it, first the
numbers that are none, in the order of their columns, and then the broken rules.

## Main definitions

* `ofLine`, `complaints` in the namespace of each record.
* `serviceClassCodes`, `transactionCodes` — the codes in use.
-/

namespace AchCourier.Ach

/-! ### Rules for single fields -/

/-- A complaint if `ok` fails. -/
def complainUnless (ok : Bool) (field : String) (cause : Cause) : List Complaint :=
  if ok then [] else [⟨field, cause⟩]

/-- The columns must hold a number or blanks. -/
def mustBeNumeric (field : String) (first last : Nat) (line : List Char) : List Complaint :=
  complainUnless (naturalAt? first last line).isSome field (.notNumeric (textAt first last line))

/-- The columns must hold exactly the given text. -/
def mustBeFixed (field : String) (first last : Nat) (expected : String) (line : List Char) :
    List Complaint :=
  let found := String.ofList (cut first last line)
  complainUnless (found == expected) field (.notFixed found expected)

/-- A text must not be empty. -/
def mustBeGiven (field : String) (value : String) : List Complaint :=
  complainUnless (!value.isEmpty) field .mandatory

/-- A text must be `count` digits. -/
def mustBeDigits (field : String) (value : String) (count : Nat) : List Complaint :=
  let cs := value.toList
  complainUnless (cs.length == count && cs.all Char.isDigit) field (.notDigits value count)

/-- A text is a letter and two digits. -/
def isReasonCode (letter : Char) (code : String) : Bool :=
  match code.toList with
  | [c, d, e] => c == letter && d.isDigit && e.isDigit
  | _ => false

/-- The service classes in use: mixed, credits, debits, advices. -/
def serviceClassCodes : List Nat := [200, 220, 225, 280]

/-- The transaction codes in use. -/
def transactionCodes : List Nat :=
  [21, 22, 23, 24, 26, 27, 28, 29, 31, 32, 33, 34, 36, 37, 38, 39, 41, 42, 43, 44, 46, 47, 48, 49,
    51, 52, 53, 54, 55, 56]

/-! ### File headers -/

namespace FileHeader

/-- The file header on a line. -/
def ofLine (line : List Char) : FileHeader where
  priorityCode := textAt 2 3 line
  immediateDestination := textAt 4 13 line
  immediateOrigin := textAt 14 23 line
  fileCreationDate := textAt 24 29 line
  fileCreationTime := textAt 30 33 line
  fileIdModifier := textAt 34 34 line
  immediateDestinationName := textAt 41 63 line
  immediateOriginName := textAt 64 86 line
  referenceCode := textAt 87 94 line

/-- A creation date must be given and be a date. -/
def dateComplaints (date : String) : List Complaint :=
  if date.isEmpty then [⟨"FileCreationDate", .mandatory⟩]
  else complainUnless (isDate date) "FileCreationDate" (.notADate date)

/-- A file modifier is one upper case letter or digit. -/
def isModifier (s : String) : Bool :=
  match s.toList with
  | [c] => c.isUpper || c.isDigit
  | _ => false

/-- What is wrong with a file header. -/
def complaints (line : List Char) : List Complaint :=
  let h := ofLine line
  mustBeFixed "RecordSize" 35 37 "094" line ++
    mustBeFixed "BlockingFactor" 38 39 "10" line ++
    mustBeFixed "FormatCode" 40 40 "1" line ++
    mustBeGiven "ImmediateDestination" h.immediateDestination ++
    mustBeGiven "ImmediateOrigin" h.immediateOrigin ++
    dateComplaints h.fileCreationDate ++
    complainUnless (isModifier h.fileIdModifier) "FileIDModifier" .badModifier

end FileHeader

/-! ### Batch headers -/

namespace BatchHeader

/-- The batch header on a line. -/
def ofLine (line : List Char) : BatchHeader where
  serviceClassCode := naturalAt 2 4 line
  companyName := textAt 5 20 line
  companyDiscretionaryData := textAt 21 40 line
  companyIdentification := textAt 41 50 line
  standardEntryClassCode := textAt 51 53 line
  companyEntryDescription := textAt 54 63 line
  companyDescriptiveDate := textAt 64 69 line
  effectiveEntryDate := textAt 70 75 line
  settlementDate := textAt 76 78 line
  originatorStatusCode := textAt 79 79 line
  odfiIdentification := textAt 80 87 line
  batchNumber := naturalAt 88 94 line

/-- An entry class is three upper case letters. -/
def isEntryClass (s : String) : Bool :=
  s.toList.length == 3 && s.toList.all Char.isUpper

/-- What is wrong with a batch header. -/
def complaints (line : List Char) : List Complaint :=
  let h := ofLine line
  mustBeNumeric "ServiceClassCode" 2 4 line ++
    mustBeNumeric "BatchNumber" 88 94 line ++
    complainUnless (serviceClassCodes.contains h.serviceClassCode) "ServiceClassCode"
      (.badServiceClass h.serviceClassCode) ++
    complainUnless (isEntryClass h.standardEntryClassCode) "StandardEntryClassCode"
      (.badEntryClass h.standardEntryClassCode) ++
    mustBeGiven "CompanyIdentification" h.companyIdentification ++
    mustBeDigits "ODFIIdentification" h.odfiIdentification 8

end BatchHeader

/-! ### Entries -/

namespace Entry

/-- The entry on a line, without addenda. -/
def ofLine (line : List Char) : Entry where
  transactionCode := naturalAt 2 3 line
  rdfiIdentification := textAt 4 11 line
  checkDigit := textAt 12 12 line
  dfiAccountNumber := textAt 13 29 line
  amount := naturalAt 30 39 line
  identificationNumber := textAt 40 54 line
  individualName := textAt 55 76 line
  discretionaryData := textAt 77 78 line
  addendaRecordIndicator := naturalAt 79 79 line
  traceNumber := textAt 80 94 line

/-- The check digit of a routing number must be the calculated one. -/
def checkDigitComplaints (routing digit : String) : List Complaint :=
  match checkDigit? routing with
  | none => []
  | some expected =>
      complainUnless (digit == expected.repr) "CheckDigit" (.badCheckDigit digit expected)

/-- What is wrong with an entry. -/
def complaints (line : List Char) : List Complaint :=
  let e := ofLine line
  mustBeNumeric "TransactionCode" 2 3 line ++
    mustBeNumeric "Amount" 30 39 line ++
    mustBeNumeric "AddendaRecordIndicator" 79 79 line ++
    complainUnless (transactionCodes.contains e.transactionCode) "TransactionCode"
      (.badTransactionCode e.transactionCode) ++
    mustBeDigits "RDFIIdentification" e.rdfiIdentification 8 ++
    checkDigitComplaints e.rdfiIdentification e.checkDigit ++
    mustBeGiven "DFIAccountNumber" e.dfiAccountNumber ++
    complainUnless (e.addendaRecordIndicator ≤ 1) "AddendaRecordIndicator" .badIndicator ++
    mustBeDigits "TraceNumber" e.traceNumber 15 ++
    complainUnless (!e.isPrenote || e.amount == 0) "Amount" .prenoteAmount

end Entry

/-! ### Addenda -/

/-- The remittance information on a line. -/
def Remittance.ofLine (line : List Char) : Remittance where
  paymentRelatedInformation := textAt 4 83 line
  sequenceNumber := naturalAt 84 87 line
  entryDetailSequenceNumber := textAt 88 94 line

/-- The notification of change on a line. -/
def ChangeNotice.ofLine (line : List Char) : ChangeNotice where
  changeCode := textAt 4 6 line
  sentTrace := textAt 7 21 line
  sentDfi := textAt 28 35 line
  correctedData := textAt 36 64 line
  traceNumber := textAt 80 94 line

/-- The return on a line. -/
def ReturnNotice.ofLine (line : List Char) : ReturnNotice where
  returnCode := textAt 4 6 line
  sentTrace := textAt 7 21 line
  dateOfDeath := textAt 22 27 line
  sentDfi := textAt 28 35 line
  addendaInformation := textAt 36 79 line
  traceNumber := textAt 80 94 line

namespace Addenda

/-- The addenda on a line, if its type code is known. -/
def ofLine? (line : List Char) : Option Addenda :=
  match cut 2 3 line with
  | ['0', '5'] => some (.remittance (.ofLine line))
  | ['9', '8'] => some (.change (.ofLine line))
  | ['9', '9'] => some (.returned (.ofLine line))
  | _ => none

/-- What is wrong with an addenda record. -/
def complaints (line : List Char) : List Complaint :=
  match ofLine? line with
  | some (.remittance _) => mustBeNumeric "SequenceNumber" 84 87 line
  | some (.change a) =>
      complainUnless (isReasonCode 'C' a.changeCode) "ChangeCode" (.badChangeCode a.changeCode) ++
        mustBeGiven "CorrectedData" a.correctedData
  | some (.returned a) =>
      complainUnless (isReasonCode 'R' a.returnCode) "ReturnCode" (.badReturnCode a.returnCode)
  | none => [⟨"TypeCode", .badAddendaType (String.ofList (cut 2 3 line))⟩]

end Addenda

/-! ### Controls -/

namespace BatchControl

/-- The batch control on a line. -/
def ofLine (line : List Char) : BatchControl where
  serviceClassCode := naturalAt 2 4 line
  entryAddendaCount := naturalAt 5 10 line
  entryHash := naturalAt 11 20 line
  totalDebit := naturalAt 21 32 line
  totalCredit := naturalAt 33 44 line
  companyIdentification := textAt 45 54 line
  messageAuthenticationCode := textAt 55 73 line
  odfiIdentification := textAt 80 87 line
  batchNumber := naturalAt 88 94 line

/-- What is wrong with the fields of a batch control. -/
def complaints (line : List Char) : List Complaint :=
  mustBeNumeric "ServiceClassCode" 2 4 line ++
    mustBeNumeric "EntryAddendaCount" 5 10 line ++
    mustBeNumeric "EntryHash" 11 20 line ++
    mustBeNumeric "TotalDebitEntryDollarAmount" 21 32 line ++
    mustBeNumeric "TotalCreditEntryDollarAmount" 33 44 line ++
    mustBeNumeric "BatchNumber" 88 94 line

end BatchControl

namespace FileControl

/-- The file control on a line. -/
def ofLine (line : List Char) : FileControl where
  batchCount := naturalAt 2 7 line
  blockCount := naturalAt 8 13 line
  entryAddendaCount := naturalAt 14 21 line
  entryHash := naturalAt 22 31 line
  totalDebit := naturalAt 32 43 line
  totalCredit := naturalAt 44 55 line

/-- What is wrong with the fields of a file control. -/
def complaints (line : List Char) : List Complaint :=
  mustBeNumeric "BatchCount" 2 7 line ++
    mustBeNumeric "BlockCount" 8 13 line ++
    mustBeNumeric "EntryAddendaCount" 14 21 line ++
    mustBeNumeric "EntryHash" 22 31 line ++
    mustBeNumeric "TotalDebitEntryDollarAmountInFile" 32 43 line ++
    mustBeNumeric "TotalCreditEntryDollarAmountInFile" 44 55 line

end FileControl

end AchCourier.Ach
