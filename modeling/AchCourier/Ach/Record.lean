import AchCourier.Ach.Column
import AchCourier.Ach.Routing

/-!
# The records of an ACH file

A file is a header, batches and a control.  A batch is a header, entries and a control, and an
entry may carry addenda: remittance information, a notification of change, or a return.

Texts are kept without the blanks around them, amounts are in cents, and the identity of an entry
is a digest of its content that ingestion fills in.

## Main definitions

* `FileHeader`, `BatchHeader`, `Entry`, `Remittance`, `ChangeNotice`, `ReturnNotice`,
  `BatchControl`, `FileControl` — the records.
* `Addenda` — any of the three kinds of addenda.
* `Entry.isCredit`, `Entry.isDebit`, `Entry.isPrenote`, `Entry.addendaCount` — what an entry is.
* `cells` in the namespace of each record — the record column by column.
-/

namespace AchCourier.Ach

/-- The record that opens a file (type 1). -/
structure FileHeader where
  priorityCode : String := ""
  immediateDestination : String := ""
  immediateOrigin : String := ""
  fileCreationDate : String := ""
  fileCreationTime : String := ""
  fileIdModifier : String := ""
  immediateDestinationName : String := ""
  immediateOriginName : String := ""
  referenceCode : String := ""
  deriving DecidableEq, Repr, Inhabited

/-- The record that opens a batch (type 5). -/
structure BatchHeader where
  serviceClassCode : Nat := 0
  companyName : String := ""
  companyDiscretionaryData : String := ""
  companyIdentification : String := ""
  standardEntryClassCode : String := ""
  companyEntryDescription : String := ""
  companyDescriptiveDate : String := ""
  effectiveEntryDate : String := ""
  settlementDate : String := ""
  originatorStatusCode : String := ""
  odfiIdentification : String := ""
  batchNumber : Nat := 0
  deriving DecidableEq, Repr, Inhabited

/-- Remittance information (type 7, code 05). -/
structure Remittance where
  paymentRelatedInformation : String := ""
  sequenceNumber : Nat := 0
  entryDetailSequenceNumber : String := ""
  deriving DecidableEq, Repr, Inhabited

/-- A notification of change (type 7, code 98). -/
structure ChangeNotice where
  changeCode : String := ""
  /-- The trace number under which the entry was sent. -/
  sentTrace : String := ""
  /-- The bank to which the entry was sent. -/
  sentDfi : String := ""
  correctedData : String := ""
  traceNumber : String := ""
  deriving DecidableEq, Repr, Inhabited

/-- A return (type 7, code 99). -/
structure ReturnNotice where
  returnCode : String := ""
  /-- The trace number under which the entry was sent. -/
  sentTrace : String := ""
  dateOfDeath : String := ""
  /-- The bank to which the entry was sent. -/
  sentDfi : String := ""
  addendaInformation : String := ""
  traceNumber : String := ""
  deriving DecidableEq, Repr, Inhabited

/-- An addenda record of any kind. -/
inductive Addenda where
  /-- Remittance information. -/
  | remittance (a : Remittance)
  /-- A notification of change. -/
  | change (a : ChangeNotice)
  /-- A return. -/
  | returned (a : ReturnNotice)
  deriving DecidableEq, Repr

/-- A payment order (type 6) with its addenda. -/
structure Entry where
  /-- The content identity, once it has been filled in. -/
  id : Option String := none
  transactionCode : Nat := 0
  rdfiIdentification : String := ""
  checkDigit : String := ""
  dfiAccountNumber : String := ""
  /-- The amount in cents. -/
  amount : Nat := 0
  identificationNumber : String := ""
  individualName : String := ""
  discretionaryData : String := ""
  addendaRecordIndicator : Nat := 0
  traceNumber : String := ""
  /-- Any number of addenda 05. -/
  remittances : List Remittance := []
  /-- The addenda 98, if there is one. -/
  changeNotice : Option ChangeNotice := none
  /-- The addenda 99, if there is one. -/
  returnNotice : Option ReturnNotice := none
  deriving DecidableEq, Repr, Inhabited

/-- The record that closes a batch (type 8). -/
structure BatchControl where
  serviceClassCode : Nat := 0
  entryAddendaCount : Nat := 0
  entryHash : Nat := 0
  totalDebit : Nat := 0
  totalCredit : Nat := 0
  companyIdentification : String := ""
  messageAuthenticationCode : String := ""
  odfiIdentification : String := ""
  batchNumber : Nat := 0
  deriving DecidableEq, Repr, Inhabited

/-- The record that closes a file (type 9). -/
structure FileControl where
  batchCount : Nat := 0
  blockCount : Nat := 0
  entryAddendaCount : Nat := 0
  entryHash : Nat := 0
  totalDebit : Nat := 0
  totalCredit : Nat := 0
  deriving DecidableEq, Repr, Inhabited

/-! ### What an entry is -/

namespace Entry

/-- Money goes to the account. -/
def isCredit (e : Entry) : Bool :=
  1 ≤ e.transactionCode % 10 && e.transactionCode % 10 ≤ 4

/-- Money is taken from the account. -/
def isDebit (e : Entry) : Bool :=
  5 ≤ e.transactionCode % 10

/-- The entry only tests the account and moves no money. -/
def isPrenote (e : Entry) : Bool :=
  [23, 28, 33, 38, 43, 48, 53].contains e.transactionCode

/-- The number of addenda records behind the entry. -/
def addendaCount (e : Entry) : Nat :=
  e.remittances.length + e.changeNotice.toList.length + e.returnNotice.toList.length

/-- The entry with one more addenda record.  Remittances are collected; of the other two kinds an
entry keeps the last. -/
def attach (e : Entry) : Addenda → Entry
  | .remittance a => { e with remittances := e.remittances ++ [a] }
  | .change a => { e with changeNotice := some a }
  | .returned a => { e with returnNotice := some a }

end Entry

/-! ### Records column by column -/

/-- The columns of a file header.  Record size, blocking factor and format code never vary. -/
def FileHeader.cells (h : FileHeader) : List Cell :=
  [.fixed ['1'],
    .zeros 2 h.priorityCode.toList,
    .right 10 h.immediateDestination,
    .right 10 h.immediateOrigin,
    .left 6 h.fileCreationDate,
    .left 4 h.fileCreationTime,
    .left 1 h.fileIdModifier,
    .fixed ['0', '9', '4', '1', '0', '1'],
    .left 23 h.immediateDestinationName,
    .left 23 h.immediateOriginName,
    .left 8 h.referenceCode]

/-- The columns of a batch header. -/
def BatchHeader.cells (h : BatchHeader) : List Cell :=
  [.fixed ['5'],
    .number 3 h.serviceClassCode,
    .left 16 h.companyName,
    .left 20 h.companyDiscretionaryData,
    .left 10 h.companyIdentification,
    .left 3 h.standardEntryClassCode,
    .left 10 h.companyEntryDescription,
    .left 6 h.companyDescriptiveDate,
    .left 6 h.effectiveEntryDate,
    .left 3 h.settlementDate,
    .left 1 h.originatorStatusCode,
    .left 8 h.odfiIdentification,
    .number 7 h.batchNumber]

/-- The columns of an entry. -/
def Entry.cells (e : Entry) : List Cell :=
  [.fixed ['6'],
    .number 2 e.transactionCode,
    .left 8 e.rdfiIdentification,
    .left 1 e.checkDigit,
    .left 17 e.dfiAccountNumber,
    .number 10 e.amount,
    .left 15 e.identificationNumber,
    .left 22 e.individualName,
    .left 2 e.discretionaryData,
    .number 1 e.addendaRecordIndicator,
    .zeros 15 e.traceNumber.toList]

/-- The columns of remittance information. -/
def Remittance.cells (a : Remittance) : List Cell :=
  [.fixed ['7', '0', '5'],
    .left 80 a.paymentRelatedInformation,
    .number 4 a.sequenceNumber,
    .zeros 7 a.entryDetailSequenceNumber.toList]

/-- The columns of a notification of change. -/
def ChangeNotice.cells (a : ChangeNotice) : List Cell :=
  [.fixed ['7', '9', '8'],
    .left 3 a.changeCode,
    .left 15 a.sentTrace,
    .blank 6,
    .left 8 a.sentDfi,
    .left 29 a.correctedData,
    .blank 15,
    .left 15 a.traceNumber]

/-- The columns of a return. -/
def ReturnNotice.cells (a : ReturnNotice) : List Cell :=
  [.fixed ['7', '9', '9'],
    .left 3 a.returnCode,
    .left 15 a.sentTrace,
    .left 6 a.dateOfDeath,
    .left 8 a.sentDfi,
    .left 44 a.addendaInformation,
    .left 15 a.traceNumber]

/-- The columns of a batch control. -/
def BatchControl.cells (c : BatchControl) : List Cell :=
  [.fixed ['8'],
    .number 3 c.serviceClassCode,
    .number 6 c.entryAddendaCount,
    .number 10 c.entryHash,
    .number 12 c.totalDebit,
    .number 12 c.totalCredit,
    .left 10 c.companyIdentification,
    .left 19 c.messageAuthenticationCode,
    .blank 6,
    .left 8 c.odfiIdentification,
    .number 7 c.batchNumber]

/-- The columns of a file control. -/
def FileControl.cells (c : FileControl) : List Cell :=
  [.fixed ['9'],
    .number 6 c.batchCount,
    .number 6 c.blockCount,
    .number 8 c.entryAddendaCount,
    .number 10 c.entryHash,
    .number 12 c.totalDebit,
    .number 12 c.totalCredit,
    .blank 39]

/-- The columns of an addenda record. -/
def Addenda.cells : Addenda → List Cell
  | .remittance a => a.cells
  | .change a => a.cells
  | .returned a => a.cells

end AchCourier.Ach
