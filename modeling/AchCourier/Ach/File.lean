import AchCourier.Ach.Record

/-!
# Batches and files

The controls of a batch and of a file repeat what their entries add up to, so that damage shows.
`Batch.rebuildControl` and `File.rebuildControls` write the controls anew from the entries.

Counts have 32 bits and sums of hashes and amounts have 64.  Here both are natural numbers: they are
taken not to overflow, for which a file would need billions of entries or amounts that no column of
a record can hold.

## Main definitions

* `Batch`, `File` — the structure of an ACH file.
* `entryHash` — the sum of routing numbers, cut to ten digits.
* `File.rebuildControls` — the file with controls that agree with its entries.
-/

namespace AchCourier.Ach

/-- A batch of entries. -/
structure Batch where
  /-- The content identity, once it has been filled in. -/
  id : Option String := none
  header : BatchHeader := {}
  entries : List Entry := []
  control : BatchControl := {}
  deriving DecidableEq, Repr, Inhabited

/-- The sum of the routing numbers of `entries`, cut to ten digits.  The sum itself is taken to fit
into 64 bits. -/
def entryHash (entries : List Entry) : Nat :=
  total (entries.map fun e => hashTerm e.rdfiIdentification) % hashModulus

namespace Batch

/-- The number of entry and addenda records, taken to fit into 32 bits. -/
def entryAddendaCount (b : Batch) : Nat :=
  total (b.entries.map fun e => 1 + e.addendaCount)

/-- The entry hash that the entries give. -/
def entryHash (b : Batch) : Nat :=
  Ach.entryHash b.entries

/-- The sum of the debits, in cents, taken to fit into 64 bits. -/
def totalDebit (b : Batch) : Nat :=
  total ((b.entries.filter Entry.isDebit).map Entry.amount)

/-- The sum of the credits, in cents, taken to fit into 64 bits. -/
def totalCredit (b : Batch) : Nat :=
  total ((b.entries.filter Entry.isCredit).map Entry.amount)

/-- The batch announces corrections. -/
def isCorrection (b : Batch) : Bool :=
  b.header.standardEntryClassCode == "COR"

/-- The control that the header and the entries call for. -/
def expectedControl (b : Batch) : BatchControl where
  serviceClassCode := b.header.serviceClassCode
  entryAddendaCount := b.entryAddendaCount
  entryHash := b.entryHash
  totalDebit := b.totalDebit
  totalCredit := b.totalCredit
  companyIdentification := b.header.companyIdentification
  messageAuthenticationCode := ""
  odfiIdentification := b.header.odfiIdentification
  batchNumber := b.header.batchNumber

/-- The batch with the control that it calls for. -/
def rebuildControl (b : Batch) : Batch :=
  { b with control := b.expectedControl }

end Batch

/-- An ACH file. -/
structure File where
  /-- The content identity, present only when the header is valid. -/
  id : Option String := none
  header : FileHeader := {}
  batches : List Batch := []
  control : FileControl := {}
  /-- A file header was present and passed its checks. -/
  hasValidHeader : Bool := false
  deriving DecidableEq, Repr, Inhabited

namespace File

/-- An empty file with a header that is taken as valid. -/
def new (header : FileHeader) : File :=
  { header, hasValidHeader := true }

/-- Every entry, in order. -/
def entries (f : File) : List Entry :=
  f.batches.flatMap Batch.entries

/-- The number of records without the padding: two for the file, two for each batch, and the
entries with their addenda.  It is taken to fit into 32 bits. -/
def recordCount (f : File) : Nat :=
  2 + total (f.batches.map fun b => 2 + b.entryAddendaCount)

/-- The control that the batches call for.  Counts are taken to fit into 32 bits and sums of amounts
into 64, so no total overflows. -/
def expectedControl (f : File) : FileControl where
  batchCount := f.batches.length
  blockCount := (f.recordCount + 9) / 10
  entryAddendaCount := total (f.batches.map Batch.entryAddendaCount)
  entryHash := Ach.entryHash f.entries
  totalDebit := total (f.batches.map Batch.totalDebit)
  totalCredit := total (f.batches.map Batch.totalCredit)

/-- The file in which every control is the one that its entries call for. -/
def rebuildControls (f : File) : File :=
  { f with
    batches := f.batches.map Batch.rebuildControl
    control := f.expectedControl }

end File

end AchCourier.Ach
