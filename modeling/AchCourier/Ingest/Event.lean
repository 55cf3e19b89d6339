import AchCourier.Ingest.Incoming
import AchCourier.Json.Basic

/-!
# Events

What the bank has to say about entries is told as events: entries that it corrected, entries that
it returned, and entries that only test an account.  An event names the file that it was found in
and lists every entry concerned, in the order of the file.

## Main definitions

* `Correction`, `ReturnedEntry`, `Prenote` — what is told of one entry.
* `correctionsIn`, `returnsIn`, `prenotesIn` — all entries of a file that are concerned.
* `Event` — an event, with its JSON form.
-/

namespace AchCourier.Ingest

/-- A correction of an entry. -/
structure Correction where
  batchId : Option String
  entryId : Option String
  traceNumber : String
  changeCode : String
  /-- The trace number under which the entry was sent. -/
  sentTrace : String
  correctedData : String
  deriving DecidableEq, Repr

/-- The return of an entry. -/
structure ReturnedEntry where
  batchId : Option String
  entryId : Option String
  traceNumber : String
  returnCode : String
  /-- The trace number under which the entry was sent. -/
  sentTrace : String
  amount : Nat
  deriving DecidableEq, Repr

/-- An entry that tests an account. -/
structure Prenote where
  batchId : Option String
  entryId : Option String
  traceNumber : String
  transactionCode : Nat
  dfiAccountNumber : String
  deriving DecidableEq, Repr

/-! ### What is found in a file -/

/-- Every entry of a file with its batch, in order. -/
def entriesWithBatch (f : Ach.File) : List (Ach.Batch × Ach.Entry) :=
  f.batches.flatMap fun b => b.entries.map fun e => (b, e)

/-- The correction of an entry, if there is one. -/
def Correction.of? (b : Ach.Batch) (e : Ach.Entry) : Option Correction :=
  e.changeNotice.map fun n => {
    batchId := b.id
    entryId := e.id
    traceNumber := e.traceNumber
    changeCode := n.changeCode
    sentTrace := n.sentTrace
    correctedData := n.correctedData }

/-- The return of an entry, if there is one. -/
def ReturnedEntry.of? (b : Ach.Batch) (e : Ach.Entry) : Option ReturnedEntry :=
  e.returnNotice.map fun n => {
    batchId := b.id
    entryId := e.id
    traceNumber := e.traceNumber
    returnCode := n.returnCode
    sentTrace := n.sentTrace
    amount := e.amount }

/-- The test that an entry is, if it is one. -/
def Prenote.of? (b : Ach.Batch) (e : Ach.Entry) : Option Prenote :=
  if e.isPrenote then some {
    batchId := b.id
    entryId := e.id
    traceNumber := e.traceNumber
    transactionCode := e.transactionCode
    dfiAccountNumber := e.dfiAccountNumber }
  else none

/-- The corrections in a file. -/
def correctionsIn (f : Ach.File) : List Correction :=
  (entriesWithBatch f).filterMap fun p => Correction.of? p.1 p.2

/-- The returns in a file. -/
def returnsIn (f : Ach.File) : List ReturnedEntry :=
  (entriesWithBatch f).filterMap fun p => ReturnedEntry.of? p.1 p.2

/-- The tests of accounts in a file. -/
def prenotesIn (f : Ach.File) : List Prenote :=
  (entriesWithBatch f).filterMap fun p => Prenote.of? p.1 p.2

/-! ### Events -/

/-- What an event tells. -/
inductive Findings where
  /-- Entries were corrected. -/
  | corrections (items : List Correction)
  /-- Entries were returned. -/
  | returns (items : List ReturnedEntry)
  /-- Entries test accounts. -/
  | prenotes (items : List Prenote)
  deriving DecidableEq, Repr

/-- Something that was found in a file. -/
structure Event where
  filename : String
  hostname : String
  hash : String
  findings : Findings
  deriving DecidableEq, Repr

/-- The event that tells what was found in a file. -/
def Event.about (f : IncomingFile) (findings : Findings) : Event :=
  ⟨f.name, f.hostname, f.hash, findings⟩

/-- An identity or `null`. -/
def idJson (id : Option String) : Json :=
  .ofOption .str id

/-- The JSON form of a correction. -/
def Correction.toJson (c : Correction) : Json :=
  .obj [
    ("batch_id", idJson c.batchId),
    ("entry_id", idJson c.entryId),
    ("trace_number", .str c.traceNumber),
    ("change_code", .str c.changeCode),
    ("original_trace", .str c.sentTrace),
    ("corrected_data", .str c.correctedData)]

/-- The JSON form of a return. -/
def ReturnedEntry.toJson (r : ReturnedEntry) : Json :=
  .obj [
    ("batch_id", idJson r.batchId),
    ("entry_id", idJson r.entryId),
    ("trace_number", .str r.traceNumber),
    ("return_code", .str r.returnCode),
    ("original_trace", .str r.sentTrace),
    ("amount", .nat r.amount)]

/-- The JSON form of a test of an account. -/
def Prenote.toJson (p : Prenote) : Json :=
  .obj [
    ("batch_id", idJson p.batchId),
    ("entry_id", idJson p.entryId),
    ("trace_number", .str p.traceNumber),
    ("transaction_code", .nat p.transactionCode),
    ("dfi_account_number", .str p.dfiAccountNumber)]

/-- The name of what an event tells, and its items. -/
def Findings.listed : Findings → String × List Json
  | .corrections items => ("corrections", items.map Correction.toJson)
  | .returns items => ("returns", items.map ReturnedEntry.toJson)
  | .prenotes items => ("prenotes", items.map Prenote.toJson)

/-- The JSON form of an event. -/
def Event.toJson (e : Event) : Json :=
  let (name, items) := e.findings.listed
  .obj [
    ("type", .str name),
    ("filename", .str e.filename),
    ("hostname", .str e.hostname),
    ("hash", .str e.hash),
    (name, .arr items)]

end AchCourier.Ingest
