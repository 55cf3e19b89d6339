import AchCourier.Ach.Identity
import AchCourier.Ach.Reader
import AchCourier.Ingest.Attempt
import AchCourier.Ingest.Processor
import AchCourier.Local.Disk

/-!
# The desk

At the desk, files that lie on the local disk are read, identified, recorded in the audit trail and
handed to the processors, in this order: no processor sees a file that is not on record.  A file
with faults is handled as long as a batch could be read, and a bad file never stops the others.

## Main definitions

* `Desk` — the audit trail, the events sent, and a journal of what was done.
* `handleAll` — a file is handed to a chain of processors.
* `processFile`, `processDirectory` — a file, and all files directly inside a directory.
-/

namespace AchCourier.Ingest

open Local (Disk Node)

/-- Something that was done at the desk. -/
inductive Act where
  /-- A content from a host was recorded in the audit trail. -/
  | recorded (hash hostname : String)
  /-- A processor was given a file. -/
  | handled (processor : String) (file : IncomingFile)
  deriving DecidableEq, Repr

/-- The processor and the file of an act that handles one. -/
def Act.handled? : Act → Option (String × IncomingFile)
  | .handled processor file => some (processor, file)
  | .recorded .. => none

/-- What the desk keeps. -/
structure Desk where
  audit : Audit.Storage := {}
  /-- The events that were sent, in order. -/
  events : List Event := []
  /-- What was done, in order. -/
  journal : List Act := []

namespace Desk

/-- The desk with one more act in its journal. -/
def note (d : Desk) (act : Act) : Desk :=
  { d with journal := d.journal ++ [act] }

/-- The desk with more events sent. -/
def send (d : Desk) (events : List Event) : Desk :=
  { d with events := d.events ++ events }

end Desk

/-! ### Files -/

/-- Hands a file to one processor. -/
def handleOne (file : IncomingFile) (p : Processor) (d : Desk) : Desk × Except Error Unit :=
  let outcome := p.handle file
  ((d.note (.handled p.name file)).send outcome.events, outcome.result)

/-- Hands a file to every processor of a chain, in order. -/
def handleAll (chain : List Processor) (file : IncomingFile) (d : Desk) :
    Desk × Except Error Unit :=
  attemptAll (handleOne file) chain d

/-- The file that bytes hold, with identities, and the faults in spite of which it was read. -/
def readIncoming (path : String) (bytes : Bytes) : Except Error (Ach.File × List Ach.Fault) :=
  match Ach.read bytes with
  | .ok f => .ok (f.identify, [])
  | .error e =>
      -- one batch is enough to go on with
      if e.recovered.batches.isEmpty then .error (.parse path e)
      else .ok (e.recovered.identify, e.faults)

/-- Records a content in the audit trail. -/
def recordContent (saver : Audit.Saver) (hash : String) (d : Desk) : Desk × Except Error Unit :=
  match saver.save d.audit hash with
  | (audit, .error e) => ({ d with audit }, .error (.audit e))
  | (audit, .ok ()) => (({ d with audit }).note (.recorded hash saver.hostname), .ok ())

/-- Handles the bytes of the file at a path. -/
def processBytes (saver : Audit.Saver) (chain : List Processor) (path : String) (bytes : Bytes)
    (d : Desk) : Desk × Except Error Unit :=
  match readIncoming path bytes with
  | .error e => (d, .error e)
  | .ok (file, faults) =>
      -- without a valid header the file has no identity of its own
      let hash := file.id.getD (Digest.fingerprint bytes)
      match recordContent saver hash d with
      | (d, .error e) => (d, .error e)
      | (d, .ok ()) =>
          let name := Local.fileName path
          handleAll chain ⟨name, path, saver.hostname, hash, file, faults⟩ d

/-- Handles the file at a path. -/
def processFile (disk : Disk) (saver : Audit.Saver) (chain : List Processor) (path : String)
    (d : Desk) : Desk × Except Error Unit :=
  match disk.read path with
  | .error fault => (d, .error (.io path fault.message))
  | .ok bytes => processBytes saver chain path bytes d

/-! ### Directories -/

/-- The names of the files among the contents of a directory, in byte order. -/
def fileNames (contents : List (String × Node)) : List String :=
  ((contents.filter fun c => c.2 ≠ .directory).map (·.1)).mergeSort fun a b => decide (a ≤ b)

/-- Handles every file directly inside a directory, in byte order of the names. -/
def processDirectory (disk : Disk) (saver : Audit.Saver) (chain : List Processor) (dir : String)
    (d : Desk) : Desk × Except Error Unit :=
  match disk.list dir with
  | .error fault => (d, .error (.io dir fault.message))
  | .ok contents =>
      attemptAll (processFile disk saver chain) ((fileNames contents).map (Local.child dir)) d

end AchCourier.Ingest
