import AchCourier.Ach.Fault
import AchCourier.Ach.File

/-!
# Incoming files

A file that has come in, been read and been recorded, with all identities filled in.
-/

namespace AchCourier.Ingest

/-- A file that has come in. -/
structure IncomingFile where
  /-- The name of the file. -/
  name : String
  /-- Where the file lies on the local disk. -/
  path : String
  /-- The host from which the file came. -/
  hostname : String
  /-- The content identity of the file, or the digest of its bytes if it has none. -/
  hash : String
  file : Ach.File
  /-- The faults in spite of which the file was read. -/
  faults : List Ach.Fault
  deriving DecidableEq, Repr

end AchCourier.Ingest
