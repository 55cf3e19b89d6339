import AchCourier.Ach.Reader
import AchCourier.Audit
import AchCourier.Remote.Error

/-!
# Failures of the ingestion

A failure concerns one file, one processor or one transfer, and failures that are independent of
each other are collected into one.

## Main definitions

* `Error` — a failure.
* `Error.message` — its wording.
* `Error.count` — the number of single failures in it.
* `Error.collect` — the failures of independent steps as one outcome.
-/

namespace AchCourier.Ingest

/-- A failure of the ingestion. -/
inductive Error where
  /-- A local file or directory could not be read or written. -/
  | io (path message : String)
  /-- A file holds nothing that can be used. -/
  | parse (path : String) (cause : Ach.ReadError)
  /-- A content could not be recorded. -/
  | audit (cause : Audit.Failure)
  /-- A transfer failed. -/
  | transfer (cause : Remote.Error)
  /-- A processor refused a file. -/
  | processor (name message : String)
  /-- Nobody receives events any more. -/
  | sinkClosed
  /-- Several independent failures. -/
  | several (causes : List Error)

namespace Error

mutual

/-- The wording of a failure. -/
def message : Error → String
  | .io path message => path ++ ": " ++ message
  | .parse path cause => path ++ ": " ++ Ach.summary cause.faults
  | .audit cause => cause.message
  | .transfer cause => cause.message
  | .processor name message => "processor " ++ name ++ ": " ++ message
  | .sinkClosed => "event sink closed"
  | .several causes =>
      causes.length.repr ++ " error(s): " ++ String.intercalate "; " (messages causes)

/-- The wordings of several failures. -/
def messages : List Error → List String
  | [] => []
  | e :: es => e.message :: messages es

end

mutual

/-- The number of single failures. -/
def count : Error → Nat
  | .several causes => counts causes
  | _ => 1

/-- The number of single failures in a list. -/
def counts : List Error → Nat
  | [] => 0
  | e :: es => e.count + counts es

end

/-- The outcome of independent steps with the given failures: none, the only one, or all. -/
def collect : List Error → Except Error Unit
  | [] => .ok ()
  | [e] => .error e
  | es => .error (.several es)

end Error

end AchCourier.Ingest
