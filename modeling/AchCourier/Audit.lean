import AchCourier.Text.Quoted

/-!
# Audit trail

The trail says which file contents were seen from which host.  A pair of hash and host name is
written once: a second save changes nothing, so that files can be processed again safely.

## Main definitions

* `Audit.Trail` — the records of a storage.
* `Audit.Trail.save` — the trail after a file was seen.
* `Audit.Storage` — a trail on a medium that may fail.
* `Audit.Saver` — records what comes in from one host.
-/

namespace AchCourier.Audit

/-- Whether a file came in or went out. -/
inductive Direction where
  /-- The file came from a host. -/
  | incoming
  /-- The file went to a host. -/
  | outgoing
  deriving DecidableEq, Repr

/-- The name of a direction. -/
def Direction.name : Direction → String
  | .incoming => "incoming"
  | .outgoing => "outgoing"

/-- A content that was seen.  When it was seen is told by its place among the records of a trail. -/
structure Record where
  hash : String
  hostname : String
  direction : Direction
  deriving DecidableEq, Repr

/-- Why a record was not written. -/
inductive Failure where
  /-- The content has no hash. -/
  | missingHash
  /-- The storage failed. -/
  | storage (message : String)
  deriving DecidableEq, Repr

/-- The wording of a failure. -/
def Failure.message : Failure → String
  | .missingHash => "audit: missing file hash"
  | .storage message => "audit: storage error: " ++ message

/-- The records of a storage, in the order in which they were written: the order of their times, as
long as the clock moves on between two of them. -/
structure Trail where
  records : List Record := []
  deriving DecidableEq, Repr

namespace Trail

/-- The record of a pair of hash and host name. -/
def get? (t : Trail) (hash hostname : String) : Option Record :=
  t.records.find? fun r => r.hash == hash && r.hostname == hostname

/-- The number of records. -/
def length (t : Trail) : Nat :=
  t.records.length

/-- The trail holds no record. -/
def isEmpty (t : Trail) : Bool :=
  t.records.isEmpty

/-- The trail after a content was seen.  The first record of a pair stays. -/
def save (t : Trail) (hash hostname : String) (direction : Direction) : Except Failure Trail :=
  if hash = "" then .error .missingHash
  else match t.get? hash hostname with
    | some _ => .ok t
    | none => .ok ⟨t.records ++ [⟨hash, hostname, direction⟩]⟩

/-- The order of records by hash, host name and direction. -/
def before (a b : Record) : Bool :=
  if a.hash ≠ b.hash then a.hash < b.hash
  else if a.hostname ≠ b.hostname then a.hostname < b.hostname
  else a.direction.name ≤ b.direction.name

/-- The records by hash, host name and direction.  Times are left out, so this is not the listing by
time, and by hash among equal times, that a storage gives of itself: that one is `records` when no
two times are equal.  `sorted` holds the same records whatever the clock did. -/
def sorted (t : Trail) : List Record :=
  t.records.mergeSort before

end Trail

/-- A trail on a medium that may fail. -/
structure Storage where
  trail : Trail := {}
  /-- The saves that were tried so far. -/
  saves : Nat := 0
  /-- Whether the medium fails at the save with a given number, counted from zero. -/
  failsAt : Nat → Bool := fun _ => false

/-- The storage after a save, and whether the save succeeded. -/
def Storage.save (s : Storage) (hash hostname : String) (direction : Direction) :
    Storage × Except Failure Unit :=
  let next := { s with saves := s.saves + 1 }
  if s.failsAt s.saves then (next, .error (.storage "disk full"))
  else match s.trail.save hash hostname direction with
    | .ok trail => ({ next with trail }, .ok ())
    | .error e => (next, .error e)

/-- Records what comes in from one host. -/
structure Saver where
  hostname : String
  deriving DecidableEq, Repr

namespace Saver

/-- The storage after a content came in from the host, and whether it was recorded. -/
def save (saver : Saver) (s : Storage) (hash : String) : Storage × Except Failure Unit :=
  s.save hash saver.hostname .incoming

/-- The text of a saver in logs. -/
def summary (saver : Saver) : String :=
  "AuditSaver \x7b hostname: " ++ Text.quoted saver.hostname ++ ", .. \x7d"

end Saver

end AchCourier.Audit
