import AchCourier.Remote.Host
import AchCourier.Table

/-!
# Planned failures

Around any host, failures can be planned: the uses of a kind of request are counted off against a
plan, and a use for which a failure is planned never reaches the host.

## Main definitions

* `RequestKind`, `Request.kind` — the kinds of requests.
* `Scripted` — a host with plans.
* `Scripted.host` — the answers of a host with plans.
-/

namespace AchCourier.Remote

/-- The kinds of requests. -/
inductive RequestKind where
  /-- Open a session. -/
  | connect
  /-- Say whether the session still holds. -/
  | checkAlive
  /-- List a directory. -/
  | readDir
  /-- Read a file. -/
  | readFile
  /-- Say what is at a path. -/
  | stat
  /-- Make a directory. -/
  | createDir
  /-- Write a file. -/
  | writeFile
  /-- Remove a file. -/
  | removeFile
  /-- Give the session up. -/
  | close
  deriving DecidableEq, Repr

/-- The kind of a request. -/
def Request.kind : Request → RequestKind
  | .connect => .connect
  | .checkAlive => .checkAlive
  | .readDir _ => .readDir
  | .readFile _ => .readFile
  | .stat _ => .stat
  | .createDir _ => .createDir
  | .writeFile .. => .writeFile
  | .removeFile _ => .removeFile
  | .close => .close

/-- The kinds of requests by name. -/
def RequestKind.byName : List (String × RequestKind) := [
  ("connect", .connect), ("check_alive", .checkAlive), ("read_dir", .readDir),
  ("read_file", .readFile), ("stat", .stat), ("create_dir", .createDir),
  ("write_file", .writeFile), ("remove_file", .removeFile), ("close", .close)]

/-- A host with plans.  The plan of a kind of request says of each of its next uses whether it
fails, and how. -/
structure Scripted (σ : Type) where
  inner : σ
  plans : Table RequestKind (List (Option Error)) := {}

namespace Scripted

variable {σ : Type}

/-- The host with another plan for a kind of request. -/
def plan (s : Scripted σ) (kind : RequestKind) (steps : List (Option Error)) : Scripted σ :=
  { s with plans := s.plans.put kind steps }

/-- What is planned for the next use of a kind of request, and the host after that use. -/
def nextPlanned (s : Scripted σ) (kind : RequestKind) : Option Error × Scripted σ :=
  match s.plans.get? kind with
  | some (step :: steps) => (step, s.plan kind steps)
  | _ => (none, s)

/-- The answers of a host with plans. -/
def host (inner : Host σ) : Host (Scripted σ) where
  answer r s :=
    match s.nextPlanned r.kind with
    | (some e, s) => (.error e, s)
    | (none, s) =>
        let (answer, state) := inner.answer r s.inner
        (answer, { s with inner := state })

end Scripted

end AchCourier.Remote
