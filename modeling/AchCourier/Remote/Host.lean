import AchCourier.Remote.Error
import AchCourier.Remote.Path
import AchCourier.Text.Utf8

/-!
# Hosts

What an agent can ask of a host is a short list of requests, each with its own kind of answer.  A
host is anything that answers them; it holds one session at a time, which it opens on `connect` and
gives up on `close`.

## Main definitions

* `Request`, `Request.Reply` — what is asked, and the kind of its answer.
* `Call` — a request that was made, with what came of it.
* `Host` — something that answers requests.
* `Connector` — what an agent knows of its host before it dials.
* `Host.unreachable` — a host that never answers.
-/

namespace AchCourier.Remote

/-- An entry of a directory. -/
structure Entry where
  name : String
  isDirectory : Bool
  deriving DecidableEq, Repr

/-- What can be asked of a host. -/
inductive Request where
  /-- Open a session. -/
  | connect
  /-- Say whether the session still holds. -/
  | checkAlive
  /-- List a directory. -/
  | readDir (dir : String)
  /-- Read a whole file. -/
  | readFile (path : String)
  /-- Say what is at a path. -/
  | stat (path : String)
  /-- Make a directory. -/
  | createDir (path : String)
  /-- Write a file in a directory, over an older one if there is one. -/
  | writeFile (dir name : String) (content : Bytes)
  /-- Remove a file. -/
  | removeFile (path : String)
  /-- Give the session up. -/
  | close
  deriving DecidableEq, Repr

/-- The kind of answer to a request. -/
@[reducible] def Request.Reply : Request → Type
  | .readDir _ => List Entry
  | .readFile _ => Bytes
  | .stat _ => Option Entry
  | _ => Unit

/-- The text of a request in logs.  Of a content only the length is shown. -/
def Request.text : Request → String
  | .connect => "connect"
  | .checkAlive => "check_alive"
  | .readDir dir => "read_dir " ++ dir
  | .readFile path => "read_file " ++ path
  | .stat path => "stat " ++ path
  | .createDir path => "create_dir " ++ path
  | .writeFile dir name content =>
      "write_file " ++ dir ++ "|" ++ name ++ "|" ++ content.length.repr
  | .removeFile path => "remove_file " ++ path
  | .close => "close"

/-- A request that was made. -/
structure Call where
  request : Request
  /-- The failure with which it was answered, if it was. -/
  failure : Option Error := none
  deriving DecidableEq, Repr

/-- The failure in an answer. -/
def failureIn {α : Type} : Except Error α → Option Error
  | .ok _ => none
  | .error e => some e

/-- Something with states in `σ` that answers requests. -/
structure Host (σ : Type) where
  answer : (r : Request) → σ → Except Error r.Reply × σ

/-- A host that fails every request in the same way. -/
def Host.unreachable (e : Error) : Host Unit where
  answer _ s := (.error e, s)

/-- What an agent knows of its host before it dials. -/
structure Connector where
  protocol : Protocol
  /-- The host, as the settings name it. -/
  hostname : String
  /-- The attempts before dialing is given up; one is always made. -/
  attempts : Nat := 1
  /-- The pause between attempts. -/
  backoffMillis : Nat := 250
  /-- An upload makes the outbound directory if it is missing. -/
  createsOutbound : Bool := true
  deriving DecidableEq, Repr

end AchCourier.Remote
