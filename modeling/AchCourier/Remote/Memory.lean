import AchCourier.Remote.Host
import AchCourier.Table
import AchCourier.Text.Blank

/-!
# A host in memory

A small host that lives in memory, with directories and files and the ways in which a real host
lets an agent down: dialing can be refused, and sessions can be cut.

## Main definitions

* `Memory` — the state of the host.
* `Memory.normalize` — the one spelling of a path under which things are kept.
* `Memory.addDirectory`, `Memory.addFile`, `Memory.refuse`, `Memory.cut` — changes from outside.
* `Memory.host` — the answers to an agent.
-/

namespace AchCourier.Remote

/-- A file with the bits that say who may use it. -/
structure StoredFile where
  content : Bytes
  mode : Nat
  deriving DecidableEq, Repr

/-- The state of a host in memory.  Paths are kept without slashes at their ends. -/
structure Memory where
  directories : List String := []
  files : Table String StoredFile := {}
  /-- The sessions that were opened. -/
  connects : Nat := 0
  /-- The attempts to dial that will be refused. -/
  refusals : Nat := 0
  /-- How often all sessions were cut. -/
  generation : Nat := 0
  /-- The generation in which the present session was opened, if there is one. -/
  session : Option Nat := none
  deriving DecidableEq, Repr

namespace Memory

/-- A text without the dots and slashes in pairs at its start. -/
def dropHere : List Char → List Char
  | '.' :: '/' :: rest => dropHere rest
  | cs => cs

/-- The spelling of a path under which things are kept; empty for the directory that a session
starts in. -/
def normalize (path : String) : String :=
  let body := Text.dropEndWhile (· == '/') ((dropHere path.toList).dropWhile (· == '/'))
  if body = ['.'] then "" else String.ofList body

/-- The directory of a path, and the name in it. -/
def splitParent (path : String) : String × String :=
  let name := (path.toList.reverse.takeWhile (· ≠ '/')).reverse
  let before := path.toList.take (path.length - name.length)
  (String.ofList before.dropLast, String.ofList name)

/-! ### Changes from outside -/

/-- The directories on the way to a path, each below the one before it. -/
def ancestors (path : String) : List String :=
  let step (acc : List String × String) (part : String) : List String × String :=
    let next := join acc.2 part
    (acc.1 ++ [next], next)
  (((Text.split '/' path).filter (· ≠ "")).foldl step ([], "")).1

/-- Makes a directory and those above it. -/
def addDirectory (m : Memory) (path : String) : Memory :=
  let made := ancestors (normalize path)
  { m with directories := made.foldl (fun ds d => ds.insert d) m.directories }

/-- Stores a file and makes the directories above it. -/
def addFile (m : Memory) (path : String) (content : Bytes) : Memory :=
  let path := normalize path
  let m := m.addDirectory (splitParent path).1
  { m with files := m.files.put path ⟨content, 0o644⟩ }

/-- Refuses the next `n` attempts to dial. -/
def refuse (m : Memory) (n : Nat) : Memory :=
  { m with refusals := n }

/-- Cuts all sessions. -/
def cut (m : Memory) : Memory :=
  { m with generation := m.generation + 1 }

/-- The file at a path. -/
def file? (m : Memory) (path : String) : Option StoredFile :=
  m.files.get? (normalize path)

/-- There is a directory at a path. -/
def hasDirectory (m : Memory) (path : String) : Bool :=
  m.directories.contains (normalize path)

/-! ### Answers -/

/-- The directory exists; a session starts in one that always does. -/
def isDirectory (m : Memory) (path : String) : Bool :=
  path = "" || m.directories.contains path

/-- The names inside a directory that belong to the given paths, in the order of the paths. -/
def namesIn (dir : String) (paths : List String) : List String :=
  let inside := paths.filter fun p => (splitParent p).1 = dir
  (inside.mergeSort fun a b => decide (a ≤ b)).map fun p => (splitParent p).2

/-- What is inside a directory: first the directories, then the files. -/
def entries (m : Memory) (dir : String) : List Entry :=
  (namesIn dir (m.directories.filter (· ≠ ""))).map (⟨·, true⟩) ++
    (namesIn dir m.files.keys).map (⟨·, false⟩)

/-- What is at a path. -/
def entry? (m : Memory) (path : String) : Option Entry :=
  let name := (splitParent path).2
  if m.isDirectory path then some ⟨name, true⟩
  else if m.files.contains path then some ⟨name, false⟩
  else none

/-- The session still holds. -/
def isLive (m : Memory) : Bool :=
  m.session = some m.generation

/-- The answer to a request while there is a session. -/
def answerLive (m : Memory) : (r : Request) → Except Error r.Reply × Memory
  | .connect => (.ok (), m)
  | .checkAlive => (.ok (), m)
  | .readDir dir =>
      let dir := normalize dir
      (if m.isDirectory dir then .ok (m.entries dir) else .error (.notFound .memory dir), m)
  | .readFile path =>
      let path := normalize path
      (match m.files.get? path with
        | some f => .ok f.content
        | none => .error (.notFound .memory path), m)
  | .stat path => (.ok (m.entry? (normalize path)), m)
  | .createDir path =>
      let path := normalize path
      if m.isDirectory (splitParent path).1 then
        (.ok (), { m with directories := m.directories.insert path })
      else (.error (.operation .memory "mkdir" path "parent does not exist"), m)
  | .writeFile dir name content =>
      let dir := normalize dir
      let path := join dir name
      if m.isDirectory dir then (.ok (), { m with files := m.files.put path ⟨content, 0o600⟩ })
      else (.error (.operation .memory "create" path "no such directory"), m)
  | .removeFile path =>
      let path := normalize path
      if m.files.contains path then (.ok (), { m with files := m.files.erase path })
      else (.error (.notFound .memory path), m)
  | .close => (.ok (), { m with session := none })

/-- The answer to an attempt to dial. -/
def answerConnect (m : Memory) : Except Error Unit × Memory :=
  match m.refusals with
  | n + 1 => (.error (.connection .memory "connection refused"), { m with refusals := n })
  | 0 => (.ok (), { m with connects := m.connects + 1, session := some m.generation })

/-- The answer to a request. -/
def answer (m : Memory) : (r : Request) → Except Error r.Reply × Memory
  | .connect => m.answerConnect
  | .close => (.ok (), { m with session := none })
  | r => if m.isLive then m.answerLive r else (.error (.connection .memory "connection lost"), m)

/-- A host in memory. -/
def host : Host Memory where
  answer r m := m.answer r

end Memory

end AchCourier.Remote
