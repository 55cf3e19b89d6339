import AchCourier.Table
import AchCourier.Text.Blank
import AchCourier.Text.Utf8

/-!
# The local disk

Staged files and settings lie on a local disk.  A path is a text with slashes; it is followed name
by name, and every name on the way has to lie in a directory.  A step that fails says why and
leaves the rest of the disk as it was.

## Main definitions

* `Disk` — directories and files, each at its place.
* `Fault` — why a step failed, with its wording.
* `names`, `joined` — the names in a path, and the path that names make up.
* `Disk.follow` — the place to which a path leads.
* `Disk.read`, `Disk.list` — what a file and a directory hold.
* `Disk.write`, `Disk.makeDirectories`, `Disk.rename`, `Disk.removeTree` — the changes.
-/

namespace AchCourier.Local

/-- A place on the disk: the names that lead there from the root. -/
abbrev Place := List String

/-- What lies at a place. -/
inductive Node where
  /-- A directory. -/
  | directory
  /-- A file with its content. -/
  | file (content : Bytes)
  deriving DecidableEq, Repr

/-- Why a step on the disk failed. -/
inductive Fault where
  /-- There is nothing at the path. -/
  | notFound
  /-- A file stands where a directory is needed. -/
  | notDirectory
  /-- A directory stands where a file is needed. -/
  | isDirectory
  /-- The place is taken. -/
  | taken
  /-- A name is longer than the disk can hold. -/
  | nameTooLong
  /-- A name holds the character zero. -/
  | zeroInName
  /-- A content is no text. -/
  | notText
  /-- The place is in use. -/
  | busy
  /-- Anything else that the medium or the system reports, in its own words. -/
  | other (message : String)
  deriving DecidableEq, Repr

/-- The wording of a fault. -/
def Fault.message : Fault → String
  | .notFound => "No such file or directory (os error 2)"
  | .notDirectory => "Not a directory (os error 20)"
  | .isDirectory => "Is a directory (os error 21)"
  | .taken => "File exists (os error 17)"
  | .nameTooLong => "File name too long (os error 36)"
  | .zeroInName => "file name contained an unexpected NUL byte"
  | .notText => "stream did not contain valid UTF-8"
  | .busy => "Device or resource busy (os error 16)"
  | .other message => message

/-! ### Paths -/

/-- The names in a path, with an empty name between two slashes and at a slash at either end. -/
def names (path : String) : List String :=
  Text.split '/' path

/-- The path that the names make up, with a slash between two of them. -/
def joined (ns : List String) : String :=
  String.ofList (['/'].intercalate (ns.map String.toList))

/-- The path of `name` inside the directory `dir`. -/
def child (dir name : String) : String :=
  if dir = "" ∨ dir.toList.getLast? = some '/' then dir ++ name else dir ++ "/" ++ name

/-- The name of the file at a path: its last name, unless that leads back. -/
def fileName (path : String) : String :=
  match (names path).filter fun n => n ≠ "" ∧ n ≠ "." with
  | [] => ""
  | n :: ns => if (n :: ns).getLast? = some ".." then "" else ((n :: ns).getLast?).getD ""

/-! ### The disk -/

/-- The directories and files below the root. -/
structure Disk where
  nodes : Table Place Node := {}
  deriving DecidableEq, Repr

namespace Disk

/-- What lies at a place.  The root is a directory. -/
def node? (d : Disk) (place : Place) : Option Node :=
  if place = [] then some .directory else d.nodes.get? place

/-- The disk without what lies at a place. -/
def clear (d : Disk) (place : Place) : Disk :=
  ⟨d.nodes.erase place⟩

/-- The disk with `node` at a place. -/
def put (d : Disk) (place : Place) (node : Node) : Disk :=
  ⟨d.nodes.put place node⟩

/-- The most bytes in a name. -/
def longestName : Nat := 255

/-- Follows `names` from `place`.  Every step starts in a directory; what lies at the end is not
looked at. -/
def followFrom (d : Disk) (place : Place) : List String → Except Fault Place
  | [] => .ok place
  | name :: rest =>
      match d.node? place with
      | none => .error .notFound
      | some (.file _) => .error .notDirectory
      | some .directory =>
          if name = "" ∨ name = "." then d.followFrom place rest
          else if name = ".." then d.followFrom place.dropLast rest
          else if longestName < name.utf8ByteSize then .error .nameTooLong
          else d.followFrom (place ++ [name]) rest

/-- The place to which a path leads. -/
def follow (d : Disk) (path : String) : Except Fault Place :=
  if path.toList.contains '\x00' then .error .zeroInName
  else if path = "" then .error .notFound
  else d.followFrom [] (names path)

/-! ### Reading -/

/-- The content of the file at a path. -/
def read (d : Disk) (path : String) : Except Fault Bytes :=
  match d.follow path with
  | .error e => .error e
  | .ok place =>
      match d.node? place with
      | none => .error .notFound
      | some .directory => .error .isDirectory
      | some (.file content) => .ok content

/-- The text of the file at a path. -/
def readText (d : Disk) (path : String) : Except Fault String :=
  match d.read path with
  | .error e => .error e
  | .ok content =>
      match Utf8.decode? content with
      | none => .error .notText
      | some text => .ok text

/-- The names directly inside a place, each with what it stands for. -/
def inside (d : Disk) (place : Place) : List (String × Node) :=
  d.nodes.entries.filterMap fun (p, node) =>
    match p.getLast? with
    | some name => if p.dropLast = place then some (name, node) else none
    | none => none

/-- What the directory at a path holds, in no order that means anything. -/
def list (d : Disk) (path : String) : Except Fault (List (String × Node)) :=
  match d.follow path with
  | .error e => .error e
  | .ok place =>
      match d.node? place with
      | none => .error .notFound
      | some (.file _) => .error .notDirectory
      | some .directory => .ok (d.inside place)

/-! ### Changes -/

/-- Writes the file at a path, over an older one if there is one. -/
def write (d : Disk) (path : String) (content : Bytes) : Disk × Except Fault Unit :=
  match d.follow path with
  | .error e => (d, .error e)
  | .ok place =>
      match d.node? place with
      | some .directory => (d, .error .isDirectory)
      | _ => (d.put place (.file content), .ok ())

/-- Makes the directories that are missing on the way from `place` along `names`. -/
def makeFrom (d : Disk) (place : Place) : List String → Disk × Except Fault Unit
  | [] => (d, .ok ())
  | name :: rest =>
      if name = "" ∨ name = "." then d.makeFrom place rest
      else if name = ".." then d.makeFrom place.dropLast rest
      else if longestName < name.utf8ByteSize then (d, .error .nameTooLong)
      else
        let next := place ++ [name]
        match d.node? next with
        | some .directory => d.makeFrom next rest
        -- a file at the end takes the place, and one on the way bars it
        | some (.file _) => (d, .error (if rest.isEmpty then .taken else .notDirectory))
        | none => (d.put next .directory).makeFrom next rest

/-- Makes the directory at a path and those above it, as far as they are missing. -/
def makeDirectories (d : Disk) (path : String) : Disk × Except Fault Unit :=
  if path.toList.contains '\x00' then (d, .error .zeroInName)
  else d.makeFrom [] (names path)

/-- The place that a file takes when it is moved to a path.  It takes no directory's place, and none
that is written with a slash behind it. -/
def landing (d : Disk) (path : String) : Except Fault Place :=
  -- a path that ends in a point or in two leads to a directory that is in use
  let last := ((names path).filter (· ≠ "")).getLast?
  let named := last ≠ none ∧ last ≠ some "." ∧ last ≠ some ".."
  if named ∧ (names path).getLast? = some "" then .error .notDirectory
  else match d.follow path with
    | .error e => .error e
    | .ok place =>
        if d.node? place = some .directory then .error (if named then .isDirectory else .busy)
        else .ok place

/-- Moves the file at one path to another, over an older one if there is one. -/
def rename (d : Disk) (source target : String) : Disk × Except Fault Unit :=
  match d.follow source with
  | .error e => (d, .error e)
  | .ok here =>
      match d.node? here, d.landing target with
      | none, _ => (d, .error .notFound)
      | some .directory, _ => (d, .error .isDirectory)
      | some (.file _), .error e => (d, .error e)
      | some (.file content), .ok there => ((d.clear here).put there (.file content), .ok ())

/-- Removes the file or the directory at a path with everything in it. -/
def removeTree (d : Disk) (path : String) : Disk × Except Fault Unit :=
  match d.follow path with
  | .error e => (d, .error e)
  | .ok place =>
      match d.node? place with
      | none => (d, .error .notFound)
      | some _ => (⟨d.nodes.restrict (!place.isPrefixOf ·)⟩, .ok ())

end Disk

end AchCourier.Local
