import AchCourier.Local.Disk
import AchCourier.Remote.Agent
import AchCourier.Total

/-!
# Staging

What waits at a bank is first copied into a directory of its own on the local disk, with a
subdirectory for each category of files.  No name from outside leads out of that directory: the
agent's id is reduced to harmless characters, and a file whose name is not a plain name is skipped.

## Main definitions

* `safeName` — an id as the name of a directory.
* `Category`, `Staged` — the categories of files, and what a run has staged.
* `saveAll` — files are written into a directory.
-/

namespace AchCourier.Ingest

open Local (Disk Fault)

/-- The character can stand in the name of a directory on any disk. -/
def isSafe (c : Char) : Bool :=
  ('a' ≤ c && c ≤ 'z') || ('A' ≤ c && c ≤ 'Z') || ('0' ≤ c && c ≤ '9') ||
    c == '-' || c == '_' || c == '.'

/-- An id as the name of a directory: other characters become underscores, and a name of points
only, which would lead elsewhere, is replaced. -/
def safeName (id : String) : String :=
  let name := id.toList.map fun c => if isSafe c then c else '_'
  if name.all (· == '.') then "agent" else String.ofList name

/-- The categories of files that wait at a bank. -/
inductive Category where
  /-- Files from the bank. -/
  | inbound
  /-- Files that confirm what the bank has done. -/
  | reconciliation
  /-- Entries that come back. -/
  | returns
  deriving DecidableEq, Repr

namespace Category

/-- The categories, in the order in which they are copied. -/
def all : List Category :=
  [.inbound, .reconciliation, .returns]

/-- The name of the local directory of a category. -/
def directoryName : Category → String
  | .inbound => "inbound"
  | .reconciliation => "reconciliation"
  | .returns => "return"

/-- The directory of a category on an agent's host. -/
def remotePath (paths : Config.Paths) : Category → String
  | .inbound => paths.inbound
  | .reconciliation => paths.reconciliation
  | .returns => paths.returns

end Category

/-- What a run has staged. -/
structure Staged where
  /-- The directory of the run. -/
  root : String
  /-- The host from which the files came. -/
  hostname : String
  inbound : List String := []
  reconciliation : List String := []
  returns : List String := []
  deriving DecidableEq, Repr

namespace Staged

/-- The names of the files of a category. -/
def names (s : Staged) : Category → List String
  | .inbound => s.inbound
  | .reconciliation => s.reconciliation
  | .returns => s.returns

/-- The local directory of a category. -/
def directory (s : Staged) (c : Category) : String :=
  Local.child s.root c.directoryName

/-- The number of files. -/
def length (s : Staged) : Nat :=
  total (Category.all.map fun c => (s.names c).length)

/-- Nothing was waiting. -/
def isEmpty (s : Staged) : Bool :=
  s.length = 0

/-- What is staged, with the names of one category. -/
def withNames (s : Staged) (names : List String) : Category → Staged
  | .inbound => { s with inbound := names }
  | .reconciliation => { s with reconciliation := names }
  | .returns => { s with returns := names }

end Staged

/-! ### Writing -/

/-- A failure of the disk at a path. -/
structure DiskError where
  path : String
  fault : Fault
  deriving DecidableEq, Repr

/-- A plain name: one that is its own last component. -/
def isPlainName (name : String) : Bool :=
  name ≠ "" && Remote.baseName name = name

/-- Writes the files with plain names into a directory; the names that were written. -/
def writeEach (disk : Disk) (dir : String) :
    List Remote.File → Disk × Except DiskError (List String)
  | [] => (disk, .ok [])
  | file :: files =>
      -- a name that could lead elsewhere is passed over
      if isPlainName file.name then
        let path := Local.child dir file.name
        match disk.write path file.content with
        | (disk, .error fault) => (disk, .error ⟨path, fault⟩)
        | (disk, .ok ()) =>
            let (disk, written) := writeEach disk dir files
            (disk, written.map (file.name :: ·))
      else writeEach disk dir files

/-- Makes a directory and writes the files with plain names into it. -/
def saveAll (disk : Disk) (dir : String) (files : List Remote.File) :
    Disk × Except DiskError (List String) :=
  match disk.makeDirectories dir with
  | (disk, .error fault) => (disk, .error ⟨dir, fault⟩)
  | (disk, .ok ()) => writeEach disk dir files

/-- The directory of a run is removed.  It does no harm if there is none. -/
def removeStaging (disk : Disk) (root : String) : Disk × Except Fault Unit :=
  match disk.removeTree root with
  | (disk, .error .notFound) => (disk, .ok ())
  | result => result

end AchCourier.Ingest
