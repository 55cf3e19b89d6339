import AchCourier.Config.Codec
import AchCourier.Json.Reader
import AchCourier.Json.Writer
import AchCourier.Local.Disk

/-!
# Settings on disk

Settings are saved so that a reader never sees half of them: they are written to a temporary file
beside the target, which then takes the target's place in one step.  A save that fails or stops
before that step leaves the target as it was.

## Main definitions

* `load` — the settings in a file.
* `temporaryPath`, `directoryOf` — the file that a save writes first, and where it lies.
* `Step`, `steps` — what a save does, one step after the other.
* `Interruption` — where a save fails or is stopped on its way.
* `save` — the disk after a save, and whether it succeeded.
-/

namespace AchCourier.Config

open Local (Disk Fault names joined)

/-- Why settings are not read or written. -/
inductive StoreError where
  /-- The disk failed. -/
  | io (fault : Fault)
  /-- The file holds no settings. -/
  | malformed
  /-- The file is of a later version. -/
  | versionTooNew (found : UInt32)
  /-- The settings of an agent are refused. -/
  | invalid (cause : Invalid)
  deriving DecidableEq, Repr

/-- The wording of a failure. -/
def StoreError.message : StoreError → String
  | .io fault => "IO error: " ++ fault.message
  | .malformed => "JSON error"
  | .versionTooNew found =>
      "Config version " ++ found.toNat.repr ++ " is newer than supported " ++
        currentVersion.toNat.repr
  | .invalid cause => cause.message

/-! ### Loading -/

/-- Checks the agents one after the other; the first fault counts. -/
def validateAll : List Agent → Except Invalid Unit
  | [] => .ok ()
  | a :: as =>
      match a.validate with
      | .error e => .error e
      | .ok () => validateAll as

/-- Checks that settings can be used. -/
def Settings.validate (s : Settings) : Except StoreError Unit :=
  if currentVersion < s.version then .error (.versionTooNew s.version)
  else (validateAll s.agents).mapError .invalid

/-- The settings that a text holds. -/
def ofText (text : String) : Except StoreError Settings :=
  match (Json.parse text).bind Settings.ofJson? with
  | none => .error .malformed
  | some s =>
      match s.validate with
      | .error e => .error e
      | .ok () => .ok s

/-- The settings in the file at a path. -/
def load (d : Disk) (path : String) : Except StoreError Settings :=
  match d.readText path with
  | .error e => .error (.io e)
  | .ok text => ofText text

/-! ### Saving -/

/-- The text of settings. -/
def Settings.text (s : Settings) : List Char :=
  s.toJson.pretty

/-- A file name without the extension behind its last point.  A point at its start begins none. -/
def stem (name : List Char) : List Char :=
  match name.reverse.dropWhile (· ≠ '.') with
  | [] => name
  | [_] => name
  | _ :: rest => rest.reverse

/-- The name of the temporary file beside a file. -/
def temporaryName (name : List Char) : List Char :=
  stem name ++ ".json.tmp".toList

/-- Names without those at their end that lead nowhere. -/
def trimNames (ns : List String) : List String :=
  Text.dropEndWhile (fun n => n = "" ∨ n = ".") ns

/-- The file beside `path` that a save writes first.  There is none beside a path that ends in no
name. -/
def temporaryPath (path : String) : String :=
  let ns := trimNames (names path)
  match ns.getLast? with
  | none => path
  | some name =>
      if name = ".." then path
      else joined (ns.dropLast ++ [String.ofList (temporaryName name.toList)])

/-- The directory in which the file at `path` lies. -/
def directoryOf (path : String) : String :=
  joined (trimNames (trimNames (names path)).dropLast)

/-- A step of a save. -/
inductive Step where
  /-- The directory of the target is made. -/
  | makeDirectory
  /-- The text is made. -/
  | serialize
  /-- The temporary file is created, empty. -/
  | create
  /-- The text is written to the temporary file. -/
  | write
  /-- The temporary file reaches the medium. -/
  | sync
  /-- The temporary file takes the place of the target. -/
  | rename
  deriving DecidableEq, Repr

/-- The steps of a save, in order. -/
def steps : List Step :=
  [.makeDirectory, .serialize, .create, .write, .sync, .rename]

/-- What a step does to the disk when `content` is saved at `path`. -/
def Step.run (path : String) (content : Bytes) (d : Disk) : Step → Disk × Except Fault Unit
  | .makeDirectory => d.makeDirectories (directoryOf path)
  | .serialize => (d, .ok ())
  | .create => d.write (temporaryPath path) []
  | .write => d.write (temporaryPath path) content
  | .sync => (d, .ok ())
  | .rename => d.rename (temporaryPath path) path

/-- What a step leaves behind that is interrupted on its way.  `progress` tells how far it has come:
so many names of the directory are made, and so many bytes of the content are written or have
reached the medium.  Any other step has not begun as long as there is none, and is done otherwise. -/
def Step.interrupt (path : String) (content : Bytes) (progress : Nat) (d : Disk) : Step → Disk
  | .makeDirectory => (d.makeDirectories (joined ((names (directoryOf path)).take progress))).1
  | .write | .sync => (d.write (temporaryPath path) (content.take progress)).1
  | step => if progress = 0 then d else (step.run path content d).1

/-- A save fails on the way, or is stopped. -/
structure Interruption where
  /-- The step that is interrupted. -/
  step : Step
  /-- How far this step has come. -/
  progress : Nat := 0
  /-- What is told of it, if anything can still be told. -/
  failure : StoreError
  deriving DecidableEq, Repr

/-- Runs the steps one after the other until one fails, by itself or by an interruption. -/
def runSteps (path : String) (content : Bytes) (interruption : Option Interruption) (d : Disk) :
    List Step → Disk × Except StoreError Unit
  | [] => (d, .ok ())
  | step :: rest =>
      -- an interrupted step ends the run, whatever its own outcome would have been
      match interruption.filter (·.step = step) with
      | some i => (step.interrupt path content i.progress d, .error i.failure)
      | none =>
          match step.run path content d with
          | (d, .error e) => (d, .error (.io e))
          | (d, .ok ()) => runSteps path content interruption d rest

/-- Saves settings at a path. -/
def save (s : Settings) (path : String) (d : Disk) (interruption : Option Interruption := none) :
    Disk × Except StoreError Unit :=
  runSteps path (Utf8.encode s.text) interruption d steps

end AchCourier.Config
