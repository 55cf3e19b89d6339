import AchCourier.Ingest.Desk
import AchCourier.Ingest.Staging

/-!
# The courier

The courier brings in everything that waits at a bank: it stages the files, has them handled at the
desk, deletes them at the bank when that is wanted and all went well, and clears the staging
directory in any case.

## Main definitions

* `Courier` — the link to the bank, the local disk and the desk.
* `download` — everything that waits is staged.
* `processStaged` — the staged files are handled.
* `cleanupRemote` — the staged files are deleted at the bank.
* `ingest` — all of it.
-/

namespace AchCourier.Ingest

open Local (Disk)
open Remote (Agent Host Link)

/-- What the courier works with. -/
structure Courier (σ : Type) where
  link : Link σ
  disk : Disk := {}
  desk : Desk := {}
  /-- The number of runs so far. -/
  runs : Nat := 0

/-- Where the courier goes. -/
structure Route (σ : Type) where
  host : Host σ
  lookup : Net.Lookup
  agent : Agent

variable {σ : Type}

/-! ### Staging -/

/-- The directory of a run: the agent's id, the time and the number of the run. -/
def runDirectory (staging id time : String) (run : Nat) : String :=
  Local.child staging (safeName id ++ "-" ++ time ++ "-" ++ run.repr)

/-- Stages the files of one category. -/
def stageCategory (route : Route σ) (c : Category) (staged : Staged) (courier : Courier σ) :
    Courier σ × Except Error Staged :=
  let dir := c.remotePath route.agent.settings.paths
  match (route.agent.readFiles route.host route.lookup dir).run courier.link with
  | (.error e, link) => ({ courier with link }, .error (.transfer e))
  | (.ok files, link) =>
      match saveAll courier.disk (staged.directory c) files with
      | (disk, .error e) => ({ courier with link, disk }, .error (.io e.path e.fault.message))
      | (disk, .ok names) => ({ courier with link, disk }, .ok (staged.withNames names c))

/-- Stages the files of the given categories, until one fails. -/
def stageAll (route : Route σ) (staged : Staged) (courier : Courier σ) :
    List Category → Courier σ × Except Error Staged
  | [] => (courier, .ok staged)
  | c :: cs =>
      match stageCategory route c staged courier with
      | (courier, .error e) => (courier, .error e)
      | (courier, .ok staged) => stageAll route staged courier cs

/-- The courier without the directory of a run. -/
def Courier.dropRun (courier : Courier σ) (root : String) : Courier σ :=
  { courier with disk := (removeStaging courier.disk root).1 }

/-- Stages everything that waits at the bank.  The files stay at the bank; after a failure nothing
stays on the disk. -/
def download (route : Route σ) (staging time : String) (courier : Courier σ) :
    Courier σ × Except Error Staged :=
  let root := runDirectory staging route.agent.settings.id time courier.runs
  -- the number is used up, whatever becomes of the run
  let courier := { courier with runs := courier.runs + 1 }
  match stageAll route ⟨root, route.agent.hostname, [], [], []⟩ courier Category.all with
  | (courier, .ok staged) => (courier, .ok staged)
  | (courier, .error e) => (courier.dropRun root, .error e)

/-! ### Handling -/

/-- Handles the staged files of a category, if there are any. -/
def processCategory (disk : Disk) (chain : List Processor) (staged : Staged) (c : Category)
    (d : Desk) : Desk × Except Error Unit :=
  if (staged.names c).isEmpty then (d, .ok ())
  else processDirectory disk ⟨staged.hostname⟩ chain (staged.directory c) d

/-- Handles the staged files. -/
def processStaged (chain : List Processor) (staged : Staged) (courier : Courier σ) :
    Courier σ × Except Error Unit :=
  let (desk, result) :=
    attemptAll (processCategory courier.disk chain staged) Category.all courier.desk
  ({ courier with desk }, result)

/-! ### Clearing up -/

/-- Deletes a file at the bank. -/
def deleteRemote (route : Route σ) (path : String) (courier : Courier σ) :
    Courier σ × Except Error Unit :=
  let (result, link) := (route.agent.delete route.host route.lookup path).run courier.link
  ({ courier with link }, result.mapError .transfer)

/-- The paths of the staged files at the bank, category by category. -/
def remotePaths (paths : Config.Paths) (staged : Staged) : List String :=
  Category.all.flatMap fun c => (staged.names c).map (Remote.join (c.remotePath paths))

/-- Deletes the staged files at the bank. -/
def cleanupRemote (route : Route σ) (staged : Staged) (courier : Courier σ) :
    Courier σ × Except Error Unit :=
  attemptAll (deleteRemote route) (remotePaths route.agent.settings.paths staged) courier

/-! ### All of it -/

/-- Handles the staged files and deletes them at the bank when that is wanted and all went well. -/
def processAndClean (route : Route σ) (chain : List Processor) (cleanup : Bool) (staged : Staged)
    (courier : Courier σ) : Courier σ × Except Error Unit :=
  match processStaged chain staged courier with
  | (courier, .error e) => (courier, .error e)
  | (courier, .ok ()) =>
      if cleanup then cleanupRemote route staged courier else (courier, .ok ())

/-- Brings in everything that waits at the bank. -/
def ingest (route : Route σ) (chain : List Processor) (staging time : String) (cleanup : Bool)
    (courier : Courier σ) : Courier σ × Except Error Staged :=
  match download route staging time courier with
  | (courier, .error e) => (courier, .error e)
  | (courier, .ok staged) =>
      let (courier, result) := processAndClean route chain cleanup staged courier
      -- the staged files go, whether they were handled or not
      (courier.dropRun staged.root, result.map fun _ => staged)

end AchCourier.Ingest
