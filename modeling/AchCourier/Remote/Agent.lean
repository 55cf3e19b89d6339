import AchCourier.Config.Settings
import AchCourier.Health
import AchCourier.Net.AllowList
import AchCourier.Remote.File
import AchCourier.Remote.Host

/-!
# Agents

An agent moves files between one bank and this side.  It dials when it has to, goes on with a
session as long as the host still answers, and drops it after a failure.  Before it dials for the
first time it checks that its host lies in the allowed ranges.

Every operation is an `Action`: it runs on a `Link`, which holds the host, the calls made so far,
the health signals of all hosts and what the agent remembers between operations.

## Main definitions

* `Status`, `Link`, `Action` — the state of an agent, and what runs on it.
* `Agent.acquire` — a session, with the dialing that it takes.
* `Agent.start` — the first session of an agent.
* `Agent.readFiles`, `Agent.upload`, `Agent.delete`, `Agent.ping`, `Agent.close` — the operations.
-/

namespace AchCourier.Remote

/-- Whether an agent has a session. -/
inductive Status where
  /-- There is no session. -/
  | disconnected
  /-- The host is being dialed. -/
  | connecting
  /-- There is a session. -/
  | connected
  /-- Every attempt to dial has failed. -/
  | failed
  deriving DecidableEq, Repr

/-- The name of a status. -/
def Status.name : Status → String
  | .disconnected => "disconnected"
  | .connecting => "connecting"
  | .connected => "connected"
  | .failed => "failed"

/-- What an agent works on. -/
structure Link (σ : Type) where
  host : σ
  /-- The calls made so far. -/
  calls : List Call := []
  health : Health := {}
  status : Status := .disconnected
  /-- The agent holds a session. -/
  session : Bool := false
  /-- The host was found to be in the allowed ranges. -/
  hostAllowed : Bool := false

/-- Something that an agent does, with a failure or a result. -/
abbrev Action (σ α : Type) := ExceptT Error (StateM (Link σ)) α

/-- An agent: its settings and what it knows of its host. -/
structure Agent where
  settings : Config.Agent
  connector : Connector
  deriving DecidableEq, Repr

namespace Agent

variable {σ α : Type}

/-- Makes a request. -/
def ask (host : Host σ) (r : Request) : Action σ r.Reply := fun link =>
  let (answer, state) := host.answer r link.host
  (answer, { link with host := state, calls := link.calls ++ [⟨r, failureIn answer⟩] })

/-- Makes a request whose failure does not matter. -/
def askQuietly (host : Host σ) (r : Request) : Action σ Unit :=
  tryCatch (do let _ ← ask host r) fun _ => pure ()

/-- Changes the status. -/
def setStatus (status : Status) : Action σ Unit :=
  modify fun link => { link with status }

/-- Notes whether an operation succeeded. -/
def record (agent : Agent) (ok : Bool) : Action σ Unit :=
  modify fun link => { link with
    health := link.health.record agent.connector.protocol agent.connector.hostname ok }

/-- Notes one more attempt to dial. -/
def countRetry (agent : Agent) : Action σ Unit :=
  modify fun link => { link with
    health := link.health.retry agent.connector.protocol agent.connector.hostname }

/-! ### Sessions -/

/-- Dials, up to `more` times again after a failure.  A fault of the configuration ends it. -/
def dial (host : Host σ) (agent : Agent) : Nat → Action σ Unit
  | 0 => ask host .connect
  | more + 1 =>
      tryCatch (ask host .connect) fun e =>
        if e.isConfig then throw e
        else do
          agent.countRetry
          dial host agent more

/-- Gives the session up if there is one. -/
def giveUp (host : Host σ) : Action σ Unit := do
  if (← get).session then
    -- the session is gone, whatever the host says to it
    modify fun link => { link with session := false }
    askQuietly host .close

/-- There is a session and it still holds.  One that does not hold is given up. -/
def stillAlive (host : Host σ) : Action σ Bool := do
  if (← get).session then
    tryCatch (do ask host .checkAlive; return true) fun _ => do
      giveUp host
      return false
  else return false

/-- Checks once that the host lies in the allowed ranges. -/
def checkAllowed (lookup : Net.Lookup) (agent : Agent) : Action σ Unit := do
  if (← get).hostAllowed then return ()
  match Net.AllowList.screen lookup agent.settings.allowedRanges agent.connector.hostname with
  | .error refusal => throw (refusal.toError agent.connector.protocol)
  | .ok () => modify fun link => { link with hostAllowed := true }

/-- Dials until there is a session. -/
def establish (host : Host σ) (agent : Agent) : Action σ Unit := do
  setStatus .connecting
  tryCatch (dial host agent (agent.connector.attempts - 1)) fun e => do
    setStatus .failed
    throw e
  -- session and status change together
  modify fun link => { link with session := true, status := .connected }

/-- Makes sure that there is a session. -/
def acquire (host : Host σ) (lookup : Net.Lookup) (agent : Agent) : Action σ Unit := do
  if ← stillAlive host then return ()
  checkAllowed lookup agent
  establish host agent

/-- Gives the session up after a failure.  When dialing failed there is none. -/
def afterFailure (host : Host σ) : Action σ Unit := do
  if (← get).status = .connected then
    giveUp host
    setStatus .disconnected

/-- Runs an operation and notes its outcome; a failure costs the session. -/
def guarded (host : Host σ) (agent : Agent) (operation : Action σ α) : Action σ α :=
  tryCatch (do
      let a ← operation
      agent.record true
      return a)
    fun e => do
      agent.record false
      afterFailure host
      throw e

/-- The first session of an agent. -/
def start (host : Host σ) (lookup : Net.Lookup) (agent : Agent) : Action σ Unit :=
  tryCatch (do
      acquire host lookup agent
      agent.record true)
    fun e => do
      agent.record false
      throw e

/-! ### Operations -/

/-- The host that the settings name. -/
def hostname (agent : Agent) : String :=
  agent.settings.hostname

/-- Reads the files among the entries of a directory, one after the other. -/
def readEach (host : Host σ) (dir : String) : List Entry → Action σ (List File)
  | [] => return []
  | entry :: entries => do
      if entry.isDirectory then readEach host dir entries
      else
        let content ← ask host (.readFile (join dir entry.name))
        return ⟨entry.name, content⟩ :: (← readEach host dir entries)

/-- The files directly inside a directory of the host. -/
def readFiles (host : Host σ) (lookup : Net.Lookup) (agent : Agent) (dir : String) :
    Action σ (List File) :=
  agent.guarded host do
    agent.acquire host lookup
    readEach host dir (← ask host (.readDir dir))

/-- Makes the outbound directory if it is missing and the agent may make it. -/
def prepareOutbound (host : Host σ) (agent : Agent) : Action σ Unit := do
  let dir := agent.settings.paths.outbound
  if agent.connector.createsOutbound ∧ dir ≠ "" then
    match ← ask host (.stat dir) with
    | none => ask host (.createDir dir)
    | some entry =>
        if entry.isDirectory then return ()
        else throw (.operation agent.connector.protocol "mkdir" dir
          "path exists and is not a directory")

/-- Writes a file into the outbound directory, under the last component of its name. -/
def upload (host : Host σ) (lookup : Net.Lookup) (agent : Agent) (payload : Payload) :
    Action σ Unit :=
  let protocol := agent.connector.protocol
  let name := baseName payload.name
  -- what cannot be sent is refused before there is a session
  match payload.read with
  | .error message => throw (.io protocol "read" payload.name message)
  | .ok content =>
      if name = "" then throw (.operation protocol "upload" payload.name "empty filename")
      else agent.guarded host do
        agent.acquire host lookup
        agent.prepareOutbound host
        ask host (.writeFile agent.settings.paths.outbound name content)

/-- Removes a file.  It is no failure if there is none. -/
def delete (host : Host σ) (lookup : Net.Lookup) (agent : Agent) (path : String) :
    Action σ Unit :=
  agent.guarded host do
    agent.acquire host lookup
    if (← ask host (.stat path)).isSome then
      -- someone else may have removed it in the meantime
      tryCatch (ask host (.removeFile path)) fun e =>
        if e.isNotFound then return () else throw e

/-- Shows that the host answers. -/
def ping (host : Host σ) (lookup : Net.Lookup) (agent : Agent) : Action σ Unit :=
  agent.guarded host do
    agent.acquire host lookup
    let _ ← ask host (.readDir ".")

/-- Gives the session up.  This never fails and says nothing about the host. -/
def close (host : Host σ) : Action σ Unit := do
  giveUp host
  setStatus .disconnected

end Agent

end AchCourier.Remote
