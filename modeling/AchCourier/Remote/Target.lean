import AchCourier.Config.Settings
import AchCourier.Local.Disk
import AchCourier.Net.Endpoint
import AchCourier.Remote.Host
import AchCourier.Ssh.PrivateKey
import AchCourier.Tls.Certificate

/-!
# Targets

Before a host is dialed, everything that the settings say about it is read and checked: where it
is, how the agent proves who it is, and how the host does.  A target is what comes of that.

## Main definitions

* `FtpTarget`, `SftpTarget` — hosts that are ready to be dialed.
* `FtpTarget.ofSettings`, `SftpTarget.ofSettings` — the target of settings, or their first fault.
* `Target`, `Target.ofAgent` — the target of an agent.
-/

namespace AchCourier.Remote

open Local (Disk)

/-! ### FTP -/

/-- A host that speaks FTP. -/
structure FtpTarget where
  settings : Config.Ftp
  endpoint : Net.Endpoint
  /-- The certificates that the host is checked against; without them nothing is encrypted. -/
  trusted : Option (List Bytes)
  deriving DecidableEq, Repr

namespace FtpTarget

/-- A fault of the settings. -/
def fault (message : String) : Error :=
  .config .ftp message

/-- The certificates in a file. -/
def readTrusted (disk : Disk) (path : String) : Except Error (List Bytes) :=
  match disk.read path with
  | .error e => .error (fault ("reading CA file " ++ path ++ ": " ++ e.message))
  | .ok content =>
      match Tls.bundle? content with
      | none => .error (fault ("parsing CA file " ++ path))
      | some [] => .error (fault ("CA file " ++ path ++ " holds no certificates"))
      | some certificates => .ok certificates

/-- The certificates in the file that the settings name, if they name one. -/
def trustedOf (disk : Disk) : Option String → Except Error (Option (List Bytes))
  | none => .ok none
  | some path => (readTrusted disk path).map some

/-- The target of settings. -/
def ofSettings (disk : Disk) (s : Config.Ftp) : Except Error FtpTarget := do
  let endpoint ← (Net.Endpoint.parse s.hostname 21).mapError fun e => fault e.message
  let trusted ← trustedOf disk s.caFile
  return ⟨s, endpoint, trusted⟩

/-- What an agent knows of the host. -/
def connector (t : FtpTarget) : Connector where
  protocol := .ftp
  hostname := t.settings.hostname

end FtpTarget

/-! ### SFTP -/

/-- How an agent proves who it is. -/
inductive Credentials where
  /-- By a password. -/
  | password (password : String)
  /-- By a key, of which this is the public half. -/
  | key (key : Ssh.PublicKey)
  deriving DecidableEq, Repr

/-- A host that speaks SFTP. -/
structure SftpTarget where
  settings : Config.Sftp
  endpoint : Net.Endpoint
  credentials : Credentials
  /-- The key that the host must have. -/
  pinned : Option Ssh.PinnedKey
  deriving DecidableEq, Repr

namespace SftpTarget

/-- A fault of the settings. -/
def fault (message : String) : Error :=
  .config .sftp message

/-- The credentials in the settings: a password or a key, and not both. -/
def credentialsOf (s : Config.Sftp) : Except Error Credentials :=
  if s.password = "" then
    if s.clientPrivateKey = "" then
      .error (fault "one of password or client private key is required")
    else (Ssh.readSigner s.clientPrivateKey).map .key
  else if s.clientPrivateKey = "" then .ok (.password s.password)
  else .error (fault "password and client private key are mutually exclusive")

/-- The key that the settings pin, if they pin one. -/
def pinnedOf (line : String) : Except Error (Option Ssh.PinnedKey) :=
  if Text.trimmed line = "" then .ok none else (Ssh.PinnedKey.parse line).map some

/-- The target of settings. -/
def ofSettings (s : Config.Sftp) : Except Error SftpTarget := do
  let endpoint ← (Net.Endpoint.parse s.hostname 22).mapError fun e => fault e.message
  let credentials ← credentialsOf s
  let pinned ← pinnedOf s.hostPublicKey
  return ⟨s, endpoint, credentials, pinned⟩

/-- What an agent knows of the host. -/
def connector (t : SftpTarget) : Connector where
  protocol := .sftp
  hostname := t.settings.hostname
  attempts := 3
  createsOutbound := !t.settings.skipDirectoryCreation

end SftpTarget

/-! ### Agents -/

/-- A host of either protocol. -/
inductive Target where
  /-- A host that speaks FTP. -/
  | ftp (target : FtpTarget)
  /-- A host that speaks SFTP. -/
  | sftp (target : SftpTarget)
  deriving DecidableEq, Repr

namespace Target

/-- The target of an agent whose settings are complete. -/
def ofAgent (disk : Disk) (a : Config.Agent) : Except Error Target := do
  a.validate.mapError .invalid
  match a.ftp, a.sftp with
  | some s, _ => return .ftp (← FtpTarget.ofSettings disk s)
  | none, some s => return .sftp (← SftpTarget.ofSettings s)
  | none, none => throw (.invalid (.ambiguousProtocol a.id))

/-- What an agent knows of the host. -/
def connector : Target → Connector
  | .ftp t => t.connector
  | .sftp t => t.connector

/-- The failure to dial a host to which there is no way. -/
def noRoute : Target → Error
  | .ftp _ => .connection .ftp "Connection error: Network is unreachable (os error 101)"
  | .sftp t => .connection .sftp ("dial " ++ t.settings.hostname ++
      ": ssh protocol error: Network is unreachable (os error 101)")

end Target

end AchCourier.Remote
