import AchCourier.Config.Error
import AchCourier.Text.Blank

/-!
# Settings

The settings of all agents and of the ingestion, and what they say when they are complete: an agent
has an id and speaks exactly one protocol, and it proves who it is in exactly one way.

## Main definitions

* `Settings` — everything that a settings file holds.
* `Agent` — one bank, reached over one protocol.
* `Agent.validate` — the first fault of an agent, if it has one.
* `Agent.allowedRanges` — the entries of its allow-list.
-/

namespace AchCourier.Config

/-- How a host is reached over FTP. -/
structure Ftp where
  /-- The host, with a port if it is not the usual one. -/
  hostname : String
  username : String
  password : String := ""
  /-- The certificates that the host is checked against; without them nothing is encrypted. -/
  caFile : Option String := none
  dialTimeoutSecs : UInt64 := 10
  /-- Data connections are opened in the older of the two passive modes. -/
  disabledEpsv : Bool := false
  deriving DecidableEq, Repr

/-- How a host is reached over SFTP. -/
structure Sftp where
  /-- The host, with a port if it is not the usual one. -/
  hostname : String
  username : String
  password : String := ""
  /-- The key that proves who the agent is, in place of a password. -/
  clientPrivateKey : String := ""
  /-- The only key that the host may have; any key if it is empty. -/
  hostPublicKey : String := ""
  dialTimeoutSecs : UInt64 := 10
  /-- The most bytes in one read or write; zero stands for the default. -/
  maxPacketSize : UInt64 := 20480
  /-- The outbound directory is never made. -/
  skipDirectoryCreation : Bool := false
  deriving DecidableEq, Repr

/-- The directories of an agent on its host. -/
structure Paths where
  inbound : String := ""
  outbound : String := ""
  reconciliation : String := ""
  returns : String := ""
  deriving DecidableEq, Repr

/-- One bank that files are exchanged with. -/
structure Agent where
  id : String
  ftp : Option Ftp := none
  sftp : Option Sftp := none
  paths : Paths := {}
  /-- Addresses and ranges in which the host must lie, between commas. -/
  allowedIps : String := ""
  deriving DecidableEq, Repr

/-- Where files are staged, and what happens to them on the host. -/
structure Ingestion where
  stagingDir : Option String := none
  /-- Files are deleted on the host once they are staged. -/
  cleanupRemote : Bool := false
  deriving DecidableEq, Repr

/-- The version of settings files that is understood. -/
def currentVersion : UInt32 := 1

/-- Everything that a settings file holds. -/
structure Settings where
  version : UInt32 := currentVersion
  agents : List Agent := []
  ingestion : Ingestion := {}
  deriving DecidableEq, Repr

/-! ### Derived values -/

/-- The seconds after which dialing is given up; at least one. -/
def Ftp.dialTimeout (s : Ftp) : UInt64 :=
  max s.dialTimeoutSecs 1

/-- The seconds after which dialing is given up; at least one. -/
def Sftp.dialTimeout (s : Sftp) : UInt64 :=
  max s.dialTimeoutSecs 1

/-- The most bytes in one read or write. -/
def Sftp.packetSize (s : Sftp) : UInt64 :=
  if s.maxPacketSize = 0 then 20480 else s.maxPacketSize

/-- The host of whichever protocol is configured. -/
def Agent.hostname (a : Agent) : String :=
  match a.ftp, a.sftp with
  | some ftp, _ => ftp.hostname
  | none, some sftp => sftp.hostname
  | none, none => ""

/-- The entries of the allow-list, without blanks around them. -/
def Agent.allowedRanges (a : Agent) : List String :=
  ((Text.split ',' a.allowedIps).map Text.trimmed).filter (· ≠ "")

/-! ### Validation -/

/-- Checks the settings of an agent that speaks FTP. -/
def Ftp.validate (id : String) (s : Ftp) : Except Invalid Unit :=
  if s.hostname = "" then .error (.settings id "ftp hostname is empty") else .ok ()

/-- Checks the settings of an agent that speaks SFTP. -/
def Sftp.validate (id : String) (s : Sftp) : Except Invalid Unit :=
  if s.hostname = "" then .error (.settings id "sftp hostname is empty")
  else if (s.password = "") = (s.clientPrivateKey = "") then
    .error (.settings id "sftp requires exactly one of password or client_private_key")
  else .ok ()

/-- Checks the settings of an agent. -/
def Agent.validate (a : Agent) : Except Invalid Unit :=
  if Text.trimmed a.id = "" then .error (.missingId a.hostname)
  else match a.ftp, a.sftp with
    | some ftp, none => ftp.validate a.id
    | none, some sftp => sftp.validate a.id
    | _, _ => .error (.ambiguousProtocol a.id)

end AchCourier.Config
