import AchCourier.Config.Settings
import AchCourier.Text.Quoted

/-!
# Settings in messages

Settings are shown in logs without what must stay secret: of a password no more than its first and
last character, and of a key only whether there is one.

## Main definitions

* `mask` — what is shown of a secret.
* `Ftp.summary`, `Sftp.summary`, `Agent.summary` — the texts of settings.
-/

namespace AchCourier.Config

/-- The first and the last character of a secret, and nothing of one with fewer than three. -/
def mask (secret : String) : String :=
  match secret.toList with
  | first :: second :: third :: rest =>
      String.ofList [first, '*', '*', (second :: third :: rest).getLast (by simp)]
  | _ => "**"

/-- A truth value in words. -/
def yesNo (b : Bool) : String :=
  if b then "true" else "false"

/-- Items between commas. -/
def listing (items : List String) : String :=
  String.intercalate ", " items

/-- The text of FTP settings. -/
def Ftp.summary (s : Ftp) : String :=
  "FTP\x7b" ++ listing [
    "Hostname=" ++ s.hostname,
    "Username=" ++ s.username,
    "Password=" ++ mask s.password,
    "CAFile=" ++ s.caFile.getD "",
    "DialTimeout=" ++ s.dialTimeoutSecs.toNat.repr ++ "s",
    "DisabledEPSV=" ++ yesNo s.disabledEpsv] ++ "\x7d"

/-- The text of SFTP settings. -/
def Sftp.summary (s : Sftp) : String :=
  "SFTP\x7b" ++ listing [
    "Hostname=" ++ s.hostname,
    "Username=" ++ s.username,
    "Password=" ++ mask s.password,
    "ClientPrivateKey:" ++ yesNo (s.clientPrivateKey ≠ ""),
    "HostPublicKey:" ++ yesNo (s.hostPublicKey ≠ ""),
    "DialTimeout=" ++ s.dialTimeoutSecs.toNat.repr ++ "s",
    "MaxPacketSize=" ++ s.packetSize.toNat.repr,
    "SkipDirectoryCreation=" ++ yesNo s.skipDirectoryCreation] ++ "\x7d"

/-- The text of a value that may be missing. -/
def optionalSummary {α : Type} (f : α → String) : Option α → String
  | none => "None"
  | some a => "Some(" ++ f a ++ ")"

/-- The text of the directories of an agent. -/
def Paths.summary (p : Paths) : String :=
  "AgentPaths \x7b " ++ listing [
    "inbound: " ++ Text.quoted p.inbound,
    "outbound: " ++ Text.quoted p.outbound,
    "reconciliation: " ++ Text.quoted p.reconciliation,
    "returns: " ++ Text.quoted p.returns] ++ " \x7d"

/-- The text of an agent. -/
def Agent.summary (a : Agent) : String :=
  "AgentConfig \x7b " ++ listing [
    "id: " ++ Text.quoted a.id,
    "ftp: " ++ optionalSummary Ftp.summary a.ftp,
    "sftp: " ++ optionalSummary Sftp.summary a.sftp,
    "paths: " ++ a.paths.summary,
    "allowed_ips: " ++ Text.quoted a.allowedIps] ++ " \x7d"

end AchCourier.Config
