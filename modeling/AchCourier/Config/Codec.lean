import AchCourier.Config.Settings
import AchCourier.Json.Decode

/-!
# Settings as JSON

The JSON form has a member for every setting; a protocol that is not configured and a path that is
not given are left out.  What is not given on reading takes its default, apart from ids, host names
and user names, which have none.

## Main definitions

* `toJson`, `ofJson?` in the namespace of each type.
-/

namespace AchCourier.Config

open Json (nat required withDefault fields? string? boolean? natural? list? optional?)

/-- A number of 64 bits. -/
def word64? (v : Json) : Option UInt64 :=
  (natural? 64 v).map UInt64.ofNat

/-- A number of 32 bits. -/
def word32? (v : Json) : Option UInt32 :=
  (natural? 32 v).map UInt32.ofNat

/-- A member that is left out without a value. -/
def member {α : Type} (name : String) (encode : α → Json) : Option α → List (String × Json)
  | none => []
  | some a => [(name, encode a)]

/-- The JSON form of FTP settings. -/
def Ftp.toJson (s : Ftp) : Json :=
  .obj ([("hostname", .str s.hostname), ("username", .str s.username),
      ("password", .str s.password)] ++
    member "ca_file" .str s.caFile ++
    [("dial_timeout_secs", nat s.dialTimeoutSecs.toNat), ("disabled_epsv", .bool s.disabledEpsv)])

/-- The FTP settings that a JSON value encodes. -/
def Ftp.ofJson? (v : Json) : Option Ftp := do
  match ← fields? ["hostname", "username", "password", "ca_file", "dial_timeout_secs",
      "disabled_epsv"] v with
  | [a, b, c, d, e, f] =>
      some {
        hostname := ← required string? a
        username := ← required string? b
        password := ← withDefault "" string? c
        caFile := ← withDefault none (optional? string?) d
        dialTimeoutSecs := ← withDefault 10 word64? e
        disabledEpsv := ← withDefault false boolean? f }
  | _ => none

/-- The JSON form of SFTP settings. -/
def Sftp.toJson (s : Sftp) : Json :=
  .obj [
    ("hostname", .str s.hostname),
    ("username", .str s.username),
    ("password", .str s.password),
    ("client_private_key", .str s.clientPrivateKey),
    ("host_public_key", .str s.hostPublicKey),
    ("dial_timeout_secs", nat s.dialTimeoutSecs.toNat),
    ("max_packet_size", nat s.maxPacketSize.toNat),
    ("skip_directory_creation", .bool s.skipDirectoryCreation)]

/-- The SFTP settings that a JSON value encodes. -/
def Sftp.ofJson? (v : Json) : Option Sftp := do
  match ← fields? ["hostname", "username", "password", "client_private_key", "host_public_key",
      "dial_timeout_secs", "max_packet_size", "skip_directory_creation"] v with
  | [a, b, c, d, e, f, g, h] =>
      some {
        hostname := ← required string? a
        username := ← required string? b
        password := ← withDefault "" string? c
        clientPrivateKey := ← withDefault "" string? d
        hostPublicKey := ← withDefault "" string? e
        dialTimeoutSecs := ← withDefault 10 word64? f
        maxPacketSize := ← withDefault 20480 word64? g
        skipDirectoryCreation := ← withDefault false boolean? h }
  | _ => none

/-- The JSON form of the directories of an agent. -/
def Paths.toJson (p : Paths) : Json :=
  .obj [
    ("inbound", .str p.inbound),
    ("outbound", .str p.outbound),
    ("reconciliation", .str p.reconciliation),
    ("return", .str p.returns)]

/-- The directories that a JSON value encodes. -/
def Paths.ofJson? (v : Json) : Option Paths := do
  match ← fields? ["inbound", "outbound", "reconciliation", "return"] v with
  | [a, b, c, d] =>
      some {
        inbound := ← withDefault "" string? a
        outbound := ← withDefault "" string? b
        reconciliation := ← withDefault "" string? c
        returns := ← withDefault "" string? d }
  | _ => none

/-- The JSON form of an agent. -/
def Agent.toJson (a : Agent) : Json :=
  .obj ([("id", .str a.id)] ++ member "ftp" Ftp.toJson a.ftp ++ member "sftp" Sftp.toJson a.sftp ++
    [("paths", a.paths.toJson), ("allowed_ips", .str a.allowedIps)])

/-- The agent that a JSON value encodes. -/
def Agent.ofJson? (v : Json) : Option Agent := do
  match ← fields? ["id", "ftp", "sftp", "paths", "allowed_ips"] v with
  | [a, b, c, d, e] =>
      some {
        id := ← required string? a
        ftp := ← withDefault none (optional? Ftp.ofJson?) b
        sftp := ← withDefault none (optional? Sftp.ofJson?) c
        paths := ← withDefault {} Paths.ofJson? d
        allowedIps := ← withDefault "" string? e }
  | _ => none

/-- The JSON form of the ingestion's settings. -/
def Ingestion.toJson (s : Ingestion) : Json :=
  .obj (member "staging_dir" .str s.stagingDir ++ [("cleanup_remote", .bool s.cleanupRemote)])

/-- The settings of the ingestion that a JSON value encodes. -/
def Ingestion.ofJson? (v : Json) : Option Ingestion := do
  match ← fields? ["staging_dir", "cleanup_remote"] v with
  | [a, b] =>
      some {
        stagingDir := ← withDefault none (optional? string?) a
        cleanupRemote := ← withDefault false boolean? b }
  | _ => none

/-- The JSON form of all settings. -/
def Settings.toJson (s : Settings) : Json :=
  .obj [
    ("version", nat s.version.toNat),
    ("agents", .arr (s.agents.map Agent.toJson)),
    ("ingestion", s.ingestion.toJson)]

/-- The settings that a JSON value encodes. -/
def Settings.ofJson? (v : Json) : Option Settings := do
  match ← fields? ["version", "agents", "ingestion"] v with
  | [a, b, c] =>
      some {
        version := ← withDefault currentVersion word32? a
        agents := ← withDefault [] (list? Agent.ofJson?) b
        ingestion := ← withDefault {} Ingestion.ofJson? c }
  | _ => none

end AchCourier.Config
