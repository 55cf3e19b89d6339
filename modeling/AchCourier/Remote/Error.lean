import AchCourier.Config.Error

/-!
# Failures of a transfer

Everything that can go wrong between an agent and its remote host.  Only faults of the
configuration are never worth another attempt.
-/

namespace AchCourier.Remote

/-- The protocol that an agent speaks. -/
inductive Protocol where
  /-- FTP, plain or over TLS. -/
  | ftp
  /-- SFTP. -/
  | sftp
  /-- A remote host in memory. -/
  | memory
  deriving DecidableEq, Repr

/-- The name of a protocol in messages. -/
def Protocol.name : Protocol → String
  | .ftp => "ftp"
  | .sftp => "sftp"
  | .memory => "mock"

/-- A failure of a transfer. -/
inductive Error where
  /-- Settings are missing or contradictory, or the host is not allowed. -/
  | config (protocol : Protocol) (message : String)
  /-- The host was not reached, or the connection was lost. -/
  | connection (protocol : Protocol) (message : String)
  /-- The host refused the credentials. -/
  | authentication (protocol : Protocol) (message : String)
  /-- There is nothing at the path. -/
  | notFound (protocol : Protocol) (path : String)
  /-- An operation on a path failed on the host. -/
  | operation (protocol : Protocol) (op path message : String)
  /-- Data could not be read or written on this side. -/
  | io (protocol : Protocol) (op path message : String)
  /-- The settings of the agent are refused. -/
  | invalid (cause : Config.Invalid)
  deriving DecidableEq, Repr

namespace Error

/-- The wording of a failure. -/
def message : Error → String
  | .config p m => p.name ++ ": invalid configuration: " ++ m
  | .connection p m => p.name ++ ": connection failed: " ++ m
  | .authentication p m => p.name ++ ": authentication failed: " ++ m
  | .notFound p path => p.name ++ ": " ++ path ++ " not found"
  | .operation p op path m => p.name ++ ": " ++ op ++ " " ++ path ++ " failed: " ++ m
  | .io p op path m => p.name ++ ": " ++ op ++ " " ++ path ++ ": " ++ m
  | .invalid cause => cause.message

/-- Nothing was found. -/
def isNotFound : Error → Bool
  | .notFound .. => true
  | _ => false

/-- The failure lies in the configuration, so that another attempt would fail as well. -/
def isConfig : Error → Bool
  | .config .. => true
  | .invalid _ => true
  | _ => false

/-- The protocol in which the failure arose, if it arose in one. -/
def protocol? : Error → Option Protocol
  | .config p _ => some p
  | .connection p _ => some p
  | .authentication p _ => some p
  | .notFound p _ => some p
  | .operation p .. => some p
  | .io p .. => some p
  | .invalid _ => none

end Error

end AchCourier.Remote
