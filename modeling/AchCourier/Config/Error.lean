/-!
# Faults of an agent's settings

Settings that contradict themselves are refused before anything is dialed.
-/

namespace AchCourier.Config

/-- Why the settings of an agent are refused. -/
inductive Invalid where
  /-- There is no id; the host name tells which agent it is. -/
  | missingId (hostname : String)
  /-- Not exactly one protocol is configured. -/
  | ambiguousProtocol (id : String)
  /-- A setting of the protocol is missing or contradicts another one. -/
  | settings (id message : String)
  deriving DecidableEq, Repr

/-- The wording of a refusal. -/
def Invalid.message : Invalid → String
  | .missingId hostname => "agent " ++ hostname ++ ": no id configured"
  | .ambiguousProtocol id =>
      "agent " ++ id ++ ": exactly one of ftp or sftp must be configured"
  | .settings id message => "agent " ++ id ++ ": " ++ message

end AchCourier.Config
