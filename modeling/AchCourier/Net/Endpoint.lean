import AchCourier.Net.Address
import AchCourier.Text.Blank
import AchCourier.Text.Quoted

/-!
# Endpoints

A host name in the settings is a host with or without a port.  An IPv6 address stands in brackets
when a port follows it, and may do so when none does.

## Main definitions

* `Endpoint` — a host and a port.
* `Endpoint.Malformed` — why a host name is none, with its wording.
* `Endpoint.parse` — the endpoint that a host name stands for.
-/

namespace AchCourier.Net

/-- A host, as it is written without brackets, and a port. -/
structure Endpoint where
  host : String
  port : Nat
  deriving DecidableEq, Repr

namespace Endpoint

/-- Why a host name stands for no endpoint. -/
inductive Malformed where
  /-- Nothing is given. -/
  | emptyHostname
  /-- An opening bracket is not closed. -/
  | unclosedBracket (hostname : String)
  /-- The brackets hold no IPv6 address. -/
  | badBracketed (hostname : String)
  /-- Something other than a port follows the brackets. -/
  | afterBracket (hostname : String)
  /-- A port without a host. -/
  | missingHost (hostname : String)
  /-- More than one colon, and no IPv6 address. -/
  | tooManyColons (hostname : String)
  /-- A port that is no number from 1 to 65535. -/
  | badPort (port hostname : String)
  deriving DecidableEq, Repr

/-- The wording of a malformation. -/
def Malformed.message : Malformed → String
  | .emptyHostname => "empty hostname"
  | .unclosedBracket hostname => "missing ']' in " ++ hostname
  | .badBracketed hostname => "invalid IPv6 address in " ++ hostname
  | .afterBracket hostname => "unexpected characters after ']' in " ++ hostname
  | .missingHost hostname => "missing host in " ++ hostname
  | .tooManyColons hostname => "too many colons in " ++ hostname
  | .badPort port hostname => "invalid port " ++ Text.quoted port ++ " in " ++ hostname

/-- The number that a port shows, behind a plus sign if there is one. -/
def portNumber? (cs : List Char) : Option Nat :=
  let digits := match cs with
    | '+' :: rest => rest
    | rest => rest
  if digits.isEmpty ∨ ¬ digits.all Char.isDigit then none
  else
    let n := Nat.ofDigitChars 10 digits 0
    if 1 ≤ n ∧ n < 65536 then some n else none

/-- The port of `hostname` that `cs` shows. -/
def readPort (hostname : String) (cs : List Char) : Except Malformed Nat :=
  match portNumber? cs with
  | some n => .ok n
  | none => .error (.badPort (String.ofList cs) hostname)

/-- The parts of a text before and after the last occurrence of `c`. -/
def splitLast? (c : Char) (cs : List Char) : Option (List Char × List Char) :=
  if cs.contains c then
    let after := (cs.reverse.takeWhile (· != c)).reverse
    some (cs.take (cs.length - after.length - 1), after)
  else none

/-- The endpoint of a host name that starts with a bracket, given what follows it. -/
def parseBracketed (hostname : String) (defaultPort : Nat) (cs : List Char) :
    Except Malformed Endpoint :=
  if !cs.contains ']' then .error (.unclosedBracket hostname)
  else
    let host := String.ofList (cs.takeWhile (· != ']'))
    let tail := (cs.dropWhile (· != ']')).drop 1
    if (Ip.parseV6? host).isNone then .error (.badBracketed hostname)
    else match tail with
      | [] => .ok ⟨host, defaultPort⟩
      | ':' :: port => (readPort hostname port).map (⟨host, ·⟩)
      | _ => .error (.afterBracket hostname)

/-- The endpoint of a host name that is neither bracketed nor an IPv6 address. -/
def parsePlain (hostname : String) (defaultPort : Nat) : Except Malformed Endpoint :=
  match splitLast? ':' hostname.toList with
  | none => .ok ⟨hostname, defaultPort⟩
  | some (host, port) =>
      if host.isEmpty then .error (.missingHost hostname)
      else if host.contains ':' then .error (.tooManyColons hostname)
      else (readPort hostname port).map (⟨String.ofList host, ·⟩)

/-- The endpoint that a host name stands for; without a port of its own it has the default one. -/
def parse (hostname : String) (defaultPort : Nat) : Except Malformed Endpoint :=
  let hostname := Text.trimmed hostname
  match hostname.toList with
  | [] => .error .emptyHostname
  | '[' :: rest => parseBracketed hostname defaultPort rest
  | _ =>
      -- the colons of an address would be taken for that of a port
      if (Ip.parseV6? hostname).isSome then .ok ⟨hostname, defaultPort⟩
      else parsePlain hostname defaultPort

end Endpoint

end AchCourier.Net
