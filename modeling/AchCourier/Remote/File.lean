import AchCourier.Text.Quoted
import AchCourier.Text.Utf8

/-!
# Files on their way

A file that was read from a host, or that is to be written to one.  Its content may break off when
it is read, because it comes from somewhere else.

## Main definitions

* `File` — a name and a content that is there.
* `Payload` — a name and a content that is still to be read.
* `Payload.read` — the whole content, or why it broke off.
-/

namespace AchCourier.Remote

/-- A file that was read from a host. -/
structure File where
  name : String
  content : Bytes
  deriving DecidableEq, Repr

/-- A file whose content is still to be read. -/
structure Payload where
  name : String
  /-- What can be read. -/
  content : Bytes
  /-- Why reading breaks off after that, if it does. -/
  broken : Option String := none
  deriving DecidableEq, Repr

/-- The text of a payload in logs. -/
def Payload.summary (p : Payload) : String :=
  "File \x7b filename: " ++ Text.quoted p.name ++ ", .. \x7d"

/-- The whole content. -/
def Payload.read (p : Payload) : Except String Bytes :=
  match p.broken with
  | some message => .error message
  | none => .ok p.content

end AchCourier.Remote
