import AchCourier.Remote.Error
import AchCourier.Ssh.PublicKey
import AchCourier.Text.Blank

/-!
# Host keys

An agent can be told which key its host must have.  Any other key is refused before anything is
sent; without a pinned key every key is accepted.

## Main definitions

* `PinnedKey` — the key that a host must have, as it is written in the settings.
* `PinnedKey.parse` — the pinned key of a line.
* `checkHostKey` — whether a host may have a key.
-/

namespace AchCourier.Ssh

/-- A key in base64, behind the name of its type if there is one. -/
structure PinnedKey where
  keyType : Option String
  keyData : String
  deriving DecidableEq, Repr

namespace PinnedKey

/-- A fault of the settings that concerns a key. -/
def fault (message : String) : Remote.Error :=
  .config .sftp message

/-- The parts of a line that says which key is pinned: a type and a key, or a key alone.  What
follows them is a comment. -/
def ofWords : List (List Char) → Option PinnedKey
  | [] => none
  | [data] => some ⟨none, String.ofList data⟩
  | kind :: data :: _ => some ⟨some (String.ofList kind), String.ofList data⟩

/-- The key that is pinned. -/
def key? (p : PinnedKey) : Option PublicKey :=
  PublicKey.ofBase64? p.keyData.toList

/-- The pinned key of a line. -/
def parse (line : String) : Except Remote.Error PinnedKey :=
  match ofWords (Text.words line.toList) with
  | none => .error (fault "empty host public key")
  | some p =>
      match p.key? with
      | none => .error (fault "unable to parse host public key")
      | some _ => .ok p

/-- A key is the pinned one if its bytes are written in the same way. -/
def accepts (p : PinnedKey) (key : PublicKey) : Bool :=
  String.ofList (Base64.encode key.blob) = p.keyData

end PinnedKey

/-- A host has another key than the pinned one. -/
structure HostKeyMismatch where
  hostname : String
  /-- The fingerprint of the pinned key. -/
  expected : String
  /-- The fingerprint of the host's key. -/
  actual : String
  deriving DecidableEq, Repr

/-- The wording of a mismatch. -/
def HostKeyMismatch.message (m : HostKeyMismatch) : String :=
  "host key mismatch for " ++ m.hostname ++ ": expected " ++ m.expected ++ ", got " ++ m.actual

/-- Checks the key of a host. -/
def checkHostKey (hostname : String) (pinned : Option PinnedKey) (key : PublicKey) :
    Except HostKeyMismatch Unit :=
  match pinned with
  | none => .ok ()
  | some p =>
      if p.accepts key then .ok ()
      else
        -- a pinned key that is no key is shown as it is written
        let expected := match p.key? with
          | some k => k.fingerprint
          | none => p.keyData
        .error ⟨hostname, expected, key.fingerprint⟩

end AchCourier.Ssh
