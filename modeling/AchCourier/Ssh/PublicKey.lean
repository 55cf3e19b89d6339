import AchCourier.Digest.Sha256
import AchCourier.Ssh.Wire
import AchCourier.Text.Base64
import AchCourier.Text.Blank

/-!
# Public keys

A public key is the name of its algorithm and the fields that the algorithm prescribes, each of
them one block on the wire.

## Main definitions

* `Algorithm` — the kinds of keys, with their names and fields.
* `PublicKey` — a key.
* `PublicKey.read` — the key at the front of bytes.
* `PublicKey.blob` — the bytes of a key.
* `PublicKey.fingerprint` — the text by which people compare keys.
-/

namespace AchCourier.Ssh

/-- The curves of ECDSA keys. -/
inductive Curve where
  /-- The curve of 256 bits. -/
  | p256
  /-- The curve of 384 bits. -/
  | p384
  /-- The curve of 521 bits. -/
  | p521
  deriving DecidableEq, Repr

/-- The name of a curve. -/
def Curve.name : Curve → String
  | .p256 => "nistp256"
  | .p384 => "nistp384"
  | .p521 => "nistp521"

/-- The bytes in a coordinate. -/
def Curve.size : Curve → Nat
  | .p256 => 32
  | .p384 => 48
  | .p521 => 66

/-- The kinds of keys. -/
inductive Algorithm where
  /-- RSA. -/
  | rsa
  /-- DSA. -/
  | dsa
  /-- ECDSA on a curve. -/
  | ecdsa (curve : Curve)
  /-- Ed25519. -/
  | ed25519
  /-- ECDSA with a key that stays in a device. -/
  | deviceEcdsa
  /-- Ed25519 with a key that stays in a device. -/
  | deviceEd25519
  /-- An algorithm that some domain has named. -/
  | named (name : String)
  deriving DecidableEq, Repr

/-- The name of an algorithm. -/
def Algorithm.name : Algorithm → String
  | .rsa => "ssh-rsa"
  | .dsa => "ssh-dss"
  | .ecdsa c => "ecdsa-sha2-" ++ c.name
  | .ed25519 => "ssh-ed25519"
  | .deviceEcdsa => "sk-ecdsa-sha2-nistp256@openssh.com"
  | .deviceEd25519 => "sk-ssh-ed25519@openssh.com"
  | .named name => name

/-- The algorithms that have names of their own, and the names of RSA signatures, which stand for
the same keys. -/
def Algorithm.known : List (String × Algorithm) :=
  [.rsa, .dsa, .ecdsa .p256, .ecdsa .p384, .ecdsa .p521, .ed25519, .deviceEcdsa,
    .deviceEd25519].map (fun a => (a.name, a)) ++
  [("rsa-sha2-256", .rsa), ("rsa-sha2-512", .rsa)]

/-- The name is one that a domain has given: a name, an at sign and the domain. -/
def isDomainName (name : String) : Bool :=
  name.toList.all (·.toNat < 128) &&
    match Text.split '@' name with
    | [label, domain] => label ≠ "" && domain ≠ ""
    | _ => false

/-- The algorithm of a name. -/
def Algorithm.ofName? (name : String) : Option Algorithm :=
  match Algorithm.known.lookup name with
  | some a => some a
  | none => if isDomainName name then some (.named name) else none

/-- What a field of a key holds. -/
inductive Field where
  /-- A number. -/
  | number
  /-- A number of exactly so many bytes. -/
  | exactly (size : Nat)
  /-- The name of a curve. -/
  | curveName (curve : Curve)
  /-- A point of a curve, with both coordinates or with one and a sign. -/
  | point (curve : Curve)
  /-- A point of a curve in any of the five notations that points have, which add to the two of
  `point` one coordinate without a sign and the point without coordinates. -/
  | anyPoint (curve : Curve)
  /-- A number below the order of a curve. -/
  | scalar (curve : Curve)
  /-- A text. -/
  | text
  /-- Anything. -/
  | anything
  /-- A single byte, which stands without a length. -/
  | flag
  deriving DecidableEq, Repr

/-- The bytes are a point with both coordinates or with one and a sign. -/
def isPoint (c : Curve) : Bytes → Bool
  | 2 :: rest | 3 :: rest => rest.length = c.size
  | 4 :: rest => rest.length = 2 * c.size
  | _ => false

/-- The block can stand in the field. -/
def Field.accepts : Field → Bytes → Bool
  | .number, bs => isNumber bs
  | .exactly size, bs => bs.length = size
  | .curveName c, bs => bs = Utf8.ofString c.name
  | .point c, bs => isPoint c bs
  | .anyPoint c, bs =>
      isPoint c bs || bs = [0] || (bs.head? = some 5 && bs.length = c.size + 1)
  | .scalar c, bs =>
      bs.length = c.size || (bs.length = c.size + 1 && bs.head? = some 0) ||
        (c = .p521 && 64 ≤ bs.length && bs.length ≤ c.size)
  | .text, bs => (Utf8.decode? bs).isSome
  | .anything, _ => true
  | .flag, bs => bs.length = 1

/-- The content of a field at the front of bytes, and what follows. -/
def Field.read (f : Field) (bs : Bytes) : Option (Bytes × Bytes) :=
  let found := match f with
    | .flag => readBytes 1 bs
    | _ => readBlock bs
  found.filter fun r => f.accepts r.1

/-- The fields of a public key. -/
def Algorithm.fields : Algorithm → List Field
  | .rsa => [.number, .number]
  | .dsa => [.number, .number, .number, .number]
  | .ecdsa c => [.curveName c, .point c]
  | .ed25519 => [.exactly 32]
  | .deviceEcdsa => [.curveName .p256, .anyPoint .p256, .text]
  | .deviceEd25519 => [.exactly 32, .text]
  | .named _ => [.anything]

/-- The contents of the given fields at the front of bytes, and what follows. -/
def readFields : List Field → Bytes → Option (List Bytes × Bytes)
  | [], bs => some ([], bs)
  | f :: fs, bs => do
      let (block, rest) ← f.read bs
      let (blocks, rest) ← readFields fs rest
      some (block :: blocks, rest)

/-- The bytes in the longest name of an algorithm that a key may have. -/
def longestName : Nat := 48

/-- The algorithm whose name is at the front of bytes, and what follows. -/
def readAlgorithm (bs : Bytes) : Option (Algorithm × Bytes) := do
  let (block, rest) ← (readBlock bs).filter fun r => r.1.length ≤ longestName
  let a ← Algorithm.ofName? (← Utf8.decode? block)
  some (a, rest)

/-- A public key: the blocks stand for the fields of its algorithm. -/
structure PublicKey where
  algorithm : Algorithm
  blocks : List Bytes
  deriving DecidableEq, Repr

namespace PublicKey

/-- The key at the front of bytes, and what follows. -/
def read (bs : Bytes) : Option (PublicKey × Bytes) := do
  let (algorithm, rest) ← readAlgorithm bs
  let (blocks, rest) ← readFields algorithm.fields rest
  some (⟨algorithm, blocks⟩, rest)

/-- The bytes of a key. -/
def blob (k : PublicKey) : Bytes :=
  writeBlock (Utf8.ofString k.algorithm.name) ++ k.blocks.flatMap writeBlock

/-- The key that a text in base64 spells. -/
def ofBase64? (text : List Char) : Option PublicKey := do
  let bs ← Base64.decodeJoined? text
  let (key, _) ← read bs
  some key

/-- The digest of a key, as people compare it. -/
def fingerprint (k : PublicKey) : String :=
  "SHA256:" ++ String.ofList ((Base64.encode (Digest.sha256 k.blob)).filter (· ≠ '='))

end PublicKey

end AchCourier.Ssh
