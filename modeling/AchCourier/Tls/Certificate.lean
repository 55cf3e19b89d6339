import AchCourier.Ber
import AchCourier.Text.Pem

/-!
# Certificates

A bundle of certificates says whom to trust.  Of a certificate only the form is checked here: what
it says is for the handshake to judge.

## Main definitions

* `isCertificate` — bytes begin with something of the form of an X.509 certificate.
* `bundle?` — the certificates of an armoured text.
-/

namespace AchCourier.Tls

open Ber (Node Tag)

/-! ### Names -/

/-- The number of a character, not that of half a character. -/
def isCharacter (n : Nat) : Bool :=
  n.isValidChar

/-- The bytes are characters of two bytes each. -/
def isPairText : Bytes → Bool
  | [] => true
  | a :: b :: rest => isCharacter (a.toNat * 256 + b.toNat) && isPairText rest
  | _ => false

/-- The bytes are characters of four bytes each. -/
def isWideText : Bytes → Bool
  | [] => true
  | a :: b :: c :: d :: rest =>
      isCharacter (((a.toNat * 256 + b.toNat) * 256 + c.toNat) * 256 + d.toNat) && isWideText rest
  | _ => false

/-- The bytes of a value in a name can be compared as text, if its type is one of text. -/
def isComparable (t : Tag) (bs : Bytes) : Bool :=
  match t with
  | .utf8Text => (Utf8.decode? bs).isSome
  | .pairText => isPairText bs
  | .wideText => isWideText bs
  | _ => true

/-- The numbers of the types that a value in a name can have. -/
def nameTypes : List Nat :=
  [3, 7, 8, 9, 11, 12, 13, 14, 15, 16, 18, 19, 20, 22, 28, 29, 30]

/-- The value of a part of a name. -/
def isNameValue (i : Node) : Bool :=
  i.tag.cls = .universal && nameTypes.contains i.tag.number && i.holds i.tag &&
    (i.tag = .sequence || i.bytes?.any (isComparable i.tag))

/-- A part of a name: an attribute and its value. -/
def isAttribute (i : Node) : Bool :=
  match i.sequence? with
  | some [name, value] => name.is .identifier && isNameValue value
  | _ => false

/-- A name: a sequence of sets of attributes. -/
def isName (i : Node) : Bool :=
  (i.members? .sequence).any fun parts =>
    parts.all fun part => (part.members? .set).any fun attributes => attributes.all isAttribute

/-! ### Other parts of a certificate -/

/-- The name of an algorithm, with or without parameters. -/
def isAlgorithm (i : Node) : Bool :=
  match i.sequence? with
  | some [name] => name.is .identifier
  | some [name, parameters] => name.is .identifier && parameters.isValue
  | _ => false

/-- A point in time, in either of the two notations. -/
def isTime (i : Node) : Bool :=
  i.is .shortTime || i.is .longTime

/-- A time from which and a time to which something holds. -/
def isValidity (i : Node) : Bool :=
  match i.sequence? with
  | some [start, stop] => isTime start && isTime stop
  | _ => false

/-- A public key with the name of its algorithm. -/
def isKeyInfo (i : Node) : Bool :=
  match i.sequence? with
  | some [algorithm, key] => isAlgorithm algorithm && key.is .bitString
  | _ => false

/-- An extension: a name, perhaps a mark that it must be understood, and its value. -/
def isExtension (i : Node) : Bool :=
  match i.sequence? with
  | some [name, value] => name.is .identifier && value.is .byteString
  | some [name, critical, value] =>
      name.is .identifier && critical.is .boolean && value.is .byteString
  | _ => false

/-- The extensions of a certificate. -/
def areExtensions (i : Node) : Bool :=
  i.tag = .part 3 &&
    (i.only?.bind (Node.members? .sequence)).any fun extensions => extensions.all isExtension

/-- The number that tells apart bearers of one name: the issuer's is part 1, the subject's part 2. -/
def isUniqueNumber (number : Nat) (i : Node) : Bool :=
  i.tag = .part number && i.holds .bitString

/-- The nodes without the first one, if it satisfies the test. -/
def dropFirst (p : Node → Bool) : List Node → List Node
  | [] => []
  | i :: rest => if p i then rest else i :: rest

/-- The optional parts at the end of a certificate's statement. -/
def areExtras (items : List Node) : Bool :=
  match dropFirst (isUniqueNumber 2) (dropFirst (isUniqueNumber 1) items) with
  | [] => true
  | [extensions] => areExtensions extensions
  | _ => false

/-- The version of a certificate. -/
def isVersion (i : Node) : Bool :=
  i.tag = .part 0 && i.only?.any (Node.is .integer)

/-- The statement of a certificate, without its version. -/
def isBareStatement : List Node → Bool
  | serial :: algorithm :: issuer :: validity :: subject :: key :: extras =>
      serial.is .integer && isAlgorithm algorithm && isName issuer && isValidity validity &&
        isName subject && isKeyInfo key && areExtras extras
  | _ => false

/-- The statement of a certificate. -/
def isStatement (i : Node) : Bool :=
  i.sequence?.any fun items => isBareStatement (dropFirst isVersion items)

/-! ### Certificates -/

/-- Bytes begin with a certificate: a statement, the algorithm of a signature, and the signature. -/
def isCertificate (bs : Bytes) : Bool :=
  match (Ber.read bs).bind (·.1.sequence?) with
  | some [statement, algorithm, signature] =>
      isStatement statement && isAlgorithm algorithm && signature.is .bitString
  | _ => false

/-- The labels of blocks with a certificate. -/
def certificateLabels : List Bytes :=
  ["CERTIFICATE", "X509 CERTIFICATE"].map Utf8.ofString

/-- The certificates of an armoured text, in order; none if a block is damaged.  Blocks with
something else are skipped.  A certificate has no header, for it is never locked. -/
def bundle? (file : Bytes) : Option (List Bytes) := do
  let certificates := (← Pem.blocks? file).filter (certificateLabels.contains ·.label)
  if certificates.all fun b => !b.hasHeader && isCertificate b.content then
    some (certificates.map (·.content))
  else none

end AchCourier.Tls
