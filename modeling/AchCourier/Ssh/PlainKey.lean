import AchCourier.Der
import AchCourier.Ssh.Ed25519
import AchCourier.Ssh.EllipticCurve

/-!
# Plain private keys

PKCS #8 is a form of private keys that all algorithms share: it names the algorithm and wraps the
key in a form of the algorithm's own.  Ed25519 keys and ECDSA keys are read in it, and ECDSA keys
also without the wrapping.

## Main definitions

* `ofSeedNode?` — the public half of an Ed25519 key in its own form.
* `ScalarNode`, `ofScalarNode?` — an ECDSA key in its own form, and its public half.
* `ofWrapped?` — the public half of a key in the form that all algorithms share.
* `ofPlain?` — the public half of a key in either form.
-/

namespace AchCourier.Ssh

open Der (Item)

/-- The node that names Ed25519. -/
def ed25519Node : Item := ⟨0x06, [0x2b, 0x65, 0x70]⟩

/-- The node that names the keys on a curve. -/
def curveKeyNode : Item := ⟨0x06, [0x2a, 0x86, 0x48, 0xce, 0x3d, 0x02, 0x01]⟩

/-- The node that names a curve. -/
def Curve.node : Curve → Item
  | .p256 => ⟨0x06, [0x2a, 0x86, 0x48, 0xce, 0x3d, 0x03, 0x01, 0x07]⟩
  | .p384 => ⟨0x06, [0x2b, 0x81, 0x04, 0x00, 0x22]⟩
  | .p521 => ⟨0x06, [0x2b, 0x81, 0x04, 0x00, 0x23]⟩

/-- The curve that a node names. -/
def Curve.ofNode? (i : Item) : Option Curve :=
  [Curve.p256, .p384, .p521].find? (·.node = i)

/-- The node that holds a version. -/
def versionNode (n : UInt8) : Item := ⟨0x02, [n]⟩

/-! ### Ed25519 keys -/

/-- The public half of the Ed25519 key whose seed is wrapped in a node of its own. -/
def ofSeedNode? : Bytes → Option PublicKey
  | 0x04 :: 0x20 :: seed =>
      if seed.length = 32 then some ⟨.ed25519, [Ed25519.publicOfSeed seed]⟩ else none
  | _ => none

/-! ### ECDSA keys -/

/-- The bytes of a point with both coordinates, when one coordinate and a sign stand for it. -/
def compressed (curve : Curve) (point : Bytes) : Bytes :=
  let odd := (point.getLast?.getD 0) % 2
  (2 + odd) :: (point.drop 1).take curve.size

/-- The number that bytes stand for, which may lack zeros in front, but not too many. -/
def scalarOf? (curve : Curve) (bs : Bytes) : Option Nat :=
  if 24 ≤ bs.length ∧ bs.length ≤ curve.size then some (Der.valueOf bs) else none

/-- An ECDSA key in its own form. -/
structure ScalarNode where
  /-- The bytes of the number that the key is. -/
  secret : Bytes
  /-- The node that names the curve. -/
  curve : Option Item
  /-- The bytes of the public half. -/
  point : Option Bytes
  deriving DecidableEq, Repr

/-- The node that names the curve, if its part is in front, and what follows. -/
def takeCurve : List Item → Option (Option Item × List Item)
  | [] => some (none, [])
  | i :: rest =>
      if i.isPart 0 then
        match i.only? with
        | some name =>
            if i.tag = 0xA0 ∧ name.tag = 0x06 then some (some name, rest.dropWhile (Item.isPart 0))
            else none
        | none => none
      else some (none, i :: rest)

/-- The bytes of the public half, if its part is there; there is nothing else. -/
def takePoint : List Item → Option (Option Bytes)
  | [] => some none
  | [i] =>
      match i.only? with
      | some key =>
          if i.tag = 0xA1 ∧ key.tag = 0x03 then (Der.wholeBytes? key.content).map some else none
      | none => none
  | _ => none

/-- The ECDSA key in a node: a version, the number, and parts that may be there. -/
def ScalarNode.read (bs : Bytes) : Option ScalarNode := do
  let (outer, rest) ← Der.read bs
  match ← outer.sequence? with
  | version :: secret :: parts =>
      let (curve, parts) ← takeCurve parts
      let point ← takePoint parts
      if rest.isEmpty ∧ version = versionNode 1 ∧ secret.tag = 0x04 then
        some ⟨secret.content, curve, point⟩
      else none
  | _ => none

/-- The public half of a key on a curve.  If the key names a curve or states its public half, it
must be the right one. -/
def ScalarNode.key? (k : ScalarNode) (curve : Curve) : Option PublicKey := do
  let point ← publicPoint? curve (← scalarOf? curve k.secret)
  if k.curve.all (· = curve.node) ∧ k.point.all ([point, compressed curve point].contains ·) then
    some ⟨.ecdsa curve, [Utf8.ofString curve.name, point]⟩
  else none

/-- The public half of the ECDSA key in a node, which must name its curve. -/
def ofScalarNode? (bs : Bytes) : Option PublicKey := do
  let k ← ScalarNode.read bs
  k.key? (← Curve.ofNode? (← k.curve))

/-! ### The form that all algorithms share -/

/-- The public half among the parts behind a key, if it is there.  Parts with other numbers are
passed over if each holds one node. -/
def statedKey? (parts : List Item) : Option (Option Bytes) :=
  match parts.dropWhile (Item.isPart 0) with
  | [] => some none
  | i :: rest =>
      if i.isPart 1 then
        match Der.wholeBytes? i.content with
        | some key => if i.tag = 0x81 ∧ rest.all Item.isWrapper then some (some key) else none
        | none => none
      else if (i :: rest).all Item.isWrapper then some none
      else none

/-- The public half of the key in a node, whose algorithm is given by the parts of another. -/
def ofKeyNode? (algorithm : List Item) (stated : Option Bytes) (key : Bytes) : Option PublicKey :=
  match algorithm with
  | [name] =>
      if name = ed25519Node ∧ stated.all (·.length = 32) then ofSeedNode? key else none
  | [name, parameter] =>
      if name = curveKeyNode then do (← ScalarNode.read key).key? (← Curve.ofNode? parameter)
      else none
  | _ => none

/-- The public half of a key in the form that all algorithms share: a version, the algorithm, the
key in a form of its own, and parts that may be there.  The version says whether the public half
is among them. -/
def ofWrapped? (bs : Bytes) : Option PublicKey := do
  let (outer, rest) ← Der.read bs
  match ← outer.sequence? with
  | version :: algorithm :: key :: parts =>
      let stated ← statedKey? parts
      if rest.isEmpty ∧ version = versionNode (if stated.isSome then 1 else 0) ∧ key.tag = 0x04 then
        ofKeyNode? (← algorithm.sequence?) stated key.content
      else none
  | _ => none

/-- The public half of a key in the form that all algorithms share, or of an ECDSA key in its own
form. -/
def ofPlain? (bs : Bytes) : Option PublicKey :=
  (ofScalarNode? bs).or (ofWrapped? bs)

end AchCourier.Ssh
