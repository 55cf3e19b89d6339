import AchCourier.Ssh.PublicKey

/-!
# ECDSA keys

The public half of an ECDSA key is a multiple of the base point of its curve `y² = x³ - 3x + b`
over a prime field.  Points are kept as `x = X/Z²`, `y = Y/Z³`; the point without coordinates has
`Z = 0`.

## Main definitions

* `Domain`, `Curve.domain` — the numbers that make a curve.
* `Point.add`, `Domain.multiple` — sums of points.
* `publicPoint?` — the public half of the key that a number stands for.
-/

namespace AchCourier.Ssh

/-- The numbers that make a curve: the field, the constant `b`, the base point and its order. -/
structure Domain where
  (p b x y order : Nat)

/-- The numbers of the named curves. -/
def Curve.domain : Curve → Domain
  | .p256 => {
      p := Nat.pow 2 256 - Nat.pow 2 224 + Nat.pow 2 192 + Nat.pow 2 96 - 1
      b := 0x5ac635d8aa3a93e7b3ebbd55769886bc651d06b0cc53b0f63bce3c3e27d2604b
      x := 0x6b17d1f2e12c4247f8bce6e563a440f277037d812deb33a0f4a13945d898c296
      y := 0x4fe342e2fe1a7f9b8ee7eb4a7c0f9e162bce33576b315ececbb6406837bf51f5
      order := 0xffffffff00000000ffffffffffffffffbce6faada7179e84f3b9cac2fc632551 }
  | .p384 => {
      p := Nat.pow 2 384 - Nat.pow 2 128 - Nat.pow 2 96 + Nat.pow 2 32 - 1
      b := 0xb3312fa7e23ee7e4988e056be3f82d19181d9c6efe8141120314088f5013875ac656398d8a2ed19d2a85c8edd3ec2aef
      x := 0xaa87ca22be8b05378eb1c71ef320ad746e1d3b628ba79b9859f741e082542a385502f25dbf55296c3a545e3872760ab7
      y := 0x3617de4a96262c6f5d9e98bf9292dc29f8f41dbd289a147ce9da3113b5f0b8c00a60b1ce1d7e819d7a431d7c90ea0e5f
      order := 0xffffffffffffffffffffffffffffffffffffffffffffffffc7634d81f4372ddf581a0db248b0a77aecec196accc52973 }
  | .p521 => {
      p := Nat.pow 2 521 - 1
      b := 0x051953eb9618e1c9a1f929a21a0b68540eea2da725b99b315f3b8b489918ef109e156193951ec7e937b1652c0bd3bb1bf073573df883d2c34f1ef451fd46b503f00
      x := 0x0c6858e06b70404e9cd9e3ecb662395b4429c648139053fb521f828af606b4d3dbaa14b5e77efe75928fe1dc127a2ffa8de3348b3c1856a429bf97e7e31c2e5bd66
      y := 0x11839296a789a3bc0045c8a5fb42c7d1bd998f54449579b446817afbd17273e662c97ee72995ef42640c550b9013fad0761353c7086a272c24088be94769fd16650
      order := 0x1fffffffffffffffffffffffffffffffffffffffffffffffffffffffffffffffffffa51868783bf2f966b7fcc0148f709a5d03bb5c9b8899c47aebb6fb71e91386409 }

/-- A point, as fractions with powers of one denominator. -/
structure Point where
  (x y z : Nat)
  deriving DecidableEq, Repr

namespace Domain

/-- `b ^ e` in the field, with `e` below `2 ^ bits`. -/
def power (c : Domain) (b e : Nat) : Nat → Nat
  | 0 => 1
  | bits + 1 =>
      let half := c.power b (e / 2) bits
      if e % 2 = 0 then half * half % c.p else half * half % c.p * b % c.p

/-- The difference of field elements. -/
def sub (c : Domain) (a b : Nat) : Nat :=
  (a + (c.p - b % c.p)) % c.p

/-- The point without coordinates. -/
def zero : Point := ⟨1, 1, 0⟩

/-- Twice a point. -/
def double (c : Domain) (a : Point) : Point :=
  if a.z = 0 ∨ a.y = 0 then zero
  else
    let zz := a.z * a.z % c.p
    let yy := a.y * a.y % c.p
    let s := 4 * a.x * yy % c.p
    let m := 3 * c.sub a.x zz * ((a.x + zz) % c.p) % c.p
    let x := c.sub (m * m) (2 * s)
    ⟨x, c.sub (m * c.sub s x) (8 * yy * yy), 2 * a.y * a.z % c.p⟩

/-- The sum of two points. -/
def add (c : Domain) (a b : Point) : Point :=
  if a.z = 0 then b
  else if b.z = 0 then a
  else
    let azz := a.z * a.z % c.p
    let bzz := b.z * b.z % c.p
    let u := a.x * bzz % c.p
    let v := b.x * azz % c.p
    let s := a.y * bzz % c.p * b.z % c.p
    let t := b.y * azz % c.p * a.z % c.p
    if u = v then (if s = t then c.double a else zero)
    else
      let h := c.sub v u
      let r := c.sub t s
      let hh := h * h % c.p
      let hhh := hh * h % c.p
      let q := u * hh % c.p
      let x := c.sub (r * r) (hhh + 2 * q)
      ⟨x, c.sub (r * c.sub q x) (s * hhh), h * a.z % c.p * b.z % c.p⟩

/-- The multiple `n · a`, with `n` below `2 ^ bits`. -/
def multiple (c : Domain) (a : Point) (n : Nat) : Nat → Point
  | 0 => zero
  | bits + 1 =>
      let twice := c.double (c.multiple a (n / 2) bits)
      if n % 2 = 0 then twice else c.add twice a

end Domain

/-- The last `n` bytes of a number, high byte first. -/
def bytesOfNat : Nat → Nat → Bytes
  | 0, _ => []
  | n + 1, v => bytesOfNat n (v / 256) ++ [v.toUInt8]

/-- The bytes of the public half of the key that a number stands for: none for zero and for a
number not below the order. -/
def publicPoint? (curve : Curve) (secret : Nat) : Option Bytes :=
  let c := curve.domain
  if secret = 0 ∨ c.order ≤ secret then none
  else
    let a := c.multiple ⟨c.x, c.y, 1⟩ secret 521
    let i := c.power a.z (c.p - 2) 521
    let ii := i * i % c.p
    some (4 :: bytesOfNat curve.size (a.x * ii % c.p) ++
      bytesOfNat curve.size (a.y * ii % c.p * i % c.p))

end AchCourier.Ssh
