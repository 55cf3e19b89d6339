import AchCourier.Digest.Sha512

/-!
# Ed25519 keys

The public half of an Ed25519 key is a multiple of the base point of the curve
`-x² + y² = 1 + d·x²·y²` over the field of `2^255 - 19` elements.  Points are kept as fractions
`x = X/Z`, `y = Y/Z` together with `T = X·Y/Z`, so that adding them needs no division.

## Main definitions

* `Point`, `Point.add`, `Point.multiple` — points and their sums.
* `publicOfSeed` — the public half of the key that a seed of 32 bytes stands for.
-/

namespace AchCourier.Ssh.Ed25519

/-- The number of elements of the field. -/
def p : Nat := Nat.pow 2 255 - 19

/-- `b ^ e` in the field, with `e` below `2 ^ bits`. -/
def power (b e : Nat) : Nat → Nat
  | 0 => 1
  | bits + 1 =>
      let half := power b (e / 2) bits
      if e % 2 = 0 then half * half % p else half * half % p * b % p

/-- The inverse of a field element. -/
def inverse (a : Nat) : Nat :=
  power a (p - 2) 255

/-- The difference of field elements. -/
def sub (a b : Nat) : Nat :=
  (a + (p - b % p)) % p

/-- The constant of the curve. -/
def d : Nat :=
  sub 0 (121665 * inverse 121666)

/-- A point, as fractions with one denominator and the product of the coordinates. -/
structure Point where
  x : Nat
  y : Nat
  z : Nat
  t : Nat
  deriving DecidableEq, Repr

namespace Point

/-- The neutral point. -/
def zero : Point := ⟨0, 1, 1, 0⟩

/-- The sum of two points. -/
def add (a b : Point) : Point :=
  let m := sub a.y a.x * sub b.y b.x % p
  let n := (a.y + a.x) * (b.y + b.x) % p
  let c := 2 * d * a.t % p * b.t % p
  let e := 2 * a.z * b.z % p
  let f := sub n m
  let g := sub e c
  let h := (e + c) % p
  let i := (n + m) % p
  ⟨f * g % p, h * i % p, g * h % p, f * i % p⟩

/-- The multiple `n · a`, with `n` below `2 ^ bits`. -/
def multiple (a : Point) (n : Nat) : Nat → Point
  | 0 => zero
  | bits + 1 =>
      let half := multiple a (n / 2) bits
      let twice := add half half
      if n % 2 = 0 then twice else add twice a

/-- The base point. -/
def base : Point :=
  let x := 15112221349535400772501151409588531511454012693041857206046113283949847762202
  let y := 46316835694926478169428394003475163141307993866256225615783033603165251855960
  ⟨x, y, 1, x * y % p⟩

end Point

/-- The number that bytes show, low byte first. -/
def valueOf : Bytes → Nat
  | [] => 0
  | b :: bs => b.toNat + 256 * valueOf bs

/-- The first `n` bytes of a number, low byte first. -/
def bytesOf : Nat → Nat → Bytes
  | 0, _ => []
  | n + 1, v => v.toUInt8 :: bytesOf n (v / 256)

/-- The factor that 32 bytes stand for: a multiple of eight between `2^254` and `2^255`. -/
def factor (bs : Bytes) : Nat :=
  Nat.pow 2 254 + valueOf bs % Nat.pow 2 254 / 8 * 8

/-- The bytes of a point: its `y`, and the last bit of `x` in the highest place. -/
def encode (a : Point) : Bytes :=
  let i := inverse a.z
  bytesOf 32 (a.y * i % p + a.x * i % p % 2 * Nat.pow 2 255)

/-- The public half of the key that a seed of 32 bytes stands for. -/
def publicOfSeed (seed : Bytes) : Bytes :=
  encode (Point.base.multiple (factor ((Digest.sha512 seed).take 32)) 255)

end AchCourier.Ssh.Ed25519
