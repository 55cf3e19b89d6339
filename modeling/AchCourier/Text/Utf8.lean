/-!
# Text in bytes

Bytes become text as UTF-8.  Where bytes are ill formed, decoding goes on after the longest run
that could have begun a character, so damage never spreads to the characters around it: each such
run counts as one unit without a character.

## Main definitions

* `Pending` — a character of which some bytes have been read.
* `units` — the characters of a byte string, with a hole for each ill formed run.
* `decode?` — the text, when no run is ill formed.
* `decodeLossy` — the text with a replacement character for each ill formed run.
* `encode` — the bytes of a text.
-/

namespace AchCourier

/-- A byte string. -/
abbrev Bytes := List UInt8

namespace Utf8

/-- A character whose first bytes have been read: the bits they carry, the number of bytes still
owed, and the range in which the next of them must lie. -/
structure Pending where
  /-- The bits read so far. -/
  bits : Nat
  /-- The number of bytes owed after the next one. -/
  more : Nat
  /-- The least value of the next byte. -/
  least : UInt8
  /-- The greatest value of the next byte. -/
  greatest : UInt8
  deriving DecidableEq, Repr

/-- What a byte says between characters: a character, the beginning of one, or neither. -/
def start (b : UInt8) : List (Option Char) × Option Pending :=
  if b < 0x80 then ([some (Char.ofNat b.toNat)], none)
  else if 0xC2 ≤ b ∧ b ≤ 0xDF then ([], some ⟨b.toNat % 32, 0, 0x80, 0xBF⟩)
  else if b = 0xE0 then ([], some ⟨0, 1, 0xA0, 0xBF⟩)
  else if b = 0xED then ([], some ⟨13, 1, 0x80, 0x9F⟩)
  else if 0xE1 ≤ b ∧ b ≤ 0xEF then ([], some ⟨b.toNat % 16, 1, 0x80, 0xBF⟩)
  else if b = 0xF0 then ([], some ⟨0, 2, 0x90, 0xBF⟩)
  else if 0xF1 ≤ b ∧ b ≤ 0xF3 then ([], some ⟨b.toNat % 8, 2, 0x80, 0xBF⟩)
  else if b = 0xF4 then ([], some ⟨4, 2, 0x80, 0x8F⟩)
  else ([none], none)

/-- What a byte adds to the character being read: it may complete it, bring it further, or leave
it ill formed and begin anew. -/
def advance (p : Pending) (b : UInt8) : List (Option Char) × Option Pending :=
  if p.least ≤ b ∧ b ≤ p.greatest then
    let bits := p.bits * 64 + b.toNat % 64
    match p.more with
    | 0 => ([some (Char.ofNat bits)], none)
    | more + 1 => ([], some ⟨bits, more, 0x80, 0xBF⟩)
  else
    let (out, next) := start b
    (none :: out, next)

/-- The characters of a byte string that follow `pending`, with `none` for each ill formed run. -/
def units (pending : Option Pending) : Bytes → List (Option Char)
  | [] => if pending.isSome then [none] else []
  | b :: bs =>
      let (out, next) := match pending with
        | none => start b
        | some p => advance p b
      out ++ units next bs

/-- The text of well formed bytes. -/
def decode? (bs : Bytes) : Option String :=
  ((units none bs).mapM id).map String.ofList

/-- The characters of `bs`, with a replacement character for each ill formed run. -/
def decodeLossy (bs : Bytes) : List Char :=
  (units none bs).map (·.getD '\uFFFD')

/-- The bytes of a text. -/
def encode (cs : List Char) : Bytes :=
  cs.flatMap String.utf8EncodeChar

/-- The bytes of a string. -/
def ofString (s : String) : Bytes :=
  encode s.toList

@[simp] theorem units_nil : units none [] = [] := rfl

/-- An ASCII byte between characters is the character of its number. -/
theorem units_ascii (b : UInt8) (bs : Bytes) (h : b < 0x80) :
    units none (b :: bs) = some (Char.ofNat b.toNat) :: units none bs := by
  simp [units, start, h]

end Utf8

end AchCourier
