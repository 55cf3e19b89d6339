import AchCourier.Text.Utf8

/-!
# Base64

The encoding of RFC 4648: four characters stand for three bytes, and padding fills the last group.
A strict reader takes only the canonical spelling: the padding must be there, and the bits that it
leaves over must be zero.  Some readers take several such texts in a row for one.  Armoured text is
read loosely: blanks are passed over, a dash ends the text, and the bits left over do not count.

## Main definitions

* `encode` — the text of bytes, with padding.
* `decodeJoined?` — the bytes of one or more texts in a row.
* `decode?` — the bytes of one text.
* `decodeLoose?` — the bytes of one text, read loosely.
-/

namespace AchCourier.Base64

/-- The characters for the numbers from 0 to 63. -/
def alphabet : List Char :=
  "ABCDEFGHIJKLMNOPQRSTUVWXYZabcdefghijklmnopqrstuvwxyz0123456789+/".toList

/-- The character for a number below 64. -/
def digit (n : Nat) : Char :=
  (alphabet[n % 64]?).getD 'A'

/-- The number that a character stands for. -/
def value? (c : Char) : Option Nat :=
  alphabet.idxOf? c

/-- The text of bytes, with padding. -/
def encode : Bytes → List Char
  | [] => []
  | [a] => [digit (a.toNat / 4), digit (a.toNat % 4 * 16), '=', '=']
  | [a, b] =>
      [digit (a.toNat / 4), digit (a.toNat % 4 * 16 + b.toNat / 16), digit (b.toNat % 16 * 4), '=']
  | a :: b :: c :: rest =>
      [digit (a.toNat / 4), digit (a.toNat % 4 * 16 + b.toNat / 16),
        digit (b.toNat % 16 * 4 + c.toNat / 64), digit c.toNat] ++ encode rest

/-- The bytes of a group of four characters. -/
def group? (a b c d : Char) : Option Bytes := do
  let x ← value? a
  let y ← value? b
  let first := (x * 4 + y / 16).toUInt8
  if c = '=' then
    if d = '=' ∧ y % 16 = 0 then some [first] else none
  else
    let z ← value? c
    let second := (y % 16 * 16 + z / 4).toUInt8
    if d = '=' then
      if z % 4 = 0 then some [first, second] else none
    else
      let w ← value? d
      some [first, second, (z % 4 * 64 + w).toUInt8]

/-- The bytes of one or more texts in a row. -/
def decodeJoined? : List Char → Option Bytes
  | [] => some []
  | a :: b :: c :: d :: rest => do
      let bytes ← group? a b c d
      let more ← decodeJoined? rest
      some (bytes ++ more)
  | _ => none

/-- The bytes of one text: there is padding nowhere but at the end. -/
def decode? (cs : List Char) : Option Bytes :=
  if (cs.dropWhile (· ≠ '=')).all (· = '=') then decodeJoined? cs else none

/-- The blanks that loose reading passes over. -/
def isPassedOver (c : Char) : Bool :=
  c = ' ' || c = '\t' || c = '\n' || c = '\r'

/-- The bytes of one text, read loosely.  Each padding character stands for six bits that do not
count, and so it costs one byte. -/
def decodeLoose? (cs : List Char) : Option Bytes :=
  let text := (cs.takeWhile (· ≠ '-')).filter (!isPassedOver ·)
  let body := text.takeWhile (· ≠ '=')
  let padding := text.dropWhile (· ≠ '=')
  if padding.length ≤ 2 ∧ padding.all (· = '=') then
    (decodeJoined? (body ++ padding.map fun _ => 'A')).map fun bs =>
      bs.take (bs.length - padding.length)
  else none

end AchCourier.Base64
