import AchCourier.Text.Digit
import AchCourier.Text.Utf8

/-!
# Hexadecimal text

Digests are shown as two lower case hexadecimal digits for each byte, high digit first; read back,
digits of either case count.

## Main definitions

* `hex` — the text of bytes.
* `unhex` — the bytes of a text.
-/

namespace AchCourier.Digest

/-- The lower case digit of a number below sixteen. -/
def hexDigit (n : Nat) : Char :=
  Nat.digitChar (n % 16)

/-- Two digits for each byte, high digit first. -/
def hex (bs : Bytes) : String :=
  String.ofList (bs.flatMap fun b => [hexDigit (b.toNat / 16), hexDigit b.toNat])

/-- The bytes of pairs of digits; a character that is no digit counts as zero. -/
def unhex : List Char → Bytes
  | a :: b :: rest =>
      ((Text.digitValue? a).getD 0 * 16 + (Text.digitValue? b).getD 0).toUInt8 :: unhex rest
  | _ => []

end AchCourier.Digest
