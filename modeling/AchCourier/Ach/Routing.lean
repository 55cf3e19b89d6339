import AchCourier.Total

/-!
# Routing numbers

A bank is named by eight digits, of which a ninth is a weighted check sum.  The hash of a batch is
the sum of these numbers, so a number that is not one counts as zero there.
-/

namespace AchCourier.Ach

/-- The weights of the eight digits. -/
def routingWeights : List Nat := [3, 7, 1, 3, 7, 1, 3, 7]

/-- The value of a decimal digit. -/
def digitValue (c : Char) : Nat :=
  c.toNat - '0'.toNat

/-- The check digit of eight digits; none for any other text. -/
def checkDigit? (routing : String) : Option Nat :=
  let cs := routing.toList
  if cs.length = 8 ∧ cs.all Char.isDigit then
    some ((10 - total (List.zipWith (fun c w => digitValue c * w) cs routingWeights) % 10) % 10)
  else none

/-- What a routing number adds to an entry hash: the number that its digits show, behind a plus
sign if there is one, and zero for any text that is no number. -/
def hashTerm (routing : String) : Nat :=
  let digits := match routing.toList with
    | '+' :: cs => cs
    | cs => cs
  if digits.isEmpty ∨ ¬ digits.all Char.isDigit then 0
  else
    let n := Nat.ofDigitChars 10 digits 0
    if n < Nat.pow 2 64 then n else 0

/-- Hashes keep their ten low digits. -/
def hashModulus : Nat := Nat.pow 10 10

end AchCourier.Ach
