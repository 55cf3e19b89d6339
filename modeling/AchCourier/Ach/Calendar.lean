import AchCourier.Text.Blank

/-!
# Creation dates

A creation date is a year of two digits, a month and a day.  Each of the three takes up to two
digits and may have blanks before it, and together they must name a day of the calendar.  The years
70 to 99 belong to the twentieth century and the others to the one after it.
-/

namespace AchCourier.Ach

/-- A number of one or two digits behind any blanks, and what follows it. -/
def datePart? (cs : List Char) : Option (Nat × List Char) :=
  match Text.trimStart cs with
  | c :: d :: rest =>
      if !c.isDigit then none
      else if d.isDigit then some (Nat.ofDigitChars 10 [c, d] 0, rest)
      else some (Nat.ofDigitChars 10 [c] 0, d :: rest)
  | [c] => if c.isDigit then some (Nat.ofDigitChars 10 [c] 0, []) else none
  | [] => none

/-- The year that two digits stand for. -/
def fullYear (yy : Nat) : Nat :=
  if yy < 70 then 2000 + yy else 1900 + yy

/-- The year has a 29th of February. -/
def isLeapYear (year : Nat) : Bool :=
  year % 4 == 0 && (year % 100 != 0 || year % 400 == 0)

/-- The number of days of a month, or zero if there is no such month. -/
def daysInMonth (year month : Nat) : Nat :=
  if month = 2 then (if isLeapYear year then 29 else 28)
  else if [4, 6, 9, 11].contains month then 30
  else if 1 ≤ month ∧ month ≤ 12 then 31
  else 0

/-- The text names a day. -/
def isDate (s : String) : Bool :=
  match datePart? s.toList with
  | none => false
  | some (yy, rest) =>
      match datePart? rest with
      | none => false
      | some (month, rest) =>
          match datePart? rest with
          | some (day, []) => 1 ≤ day && day ≤ daysInMonth (fullYear yy) month
          | _ => false

end AchCourier.Ach
