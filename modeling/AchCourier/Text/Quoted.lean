import AchCourier.Text.Printable

/-!
# Quoted text

Messages show foreign text in quotes, so that a reader sees where it starts and ends and which
invisible characters it holds.  The quote and the backslash are written after a backslash, the
usual controls have letters of their own, and any other character without a printed form is
written as its code point in braces.

## Main definitions

* `escape` — one character of a quoted text.
* `quoted` — a text in double quotes.
* `quotedChar` — a character in single quotes.
-/

namespace AchCourier.Text

/-- One character as it stands between two `quote`s. -/
def escape (quote c : Char) : List Char :=
  if c = quote ∨ c = '\\' then ['\\', c]
  else if c = '\x00' then ['\\', '0']
  else if c = '\t' then ['\\', 't']
  else if c = '\n' then ['\\', 'n']
  else if c = '\r' then ['\\', 'r']
  else if isPrintable c then [c]
  else ['\\', 'u', '\x7b'] ++ Nat.toDigits 16 c.toNat ++ ['\x7d']

/-- The text `s` in double quotes. -/
def quoted (s : String) : String :=
  String.ofList ('"' :: s.toList.flatMap (escape '"') ++ ['"'])

/-- The character `c` in single quotes. -/
def quotedChar (c : Char) : String :=
  String.ofList ('\'' :: escape '\'' c ++ ['\''])

end AchCourier.Text
