import AchCourier.Json.Basic

/-!
# Writing JSON

A value has one compact text, without any blank, and one indented text with an item or member on
each line.  Strings escape the quote, the backslash and the controls below the space, and nothing
else; five of the controls have letters of their own.

## Main definitions

* `escapeChar`, `quote` — the text of a string.
* `compact` — the text without blanks.
* `pretty` — the text with two more blanks for each level.
-/

namespace AchCourier.Json

/-- One character of a string. -/
def escapeChar (c : Char) : List Char :=
  if c = '"' then ['\\', '"']
  else if c = '\\' then ['\\', '\\']
  else if c = '\x08' then ['\\', 'b']
  else if c = '\x0c' then ['\\', 'f']
  else if c = '\n' then ['\\', 'n']
  else if c = '\r' then ['\\', 'r']
  else if c = '\t' then ['\\', 't']
  else if c.toNat < 0x20 then
    ['\\', 'u', '0', '0', Nat.digitChar (c.toNat / 16), Nat.digitChar (c.toNat % 16)]
  else [c]

/-- The text of a string. -/
def quote (s : String) : List Char :=
  '"' :: s.toList.flatMap escapeChar ++ ['"']

/-- The digits of an integer, after a sign when it is negative. -/
def digits : Int → List Char
  | .ofNat n => Nat.toDigits 10 n
  | .negSucc n => '-' :: Nat.toDigits 10 (n + 1)

mutual

/-- The text of a value without blanks. -/
def compact : Json → List Char
  | .null => "null".toList
  | .bool true => "true".toList
  | .bool false => "false".toList
  | .int n => digits n
  | .real literal => literal.toList
  | .str s => quote s
  | .unpaired literal => literal.toList
  | .arr items => '[' :: compactItems items
  | .obj members => '\x7b' :: compactMembers members

/-- The items of an array and the bracket that closes it. -/
def compactItems : List Json → List Char
  | [] => [']']
  | v :: vs => compact v ++ compactMoreItems vs

/-- The items of an array after the first one, each behind a comma. -/
def compactMoreItems : List Json → List Char
  | [] => [']']
  | v :: vs => ',' :: compact v ++ compactMoreItems vs

/-- The members of an object and the brace that closes it. -/
def compactMembers : List (String × Json) → List Char
  | [] => ['\x7d']
  | (k, v) :: rest => quote k ++ ':' :: compact v ++ compactMoreMembers rest

/-- The members of an object after the first one, each behind a comma. -/
def compactMoreMembers : List (String × Json) → List Char
  | [] => ['\x7d']
  | (k, v) :: rest => ',' :: quote k ++ ':' :: compact v ++ compactMoreMembers rest

end

/-- A new line at the given level. -/
def newline (level : Nat) : List Char :=
  '\n' :: List.replicate (2 * level) ' '

mutual

/-- The indented text of a value that stands at `level`. -/
def prettyAt (level : Nat) : Json → List Char
  | .arr [] => ['[', ']']
  | .arr (v :: vs) =>
      '[' :: newline (level + 1) ++ prettyAt (level + 1) v ++ prettyItems level vs
  | .obj [] => ['\x7b', '\x7d']
  | .obj ((k, v) :: rest) =>
      '\x7b' :: newline (level + 1) ++ quote k ++ ':' :: ' ' :: prettyAt (level + 1) v ++
        prettyMembers level rest
  | .null => "null".toList
  | .bool true => "true".toList
  | .bool false => "false".toList
  | .int n => digits n
  | .real literal => literal.toList
  | .str s => quote s
  | .unpaired literal => literal.toList

/-- The items of an array at `level` after the first one. -/
def prettyItems (level : Nat) : List Json → List Char
  | [] => newline level ++ [']']
  | v :: vs => ',' :: newline (level + 1) ++ prettyAt (level + 1) v ++ prettyItems level vs

/-- The members of an object at `level` after the first one. -/
def prettyMembers (level : Nat) : List (String × Json) → List Char
  | [] => newline level ++ ['\x7d']
  | (k, v) :: rest =>
      ',' :: newline (level + 1) ++ quote k ++ ':' :: ' ' :: prettyAt (level + 1) v ++
        prettyMembers level rest

end

/-- The indented text of a value. -/
def pretty (v : Json) : List Char :=
  prettyAt 0 v

end AchCourier.Json
