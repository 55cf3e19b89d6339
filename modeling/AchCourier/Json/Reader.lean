import AchCourier.Json.Basic
import AchCourier.Text.Digit

/-!
# Reading JSON

The reader takes the texts of RFC 8259 and no others: no comments, no trailing commas, no leading
zeros, no raw control in a string.  An escaped surrogate without its partner is let through as a
value that no decoder reads, so that it does harm only where the value is wanted.

## Main definitions

* `skipBlanks` — a text without the blanks before its next token.
* `stringBody`, `joinSurrogates` — the code points of a string, and the text that they spell.
* `number` — a number, as an integer when it is written as one and fits in 64 bits.
* `parse` — the value that a whole text spells.
-/

namespace AchCourier.Json

/-- The blanks that may stand between tokens. -/
def isBlank (c : Char) : Bool :=
  c == ' ' || c == '\n' || c == '\t' || c == '\r'

/-- A text without the blanks before its next token. -/
def skipBlanks (cs : List Char) : List Char :=
  cs.dropWhile isBlank

/-- The character behind a backslash, for the escapes of one letter. -/
def shortEscape? (c : Char) : Option Char :=
  match c with
  | '"' => some '"'
  | '\\' => some '\\'
  | '/' => some '/'
  | 'b' => some '\x08'
  | 'f' => some '\x0c'
  | 'n' => some '\n'
  | 'r' => some '\r'
  | 't' => some '\t'
  | _ => none

/-- The code points of a string after its opening quote, and what follows the closing one.  An
escaped surrogate counts as a code point of its own here. -/
def stringBody : List Char → Option (List Nat × List Char)
  | [] => none
  | '"' :: rest => some ([], rest)
  | '\\' :: 'u' :: a :: b :: c :: d :: rest => do
      let a ← Text.digitValue? a
      let b ← Text.digitValue? b
      let c ← Text.digitValue? c
      let d ← Text.digitValue? d
      let (points, rest) ← stringBody rest
      some ((((a * 16 + b) * 16 + c) * 16 + d) :: points, rest)
  | '\\' :: c :: rest => do
      let c ← shortEscape? c
      let (points, rest) ← stringBody rest
      some (c.toNat :: points, rest)
  | c :: rest =>
      if c.toNat < 0x20 ∨ c = '\\' then none
      else do
        let (points, rest) ← stringBody rest
        some (c.toNat :: points, rest)

/-- The code point opens a pair of surrogates. -/
def isHighSurrogate (n : Nat) : Bool :=
  0xD800 ≤ n && n < 0xDC00

/-- The code point closes a pair of surrogates. -/
def isLowSurrogate (n : Nat) : Bool :=
  0xDC00 ≤ n && n < 0xE000

/-- The characters that code points spell, a pair of surrogates being one; none when a surrogate
has no partner. -/
def joinSurrogates : List Nat → Option (List Char)
  | [] => some []
  | high :: low :: rest =>
      if isHighSurrogate high then
        if isLowSurrogate low then
          (joinSurrogates rest).map
            (Char.ofNat (0x10000 + (high - 0xD800) * 0x400 + (low - 0xDC00)) :: ·)
        else none
      else if isLowSurrogate high then none
      else (joinSurrogates (low :: rest)).map (Char.ofNat high :: ·)
  | [n] =>
      if isHighSurrogate n || isLowSurrogate n then none else some [Char.ofNat n]

/-- What a reading consumed, given what it left. -/
def consumed (cs rest : List Char) : String :=
  String.ofList (cs.take (cs.length - rest.length))

/-- The longest run of digits at the front, and the rest. -/
def spanDigits (cs : List Char) : List Char × List Char :=
  (cs.takeWhile Char.isDigit, cs.dropWhile Char.isDigit)

/-- The fraction of a number, if there is one. -/
def fraction? : List Char → Option (List Char × List Char)
  | '.' :: cs =>
      match spanDigits cs with
      | ([], _) => none
      | (ds, rest) => some ('.' :: ds, rest)
  | cs => some ([], cs)

/-- The digits of an exponent behind its mark and sign. -/
def exponentDigits? (mark : List Char) (cs : List Char) : Option (List Char × List Char) :=
  match spanDigits cs with
  | ([], _) => none
  | (ds, rest) => some (mark ++ ds, rest)

/-- The exponent of a number, if there is one. -/
def exponent? : List Char → Option (List Char × List Char)
  | e :: cs =>
      if e = 'e' ∨ e = 'E' then
        match cs with
        | '+' :: cs => exponentDigits? [e, '+'] cs
        | '-' :: cs => exponentDigits? [e, '-'] cs
        | cs => exponentDigits? [e] cs
      else some ([], e :: cs)
  | [] => some ([], [])

/-- The number with the given sign, integral digits, fraction and exponent.  It is an integer when
it has neither of the last two, fits in 64 bits and is not a negative zero. -/
def numberOf (negative : Bool) (whole tail : List Char) : Json :=
  let n := Nat.ofDigitChars 10 whole 0
  let literal := String.ofList ((if negative then ['-'] else []) ++ whole ++ tail)
  if tail.isEmpty then
    if negative then
      if n = 0 ∨ Nat.pow 2 63 < n then .real literal else .int (-(n : Int))
    else if n < Nat.pow 2 64 then .int n
    else .real literal
  else .real literal

/-- The digits before the point: a zero alone, or digits of which the first is no zero. -/
def whole? (cs : List Char) : Option (List Char × List Char) :=
  match spanDigits cs with
  | ([], _) => none
  | ('0' :: _ :: _, _) => none
  | (ds, rest) => some (ds, rest)

/-- A number whose sign has been read. -/
def unsigned (negative : Bool) (cs : List Char) : Option (Json × List Char) := do
  let (whole, cs) ← whole? cs
  let (frac, cs) ← fraction? cs
  let (exp, cs) ← exponent? cs
  some (numberOf negative whole (frac ++ exp), cs)

/-- A number. -/
def number : List Char → Option (Json × List Char)
  | '-' :: cs => unsigned true cs
  | cs => unsigned false cs

/-- The text of the members whose names are all texts. -/
def membersOf : List (Option String × Json) → Option (List (String × Json))
  | [] => some []
  | (none, _) :: _ => none
  | (some k, v) :: rest => (membersOf rest).map ((k, v) :: ·)

mutual

/-- A value at the front of a text, and what follows it.  Every step of the reading takes one of
the steps left. -/
def value : Nat → List Char → Option (Json × List Char)
  | 0, _ => none
  | n + 1, cs =>
      match cs with
      | 'n' :: 'u' :: 'l' :: 'l' :: rest => some (.null, rest)
      | 't' :: 'r' :: 'u' :: 'e' :: rest => some (.bool true, rest)
      | 'f' :: 'a' :: 'l' :: 's' :: 'e' :: rest => some (.bool false, rest)
      | '"' :: cs' =>
          match stringBody cs' with
          | none => none
          | some (points, rest) =>
              -- a string with half a pair is read, but it is no text
              match joinSurrogates points with
              | some s => some (.str (String.ofList s), rest)
              | none => some (.unpaired (consumed cs rest), rest)
      | '[' :: cs' =>
          match skipBlanks cs' with
          | ']' :: rest => some (.arr [], rest)
          | cs' => (items n cs').map fun r => (.arr r.1, r.2)
      | '\x7b' :: cs' =>
          match skipBlanks cs' with
          | '\x7d' :: rest => some (.obj [], rest)
          | cs' =>
              (members n cs').map fun r =>
                match membersOf r.1 with
                | some ms => (.obj ms, r.2)
                | none => (.unpaired (consumed cs r.2), r.2)
      | cs => number cs

/-- The items of an array that has at least one left, and what follows the array. -/
def items : Nat → List Char → Option (List Json × List Char)
  | 0, _ => none
  | n + 1, cs =>
      match value n (skipBlanks cs) with
      | none => none
      | some (v, rest) =>
          match skipBlanks rest with
          | ',' :: rest => (items n rest).map fun r => (v :: r.1, r.2)
          | ']' :: rest => some ([v], rest)
          | _ => none

/-- The members of an object that has at least one left, and what follows the object. -/
def members : Nat → List Char → Option (List (Option String × Json) × List Char)
  | 0, _ => none
  | n + 1, cs =>
      match skipBlanks cs with
      | '"' :: cs =>
          match stringBody cs with
          | none => none
          | some (points, rest) =>
              let name := (joinSurrogates points).map String.ofList
              match skipBlanks rest with
              | ':' :: rest =>
                  match value n (skipBlanks rest) with
                  | none => none
                  | some (v, rest) =>
                      match skipBlanks rest with
                      | ',' :: rest => (members n rest).map fun r => ((name, v) :: r.1, r.2)
                      | '\x7d' :: rest => some ([(name, v)], rest)
                      | _ => none
              | _ => none
      | _ => none

end

/-- The value that a whole text spells. -/
def parse (s : String) : Option Json :=
  let cs := s.toList
  -- no step is taken without a character, but for the one into a list
  match value (2 * cs.length + 2) (skipBlanks cs) with
  | some (v, rest) => if (skipBlanks rest).isEmpty then some v else none
  | none => none

end AchCourier.Json
