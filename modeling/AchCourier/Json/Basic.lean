/-!
# JSON values

Settings, events and record identities are JSON.  A value keeps the order of its members, and it
keeps a repeated member: whether a repetition matters is for the reader of the value to say.

Two constructors hold what the rest of the library never makes but a text may contain: a number
that is not an integer of 64 bits, and a string that is no text because an escaped surrogate in it
has no partner.  Both are kept as written.
-/

namespace AchCourier

/-- A JSON value. -/
inductive Json where
  /-- The value `null`. -/
  | null
  /-- A truth value. -/
  | bool (b : Bool)
  /-- An integer between `-2^63` and `2^64 - 1`. -/
  | int (n : Int)
  /-- Any other number, as written. -/
  | real (literal : String)
  /-- A string. -/
  | str (s : String)
  /-- A string with an unpaired surrogate, or an object with such a name, as written. -/
  | unpaired (literal : String)
  /-- An array. -/
  | arr (items : List Json)
  /-- An object, with its members in order. -/
  | obj (members : List (String × Json))
  deriving Inhabited

namespace Json

/-- A number of cents, records or seconds. -/
def nat (n : Nat) : Json :=
  .int n

/-- A list of strings. -/
def strs (ss : List String) : Json :=
  .arr (ss.map .str)

/-- `null`, or the encoded value. -/
def ofOption {α : Type} (f : α → Json) : Option α → Json
  | none => .null
  | some a => f a

/-- The member named `name` that comes last. -/
def member? (name : String) : Json → Option Json
  | .obj members => (members.reverse.find? (·.1 == name)).map (·.2)
  | _ => none

mutual

/-- The value in which, of members with the same name, only the last one is left. -/
def lastWins : Json → Json
  | .arr items => .arr (lastWinsItems items)
  | .obj members => .obj (lastWinsMembers members)
  | v => v

/-- `lastWins` in every item. -/
def lastWinsItems : List Json → List Json
  | [] => []
  | v :: vs => lastWins v :: lastWinsItems vs

/-- `lastWins` in every member that no later one repeats. -/
def lastWinsMembers : List (String × Json) → List (String × Json)
  | [] => []
  | (k, v) :: rest =>
      if rest.any (·.1 == k) then lastWinsMembers rest
      else (k, lastWins v) :: lastWinsMembers rest

end

/-- The members of `upper` laid over those of `base`: a member of the same name is replaced, and
new ones come after. -/
def overlay (base upper : List (String × Json)) : List (String × Json) :=
  base.map (fun m => (m.1, ((upper.reverse.find? (·.1 == m.1)).map (·.2)).getD m.2)) ++
    upper.filter fun m => !base.any (·.1 == m.1)

end Json

end AchCourier
