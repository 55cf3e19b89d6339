import AchCourier.Json.Basic

/-!
# Decoding JSON

A record is an object with the record's fields, or an array of them in order.  Members with other
names are ignored, a field that is given twice is refused, and `null` stands for nothing but an
absent optional value.

## Main definitions

* `string?`, `boolean?`, `natural?`, `list?`, `optional?` — values of the basic kinds.
* `fields?` — the fields of a record, each with its value if it is given.
* `required`, `withDefault` — the value of one field.
-/

namespace AchCourier.Json

/-- A string. -/
def string? : Json → Option String
  | .str s => some s
  | _ => none

/-- A truth value. -/
def boolean? : Json → Option Bool
  | .bool b => some b
  | _ => none

/-- A natural number of at most `bits` bits. -/
def natural? (bits : Nat) : Json → Option Nat
  | .int n => if 0 ≤ n ∧ n.toNat < Nat.pow 2 bits then some n.toNat else none
  | _ => none

/-- A list of values. -/
def list? {α : Type} (f : Json → Option α) : Json → Option (List α)
  | .arr items => items.mapM f
  | _ => none

/-- A value, or `null` for none. -/
def optional? {α : Type} (f : Json → Option α) : Json → Option (Option α)
  | .null => some none
  | v => (f v).map some

/-- The value of the member `name`, if there is one; refused when there are several. -/
def field? (members : List (String × Json)) (name : String) : Option (Option Json) :=
  match members.filter (·.1 == name) with
  | [] => some none
  | [m] => some (some m.2)
  | _ => none

/-- The values of the fields `names`, in that order, each if it is given. -/
def fields? (names : List String) : Json → Option (List (Option Json))
  | .obj members => names.mapM (field? members)
  | .arr items =>
      if items.length ≤ names.length then
        some (items.map some ++ List.replicate (names.length - items.length) none)
      else none
  | _ => none

/-- The value of a field that must be given. -/
def required {α : Type} (f : Json → Option α) : Option Json → Option α
  | none => none
  | some v => f v

/-- The value of a field that may be left out. -/
def withDefault {α : Type} (default : α) (f : Json → Option α) : Option Json → Option α
  | none => some default
  | some v => f v

end AchCourier.Json
