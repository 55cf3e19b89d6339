import AchCourier.Json.Decode
import Mathlib.Data.List.Basic

/-!
# Records read from their members

A record is an object with a member for each field, but for the fields that are left out.  As long
as no two fields have the same name, each of them is found again: with its value if it is there, and
without one if it was left out.

## Main definitions

* `given` — the members of a record, given its fields.

## Main results

* `fields?_given` — **the fields of a record are found in its members.**
* `natural?_nat`, `list?_map`, `withDefault_optional?` — numbers, lists and optional values are
  decoded.
-/

namespace AchCourier.Json

/-! ### Fields -/

/-- The members of a record with the given fields; a field without a value is left out. -/
def given (fields : List (String × Option Json)) : List (String × Json) :=
  fields.filterMap fun field => field.2.map (field.1, ·)

theorem filter_given (fields : List (String × Option Json)) (name : String) :
    (given fields).filter (·.1 == name) = given (fields.filter (·.1 == name)) := by
  induction fields with
  | nil => rfl
  | cons field fields ih =>
    obtain ⟨name', value⟩ := field
    cases value <;> cases hname : name' == name <;> simp_all [given]

/-- A name that belongs to one field alone is the name of its member. -/
theorem field?_given {fields : List (String × Option Json)} (h : (fields.map Prod.fst).Nodup)
    {name : String} {value : Option Json} (hfield : (name, value) ∈ fields) :
    field? (given fields) name = some value := by
  obtain ⟨before, later, rfl⟩ := List.append_of_mem hfield
  rw [List.map_append, List.map_cons] at h
  obtain ⟨-, hlater, hdisjoint⟩ := List.nodup_append.mp h
  -- no other field has the name, before it or behind it
  have hbefore : before.filter (·.1 == name) = [] := by
    refine List.filter_eq_nil_iff.mpr fun field hmem => ?_
    simpa using hdisjoint _ (List.mem_map_of_mem hmem) name List.mem_cons_self
  have hbehind : later.filter (·.1 == name) = [] := by
    refine List.filter_eq_nil_iff.mpr fun field hmem heq => (List.nodup_cons.mp hlater).1 ?_
    exact List.mem_map.mpr ⟨field, hmem, beq_iff_eq.mp heq⟩
  rw [field?, filter_given, List.filter_append, List.filter_cons, hbefore, hbehind]
  cases value <;> simp [given]

/-- **The fields of a record are found in its members.** -/
theorem fields?_given {fields : List (String × Option Json)} (h : (fields.map Prod.fst).Nodup) :
    fields? (fields.map Prod.fst) (.obj (given fields)) = some (fields.map Prod.snd) := by
  have hpart : ∀ part : List (String × Option Json), (∀ field ∈ part, field ∈ fields) →
      (part.map Prod.fst).mapM (field? (given fields)) = some (part.map Prod.snd) := by
    intro part
    induction part with
    | nil => exact fun _ => rfl
    | cons field part ih =>
      intro hpart
      obtain ⟨hfield, hpart⟩ := List.forall_mem_cons.mp hpart
      rw [List.map_cons, List.mapM_cons, field?_given h hfield, ih hpart]
      rfl
  exact hpart fields fun _ => id

/-! ### Values -/

theorem natural?_nat (bits : ℕ) {n : ℕ} (h : n < Nat.pow 2 bits) :
    natural? bits (nat n) = some n := by
  rw [nat, natural?, if_pos ⟨Int.natCast_nonneg _, h⟩, Int.toNat_natCast]

section
variable {α β : Type} {decode : Json → Option β} {encode : α → Json}

/-- A list is decoded item by item. -/
theorem list?_map {result : α → β} {as : List α}
    (h : ∀ a ∈ as, decode (encode a) = some (result a)) :
    list? decode (.arr (as.map encode)) = some (as.map result) := by
  rw [list?]
  induction as with
  | nil => rfl
  | cons a as ih =>
    obtain ⟨ha, has⟩ := List.forall_mem_cons.mp h
    rw [List.map_cons, List.mapM_cons, ha, ih has]
    rfl

end

section
variable {α : Type} {decode : Json → Option α} {encode : α → Json}

/-- A list is decoded if each of its items is. -/
theorem list?_map_self {as : List α} (h : ∀ a ∈ as, decode (encode a) = some a) :
    list? decode (.arr (as.map encode)) = some as := by
  have hlist : list? decode (.arr (as.map encode)) = some (as.map id) := list?_map h
  rwa [List.map_id] at hlist

/-- A value that is not null is decoded as if it could not be left out. -/
theorem optional?_eq_some (h : ∀ a, decode (encode a) = some a) (hnull : ∀ a, encode a ≠ .null)
    (a : α) : optional? decode (encode a) = some (some a) := by
  rw [optional?, h]
  · rfl
  · exact hnull a

/-- A value that may be left out is decoded, whether it is there or not. -/
theorem withDefault_optional? (h : ∀ a, decode (encode a) = some a)
    (hnull : ∀ a, encode a ≠ .null) (value : Option α) :
    withDefault none (optional? decode) (value.map encode) = some value := by
  cases value with
  | none => rfl
  | some a => rw [Option.map_some, withDefault, optional?_eq_some h hnull]

end

end AchCourier.Json
