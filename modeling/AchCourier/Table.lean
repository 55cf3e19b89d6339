/-!
# Tables

A table says what belongs to each of a few keys.  Putting a value under a key replaces the older
one, so a table is known by what it answers for every key.

## Main definitions

* `Table` — a table.
* `Table.get?`, `Table.put`, `Table.erase` — the value of a key, and the table with a value changed
  or gone.

## Main results

* `Table.get?_put`, `Table.get?_erase`, `Table.get?_restrict` — what a changed table answers.
* `Table.get?_of_mem` — what a table answers that has one entry for each key.
-/

namespace AchCourier

/-- A table.  Of several entries for a key the first one counts. -/
structure Table (κ α : Type) where
  entries : List (κ × α) := []
  deriving DecidableEq, Repr

namespace Table

variable {κ α : Type}

/-- The keys, in the order in which their values were put. -/
def keys (t : Table κ α) : List κ :=
  t.entries.map (·.1)

/-- The part of a table whose keys satisfy a test. -/
def restrict (t : Table κ α) (p : κ → Bool) : Table κ α :=
  ⟨t.entries.filter fun e => p e.1⟩

variable [DecidableEq κ]

/-- The value of a key. -/
def get? (t : Table κ α) (k : κ) : Option α :=
  (t.entries.find? fun e => e.1 = k).map (·.2)

/-- The table without a key. -/
def erase (t : Table κ α) (k : κ) : Table κ α :=
  ⟨t.entries.filter fun e => e.1 ≠ k⟩

/-- The table with a value for a key. -/
def put (t : Table κ α) (k : κ) (a : α) : Table κ α :=
  ⟨(t.erase k).entries ++ [(k, a)]⟩

/-- The table has a value for the key. -/
def contains (t : Table κ α) (k : κ) : Bool :=
  (t.get? k).isSome

@[simp] theorem get?_empty (k : κ) : ({} : Table κ α).get? k = none := rfl

theorem get?_erase (t : Table κ α) (k l : κ) :
    (t.erase k).get? l = if l = k then none else t.get? l := by
  simp only [get?, erase]
  induction t.entries with
  | nil => simp
  | cons e es ih =>
    by_cases hl : e.1 = l
    · by_cases h : e.1 = k <;> simp_all
    · by_cases h : e.1 = k
      · have : ¬ l = k := fun h' => hl (h.trans h'.symm)
        simp_all
      · simp_all

theorem get?_put (t : Table κ α) (k l : κ) (a : α) :
    (t.put k a).get? l = if l = k then some a else t.get? l := by
  have h : (t.put k a).get? l = ((t.erase k).get? l).or (if l = k then some a else none) := by
    simp only [get?, put, List.find?_append]
    cases (t.erase k).entries.find? fun e => e.1 = l <;> by_cases hl : l = k <;>
      simp [hl, eq_comm]
  rw [h, get?_erase]
  by_cases hl : l = k <;> simp [hl]

theorem get?_restrict (t : Table κ α) (p : κ → Bool) (k : κ) :
    (t.restrict p).get? k = if p k then t.get? k else none := by
  rw [get?, get?, restrict, List.find?_filter]
  cases hk : p k with
  | true =>
    have hsame : (fun e : κ × α => p e.1 && decide (e.1 = k)) = fun e => decide (e.1 = k) := by
      funext e
      by_cases he : e.1 = k <;> simp [he, hk]
    simp [hsame]
  | false =>
    have hnone : t.entries.find? (fun e => p e.1 && decide (e.1 = k)) = none := by
      refine List.find?_eq_none.mpr fun e _ => ?_
      by_cases he : e.1 = k <;> simp [he, hk]
    simp [hnone]

/-- A key without a value can be left out. -/
theorem erase_of_not_contains {t : Table κ α} {k : κ} (h : t.contains k = false) :
    t.erase k = t := by
  have hnone : t.entries.find? (fun e => e.1 = k) = none := by
    simpa [contains, get?] using h
  have hall : ∀ e ∈ t.entries, ¬ e.1 = k := by simpa using hnone
  rw [erase, List.filter_eq_self.mpr (by simpa using hall)]

/-- In a table with one entry for each key every entry counts. -/
theorem get?_of_mem {t : Table κ α} (ht : t.keys.Nodup) {k : κ} {a : α}
    (h : (k, a) ∈ t.entries) : t.get? k = some a := by
  obtain ⟨before, later, heq⟩ := List.append_of_mem h
  have hbefore : ∀ e ∈ before, ¬ e.1 = k := by
    intro e he hk
    rw [keys, heq, List.map_append, List.map_cons] at ht
    have hdisjoint := (List.nodup_append.mp ht).2.2
    exact hdisjoint e.1 (List.mem_map_of_mem he) k List.mem_cons_self hk
  have hnone : before.find? (fun e => e.1 = k) = none :=
    List.find?_eq_none.mpr fun e he => by simpa using hbefore e he
  rw [get?, heq, List.find?_append, hnone, Option.none_or, List.find?_cons_of_pos (by simp),
    Option.map_some]

end Table

end AchCourier
