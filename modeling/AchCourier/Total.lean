/-!
# Totals

Controls, hashes and counts are sums of natural numbers.  A total is `List.sum` with the addition
and the zero that belong to natural numbers themselves, so that it is one and the same sum wherever
other additions are known.

## Main definitions

* `total` — the sum of numbers.
-/

namespace AchCourier

/-- The sum of numbers. -/
def total (ns : List Nat) : Nat :=
  @List.sum Nat instAddNat Zero.ofOfNat0 ns

@[simp] theorem total_nil : total [] = 0 := List.sum_nil

@[simp] theorem total_cons (n : Nat) (ns : List Nat) : total (n :: ns) = n + total ns :=
  List.sum_cons

@[simp] theorem total_append (ms ns : List Nat) : total (ms ++ ns) = total ms + total ns :=
  List.sum_append_nat

theorem total_eq_zero_iff {ns : List Nat} : total ns = 0 ↔ ∀ n ∈ ns, n = 0 :=
  List.sum_eq_zero_iff_forall_eq_nat

end AchCourier
