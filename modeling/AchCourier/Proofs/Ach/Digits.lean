import AchCourier.Proofs.Ach.Places
import AchCourier.Proofs.Ach.Rules
import Mathlib.Data.Nat.ModEq

/-!
# One other digit

A line with another digit in one of its columns shows another number wherever that column belongs to
a number, and the same in all columns that do not hold the digit.  A routing number with another
digit has another check digit, because the weights of its places have no divisor in common with ten.

## Main definitions

* `DigitChanged` — a line with another digit in a column.

## Main results

* `DigitChanged.cut_eq`, `DigitChanged.naturalAt_ne` — columns without and with the digit.
* `checkDigit?_ne` — **a digit changes the check digit.**
* `DigitChanged.not_in_rdfi`, `DigitChanged.not_in_checkDigit` — so a digit of a routing number and
  a check digit cannot be changed between two entries that pass their checks.
-/

namespace AchCourier.Ach

/-! ### Digits in a line -/

/-- The second line is the first one with another digit in the given column. -/
def DigitChanged (column : Nat) (line line' : List Char) : Prop :=
  ∃ left c c' right, line = left ++ c :: right ∧ line' = left ++ c' :: right ∧
    column = left.length + 1 ∧ c.isDigit = true ∧ c'.isDigit = true ∧ c ≠ c'

theorem digitValue_lt {c : Char} (h : c.isDigit = true) : digitValue c < 10 := by
  have h₉ : c.toNat ≤ 57 := (Char.isDigit_iff_toNat.mp h).2
  have h₀ : '0'.toNat = 48 := rfl
  rw [digitValue]
  omega

theorem digitValue_inj {c c' : Char} (h : c.isDigit = true) (h' : c'.isDigit = true)
    (heq : digitValue c = digitValue c') : c = c' := by
  have h₀ : '0'.toNat ≤ c.toNat := (Char.isDigit_iff_toNat.mp h).1
  have h₀' : '0'.toNat ≤ c'.toNat := (Char.isDigit_iff_toNat.mp h').1
  rw [digitValue, digitValue] at heq
  exact Char.toNat_inj.mp (by omega)

/-- A digit counts as often as its place says, whatever stands around it. -/
theorem ofDigitChars_append_cons (left right : List Char) (c : Char) :
    Nat.ofDigitChars 10 (left ++ c :: right) 0 =
      10 ^ right.length * (10 * Nat.ofDigitChars 10 left 0 + digitValue c) +
        Nat.ofDigitChars 10 right 0 := by
  rw [Nat.ofDigitChars_append, Nat.ofDigitChars_cons, Nat.ofDigitChars_eq_ofDigitChars_zero,
    digitValue]

/-- What a number shows that has a digit in it. -/
theorem naturalAt_eq_of_trim {first last : Nat} {line left right : List Char} {c : Char}
    (htrim : Text.trim (cut first last line) = left ++ c :: right)
    (hn : IsNumeric first last line) :
    naturalAt first last line = Nat.ofDigitChars 10 (left ++ c :: right) 0 := by
  have hempty : (left ++ c :: right).isEmpty = false := by simp
  rw [IsNumeric, naturalAt?, htrim, shownNumber?, hempty, if_neg Bool.false_ne_true] at hn
  rw [naturalAt, naturalAt?, htrim, shownNumber?, hempty, if_neg Bool.false_ne_true]
  split at hn
  · next hdigits => rw [if_pos hdigits, Option.getD_some]
  · cases hn

namespace DigitChanged

variable {k : Nat} {line line' : List Char} (h : DigitChanged k line line')
include h

/-- Columns that do not hold the digit are the same. -/
theorem cut_eq {first last : Nat} (hout : last < k ∨ k < first) :
    cut first last line = cut first last line' := by
  obtain ⟨left, c, c', right, rfl, rfl, rfl, -, -, -⟩ := h
  exact cut_append_cons_of_outside hout c c'

theorem textAt_eq {first last : Nat} (hout : last < k ∨ k < first) :
    textAt first last line = textAt first last line' := by
  rw [textAt, textAt, h.cut_eq hout]

theorem naturalAt_eq {first last : Nat} (hout : last < k ∨ k < first) :
    naturalAt first last line = naturalAt first last line' := by
  rw [naturalAt, naturalAt, naturalAt?, naturalAt?, h.cut_eq hout]

/-- The type of a record stands in front of all columns with numbers. -/
theorem head?_eq (hk : 1 < k) : line.head? = line'.head? := by
  obtain ⟨left, c, c', right, rfl, rfl, rfl, -, -, -⟩ := h
  cases left with
  | nil => exact absurd hk (by decide)
  | cons x left => rfl

/-- Both lines have a digit, so neither of them is blank. -/
theorem not_blank : line.all Text.isBlank = false ∧ line'.all Text.isBlank = false := by
  obtain ⟨left, c, c', right, rfl, rfl, -, hc, hc', -⟩ := h
  constructor
  · exact List.all_eq_false.mpr ⟨c, by simp, by simp [Text.isBlank_of_isDigit hc]⟩
  · exact List.all_eq_false.mpr ⟨c', by simp, by simp [Text.isBlank_of_isDigit hc']⟩

variable {first last : Nat} (hfirst : first ≤ k) (hlast : k ≤ last)
include hfirst hlast

/-- Columns that hold the digit hold one other digit after trimming as well. -/
theorem exists_trim_eq :
    ∃ left c c' right, Text.trim (cut first last line) = left ++ c :: right ∧
      Text.trim (cut first last line') = left ++ c' :: right ∧
      c.isDigit = true ∧ c'.isDigit = true ∧ c ≠ c' := by
  obtain ⟨left, c, c', right, rfl, rfl, rfl, hc, hc', hne⟩ := h
  have htrim : ∀ x : Char, x.isDigit = true →
      Text.trim (cut first last (left ++ x :: right)) =
        Text.trimStart (left.drop (first - 1)) ++
          x :: Text.trimEnd (right.take (last - (left.length + 1))) := by
    intro x hx
    rw [cut_append_cons hfirst hlast, Text.trim_append_cons (Text.isBlank_of_isDigit hx)]
  exact ⟨_, c, c', _, htrim c hc, htrim c' hc', hc, hc', hne⟩

theorem textAt_ne : textAt first last line ≠ textAt first last line' := by
  obtain ⟨left, c, c', right, htrim, htrim', -, -, hne⟩ := h.exists_trim_eq hfirst hlast
  rw [textAt, textAt, htrim, htrim']
  intro heq
  have hcons := List.append_cancel_left (String.ofList_injective heq)
  exact hne (List.cons.inj hcons).1

/-- **A digit changes the number that it stands in.** -/
theorem naturalAt_ne (hn : IsNumeric first last line) (hn' : IsNumeric first last line') :
    naturalAt first last line ≠ naturalAt first last line' := by
  obtain ⟨left, c, c', right, htrim, htrim', hc, hc', hne⟩ := h.exists_trim_eq hfirst hlast
  rw [naturalAt_eq_of_trim htrim hn, naturalAt_eq_of_trim htrim' hn', ofDigitChars_append_cons,
    ofDigitChars_append_cons]
  intro heq
  have hplace := Nat.eq_of_mul_eq_mul_left (Nat.pow_pos (by decide)) (Nat.add_right_cancel heq)
  exact hne (digitValue_inj hc hc' (Nat.add_left_cancel hplace))

end DigitChanged

/-! ### Check digits -/

/-- The weight of every place has no divisor in common with ten. -/
theorem gcd_routingWeight {w : Nat} (h : w ∈ routingWeights) : Nat.gcd 10 w = 1 := by
  revert w
  decide

/-- The weighted sum of digits, with one of them singled out. -/
theorem exists_weightedSum_eq {left right : List Char} :
    ∀ {weights : List Nat}, left.length < weights.length →
      ∃ w ∈ weights, ∃ others, ∀ c,
        total (List.zipWith (fun c w => digitValue c * w) (left ++ c :: right) weights) =
          digitValue c * w + others := by
  -- by induction on what is in front, which takes one weight for each of its characters
  induction left with
  | nil =>
    rintro (_ | ⟨w, weights⟩) h
    · exact absurd h (Nat.lt_irrefl 0)
    · exact ⟨w, List.mem_cons_self, _, fun c => rfl⟩
  | cons d left ih =>
    rintro (_ | ⟨w, weights⟩) h
    · exact absurd h (Nat.not_lt_zero _)
    · obtain ⟨w', hw', others, hsum⟩ := ih (Nat.lt_of_succ_lt_succ h)
      refine ⟨w', List.mem_cons_of_mem w hw', digitValue d * w + others, fun c => ?_⟩
      rw [List.cons_append, List.zipWith_cons_cons, total_cons, hsum, Nat.add_left_comm]

/-- **A digit changes the check digit of the routing number that it stands in.** -/
theorem checkDigit?_ne {left right : List Char} {c c' : Char} (hc : c.isDigit = true)
    (hc' : c'.isDigit = true) (hne : c ≠ c') {routing routing' : String}
    (h : routing.toList = left ++ c :: right) (h' : routing'.toList = left ++ c' :: right)
    {d d' : Nat} (hd : checkDigit? routing = some d) (hd' : checkDigit? routing' = some d') :
    d ≠ d' := by
  rw [checkDigit?, h] at hd
  rw [checkDigit?, h'] at hd'
  split at hd
  swap; · cases hd
  next hdigits =>
  split at hd'
  swap; · cases hd'
  have hlength : left.length < routingWeights.length := by
    have h8 := hdigits.1
    rw [List.length_append, List.length_cons] at h8
    have hweights : routingWeights.length = 8 := rfl
    omega
  obtain ⟨w, hw, others, hsum⟩ := @exists_weightedSum_eq left right routingWeights hlength
  rw [hsum, Option.some.injEq] at hd hd'
  rintro rfl
  -- equal check digits mean equal sums modulo ten, and the weight can be cancelled there
  have hmod : digitValue c * w + others ≡ digitValue c' * w + others [MOD 10] := by
    rw [Nat.ModEq]
    omega
  have hdigit : digitValue c ≡ digitValue c' [MOD 10] :=
    (hmod.add_right_cancel' others).cancel_right_of_coprime (gcd_routingWeight hw)
  rw [Nat.ModEq, Nat.mod_eq_of_lt (digitValue_lt hc),
    Nat.mod_eq_of_lt (digitValue_lt hc')] at hdigit
  exact hne (digitValue_inj hc hc' hdigit)

theorem checkDigit?_isSome {routing : String} (h : IsDigits 8 routing) :
    ∃ d, checkDigit? routing = some d := by
  rw [checkDigit?]
  exact ⟨_, if_pos h⟩

namespace DigitChanged

variable {k : Nat} {line line' : List Char} (h : DigitChanged k line line')
  (hpass : Entry.complaints line = []) (hpass' : Entry.complaints line' = [])
include h hpass hpass'

/-- A wrong digit in a routing number does not go with the check digit. -/
theorem not_in_rdfi : ¬ (4 ≤ k ∧ k ≤ 11) := by
  rintro ⟨h4, h11⟩
  have hvalid := (Entry.complaints_eq_nil_iff.mp hpass).2
  have hvalid' := (Entry.complaints_eq_nil_iff.mp hpass').2
  obtain ⟨left, c, c', right, htrim, htrim', hc, hc', hne⟩ := h.exists_trim_eq h4 h11
  obtain ⟨d, hd⟩ := checkDigit?_isSome hvalid.rdfi
  obtain ⟨d', hd'⟩ := checkDigit?_isSome hvalid'.rdfi
  have hdigit : (Entry.ofLine line).checkDigit = (Entry.ofLine line').checkDigit :=
    h.textAt_eq (Or.inr (by omega))
  rw [hvalid.checkDigit d hd, hvalid'.checkDigit d' hd'] at hdigit
  -- the columns hold the decimal text of the digit, and reading it gives the digit back
  have hsame : d = d' := by
    have hread := congrArg (fun s : String => Nat.ofDigitChars 10 s.toList 0) hdigit
    simpa using hread
  have hrdfi : (Entry.ofLine line).rdfiIdentification.toList = left ++ c :: right := by
    rw [Entry.ofLine, textAt, htrim, String.toList_ofList]
  have hrdfi' : (Entry.ofLine line').rdfiIdentification.toList = left ++ c' :: right := by
    rw [Entry.ofLine, textAt, htrim', String.toList_ofList]
  exact checkDigit?_ne hc hc' hne hrdfi hrdfi' hd hd' hsame

/-- A wrong check digit does not go with the routing number. -/
theorem not_in_checkDigit : k ≠ 12 := by
  rintro rfl
  have hvalid := (Entry.complaints_eq_nil_iff.mp hpass).2
  have hvalid' := (Entry.complaints_eq_nil_iff.mp hpass').2
  obtain ⟨d, hd⟩ := checkDigit?_isSome hvalid.rdfi
  -- the routing number stands elsewhere, so both records ask for the same digit
  have hrouting :
      (Entry.ofLine line).rdfiIdentification = (Entry.ofLine line').rdfiIdentification :=
    h.textAt_eq (Or.inl (by decide))
  have hdigit := hvalid.checkDigit d hd
  rw [hrouting] at hd
  rw [← hvalid'.checkDigit d hd] at hdigit
  exact h.textAt_ne (by decide) (by decide) hdigit

end DigitChanged

end AchCourier.Ach
