import AchCourier.Proofs.Text.Trim
import AchCourier.Text.Base64

/-!
# Bytes survive their base64

Every group of three bytes, and each of the two shorter groups at the end, is read back from its
four characters; so a text has the bytes that were written, and different bytes have different
texts.  The characters of a text are never blank.

## Main results

* `value?_digit` — a character stands for its number.
* `group?_three`, `group?_two`, `group?_one` — groups are read back.
* `decodeJoined?_encode` — **bytes survive their base64.**
* `isBlank_of_mem_encode` — texts are words.
-/

namespace AchCourier.Base64

/-! ### Characters -/

theorem value?_digit {n : Nat} (h : n < 64) : value? (digit n) = some n := by
  revert n
  decide +kernel

theorem digit_mod (n : Nat) : digit (n % 64) = digit n := by
  rw [digit, digit, Nat.mod_mod]

/-- No number is written as padding, and none as a blank. -/
theorem digit_ne_padding (n : Nat) : digit n ≠ '=' := by
  have hall : ∀ n < 64, digit n ≠ '=' := by decide +kernel
  rw [← digit_mod]
  exact hall _ (Nat.mod_lt n (by decide))

theorem isBlank_digit (n : Nat) : Text.isBlank (digit n) = false := by
  have hall : ∀ n < 64, Text.isBlank (digit n) = false := by decide +kernel
  rw [← digit_mod]
  exact hall _ (Nat.mod_lt n (by decide))

/-! ### Groups -/

section
variable (a b c : UInt8)

theorem group?_one :
    group? (digit (a.toNat / 4)) (digit (a.toNat % 4 * 16)) '=' '=' = some [a] := by
  have ha := a.toNat_lt
  have hx : a.toNat / 4 < 64 := by omega
  have hy : a.toNat % 4 * 16 < 64 := by omega
  have hfirst : a.toNat / 4 * 4 + a.toNat % 4 * 16 / 16 = a.toNat := by omega
  have hzero : a.toNat % 4 * 16 % 16 = 0 := by omega
  simp only [group?, value?_digit hx, value?_digit hy, Option.bind_eq_bind, Option.bind_some,
    if_true, hfirst, hzero, and_self, Nat.toUInt8_eq, UInt8.ofNat_toNat]

theorem group?_two :
    group? (digit (a.toNat / 4)) (digit (a.toNat % 4 * 16 + b.toNat / 16))
      (digit (b.toNat % 16 * 4)) '=' = some [a, b] := by
  -- four digits of six bits each are three bytes, so only the arithmetic is left
  have ha := a.toNat_lt
  have hb := b.toNat_lt
  have hx : a.toNat / 4 < 64 := by omega
  have hy : a.toNat % 4 * 16 + b.toNat / 16 < 64 := by omega
  have hz : b.toNat % 16 * 4 < 64 := by omega
  have hfirst : a.toNat / 4 * 4 + (a.toNat % 4 * 16 + b.toNat / 16) / 16 = a.toNat := by omega
  have hsecond : (a.toNat % 4 * 16 + b.toNat / 16) % 16 * 16 + b.toNat % 16 * 4 / 4 = b.toNat := by
    omega
  have hzero : b.toNat % 16 * 4 % 4 = 0 := by omega
  simp only [group?, value?_digit hx, value?_digit hy, value?_digit hz, Option.bind_eq_bind,
    Option.bind_some, digit_ne_padding, if_true, if_false, hfirst, hsecond, hzero,
    Nat.toUInt8_eq, UInt8.ofNat_toNat]

theorem group?_three :
    group? (digit (a.toNat / 4)) (digit (a.toNat % 4 * 16 + b.toNat / 16))
      (digit (b.toNat % 16 * 4 + c.toNat / 64)) (digit c.toNat) = some [a, b, c] := by
  have ha := a.toNat_lt
  have hb := b.toNat_lt
  have hc := c.toNat_lt
  have hx : a.toNat / 4 < 64 := by omega
  have hy : a.toNat % 4 * 16 + b.toNat / 16 < 64 := by omega
  have hz : b.toNat % 16 * 4 + c.toNat / 64 < 64 := by omega
  have hw : c.toNat % 64 < 64 := by omega
  have hfirst : a.toNat / 4 * 4 + (a.toNat % 4 * 16 + b.toNat / 16) / 16 = a.toNat := by omega
  have hsecond : (a.toNat % 4 * 16 + b.toNat / 16) % 16 * 16 +
      (b.toNat % 16 * 4 + c.toNat / 64) / 4 = b.toNat := by
    omega
  have hthird : (b.toNat % 16 * 4 + c.toNat / 64) % 4 * 64 + c.toNat % 64 = c.toNat := by omega
  rw [← digit_mod c.toNat]
  simp only [group?, value?_digit hx, value?_digit hy, value?_digit hz, value?_digit hw,
    Option.bind_eq_bind, Option.bind_some, digit_ne_padding, if_false, hfirst, hsecond, hthird,
    Nat.toUInt8_eq, UInt8.ofNat_toNat]

end

/-! ### Texts -/

/-- **Bytes survive their base64.** -/
theorem decodeJoined?_encode (bs : Bytes) : decodeJoined? (encode bs) = some bs := by
  fun_induction encode bs with
  | case1 => rfl
  | case2 a => simp [decodeJoined?, group?_one]
  | case3 a b => simp [decodeJoined?, group?_two]
  | case4 a b c rest ih => simp [decodeJoined?, group?_three, ih]

theorem encode_injective {bs cs : Bytes} (h : encode bs = encode cs) : bs = cs := by
  have hread : decodeJoined? (encode bs) = decodeJoined? (encode cs) := by rw [h]
  rw [decodeJoined?_encode, decodeJoined?_encode] at hread
  exact Option.some.inj hread

theorem encode_ne_nil {bs : Bytes} (h : bs ≠ []) : encode bs ≠ [] := by
  intro hnil
  rw [← encode] at hnil
  exact h (encode_injective hnil)

/-- The characters of a text are digits and padding. -/
theorem isBlank_of_mem_encode (bs : Bytes) : ∀ c ∈ encode bs, Text.isBlank c = false := by
  have hpadding : Text.isBlank '=' = false := by decide
  fun_induction encode bs with
  | case1 => exact List.forall_mem_nil _
  | case2 a => simp [isBlank_digit, hpadding]
  | case3 a b => simp [isBlank_digit, hpadding]
  | case4 a b c rest ih =>
    rw [List.forall_mem_append]
    exact ⟨by simp [isBlank_digit], ih⟩

end AchCourier.Base64
