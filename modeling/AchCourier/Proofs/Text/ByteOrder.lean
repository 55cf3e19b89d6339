import Mathlib.Data.List.Lex
import AchCourier.Text.Utf8

/-!
# Texts in byte order

UTF-8 keeps the order of texts: whether two texts are compared by their characters or by their
bytes makes no difference.  A character with a greater number has the greater bytes, and the bytes
of one character are never the beginning of those of another, so the first character in which two
texts differ decides in either case.

## Main results

* `utf8EncodeChar_append_lt` — a smaller character has the smaller bytes, whatever follows.
* `ofString_le_ofString_iff` — **texts in order are in byte order, and no others are.**
-/

namespace AchCourier.Utf8

theorem ofNat_cons_lt_iff {n m : ℕ} (hn : n < 256) (hm : m < 256) (bs cs : Bytes) :
    UInt8.ofNat n :: bs < UInt8.ofNat m :: cs ↔ n < m ∨ n = m ∧ bs < cs := by
  rw [List.cons_lt_cons_iff, UInt8.lt_iff_toNat_lt, ← UInt8.toNat_inj,
    UInt8.toNat_ofNat_of_lt' hn, UInt8.toNat_ofNat_of_lt' hm]

/-- The first digit in which two numbers differ tells which one is less. -/
theorem digits_lt {n m : ℕ} (h : n < m) (hm : m < 0x200000) :
    n / 262144 % 8 < m / 262144 % 8 ∨ n / 262144 % 8 = m / 262144 % 8 ∧
      (n / 4096 % 64 < m / 4096 % 64 ∨ n / 4096 % 64 = m / 4096 % 64 ∧
        (n / 64 % 64 < m / 64 % 64 ∨ n / 64 % 64 = m / 64 % 64 ∧ n % 64 < m % 64)) := by
  have hdigit : ∀ {a b : ℕ}, a < b → a / 64 < b / 64 ∨ a / 64 = b / 64 ∧ a % 64 < b % 64 := by
    omega
  have hn8 : n / 262144 % 8 = n / 64 / 64 / 64 := by omega
  have hm8 : m / 262144 % 8 = m / 64 / 64 / 64 := by omega
  have hn64 : n / 4096 = n / 64 / 64 := by omega
  have hm64 : m / 4096 = m / 64 / 64 := by omega
  rw [hn8, hm8, hn64, hm64]
  -- the first digit that differs decides
  rcases hdigit h with h | ⟨heq, hlast⟩
  · rcases hdigit h with h | ⟨heq, hthird⟩
    · rcases hdigit h with h | ⟨heq, hsecond⟩
      · exact Or.inl h
      · exact Or.inr ⟨heq, Or.inl hsecond⟩
    · exact Or.inr ⟨by rw [heq], Or.inr ⟨by rw [heq], Or.inl hthird⟩⟩
  · rw [heq]
    exact Or.inr ⟨rfl, Or.inr ⟨rfl, Or.inr ⟨rfl, hlast⟩⟩⟩

/-- **A smaller character has the smaller bytes**, whatever follows. -/
theorem utf8EncodeChar_append_lt {c d : Char} (h : c < d) (bs cs : Bytes) :
    String.utf8EncodeChar c ++ bs < String.utf8EncodeChar d ++ cs := by
  have hlt : c.val.toNat < d.val.toNat := h
  have hmost : d.val.toNat < 0x200000 := by
    have hvalid := d.valid
    simp only [UInt32.isValidChar, Nat.isValidChar] at hvalid
    omega
  dsimp only [String.utf8EncodeChar]
  by_cases hlong : 65535 < c.val.toNat
  · -- both have four bytes, and their digits tell them apart
    rw [if_neg (by omega), if_neg (by omega), if_neg (by omega), if_neg (by omega),
      if_neg (by omega), if_neg (by omega)]
    simp (disch := omega) only [List.cons_append, List.nil_append, ofNat_cons_lt_iff,
      Nat.add_lt_add_iff_right, Nat.add_right_cancel_iff]
    rcases digits_lt hlt hmost with h | ⟨hfirst, h | ⟨hsecond, h | ⟨hthird, h⟩⟩⟩
    · exact Or.inl h
    · exact Or.inr ⟨hfirst, Or.inl h⟩
    · exact Or.inr ⟨hfirst, Or.inr ⟨hsecond, Or.inl h⟩⟩
    · exact Or.inr ⟨hfirst, Or.inr ⟨hsecond, Or.inr ⟨hthird, Or.inl h⟩⟩⟩
  · -- a character with more bytes begins with a greater one, and few digits are soon compared
    split_ifs <;>
      simp (disch := omega) only [List.cons_append, List.nil_append, ofNat_cons_lt_iff] <;> omega

theorem encode_lt_encode {cs ds : List Char} (h : cs < ds) : encode cs < encode ds := by
  -- by induction on the text in front: the first character that differs decides
  induction cs generalizing ds with
  | nil =>
    cases ds with
    | nil => exact absurd h (List.lt_irrefl _)
    | cons d ds =>
      obtain ⟨b, bs, hd⟩ := List.exists_cons_of_ne_nil (String.utf8EncodeChar_ne_nil (c := d))
      show [] < (d :: ds).flatMap String.utf8EncodeChar
      rw [List.flatMap_cons, hd]
      exact List.nil_lt_cons _ _
  | cons c cs ih =>
    cases ds with
    | nil => exact absurd h (List.not_lt_nil _)
    | cons d ds =>
      rw [encode, encode, List.flatMap_cons, List.flatMap_cons]
      rcases List.cons_lt_cons_iff.mp h with hlt | ⟨rfl, hlt⟩
      · exact utf8EncodeChar_append_lt hlt _ _
      · exact List.append_left_lt (ih hlt)

/-- **Texts in order are in byte order**, and no others are. -/
theorem ofString_le_ofString_iff {a b : String} : ofString a ≤ ofString b ↔ a ≤ b := by
  constructor
  · intro h
    by_contra hlt
    exact h (encode_lt_encode (String.lt_iff.mp (String.not_le.mp hlt)))
  · intro h
    rcases Std.le_iff_lt_or_eq.mp h with hlt | rfl
    · exact List.le_of_lt (encode_lt_encode (String.lt_iff.mp hlt))
    · exact List.le_refl _

end AchCourier.Utf8
