import AchCourier.Json.Reader
import AchCourier.Json.Writer
import Mathlib.Data.List.Basic
import Mathlib.Tactic.SplitIfs

/-!
# Strings and integers of JSON read back

A written string is read back, whatever characters are in it: an escape stands for its character,
and no character is a surrogate.  A written integer is read back when it has 64 bits; otherwise its
digits are kept as they are.  What follows an integer must not continue it.

## Main definitions

* `Ends` — what may follow a value: nothing, a blank, a comma, or a closing bracket or brace.
* `integer` — the value that the digits of an integer spell.

## Main results

* `stringBody_flatMap_escapeChar`, `joinSurrogates_map_toNat` — **strings are read back.**
* `number_digits` — **integers are read back.**
-/

namespace AchCourier.Json

/-! ### Strings -/

theorem digitValue?_digitChar {k : ℕ} (h : k < 16) :
    Text.digitValue? (Nat.digitChar k) = some k := by
  revert k
  decide

/-- An escape of one letter. -/
theorem stringBody_short {letter c : Char} (h : shortEscape? letter = some c) (cs : List Char) :
    stringBody ('\\' :: letter :: cs) = (stringBody cs).map fun r => (c.toNat :: r.1, r.2) := by
  have hu : letter ≠ 'u' := by
    rintro rfl
    cases h
  rw [stringBody, h]
  · cases stringBody cs <;> rfl
  · exact fun _ _ _ _ _ heq _ => hu heq

/-- A control character is escaped by its number. -/
theorem stringBody_control {c : Char} (h : c.toNat < 0x20) (cs : List Char) :
    stringBody ('\\' :: 'u' :: '0' :: '0' :: Nat.digitChar (c.toNat / 16) ::
      Nat.digitChar (c.toNat % 16) :: cs) =
        (stringBody cs).map fun r => (c.toNat :: r.1, r.2) := by
  have hzero : Text.digitValue? '0' = some 0 := rfl
  have hnumber : ((0 * 16 + 0) * 16 + c.toNat / 16) * 16 + c.toNat % 16 = c.toNat := by omega
  rw [stringBody, hzero, digitValue?_digitChar (by omega), digitValue?_digitChar (by omega)]
  simp only [Option.bind_eq_bind, Option.bind_some, hnumber]
  cases stringBody cs <;> rfl

/-- A character that needs no escape. -/
theorem stringBody_cons {c : Char} (hquote : c ≠ '"') (hslash : c ≠ '\\')
    (hcontrol : ¬ c.toNat < 0x20) (cs : List Char) :
    stringBody (c :: cs) = (stringBody cs).map fun r => (c.toNat :: r.1, r.2) := by
  rw [stringBody, if_neg (not_or.mpr ⟨hcontrol, hslash⟩)]
  · cases stringBody cs <;> rfl
  · exact hquote
  · exact fun _ _ _ _ _ heq _ => hslash heq
  · exact fun _ _ heq _ => hslash heq

/-- **An escape stands for its character.** -/
theorem stringBody_escapeChar (c : Char) (cs : List Char) :
    stringBody (escapeChar c ++ cs) = (stringBody cs).map fun r => (c.toNat :: r.1, r.2) := by
  unfold escapeChar
  -- a short escape, the number of a control character, or the character itself
  split_ifs with h1 h2 h3 h4 h5 h6 h7 h8
  · subst h1; exact stringBody_short rfl cs
  · subst h2; exact stringBody_short rfl cs
  · subst h3; exact stringBody_short rfl cs
  · subst h4; exact stringBody_short rfl cs
  · subst h5; exact stringBody_short rfl cs
  · subst h6; exact stringBody_short rfl cs
  · subst h7; exact stringBody_short rfl cs
  · exact stringBody_control h8 cs
  · exact stringBody_cons h1 h2 h8 cs

/-- The characters of a string are read back up to its closing quote. -/
theorem stringBody_flatMap_escapeChar (cs rest : List Char) :
    stringBody (cs.flatMap escapeChar ++ '"' :: rest) = some (cs.map Char.toNat, rest) := by
  induction cs with
  | nil => rw [List.flatMap_nil, List.nil_append, stringBody, List.map_nil]
  | cons c cs ih =>
    rw [List.flatMap_cons, List.append_assoc, stringBody_escapeChar, ih, List.map_cons]
    rfl

/-- No character is a surrogate. -/
theorem not_surrogate (c : Char) :
    isHighSurrogate c.toNat = false ∧ isLowSurrogate c.toNat = false := by
  have hvalid : c.toNat < 0xD800 ∨ 0xDFFF < c.toNat ∧ c.toNat < 0x110000 := c.valid
  simp only [isHighSurrogate, isLowSurrogate, Bool.and_eq_false_iff, decide_eq_false_iff_not]
  omega

theorem joinSurrogates_map_toNat (cs : List Char) :
    joinSurrogates (cs.map Char.toNat) = some cs := by
  induction cs with
  | nil => rfl
  | cons c cs ih =>
    obtain ⟨hhigh, hlow⟩ := not_surrogate c
    cases cs with
    | nil => simp [joinSurrogates, hhigh, hlow]
    | cons d cs =>
      rw [List.map_cons] at ih
      simp [joinSurrogates, hhigh, hlow, ih]

/-! ### Integers -/

/-- What may follow a value: nothing, a blank, a comma, or a closing bracket or brace. -/
def Ends (rest : List Char) : Prop :=
  ∀ c ∈ rest.head?, isBlank c = true ∨ c = ',' ∨ c = ']' ∨ c = '\x7d'

theorem isBlank_iff {c : Char} :
    isBlank c = true ↔ c = ' ' ∨ c = '\n' ∨ c = '\t' ∨ c = '\r' := by
  simp only [isBlank, Bool.or_eq_true, beq_iff_eq, or_assoc]

/-- The value that the digits of an integer spell: an integer of 64 bits, or the digits. -/
def integer (n : Int) : Json :=
  if -Int.pow 2 63 ≤ n ∧ n < Int.pow 2 64 then .int n else .real (String.ofList (digits n))

theorem isDigit_of_mem_toDigits {n : ℕ} : ∀ c ∈ Nat.toDigits 10 n, c.isDigit = true :=
  fun _ hc => Nat.isDigit_of_mem_toDigits (by decide) (by decide) hc

/-- The first digit is a zero only if it is the only one. -/
theorem toDigits_ne_zero_cons (n : ℕ) : ∀ d ds, Nat.toDigits 10 n ≠ '0' :: d :: ds := by
  induction n using Nat.strongRecOn with
  | ind n ih =>
    intro d ds
    rw [Nat.toDigits_eq_if (by decide)]
    split_ifs with hn
    · simp
    · intro h
      -- the digits but for the last one are those of a tenth of the number
      cases htenth : Nat.toDigits 10 (n / 10) with
      | nil => exact Nat.toDigits_ne_nil htenth
      | cons e es =>
        rw [htenth, List.cons_append, List.cons.injEq] at h
        obtain ⟨rfl, -⟩ := h
        cases es with
        | nil =>
          have hzero : Nat.ofDigitChars 10 (Nat.toDigits 10 (n / 10)) 0 = 0 := by rw [htenth]; rfl
          rw [Nat.ofDigitChars_ten_toDigits] at hzero
          omega
        | cons e' es => exact ih (n / 10) (by omega) e' es htenth

theorem Ends.spanDigits_append {ds rest : List Char} (hds : ∀ c ∈ ds, c.isDigit = true)
    (h : Ends rest) : spanDigits (ds ++ rest) = (ds, rest) := by
  have hrest : ∀ c ∈ rest.head?, c.isDigit = false := by
    intro c hc
    rcases h c hc with hblank | rfl | rfl | rfl
    · rcases isBlank_iff.mp hblank with rfl | rfl | rfl | rfl <;> rfl
    all_goals rfl
  rw [spanDigits, List.takeWhile_append_of_pos hds, List.dropWhile_append_of_pos hds]
  cases rest with
  | nil => simp
  | cons c rest => simp [hrest c rfl]

theorem whole?_toDigits (n : ℕ) {rest : List Char} (h : Ends rest) :
    whole? (Nat.toDigits 10 n ++ rest) = some (Nat.toDigits 10 n, rest) := by
  rw [whole?, h.spanDigits_append isDigit_of_mem_toDigits]
  split
  · next heq => exact absurd (congrArg Prod.fst heq) Nat.toDigits_ne_nil
  · next heq => exact absurd (congrArg Prod.fst heq) (toDigits_ne_zero_cons n _ _)
  · next heq => rw [heq]

/-- Neither a fraction nor an exponent follows. -/
theorem Ends.no_tail {rest : List Char} (h : Ends rest) :
    fraction? rest = some ([], rest) ∧ exponent? rest = some ([], rest) := by
  cases rest with
  | nil => exact ⟨rfl, rfl⟩
  | cons c rest =>
    rcases h c rfl with hblank | rfl | rfl | rfl
    · rcases isBlank_iff.mp hblank with rfl | rfl | rfl | rfl <;> exact ⟨rfl, rfl⟩
    all_goals exact ⟨rfl, rfl⟩

theorem unsigned_toDigits (negative : Bool) (n : ℕ) {rest : List Char} (h : Ends rest) :
    unsigned negative (Nat.toDigits 10 n ++ rest) =
      some (numberOf negative (Nat.toDigits 10 n) [], rest) := by
  rw [unsigned, whole?_toDigits n h]
  simp only [Option.bind_eq_bind, Option.bind_some, h.no_tail.1, h.no_tail.2, List.append_nil]

/-- An integer is read from its digits and its sign. -/
theorem numberOf_toDigits (n : ℕ) : numberOf false (Nat.toDigits 10 n) [] = integer n := by
  have hlow : -Int.pow 2 63 ≤ n := by
    rw [show Int.pow 2 63 = 9223372036854775808 from rfl]
    omega
  have hhigh : n < Nat.pow 2 64 ↔ (n : Int) < Int.pow 2 64 := by
    rw [show Nat.pow 2 64 = 18446744073709551616 from rfl,
      show Int.pow 2 64 = 18446744073709551616 from rfl]
    omega
  simp only [numberOf, integer, Nat.ofDigitChars_ten_toDigits, hhigh, hlow, true_and]
  split_ifs <;> simp_all [digits]

theorem numberOf_neg_toDigits (n : ℕ) :
    numberOf true (Nat.toDigits 10 (n + 1)) [] = integer (.negSucc n) := by
  -- a negative number is an integer down to the least one of 64 bits
  have hlow : n + 1 = 0 ∨ Nat.pow 2 63 < n + 1 ↔ ¬ -Int.pow 2 63 ≤ .negSucc n := by
    rw [show Nat.pow 2 63 = 9223372036854775808 from rfl,
      show Int.pow 2 63 = 9223372036854775808 from rfl]
    omega
  have hhigh : Int.negSucc n < Int.pow 2 64 := by
    rw [show Int.pow 2 64 = 18446744073709551616 from rfl]
    omega
  have hsign : -((n + 1 : ℕ) : Int) = .negSucc n := rfl
  simp only [numberOf, integer, Nat.ofDigitChars_ten_toDigits, hlow, hhigh, and_true, hsign]
  split_ifs <;> simp_all [digits]

/-- **Integers are read back**, up to what follows them. -/
theorem number_digits (n : Int) {rest : List Char} (h : Ends rest) :
    number (digits n ++ rest) = some (integer n, rest) := by
  cases n with
  | ofNat n =>
    -- what is not negative begins with a digit, so no sign is read
    have hsign : ∀ cs, Nat.toDigits 10 n ++ rest ≠ '-' :: cs := by
      intro cs heq
      cases hdigits : Nat.toDigits 10 n with
      | nil => exact Nat.toDigits_ne_nil hdigits
      | cons d ds =>
        rw [hdigits, List.cons_append, List.cons.injEq] at heq
        have hd := isDigit_of_mem_toDigits d (hdigits ▸ List.mem_cons_self)
        rw [heq.1] at hd
        cases hd
    rw [digits, number, unsigned_toDigits false n h, numberOf_toDigits]
    · rfl
    · exact hsign
  | negSucc n =>
    rw [digits, List.cons_append, number, unsigned_toDigits true (n + 1) h, numberOf_neg_toDigits]

end AchCourier.Json
