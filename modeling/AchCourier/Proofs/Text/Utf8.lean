import AchCourier.Text.Utf8
import Mathlib.Tactic.SplitIfs

/-!
# Texts survive their bytes

The first byte of a character says how many more belong to it, and each of those carries six bits.
Where a first byte narrows the range of the second one, it excludes what would be a surrogate, a
number beyond the last character, or a character that fewer bytes can hold; so the bytes of a
character are always in range, and they are read back as that character.

## Main results

* `start_two`, `start_three`, `start_four` — what a first byte announces.
* `units_utf8EncodeChar_append` — the bytes of a character are read as that character.
* `decodeLossy_encode`, `decode?_encode` — **texts survive their bytes.**
* `length_le_of_decode?` — a text has no more characters than bytes.
-/

namespace AchCourier.Utf8

/-! ### First bytes -/

theorem start_one {n : Nat} (h : n < 0x80) :
    start (UInt8.ofNat n) = ([some (Char.ofNat n)], none) := by
  revert n
  decide +kernel

/-- One more byte belongs to the character. -/
theorem start_two {n : Nat} (hle : 0xC2 ≤ n) (hge : n ≤ 0xDF) :
    start (UInt8.ofNat n) = ([], some ⟨n % 32, 0, 0x80, 0xBF⟩) := by
  have hall : ∀ n < 0xE0, 0xC2 ≤ n →
      start (UInt8.ofNat n) = ([], some ⟨n % 32, 0, 0x80, 0xBF⟩) := by decide +kernel
  exact hall n (by omega) hle

/-- Two more bytes belong to the character. -/
theorem start_three {n : Nat} (hle : 0xE0 ≤ n) (hge : n ≤ 0xEF) :
    start (UInt8.ofNat n) = ([], some ⟨n % 16, 1, if n = 0xE0 then 0xA0 else 0x80,
      if n = 0xED then 0x9F else 0xBF⟩) := by
  have hall : ∀ n < 0xF0, 0xE0 ≤ n →
      start (UInt8.ofNat n) = ([], some ⟨n % 16, 1, if n = 0xE0 then 0xA0 else 0x80,
        if n = 0xED then 0x9F else 0xBF⟩) := by decide +kernel
  exact hall n (by omega) hle

/-- Three more bytes belong to the character. -/
theorem start_four {n : Nat} (hle : 0xF0 ≤ n) (hge : n ≤ 0xF4) :
    start (UInt8.ofNat n) = ([], some ⟨n % 8, 2, if n = 0xF0 then 0x90 else 0x80,
      if n = 0xF4 then 0x8F else 0xBF⟩) := by
  have hall : ∀ n < 0xF5, 0xF0 ≤ n →
      start (UInt8.ofNat n) = ([], some ⟨n % 8, 2, if n = 0xF0 then 0x90 else 0x80,
        if n = 0xF4 then 0x8F else 0xBF⟩) := by decide +kernel
  exact hall n (by omega) hle

/-! ### Further bytes -/

section
variable {bits k : Nat} {least greatest : UInt8} (hk : k < 64) (hle : least.toNat ≤ k + 0x80)
  (hge : k + 0x80 ≤ greatest.toNat)
include hk hle hge

/-- The byte is in range, and it brings six bits. -/
theorem range_and_bits :
    (least ≤ UInt8.ofNat (k + 0x80) ∧ UInt8.ofNat (k + 0x80) ≤ greatest) ∧
      (UInt8.ofNat (k + 0x80)).toNat % 64 = k := by
  have hbyte : (UInt8.ofNat (k + 0x80)).toNat = k + 0x80 :=
    UInt8.toNat_ofNat_of_lt' (by rw [UInt8.size]; omega)
  rw [UInt8.le_iff_toNat_le, UInt8.le_iff_toNat_le, hbyte]
  exact ⟨⟨hle, hge⟩, by omega⟩

/-- The last byte of a character. -/
theorem units_last (bs : Bytes) :
    units (some ⟨bits, 0, least, greatest⟩) (UInt8.ofNat (k + 0x80) :: bs) =
      some (Char.ofNat (bits * 64 + k)) :: units none bs := by
  obtain ⟨hrange, hbits⟩ := range_and_bits hk hle hge
  have hadvance : advance ⟨bits, 0, least, greatest⟩ (UInt8.ofNat (k + 0x80)) =
      ([some (Char.ofNat (bits * 64 + k))], none) := by
    rw [advance, if_pos hrange, hbits]
  rw [units]
  simp only [hadvance]
  rfl

/-- A byte that is followed by more of the same character. -/
theorem units_more (more : Nat) (bs : Bytes) :
    units (some ⟨bits, more + 1, least, greatest⟩) (UInt8.ofNat (k + 0x80) :: bs) =
      units (some ⟨bits * 64 + k, more, 0x80, 0xBF⟩) bs := by
  obtain ⟨hrange, hbits⟩ := range_and_bits hk hle hge
  have hadvance : advance ⟨bits, more + 1, least, greatest⟩ (UInt8.ofNat (k + 0x80)) =
      ([], some ⟨bits * 64 + k, more, 0x80, 0xBF⟩) := by
    rw [advance, if_pos hrange, hbits]
  rw [units]
  simp only [hadvance]
  rfl

end

/-! ### Characters and texts -/

theorem units_of_start {b : UInt8} {p : Pending} (h : start b = ([], some p)) (bs : Bytes) :
    units none (b :: bs) = units (some p) bs := by
  rw [units]
  simp only [h]
  rfl

/-- **The bytes of a character are read as that character.** -/
theorem units_utf8EncodeChar_append (c : Char) (bs : Bytes) :
    units none (String.utf8EncodeChar c ++ bs) = some c :: units none bs := by
  have hvalid : c.toNat < 0xD800 ∨ 0xDFFF < c.toNat ∧ c.toNat < 0x110000 := c.valid
  have hchar : ∀ n, n = c.toNat → Char.ofNat n = c := by
    rintro _ rfl
    exact Char.ofNat_toNat c
  have hbytes : String.utf8EncodeChar c =
      if c.toNat ≤ 0x7F then [UInt8.ofNat c.toNat]
      else if c.toNat ≤ 0x7FF then
        [UInt8.ofNat (c.toNat / 64 % 32 + 0xC0), UInt8.ofNat (c.toNat % 64 + 0x80)]
      else if c.toNat ≤ 0xFFFF then
        [UInt8.ofNat (c.toNat / 4096 % 16 + 0xE0), UInt8.ofNat (c.toNat / 64 % 64 + 0x80),
          UInt8.ofNat (c.toNat % 64 + 0x80)]
      else
        [UInt8.ofNat (c.toNat / 262144 % 8 + 0xF0), UInt8.ofNat (c.toNat / 4096 % 64 + 0x80),
          UInt8.ofNat (c.toNat / 64 % 64 + 0x80), UInt8.ofNat (c.toNat % 64 + 0x80)] := rfl
  rw [hbytes]
  generalize c.toNat = v at *
  have hlast : v % 64 < 64 := Nat.mod_lt v (by decide)
  have hthird : v / 64 % 64 < 64 := Nat.mod_lt _ (by decide)
  have hsecond : v / 4096 % 64 < 64 := Nat.mod_lt _ (by decide)
  have htail : ∀ k, (0x80 : UInt8).toNat ≤ k + 0x80 := fun k => Nat.le_add_left _ k
  have htail' : ∀ {k}, k < 64 → k + 0x80 ≤ (0xBF : UInt8).toNat := fun hk =>
    Nat.add_le_add_right (Nat.le_of_lt_succ hk) 0x80
  split_ifs with hone htwo hthree
  · rw [List.singleton_append, units]
    simp only [start_one (Nat.lt_succ_of_le hone), hchar v rfl]
    rfl
  all_goals simp only [List.cons_append, List.nil_append]
  · rw [units_of_start (start_two (by omega) (by omega)),
      units_last hlast (htail _) (htail' hlast), hchar _ (by omega)]
  · rw [units_of_start (start_three (by omega) (by omega)),
      units_more hthird, units_last hlast (htail _) (htail' hlast), hchar _ (by omega)]
    -- the second byte is in the range that the first one leaves
    · split <;> simp
      omega
    · split <;> simp <;> omega
  · rw [units_of_start (start_four (by omega) (by omega)),
      units_more hsecond, units_more hthird (htail _) (htail' hthird),
      units_last hlast (htail _) (htail' hlast), hchar _ (by omega)]
    · split <;> simp
      omega
    · split <;> simp <;> omega

theorem units_encode (cs : List Char) : units none (encode cs) = cs.map some := by
  induction cs with
  | nil => rfl
  | cons c cs ih =>
    rw [encode, List.flatMap_cons, units_utf8EncodeChar_append, List.map_cons, ← ih]
    rfl

/-- Where nothing is ill formed, nothing is replaced. -/
theorem decodeLossy_encode (cs : List Char) : decodeLossy (encode cs) = cs := by
  rw [decodeLossy, units_encode, List.map_map]
  exact List.map_id cs

/-- **Texts survive their bytes.** -/
theorem decode?_encode (cs : List Char) : decode? (encode cs) = some (String.ofList cs) := by
  have hall : (cs.map some).mapM id = some cs := by
    induction cs with
    | nil => rfl
    | cons c cs ih => simp [ih]
  rw [decode?, units_encode, hall]
  rfl

/-! ### Lengths -/

/-- A byte stands for at most one unit, now or later. -/
theorem length_start_le (b : UInt8) : (start b).1.length + (start b).2.toList.length ≤ 1 := by
  unfold start
  split_ifs <;> simp

/-- A byte that breaks off a character stands for one unit more, which the bytes before it owe. -/
theorem length_advance_le (p : Pending) (b : UInt8) :
    (advance p b).1.length + (advance p b).2.toList.length ≤ 2 := by
  unfold advance
  split_ifs
  · cases p.more <;> simp
  · have hstart := length_start_le b
    show (none :: (start b).1).length + (start b).2.toList.length ≤ 2
    rw [List.length_cons]
    omega

theorem length_units_le (pending : Option Pending) (bs : Bytes) :
    (units pending bs).length ≤ pending.toList.length + bs.length := by
  -- by induction on the bytes: each of them ends a unit at most, beside the one that was begun
  induction bs generalizing pending with
  | nil => cases pending <;> simp [units]
  | cons b bs ih =>
    cases pending with
    | none =>
      have hstart := length_start_le b
      have hrest := ih (start b).2
      show ((start b).1 ++ units (start b).2 bs).length ≤ 0 + (bs.length + 1)
      rw [List.length_append]
      omega
    | some p =>
      have hadvance := length_advance_le p b
      have hrest := ih (advance p b).2
      show ((advance p b).1 ++ units (advance p b).2 bs).length ≤ 1 + (bs.length + 1)
      rw [List.length_append]
      omega

/-- **A text has no more characters than bytes.** -/
theorem length_le_of_decode? {bs : Bytes} {s : String} (h : decode? bs = some s) :
    s.toList.length ≤ bs.length := by
  -- every unit is one character at most
  have hlength : ∀ {us : List (Option Char)} {cs}, us.mapM id = some cs →
      cs.length = us.length := by
    intro us
    induction us with
    | nil =>
      rintro cs ⟨⟩
      rfl
    | cons u us ih =>
      intro cs hcs
      rw [List.mapM_cons] at hcs
      obtain ⟨c, -, hcs⟩ := Option.bind_eq_some_iff.mp hcs
      obtain ⟨ds, hds, hcs⟩ := Option.bind_eq_some_iff.mp hcs
      obtain rfl := Option.some.inj hcs
      rw [List.length_cons, List.length_cons, ih hds]
  obtain ⟨cs, hcs, rfl⟩ := Option.map_eq_some_iff.mp h
  have hle : (units none bs).length ≤ 0 + bs.length := length_units_le none bs
  rw [String.toList_ofList, hlength hcs]
  omega

theorem length_encode_of_ascii {cs : List Char} (h : ∀ c ∈ cs, c.toNat < 128) :
    (encode cs).length = cs.length := by
  induction cs with
  | nil => rfl
  | cons c cs ih =>
    have hsize : c.utf8Size = 1 :=
      Char.utf8Size_eq_one_iff.mpr (Nat.le_of_lt_succ (h c List.mem_cons_self))
    have hrest := ih fun d hd => h d (List.mem_cons_of_mem c hd)
    rw [encode] at hrest
    rw [encode, List.flatMap_cons, List.length_append, String.length_utf8EncodeChar, hsize, hrest,
      List.length_cons, Nat.add_comm]

end AchCourier.Utf8
