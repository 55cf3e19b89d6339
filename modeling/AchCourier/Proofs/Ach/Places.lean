import AchCourier.Proofs.Ach.Columns

/-!
# Where a character stands

A character that is neither a line feed nor a carriage return has a line and a column, and both are
told by the text in front of it.  Another such character in its place stands in the same line and
column of the other text, and nothing else changes.  Bytes below 0x80 are characters of their own,
whatever stands around them.

## Main definitions

* `Place`, `placeBehind` — a line and a column, and those of the character behind a text.

## Main results

* `decodeLossy_append_cons` — an ASCII byte is a character wherever it stands.
* `exists_rawLines_eq` — **the lines of a text, with one character singled out.**
* `cut_append_cons`, `cut_append_cons_of_outside` — columns that hold the character, and columns
  that do not.
-/

namespace AchCourier

/-! ### ASCII bytes -/

namespace Utf8

/-- Inside of a character, only bytes from 0x80 on are read. -/
theorem least_of_start {b : UInt8} {p : Pending} (h : p ∈ (start b).2) : 0x80 ≤ p.least := by
  unfold start at h
  split_ifs at h <;> cases h <;> dsimp only <;> decide

theorem least_of_advance {p q : Pending} {b : UInt8} (h : q ∈ (advance p b).2) :
    0x80 ≤ q.least := by
  unfold advance at h
  split_ifs at h
  · obtain ⟨bits, _ | more, least, greatest⟩ := p
    · cases h
    · cases h
      dsimp only
      decide
  · exact least_of_start h

theorem units_none_cons (b : UInt8) (bs : Bytes) :
    units none (b :: bs) = (start b).1 ++ units (start b).2 bs := rfl

theorem units_some_cons (p : Pending) (b : UInt8) (bs : Bytes) :
    units (some p) (b :: bs) = (advance p b).1 ++ units (advance p b).2 bs := rfl

/-- An ASCII byte ends whatever was begun before it. -/
theorem units_append_cons {d : UInt8} (hd : d < 0x80) (before after : Bytes) :
    ∀ pending : Option Pending, (∀ p ∈ pending, 0x80 ≤ p.least) →
      units pending (before ++ d :: after) =
        units pending before ++ some (Char.ofNat d.toNat) :: units none after := by
  induction before with
  | nil =>
    rintro (_ | p) hp
    · exact units_ascii d after hd
    · -- the byte does not continue the character that was begun
      have hout : ¬ (p.least ≤ d ∧ d ≤ p.greatest) := by
        have hleast : 0x80 ≤ p.least := hp p rfl
        exact fun h => UInt8.lt_irrefl d (UInt8.lt_of_lt_of_le hd (UInt8.le_trans hleast h.1))
      simp [units, advance, hout, start, hd]
  | cons b before ih =>
    rintro (_ | p) hp
    · rw [List.cons_append, units_none_cons, units_none_cons,
        ih _ fun q hq => least_of_start hq, List.append_assoc]
    · rw [List.cons_append, units_some_cons, units_some_cons,
        ih _ fun q hq => least_of_advance hq, List.append_assoc]

/-- **An ASCII byte is a character wherever it stands.** -/
theorem decodeLossy_append_cons {d : UInt8} (hd : d < 0x80) (before after : Bytes) :
    decodeLossy (before ++ d :: after) =
      decodeLossy before ++ Char.ofNat d.toNat :: decodeLossy after := by
  have hunits := units_append_cons hd before after none fun p hp => by cases hp
  rw [decodeLossy, hunits, List.map_append, List.map_cons]
  rfl

end Utf8

namespace Ach

/-! ### Places -/

/-- A place in a text. -/
structure Place where
  /-- The number of lines above. -/
  line : Nat
  /-- The column, counted from one. -/
  column : Nat
  deriving DecidableEq, Repr

/-- The place of the character behind `front`, in a text that is cut every 94 characters or at its
line feeds. -/
def placeBehind (unbroken : Bool) (front : List Char) : Place :=
  if unbroken then ⟨front.length / recordLength, front.length % recordLength + 1⟩
  else ⟨front.count '\n', (front.rtakeWhile (· != '\n')).length + 1⟩

theorem ne_feed_of_isLineChar {x : Char} (h : isLineChar x = true) : x ≠ '\n' := by
  rw [isLineChar, Bool.and_eq_true, Bool.and_eq_true, bne_iff_ne] at h
  exact h.1.2

theorem ne_return_of_isLineChar {x : Char} (h : isLineChar x = true) : x ≠ '\r' := by
  rw [isLineChar, Bool.and_eq_true, bne_iff_ne] at h
  exact h.2

theorem isAscii_of_isLineChar {x : Char} (h : isLineChar x = true) : isAscii x = true := by
  rw [isLineChar, Bool.and_eq_true, Bool.and_eq_true] at h
  exact h.1.1

theorem splitLines_cons_of_ne {x : Char} (hx : x ≠ '\n') {text first : List Char}
    {rest : List (List Char)} (h : splitLines text = first :: rest) :
    splitLines (x :: text) = (x :: first) :: rest := by
  rw [splitLines] at h ⊢
  rw [List.splitOn_cons_eq_if_modifyHead, if_neg (by simpa using hx), h, List.modifyHead_cons]

/-- The last line of a text is continued by the first line of the text behind it. -/
theorem exists_splitLines_append (front : List Char) :
    ∃ above : List (List Char), above.length = front.count '\n' ∧
      ∀ {back first : List Char} {rest : List (List Char)}, splitLines back = first :: rest →
        splitLines (front ++ back) =
          above ++ (front.rtakeWhile (· != '\n') ++ first) :: rest := by
  induction front using List.reverseRecOn with
  | nil =>
    refine ⟨[], rfl, fun h => ?_⟩
    rw [List.nil_append, h]
    rfl
  | append_singleton front x ih =>
    obtain ⟨above, hlength, hsplit⟩ := ih
    by_cases hx : x = '\n'
    · -- a line feed ends the line
      subst hx
      refine ⟨above ++ [front.rtakeWhile (· != '\n')], ?_, fun {back first rest} h => ?_⟩
      · simp [hlength]
      · have hback : splitLines ('\n' :: back) = [] :: first :: rest := by
          rw [splitLines] at h ⊢
          rw [List.splitOn_cons_eq_if_modifyHead, if_pos (beq_self_eq_true _), h]
        rw [List.append_assoc, List.singleton_append, hsplit hback,
          List.rtakeWhile_concat_neg _ _ _ (by decide)]
        simp
    · refine ⟨above, ?_, fun {back first rest} h => ?_⟩
      · simp [hlength, hx]
      · rw [List.append_assoc, List.singleton_append, hsplit (splitLines_cons_of_ne hx h),
          List.rtakeWhile_concat_pos _ _ _ (by simpa using hx), List.append_assoc,
          List.singleton_append]

theorem exists_slices_eq {width : Nat} (hwidth : 0 < width) (back : List Char) :
    ∀ (count : Nat) (front : List Char), front.length / width < count →
      ∃ (above : List (List Char)) (left right : List Char) (below : List (List Char)),
        above.length = front.length / width ∧ left.length = front.length % width ∧
          ∀ x, slices width count (front ++ x :: back) =
            above ++ (left ++ x :: right) :: below := by
  intro count
  induction count with
  | zero => intro front h; exact absurd h (Nat.not_lt_zero _)
  | succ count ih =>
    intro front h
    by_cases hshort : front.length < width
    · -- the character stands in the first slice
      refine ⟨[], front, back.take (width - front.length - 1),
        slices width count (back.drop (width - front.length - 1)), ?_, ?_, fun x => ?_⟩
      · rw [Nat.div_eq_of_lt hshort, List.length_nil]
      · rw [Nat.mod_eq_of_lt hshort]
      · obtain ⟨k, hk⟩ : ∃ k, width - front.length = k + 1 := ⟨width - front.length - 1, by omega⟩
        rw [slices, List.take_append, List.drop_append, List.take_of_length_le hshort.le,
          List.drop_of_length_le hshort.le, hk, List.take_succ_cons, List.drop_succ_cons,
          Nat.add_sub_cancel, List.nil_append, List.nil_append]
    · have hle : width ≤ front.length := Nat.le_of_not_lt hshort
      have hdrop : (front.drop width).length = front.length - width := List.length_drop
      have hdiv : (front.length - width) / width + 1 = front.length / width :=
        (Nat.div_eq_sub_div hwidth hle).symm
      have hmod : (front.length - width) % width = front.length % width :=
        (Nat.mod_eq_sub_mod hle).symm
      obtain ⟨above, left, right, below, habove, hleft, hslices⟩ :=
        ih (front.drop width) (by rw [hdrop]; omega)
      refine ⟨front.take width :: above, left, right, below, ?_, ?_, fun x => ?_⟩
      · rw [List.length_cons, habove, hdrop, hdiv]
      · rw [hleft, hdrop, hmod]
      · rw [slices, List.take_append_of_le_length hle, List.drop_append_of_le_length hle, hslices,
          List.cons_append]

/-- Whether a text is unbroken does not depend on which character stands in a place. -/
theorem isUnbroken_append_cons {x y : Char} (hx : isLineChar x = true) (hy : isLineChar y = true)
    (front back : List Char) :
    isUnbroken (front ++ x :: back) = isUnbroken (front ++ y :: back) := by
  -- the character is no line feed, and it is ASCII
  have hfeed : ∀ {z : Char}, isLineChar z = true →
      (front ++ z :: back).contains '\n' = (front.contains '\n' || back.contains '\n') := by
    intro z hz
    have hne := (ne_feed_of_isLineChar hz).symm
    simp [hne]
  have hascii : ∀ {z : Char}, isLineChar z = true →
      (front ++ z :: back).all isAscii = (front.all isAscii && back.all isAscii) := by
    intro z hz
    rw [List.all_append, List.all_cons, isAscii_of_isLineChar hz, Bool.true_and]
  have hlength : (front ++ x :: back).length = (front ++ y :: back).length := by
    rw [List.length_append, List.length_append, List.length_cons, List.length_cons]
  rw [isUnbroken, isUnbroken, hfeed hx, hfeed hy, hascii hx, hascii hy, hlength]

/-- **The lines of a text, with one character singled out.**  Another character in its place changes
nothing else. -/
theorem exists_rawLines_eq (front back : List Char) {c : Char} (hc : isLineChar c = true) :
    ∃ (above : List (List Char)) (left right : List Char) (below : List (List Char)),
      placeBehind (isUnbroken (front ++ c :: back)) front = ⟨above.length, left.length + 1⟩ ∧
        ∀ x, isLineChar x = true →
          rawLines (front ++ x :: back) = above ++ (left ++ x :: right) :: below := by
  have hsame : ∀ x, isLineChar x = true →
      isUnbroken (front ++ x :: back) = isUnbroken (front ++ c :: back) :=
    fun x hx => isUnbroken_append_cons hx hc front back
  have hlength : ∀ x, (front ++ x :: back).length = front.length + 1 + back.length := by
    intro x
    rw [List.length_append, List.length_cons]
    omega
  -- slices or lines: it is the same cut, whichever character stands there
  cases hu : isUnbroken (front ++ c :: back) with
  | true =>
    have hwhole : (front ++ c :: back).length % recordLength = 0 := by
      simp only [isUnbroken, Bool.and_eq_true, beq_iff_eq] at hu
      exact hu.1.2
    rw [hlength] at hwhole
    obtain ⟨above, left, right, below, habove, hleft, hslices⟩ :=
      exists_slices_eq (show 0 < recordLength by decide) back
        ((front.length + 1 + back.length) / recordLength) front
        (by unfold recordLength at *; omega)
    refine ⟨above, left, right, below, by rw [placeBehind, if_pos rfl, habove, hleft],
      fun x hx => ?_⟩
    rw [rawLines, hsame x hx, hu, if_pos rfl, hlength, hslices]
  | false =>
    obtain ⟨above, habove, hsplit⟩ := exists_splitLines_append front
    obtain ⟨first, rest, hback⟩ := List.exists_cons_of_ne_nil (List.splitOn_ne_nil '\n' back)
    refine ⟨above.map (Text.dropEndWhile (· == '\r')), front.rtakeWhile (· != '\n'),
      Text.dropEndWhile (· == '\r') first, rest.map (Text.dropEndWhile (· == '\r')),
      by rw [placeBehind, if_neg Bool.false_ne_true, List.length_map, habove], fun x hx => ?_⟩
    have hreturn : (x == '\r') = false := beq_false_of_ne (ne_return_of_isLineChar hx)
    rw [rawLines, hsame x hx, hu, if_neg Bool.false_ne_true,
      hsplit (splitLines_cons_of_ne (ne_feed_of_isLineChar hx) hback), List.map_append,
      List.map_cons, Text.dropEndWhile_append_cons (p := (· == '\r')) hreturn]

/-! ### Columns around a character -/

section
variable {first last : Nat} {left right : List Char}

/-- Columns that hold the character hold the same characters around it, whichever it is. -/
theorem cut_append_cons (hfirst : first ≤ left.length + 1) (hlast : left.length + 1 ≤ last)
    (x : Char) :
    cut first last (left ++ x :: right) =
      left.drop (first - 1) ++ x :: right.take (last - (left.length + 1)) := by
  have hle : first - 1 ≤ left.length := by omega
  have hlength : (left.drop (first - 1)).length = left.length - (first - 1) := List.length_drop
  have htake : last - (first - 1) - (left.drop (first - 1)).length =
      last - (left.length + 1) + 1 := by omega
  rw [cut, List.drop_append_of_le_length hle, List.take_append, htake, List.take_succ_cons,
    List.take_of_length_le (by omega)]

/-- Columns before the character or behind it do not change with it. -/
theorem cut_append_cons_of_outside (h : last < left.length + 1 ∨ left.length + 1 < first)
    (x y : Char) :
    cut first last (left ++ x :: right) = cut first last (left ++ y :: right) := by
  rw [cut, cut]
  -- the columns end before the character or begin behind it
  rcases h with h | h
  · by_cases hle : first - 1 ≤ left.length
    · rw [List.drop_append_of_le_length hle, List.drop_append_of_le_length hle]
      have hlength : last - (first - 1) ≤ (left.drop (first - 1)).length := by
        rw [List.length_drop]
        omega
      rw [List.take_append_of_le_length hlength, List.take_append_of_le_length hlength]
    · have hzero : last - (first - 1) = 0 := by omega
      rw [hzero, List.take_zero, List.take_zero]
  · obtain ⟨k, hk⟩ : ∃ k, first - 1 - left.length = k + 1 := ⟨first - 2 - left.length, by omega⟩
    rw [List.drop_append, List.drop_append, hk, List.drop_succ_cons, List.drop_succ_cons]

end

end Ach

end AchCourier
