import AchCourier.Ach.Reader
import AchCourier.Proofs.Text.Trim

/-!
# Reading back columns

A line is made of cells, and every field is read from the columns of one cell.  As long as no cell
goes beyond its columns, each of them is found where the record says, so a field reads back as it
was written: texts without change, numbers by their value, and texts filled up with zeros with
those zeros.

## Main definitions

* `Cell.Fits` — the content of a cell survives its columns and its line.
* `Cell.Legible` — the content of a cell survives its columns.
* `Cell.content` — the content of a cell, before it is cut and filled up.
* `cellAt` — the cell that begins in a column.
* `zeroPadded` — a text filled up with zeros.

## Main results

* `cut_lineOf` — the columns of a cell hold what the cell renders.
* `textAt_left`, `textAt_right`, `textAt_zeros`, `naturalAt?_number` — what a cell reads back as.
-/

namespace AchCourier.Ach

/-! ### Contents that fit -/

/-- The character can stand in a line: it belongs to ASCII and does not break the line. -/
def isLineChar (c : Char) : Bool :=
  isAscii c && c != '\n' && c != '\r'

/-- The text fits in `width` columns, can stand in a line, and has no blanks at its ends. -/
structure FitsIn (width : Nat) (cs : List Char) : Prop where
  length_le : cs.length ≤ width
  chars : ∀ c ∈ cs, isLineChar c = true
  trim_eq : Text.trim cs = cs

instance (width : Nat) (cs : List Char) : Decidable (FitsIn width cs) :=
  decidable_of_iff
    (cs.length ≤ width ∧ cs.all isLineChar = true ∧ Text.trim cs = cs)
    ⟨fun ⟨hlength, hchars, htrim⟩ => ⟨hlength, List.all_eq_true.mp hchars, htrim⟩,
      fun h => ⟨h.length_le, List.all_eq_true.mpr h.chars, h.trim_eq⟩⟩

/-- The content of the cell survives its columns. -/
def Cell.Fits : Cell → Prop
  | .fixed text => text.all isLineChar = true
  | .left width text => FitsIn width text.toList
  | .right width text => FitsIn width text.toList
  | .zeros width digits => FitsIn width digits

instance : (c : Cell) → Decidable c.Fits
  | .fixed text => inferInstanceAs (Decidable (text.all isLineChar = true))
  | .left width text => inferInstanceAs (Decidable (FitsIn width text.toList))
  | .right width text => inferInstanceAs (Decidable (FitsIn width text.toList))
  | .zeros width digits => inferInstanceAs (Decidable (FitsIn width digits))

/-- The character can stand in a record: it belongs to ASCII and is no line feed. -/
def isRecordChar (c : Char) : Bool :=
  isAscii c && c != '\n'

/-- The text stays within `width` columns, can stand in a record, and has no blanks at its ends.
Every text that is read from a record is like this, a carriage return inside of it or not. -/
structure LegibleIn (width : Nat) (cs : List Char) : Prop where
  length_le : cs.length ≤ width
  chars : ∀ c ∈ cs, isRecordChar c = true
  trim_eq : Text.trim cs = cs

/-- The content of the cell survives its columns. -/
def Cell.Legible : Cell → Prop
  | .fixed text => text.all isLineChar = true
  | .left width text => LegibleIn width text.toList
  | .right width text => LegibleIn width text.toList
  | .zeros width digits => LegibleIn width digits

theorem isRecordChar_of_isLineChar {c : Char} (h : isLineChar c = true) :
    isRecordChar c = true := by
  rw [isLineChar, Bool.and_eq_true] at h
  exact h.1

/-- A carriage return is a blank, so it is not at the end. -/
theorem LegibleIn.ne_return_of_mem_getLast? {width : Nat} {cs : List Char}
    (h : LegibleIn width cs) : ∀ x ∈ cs.getLast?, x ≠ '\r' := by
  rintro x hx rfl
  exact absurd ((Text.trim_eq_self_iff.mp h.trim_eq).2 '\r' hx) (by decide)

/-- The end of a list is the end of its second part or, if that is empty, of its first. -/
theorem forall_getLast?_append {α : Type} {p : α → Prop} {l l' : List α}
    (h : ∀ x ∈ l.getLast?, p x) (h' : ∀ x ∈ l'.getLast?, p x) :
    ∀ x ∈ (l ++ l').getLast?, p x := by
  intro x hx
  rw [List.getLast?_append, Option.mem_def, Option.or_eq_some_iff] at hx
  rcases hx with hx | ⟨-, hx⟩
  · exact h' x hx
  · exact h x hx

theorem FitsIn.legibleIn {width : Nat} {cs : List Char} (h : FitsIn width cs) :
    LegibleIn width cs :=
  ⟨h.length_le, fun c hc => isRecordChar_of_isLineChar (h.chars c hc), h.trim_eq⟩

theorem Cell.Fits.legible {c : Cell} (h : c.Fits) : c.Legible := by
  cases c with
  | fixed text => exact h
  | left width text => exact FitsIn.legibleIn h
  | right width text => exact FitsIn.legibleIn h
  | zeros width digits => exact FitsIn.legibleIn h

/-- Cells that fit are legible. -/
theorem Cell.legible_of_fits {cells : List Cell} (hfit : ∀ c ∈ cells, c.Fits) :
    ∀ c ∈ cells, c.Legible :=
  fun c hc => (hfit c hc).legible

theorem isLineChar_of_isDigit {c : Char} (h : c.isDigit = true) : isLineChar c = true := by
  obtain ⟨h₀, h₉⟩ := Char.isDigit_iff_toNat.mp h
  have hfeed : c ≠ '\n' := by rintro rfl; exact absurd h₀ (by decide)
  have hreturn : c ≠ '\r' := by rintro rfl; exact absurd h₀ (by decide)
  have hlt : c.toNat < 0x80 := lt_of_le_of_lt h₉ (by decide)
  simp [isLineChar, isAscii, hfeed, hreturn, hlt]

/-- What a cell is to show. -/
def Cell.content : Cell → List Char
  | .fixed text => text
  | .left _ text => text.toList
  | .right _ text => text.toList
  | .zeros _ digits => digits

namespace Cell

@[simp] theorem width_fixed (text : List Char) : (fixed text).width = text.length := rfl

@[simp] theorem width_left (width : Nat) (text : String) : (left width text).width = width := rfl

@[simp] theorem width_right (width : Nat) (text : String) : (right width text).width = width := rfl

@[simp] theorem width_zeros (width : Nat) (digits : List Char) :
    (zeros width digits).width = width := rfl

@[simp] theorem width_number (width n : Nat) : (number width n).width = width := rfl

@[simp] theorem width_blank (width : Nat) : (blank width).width = width := rfl

theorem excess_eq_zero {c : Cell} (h : c.Legible) : c.excess = 0 := by
  cases c with
  | zeros width digits => exact Nat.sub_eq_zero_of_le (LegibleIn.length_le h)
  | fixed text => rfl
  | left width text => rfl
  | right width text => rfl

theorem length_render_of_legible {c : Cell} (h : c.Legible) : c.render.length = c.width := by
  rw [length_render, excess_eq_zero h, Nat.add_zero]

/-- A cell shows its content, and blanks or zeros that fill it up. -/
theorem mem_content_of_mem_render {c : Cell} {x : Char} (h : x ∈ c.render) :
    x ∈ c.content ∨ x = ' ' ∨ x = '0' := by
  cases c with
  | fixed text => exact Or.inl h
  | left width text =>
    rw [render, List.rightpad, List.mem_append, List.mem_replicate] at h
    exact h.imp List.mem_of_mem_take fun h => Or.inl h.2
  | right width text =>
    rw [render, List.leftpad, List.mem_append, List.mem_replicate] at h
    exact h.symm.imp List.mem_of_mem_take fun h => Or.inl h.2
  | zeros width digits =>
    rw [render, List.leftpad, List.mem_append, List.mem_replicate] at h
    exact h.symm.imp id fun h => Or.inr h.2

theorem isRecordChar_of_mem_content {c : Cell} (h : c.Legible) :
    ∀ x ∈ c.content, isRecordChar x = true := by
  cases c with
  | fixed text => exact fun x hx => isRecordChar_of_isLineChar (List.all_eq_true.mp h x hx)
  | left width text => exact LegibleIn.chars h
  | right width text => exact LegibleIn.chars h
  | zeros width digits => exact LegibleIn.chars h

theorem isRecordChar_of_mem_render {c : Cell} (h : c.Legible) :
    ∀ x ∈ c.render, isRecordChar x = true := by
  intro x hx
  rcases mem_content_of_mem_render hx with hx | rfl | rfl
  · exact isRecordChar_of_mem_content h x hx
  · decide
  · decide

/-- A cell ends with the last character of its content, or with one that fills it up. -/
theorem ne_return_of_mem_getLast?_render {c : Cell} (h : c.Legible) :
    ∀ x ∈ c.render.getLast?, x ≠ '\r' := by
  have hfill : ∀ (k : Nat) (y : Char), y ≠ '\r' →
      ∀ x ∈ (List.replicate k y).getLast?, x ≠ '\r' := by
    intro k y hy x hx
    rw [List.eq_of_mem_replicate (List.mem_of_mem_getLast? hx)]
    exact hy
  -- the last character is one of the text or of the filling, whichever stands on the right
  cases c with
  | fixed text =>
    intro x hx
    have hchar : isLineChar x = true := List.all_eq_true.mp h x (List.mem_of_mem_getLast? hx)
    rw [isLineChar, Bool.and_eq_true, bne_iff_ne] at hchar
    exact hchar.2
  | left width text =>
    rw [render, List.take_of_length_le (LegibleIn.length_le h)]
    exact forall_getLast?_append (LegibleIn.ne_return_of_mem_getLast? h) (hfill _ _ (by decide))
  | right width text =>
    rw [render, List.take_of_length_le (LegibleIn.length_le h)]
    exact forall_getLast?_append (hfill _ _ (by decide)) (LegibleIn.ne_return_of_mem_getLast? h)
  | zeros width digits =>
    exact forall_getLast?_append (hfill _ _ (by decide)) (LegibleIn.ne_return_of_mem_getLast? h)

theorem fits_blank (width : Nat) : (blank width).Fits :=
  ⟨Nat.zero_le width, List.forall_mem_nil _, rfl⟩

/-- A number fits when it does not go beyond its cell. -/
theorem fits_number_of_excess {width n : Nat} (h : (number width n).excess = 0) :
    (number width n).Fits := by
  have hdigit : ∀ c ∈ Nat.toDigits 10 n, c.isDigit = true := fun c hc =>
    Nat.isDigit_of_mem_toDigits (by decide) (by decide) hc
  refine ⟨Nat.sub_eq_zero_iff_le.mp h, fun c hc => ?_, ?_⟩
  · exact isLineChar_of_isDigit (hdigit c hc)
  · exact Text.trim_eq_self_of_forall fun c hc => Text.isBlank_of_isDigit (hdigit c hc)

/-- A number fits when it has no more digits than its cell has columns. -/
theorem fits_number_iff {width n : Nat} (hw : 0 < width) :
    (number width n).Fits ↔ n < Nat.pow 10 width := by
  have hlength := Nat.length_toDigits_le_iff (b := 10) (n := n) (by decide) hw
  exact ⟨fun h => hlength.mp (FitsIn.length_le h), fun hn =>
    fits_number_of_excess (Nat.sub_eq_zero_of_le (hlength.mpr hn))⟩

end Cell

/-! ### Lines of legible cells -/

section
variable {cells : List Cell} (hcells : ∀ c ∈ cells, c.Legible)
include hcells

theorem length_lineOf_of_legible : (lineOf cells).length = total (cells.map Cell.width) := by
  have hexcess : total (cells.map Cell.excess) = 0 := by
    rw [total_eq_zero_iff]
    exact List.forall_mem_map.mpr fun c hc => Cell.excess_eq_zero (hcells c hc)
  rw [length_lineOf, hexcess, Nat.add_zero]

theorem isRecordChar_of_mem_lineOf : ∀ x ∈ lineOf cells, isRecordChar x = true := by
  intro x hx
  obtain ⟨c, hc, hxc⟩ := List.mem_flatMap.mp hx
  exact Cell.isRecordChar_of_mem_render (hcells c hc) x hxc

/-- No line ends with a carriage return. -/
theorem ne_return_of_mem_getLast?_lineOf : ∀ x ∈ (lineOf cells).getLast?, x ≠ '\r' := by
  induction cells with
  | nil => simp [lineOf]
  | cons c cells ih =>
    obtain ⟨hc, hcells⟩ := List.forall_mem_cons.mp hcells
    rw [lineOf, List.flatMap_cons]
    exact forall_getLast?_append (Cell.ne_return_of_mem_getLast?_render hc) (ih hcells)

end

/-- The cell that begins in the column `first`. -/
def cellAt (first : Nat) : List Cell → Option Cell
  | [] => none
  | c :: cells => if first = 1 then some c else cellAt (first - c.width) cells

theorem cellAt_zero (cells : List Cell) : cellAt 0 cells = none := by
  induction cells with
  | nil => rfl
  | cons c cells ih => simpa [cellAt] using ih

theorem mem_of_cellAt {cells : List Cell} {c : Cell} :
    ∀ {first : Nat}, cellAt first cells = some c → c ∈ cells := by
  induction cells with
  | nil => intro first hat; cases hat
  | cons d cells ih =>
    intro first hat
    rw [cellAt] at hat
    split at hat
    · rw [Option.some.injEq] at hat
      exact hat ▸ List.mem_cons_self
    · exact List.mem_cons_of_mem d (ih hat)

/-- **A cell is found in its columns**, when no cell before it goes beyond its own. -/
theorem cut_lineOf {cells : List Cell} (hcells : ∀ c ∈ cells, c.Legible) :
    ∀ {first : Nat} {c : Cell}, cellAt first cells = some c →
      cut first (first - 1 + c.width) (lineOf cells) = c.render := by
  induction cells with
  | nil => intro first c hat; cases hat
  | cons d cells ih =>
    intro first c hat
    have hd : d.render.length = d.width := Cell.length_render_of_legible (hcells d (by simp))
    replace hcells : ∀ c ∈ cells, c.Legible := fun c hc =>
      hcells c (List.mem_cons_of_mem d hc)
    rw [cellAt] at hat
    by_cases h1 : first = 1
    · rw [if_pos h1, Option.some.injEq] at hat
      subst h1 hat
      simp [cut, lineOf, hd]
    · rw [if_neg h1] at hat
      have hpast : 1 ≤ first - d.width := by
        rcases Nat.eq_zero_or_pos (first - d.width) with h0 | h0
        · rw [h0, cellAt_zero] at hat; cases hat
        · exact h0
      -- behind the first cell, all columns move by its width
      have hdrop : (lineOf (d :: cells)).drop (first - 1) =
          (lineOf cells).drop (first - d.width - 1) := by
        rw [lineOf, List.flatMap_cons, List.drop_append, List.drop_eq_nil_of_le (by omega), hd,
          List.nil_append, show first - 1 - d.width = first - d.width - 1 by omega]
        rfl
      rw [← ih hcells hat, cut, cut, hdrop]
      congr 1
      omega

/-- Columns inside of other columns. -/
theorem cut_within {first last a b : Nat} (hfirst : 1 ≤ first) (ha : first ≤ a) (hb : b ≤ last)
    (line : List Char) :
    cut a b line = ((cut first last line).drop (a - first)).take (b - (a - 1)) := by
  rw [cut, cut, List.drop_take, List.drop_drop, List.take_take]
  congr 1
  · omega
  · congr 1
    omega

/-! ### Reading single fields -/

/-- The text with zeros in front of it, up to `width` characters. -/
def zeroPadded (width : Nat) (s : String) : String :=
  String.ofList (s.toList.leftpad width '0')

theorem zeroPadded_eq_self {width : Nat} {s : String} (h : s.toList.length = width) :
    zeroPadded width s = s := by
  simp [zeroPadded, List.leftpad, h]

section
variable {cells : List Cell} (hcells : ∀ c ∈ cells, c.Legible) {first last width : Nat}
include hcells

theorem textAt_left {s : String} (hat : cellAt first cells = some (.left width s))
    (hlast : first - 1 + width = last) : textAt first last (lineOf cells) = s := by
  have hs : LegibleIn width s.toList := hcells _ (mem_of_cellAt hat)
  have hcut := cut_lineOf hcells hat
  rw [Cell.width, hlast] at hcut
  rw [textAt, hcut, Cell.render, List.take_of_length_le hs.length_le, List.rightpad,
    Text.trim_append_of_blank fun c hc => by rw [List.eq_of_mem_replicate hc]; rfl, hs.trim_eq,
    String.ofList_toList]

theorem textAt_right {s : String} (hat : cellAt first cells = some (.right width s))
    (hlast : first - 1 + width = last) : textAt first last (lineOf cells) = s := by
  have hs : LegibleIn width s.toList := hcells _ (mem_of_cellAt hat)
  have hcut := cut_lineOf hcells hat
  rw [Cell.width, hlast] at hcut
  rw [textAt, hcut, Cell.render, List.take_of_length_le hs.length_le, List.leftpad,
    Text.trim_of_blank_append fun c hc => by rw [List.eq_of_mem_replicate hc]; rfl, hs.trim_eq,
    String.ofList_toList]

theorem textAt_zeros {s : String} (hat : cellAt first cells = some (.zeros width s.toList))
    (hlast : first - 1 + width = last) :
    textAt first last (lineOf cells) = zeroPadded width s := by
  have hs : LegibleIn width s.toList := hcells _ (mem_of_cellAt hat)
  have hcut := cut_lineOf hcells hat
  rw [Cell.width, hlast] at hcut
  rw [textAt, hcut, Cell.render, zeroPadded, List.leftpad,
    Text.trim_append_eq_self (fun c hc => by rw [List.eq_of_mem_replicate hc]; rfl) hs.trim_eq]

theorem naturalAt?_number {n : Nat} (hat : cellAt first cells = some (.number width n))
    (hlast : first - 1 + width = last) : naturalAt? first last (lineOf cells) = some n := by
  have hcut := cut_lineOf hcells hat
  rw [Cell.number, Cell.width, hlast] at hcut
  have hdigit : ∀ c ∈ (Nat.toDigits 10 n).leftpad width '0', c.isDigit = true := by
    intro c hc
    rw [List.leftpad, List.mem_append, List.mem_replicate] at hc
    rcases hc with ⟨-, rfl⟩ | hc
    · rfl
    · exact Nat.isDigit_of_mem_toDigits (by decide) (by decide) hc
  have hne : (Nat.toDigits 10 n).leftpad width '0' ≠ [] := by
    simp [List.leftpad, Nat.toDigits_ne_nil]
  -- the zeros in front add nothing to the number
  rw [naturalAt?, hcut, Cell.render,
    Text.trim_eq_self_of_forall fun c hc => Text.isBlank_of_isDigit (hdigit c hc), shownNumber?,
    if_neg (by rwa [List.isEmpty_iff]), if_pos (List.all_eq_true.mpr hdigit), List.leftpad,
    Nat.ofDigitChars_append, Nat.ofDigitChars_replicate_zero, Nat.mul_zero,
    Nat.ofDigitChars_ten_toDigits]

theorem naturalAt_number {n : Nat} (hat : cellAt first cells = some (.number width n))
    (hlast : first - 1 + width = last) : naturalAt first last (lineOf cells) = n := by
  rw [naturalAt, naturalAt?_number hcells hat hlast, Option.getD_some]

end

end AchCourier.Ach
