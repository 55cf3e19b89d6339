import AchCourier.Proofs.Ach.Columns

/-!
# The width of a record

Texts are cut to their columns, and what is too short is filled up, so only what is written with
zeros in front can make a line too long.  The columns of every record are 94 in number, and its
line has as many characters beyond them as its fields with zeros have beyond theirs.

## Main definitions

* `Record` — any record of a file, with its `cells` and its `line`.
* `ZeroFilled` — a field that is written with zeros in front, `Record.zeroFilled` those of a record.

## Main results

* `Record.width_cells` — every record has 94 columns.
* `Record.length_line` — **a line has 94 characters just when every field with zeros fits.**
* `Entry.length_lineOf_iff` — what this means for an entry.
-/

namespace AchCourier.Ach

/-! ### Records -/

/-- Any record of a file. -/
inductive Record where
  /-- The record that opens the file (type 1). -/
  | fileHeader (h : FileHeader)
  /-- The record that opens a batch (type 5). -/
  | batchHeader (h : BatchHeader)
  /-- An entry (type 6), without its addenda. -/
  | entry (e : Entry)
  /-- Remittance information, a notification of change or a return (type 7). -/
  | addenda (a : Addenda)
  /-- The record that closes a batch (type 8). -/
  | batchControl (c : BatchControl)
  /-- The record that closes the file (type 9). -/
  | fileControl (c : FileControl)
  deriving DecidableEq, Repr

/-- The columns of a record. -/
def Record.cells : Record → List Cell
  | .fileHeader h => h.cells
  | .batchHeader h => h.cells
  | .entry e => e.cells
  | .addenda a => a.cells
  | .batchControl c => c.cells
  | .fileControl c => c.cells

/-- The line of a record. -/
def Record.line (r : Record) : List Char :=
  lineOf r.cells

/-- **Every record has 94 columns.** -/
theorem Record.width_cells (r : Record) : total (r.cells.map Cell.width) = recordLength := by
  cases r with
  | fileHeader h => simp [cells, FileHeader.cells, recordLength]
  | batchHeader h => simp [cells, BatchHeader.cells, recordLength]
  | entry e => simp [cells, Entry.cells, recordLength]
  | addenda a =>
    cases a <;> simp [cells, Addenda.cells, Remittance.cells, ChangeNotice.cells,
      ReturnNotice.cells, recordLength]
  | batchControl c => simp [cells, BatchControl.cells, recordLength]
  | fileControl c => simp [cells, FileControl.cells, recordLength]

/-! ### Fields with zeros in front -/

/-- A field that is written with zeros in front, up to a number of columns. -/
structure ZeroFilled where
  columns : Nat
  chars : List Char
  deriving DecidableEq, Repr

namespace ZeroFilled

/-- A number in decimal digits. -/
def number (columns n : Nat) : ZeroFilled :=
  ⟨columns, Nat.toDigits 10 n⟩

/-- A text of any characters. -/
def text (columns : Nat) (s : String) : ZeroFilled :=
  ⟨columns, s.toList⟩

/-- The number of characters by which the field exceeds its columns. -/
def overrun (x : ZeroFilled) : Nat :=
  x.chars.length - x.columns

/-- The field does not exceed its columns. -/
def Fits (x : ZeroFilled) : Prop :=
  x.chars.length ≤ x.columns

instance (x : ZeroFilled) : Decidable x.Fits :=
  inferInstanceAs (Decidable (x.chars.length ≤ x.columns))

theorem overrun_eq_zero_iff (x : ZeroFilled) : x.overrun = 0 ↔ x.Fits :=
  Nat.sub_eq_zero_iff_le

theorem fits_text_iff {columns : Nat} {s : String} : (text columns s).Fits ↔ s.length ≤ columns :=
  Iff.rfl

theorem fits_number_iff {columns n : Nat} (h : 0 < columns) :
    (number columns n).Fits ↔ n < Nat.pow 10 columns :=
  Nat.length_toDigits_le_iff (by decide) h

end ZeroFilled

/-- The fields of a record that are written with zeros in front. -/
def Record.zeroFilled : Record → List ZeroFilled
  | .fileHeader h => [.text 2 h.priorityCode]
  | .batchHeader h => [.number 3 h.serviceClassCode, .number 7 h.batchNumber]
  | .entry e =>
    [.number 2 e.transactionCode, .number 10 e.amount, .number 1 e.addendaRecordIndicator,
      .text 15 e.traceNumber]
  | .addenda (.remittance a) => [.number 4 a.sequenceNumber, .text 7 a.entryDetailSequenceNumber]
  | .addenda (.change _) => []
  | .addenda (.returned _) => []
  | .batchControl c =>
    [.number 3 c.serviceClassCode, .number 6 c.entryAddendaCount, .number 10 c.entryHash,
      .number 12 c.totalDebit, .number 12 c.totalCredit, .number 7 c.batchNumber]
  | .fileControl c =>
    [.number 6 c.batchCount, .number 6 c.blockCount, .number 8 c.entryAddendaCount,
      .number 10 c.entryHash, .number 12 c.totalDebit, .number 12 c.totalCredit]

/-- The field of a cell, if it is written with zeros in front. -/
def Cell.zeroFilled? : Cell → Option ZeroFilled
  | .zeros width digits => some ⟨width, digits⟩
  | _ => none

/-- No other cells are written with zeros in front. -/
theorem Record.filterMap_cells (r : Record) :
    r.cells.filterMap Cell.zeroFilled? = r.zeroFilled := by
  rcases r with _ | _ | _ | (_ | _ | _) | _ | _ <;> rfl

/-- Only fields with zeros go beyond their cells. -/
theorem Cell.excess_eq (c : Cell) :
    c.excess = total (c.zeroFilled?.toList.map ZeroFilled.overrun) := by
  cases c <;> simp [excess, zeroFilled?, ZeroFilled.overrun]

theorem total_excess (cells : List Cell) :
    total (cells.map Cell.excess) =
      total ((cells.filterMap Cell.zeroFilled?).map ZeroFilled.overrun) := by
  induction cells with
  | nil => rfl
  | cons c cells ih =>
    have hcons : (c :: cells).filterMap Cell.zeroFilled? =
        c.zeroFilled?.toList ++ cells.filterMap Cell.zeroFilled? := by
      cases h : c.zeroFilled? <;> simp [h]
    rw [List.map_cons, total_cons, hcons, List.map_append, total_append, ih, c.excess_eq]

/-! ### The width law -/

/-- A line goes beyond its columns by as much as its fields with zeros go beyond theirs. -/
theorem Record.length_line_eq (r : Record) :
    r.line.length = recordLength + total (r.zeroFilled.map ZeroFilled.overrun) := by
  rw [line, length_lineOf, r.width_cells, total_excess, r.filterMap_cells]

theorem Record.length_line_iff (r : Record) :
    r.line.length = recordLength ↔ ∀ x ∈ r.zeroFilled, x.Fits := by
  rw [r.length_line_eq, Nat.add_eq_left, total_eq_zero_iff, List.forall_mem_map]
  exact forall₂_congr fun x _ => x.overrun_eq_zero_iff

/-- **The line of a record exceeds 94 characters by as much as its fields with zeros exceed their
columns**, and has 94 characters just when each of them fits.  The other fields do not count. -/
theorem Record.length_line (r : Record) :
    r.line.length = recordLength + total (r.zeroFilled.map ZeroFilled.overrun) ∧
      (r.line.length = recordLength ↔ ∀ x ∈ r.zeroFilled, x.Fits) :=
  ⟨r.length_line_eq, r.length_line_iff⟩

/-- An entry is as wide as a record unless a number has too many digits or the trace number is too
long. -/
theorem Entry.length_lineOf_iff (e : Entry) :
    (lineOf e.cells).length = recordLength ↔
      e.transactionCode < 100 ∧ e.amount < 10000000000 ∧ e.addendaRecordIndicator < 10 ∧
        e.traceNumber.length ≤ 15 := by
  have hiff := (Record.entry e).length_line_iff
  simp only [Record.zeroFilled, List.forall_mem_cons, ZeroFilled.fits_text_iff] at hiff
  rw [ZeroFilled.fits_number_iff (by decide), ZeroFilled.fits_number_iff (by decide),
    ZeroFilled.fits_number_iff (by decide), and_iff_left (List.forall_mem_nil _)] at hiff
  exact hiff

example : (lineOf ({ amount := 10000000000 } : Entry).cells).length = 95 := by decide +kernel

end AchCourier.Ach
