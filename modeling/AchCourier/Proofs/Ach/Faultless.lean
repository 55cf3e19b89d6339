import AchCourier.Proofs.Ach.Grammar
import AchCourier.Proofs.Ach.WrittenParts

/-!
# Parts with which nothing is wrong

An entry, a batch or a file is *faultless* when its cells are legible, its records keep their
rules, and its controls repeat what they control.  Its fields may be untidy: a carriage return may
stand inside of a text, and a number that is kept as text may lack the zeros in front of it.

The lines of a faultless file are sound records in the usual order, so they conform to the grammar,
and the file is read back from its text with these zeros filled in.

## Main definitions

* `IsSound` — a record of a type with which nothing is wrong.
* `Entry.Faultless`, `Batch.Faultless`, `File.Faultless` — the parts.

## Main results

* `File.Faultless.conforms_paddedLines` — the lines of a faultless file conform to the grammar.
* `File.Faultless.read_eq_ok` — **a faultless file is read back from its text.**
-/

namespace AchCourier.Ach

/-! ### Records -/

/-- The line is a record of the given type with which nothing is wrong. -/
structure IsSound (type : Char) (line : List Char) : Prop extends IsWritten type line where
  pass : FieldsPass line

/-- A record is sound if its line passes the checks of its type. -/
theorem IsWritten.isSound {t : Char} {line : List Char} (h : IsWritten t line)
    (hpass : (Line.ofType line t).complaints = []) : IsSound t line := by
  refine ⟨h, ?_⟩
  have hhead := h.type
  rw [hasType, Bool.and_eq_true, beq_iff_eq] at hhead
  rw [FieldsPass, hhead.1]
  revert hpass
  fun_cases Line.ofType line t with
  | case7 => intro hpass; cases hpass
  | _ => exact fun hpass => hpass

theorem FileHeader.isSound_of_legible {h : FileHeader} (hcells : ∀ c ∈ h.cells, c.Legible)
    (hv : h.Valid) : IsSound '1' (lineOf h.cells) :=
  (isWritten_lineOf hcells).isSound (complaints_lineOf hcells hv)

theorem FileControl.isSound_lineOf {c : FileControl} (hfit : ∀ d ∈ c.cells, d.Fits) :
    IsSound '9' (lineOf c.cells) :=
  (isWritten_lineOf (Cell.legible_of_fits hfit)).isSound (complaints_lineOf hfit)

/-! ### Parts -/

/-- The entry and its addenda are legible and keep their rules. -/
structure Entry.Faultless (e : Entry) : Prop extends Entry.Legible e where
  valid : e.Valid
  addendaValid : ∀ a ∈ e.addenda, a.Valid

/-- The parts of the batch are faultless, and its control agrees with it. -/
structure Batch.Faultless (b : Batch) : Prop where
  header : ∀ c ∈ b.header.cells, c.Legible
  headerValid : b.header.Valid
  entries : ∀ e ∈ b.entries, e.Faultless
  control : ∀ c ∈ b.control.cells, c.Legible
  agrees : b.control.Agrees b

/-- The parts of the file are faultless, and its control agrees with its batches. -/
structure File.Faultless (f : File) : Prop where
  header : ∀ c ∈ f.header.cells, c.Legible
  headerValid : f.header.Valid
  batches : ∀ b ∈ f.batches, b.Faultless
  control : ∀ c ∈ f.control.cells, c.Fits
  agrees : f.control.Agrees f.batches

theorem Entry.Faultless.isSound_of_mem_lines {e : Entry} (h : e.Faultless) {line : List Char}
    (hline : line ∈ e.lines) : ∃ t, IsSound t line := by
  rw [← e.records_written] at hline
  rcases List.mem_cons.mp hline with rfl | hline
  · exact ⟨'6', (isWritten_lineOf h.cells).isSound (complaints_lineOf h.cells h.valid)⟩
  · obtain ⟨a, ha, rfl⟩ := List.mem_map.mp hline
    have hcells := h.addenda a ha
    exact ⟨'7', (Addenda.isWritten_lineOf hcells).isSound
      (Addenda.complaints_lineOf hcells (h.addendaValid a ha))⟩

namespace Batch.Faultless

variable {b : Batch} (h : b.Faultless)
include h

theorem legible : b.Legible where
  header := h.header
  entries e he := (h.entries e he).toLegible
  control := h.control

theorem isSound_of_mem_lines {line : List Char} (hline : line ∈ b.lines) :
    ∃ t, IsSound t line := by
  rcases List.mem_append.mp hline with hline | hline
  · rcases List.mem_cons.mp hline with rfl | hline
    · exact ⟨'5', (BatchHeader.isWritten_lineOf h.header).isSound
        (BatchHeader.complaints_lineOf h.header h.headerValid)⟩
    · obtain ⟨e, he, hline⟩ := List.mem_flatMap.mp hline
      exact (h.entries e he).isSound_of_mem_lines hline
  · rw [List.mem_singleton.mp hline]
    exact ⟨'8', (BatchControl.isWritten_lineOf h.control).isSound
      (BatchControl.complaints_lineOf h.control)⟩

end Batch.Faultless

/-! ### Files -/

namespace File.Faultless

variable {f : File} (h : f.Faultless)
include h

theorem legible : f.Legible where
  header := h.header
  batches b hb := (h.batches b hb).legible
  control := Cell.legible_of_fits h.control

theorem isSound_of_mem_lines {line : List Char} (hline : line ∈ f.lines) :
    ∃ t, IsSound t line := by
  rcases List.mem_append.mp hline with hline | hline
  · rcases List.mem_cons.mp hline with rfl | hline
    · exact ⟨'1', FileHeader.isSound_of_legible h.header h.headerValid⟩
    · obtain ⟨b, hb, hline⟩ := List.mem_flatMap.mp hline
      exact (h.batches b hb).isSound_of_mem_lines hline
  · rw [List.mem_singleton.mp hline]
    exact ⟨'9', FileControl.isSound_lineOf h.control⟩

/-- The records of the text are the lines that were written. -/
theorem recordsOf_encode_text : recordsOf (Utf8.encode f.text) = f.paddedLines := by
  refine recordsOf_textOf_of_isLine (fun line hline => ?_) fun line hline => ?_
  · exact (h.legible.isRecord_of_mem_paddedLines hline).2.1
  · exact (h.legible.isRecord_of_mem_paddedLines hline).2.2

/-- **The lines of a faultless file conform to the grammar.** -/
theorem conforms_paddedLines : Conforms f.paddedLines (f.batches.map Batch.written) := by
  have hbatches : ∀ b ∈ f.batches.map Batch.written, b.WellFormed :=
    List.forall_mem_map.mpr fun b hb =>
      (h.batches b hb).legible.wellFormed_written_of_agrees (h.batches b hb).agrees
  -- zeros and identities do not count, so the control agrees with what is read back
  have hagree : (FileControl.ofLine (lineOf f.control.cells)).Agrees
      ((f.batches.map Batch.written).map BatchRecords.batch) := by
    rw [FileControl.ofLine_lineOf h.control, h.legible.batches_written,
      FileControl.agrees_map Entry.keepsTotals_filled_withoutId Batch.entries_filled_withoutIds]
    exact h.agrees
  rw [paddedLines, lines_eq]
  refine conforms_usualOrder (FileHeader.isSound_of_legible h.header h.headerValid).type
    (FileControl.isSound_lineOf h.control).type hbatches (fun r hr => ?_) hagree
  rw [← lines_eq] at hr
  obtain ⟨t, ht⟩ := h.isSound_of_mem_lines hr
  exact ⟨ht.shape, ht.pass⟩

/-- **A faultless file is read back from its text**, with zeros filled in and without its
identities. -/
theorem read_eq_ok : read (Utf8.encode f.text) = .ok {
    header := f.header.padded
    batches := f.batches.map fun b => b.filled.withoutIds
    control := f.control
    hasValidHeader := true } := by
  -- the written file conforms, and its first header and control are its own
  have hheader := FileHeader.isSound_of_legible h.header h.headerValid
  have hcontrol := FileControl.isSound_lineOf h.control
  have hrecords := h.recordsOf_encode_text
  refine read_eq_ok_iff.mpr ⟨f.batches.map Batch.written, ?_, lineOf f.header.cells, ?_,
    hheader.type, lineOf f.control.cells, ?_, hcontrol.type, ?_⟩
  · rw [hrecords]
    exact h.conforms_paddedLines
  · rw [hrecords]
    simp [paddedLines, lines]
  · rw [hrecords]
    simp [paddedLines, lines]
  · rw [fileOf, h.legible.batches_written, FileHeader.ofLine_lineOf_of_legible h.header,
      FileControl.ofLine_lineOf h.control]

end File.Faultless

end AchCourier.Ach
