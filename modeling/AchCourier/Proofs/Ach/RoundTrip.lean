import AchCourier.Proofs.Ach.Faultless

/-!
# Reading back what was written

A file whose fields fit their columns and keep the rules of their records, and whose controls are
the ones that its entries call for, is read back from its text as it was, its identities apart.

The lines of such a file are the records of its parts in the usual order, so they conform to the
grammar, and every record is read back from its line.

## Main definitions

* `Entry.WellFormed`, `Batch.WellFormed`, `File.WellFormed` — the files that survive.
* `File.withoutIds` — a file without its identities.

## Main results

* `recordsOf_text` — the records of the text are the lines that were written.
* `read_text` — **reading the text of a well formed file returns the file.**
-/

namespace AchCourier.Ach

/-! ### Files that survive -/

/-- The fields of the entry and of its addenda fit and keep the rules, and any addenda are
announced.  The sequence number of the entry in remittance information has all its characters,
because it would be filled up with zeros. -/
@[mk_iff]
structure Entry.WellFormed (e : Entry) : Prop where
  fits : ∀ c ∈ e.cells, c.Fits
  valid : e.Valid
  announced : e.addenda ≠ [] → e.addendaRecordIndicator = 1
  addendaFit : ∀ a ∈ e.addenda, ∀ c ∈ a.cells, c.Fits
  addendaValid : ∀ a ∈ e.addenda, a.Valid
  sequenceNumbers : ∀ a ∈ e.remittances, a.entryDetailSequenceNumber.toList.length = 7

instance (e : Entry) : Decidable e.WellFormed :=
  decidable_of_iff' _ e.wellFormed_iff

/-- The fields of the batch fit and keep the rules. -/
@[mk_iff]
structure Batch.WellFormed (b : Batch) : Prop where
  headerFits : ∀ c ∈ b.header.cells, c.Fits
  headerValid : b.header.Valid
  entries : ∀ e ∈ b.entries, e.WellFormed
  controlFits : ∀ c ∈ b.control.cells, c.Fits

instance (b : Batch) : Decidable b.WellFormed :=
  decidable_of_iff' _ b.wellFormed_iff

/-- The fields of the file fit and keep the rules, and its controls are the ones that its entries
call for. -/
@[mk_iff]
structure File.WellFormed (f : File) : Prop where
  headerFits : ∀ c ∈ f.header.cells, c.Fits
  headerValid : f.header.Valid
  priorityCode : f.header.priorityCode.toList.length = 2
  batches : ∀ b ∈ f.batches, b.WellFormed
  controlFits : ∀ c ∈ f.control.cells, c.Fits
  rebuilt : f.rebuildControls = f

instance (f : File) : Decidable f.WellFormed :=
  decidable_of_iff' _ f.wellFormed_iff

/-! Files that survive are faultless, and nothing in them is filled up with zeros. -/

section
variable {e : Entry} (h : e.WellFormed)
include h

theorem Entry.WellFormed.faultless : e.Faultless where
  cells := Cell.legible_of_fits h.fits
  announced := h.announced
  addenda a ha := Cell.legible_of_fits (h.addendaFit a ha)
  valid := h.valid
  addendaValid := h.addendaValid

theorem Entry.WellFormed.filled_eq_self : e.filled = e := by
  have hremittances : ∀ a ∈ e.remittances, a.padded = a := by
    intro a ha
    rw [Remittance.padded, zeroPadded_eq_self (h.sequenceNumbers a ha)]
  rw [filled, List.map_congr_left hremittances, List.map_id', padded,
    zeroPadded_eq_self h.valid.trace.1]

end

section
variable {b : Batch} (h : b.WellFormed)
include h

theorem Batch.WellFormed.faultless (hcontrol : b.control = b.expectedControl) : b.Faultless where
  header := Cell.legible_of_fits h.headerFits
  headerValid := h.headerValid
  entries e he := (h.entries e he).faultless
  control := Cell.legible_of_fits h.controlFits
  agrees := by
    rw [hcontrol]
    exact ⟨rfl, rfl, rfl, rfl, rfl, rfl⟩

theorem Batch.WellFormed.filled_eq_self : b.filled = b := by
  have hentries : ∀ e ∈ b.entries, e.filled = e := fun e he => (h.entries e he).filled_eq_self
  rw [filled, List.map_congr_left hentries, List.map_id']

end

theorem FileHeader.isSound_lineOf {h : FileHeader} (hfit : ∀ c ∈ h.cells, c.Fits)
    (hv : h.Valid) : IsSound '1' (lineOf h.cells) :=
  isSound_of_legible (Cell.legible_of_fits hfit) hv

/-! ### Files -/

namespace File

/-- The file without its identities. -/
def withoutIds (f : File) : File :=
  { f with id := none, batches := f.batches.map Batch.withoutIds }

variable {f : File} (h : f.WellFormed)
include h

/-- A batch of a file with rebuilt controls has the control that it calls for. -/
theorem control_of_mem_batches {b : Batch} (hb : b ∈ f.batches) :
    b.control = b.expectedControl := by
  -- rebuilding has changed no batch
  have hmap : f.batches.map Batch.rebuildControl = f.batches.map fun b => b := by
    rw [List.map_id']
    exact congrArg File.batches h.rebuilt
  exact (congrArg Batch.control (List.map_inj_left.mp hmap b hb)).symm

/-- The rebuilt file control agrees with the batches. -/
theorem control_agrees : f.control.Agrees f.batches := by
  rw [← congrArg File.control h.rebuilt]
  exact ⟨rfl, rfl, rfl, rfl, rfl⟩

theorem WellFormed.faultless : f.Faultless where
  header := Cell.legible_of_fits h.headerFits
  headerValid := h.headerValid
  batches b hb := (h.batches b hb).faultless (control_of_mem_batches h hb)
  control := h.controlFits
  agrees := control_agrees h

/-- **The records of the text are the lines that were written.** -/
theorem recordsOf_text : recordsOf (Utf8.encode f.text) = f.paddedLines :=
  h.faultless.recordsOf_encode_text

theorem batches_written :
    (f.batches.map Batch.written).map BatchRecords.batch = f.batches.map Batch.withoutIds := by
  rw [h.faultless.legible.batches_written]
  exact List.map_congr_left fun b hb => by rw [(h.batches b hb).filled_eq_self]

/-- The lines of a well formed file conform to the grammar. -/
theorem conforms_paddedLines : Conforms f.paddedLines (f.batches.map Batch.written) :=
  h.faultless.conforms_paddedLines

end File

/-- **Reading the text of a well formed file returns the file**, without its identities and with a
header that has passed its checks. -/
theorem read_text {f : File} (h : f.WellFormed) :
    read (Utf8.encode f.text) = .ok { f.withoutIds with hasValidHeader := true } := by
  have hheader := FileHeader.isSound_lineOf h.headerFits h.headerValid
  have hcontrol := FileControl.isSound_lineOf h.controlFits
  refine read_eq_ok_iff.mpr ⟨f.batches.map Batch.written, ?_, lineOf f.header.cells, ?_,
    hheader.type, lineOf f.control.cells, ?_, hcontrol.type, ?_⟩
  · rw [File.recordsOf_text h]
    exact File.conforms_paddedLines h
  · rw [File.recordsOf_text h]
    simp [File.paddedLines, File.lines]
  · rw [File.recordsOf_text h]
    simp [File.paddedLines, File.lines]
  · -- what fitted into the columns is read back from them
    rw [fileOf, File.batches_written h, FileHeader.ofLine_lineOf h.headerFits,
      FileHeader.padded, zeroPadded_eq_self h.priorityCode,
      FileControl.ofLine_lineOf h.controlFits]
    rfl

/-- A payment with remittance information, and the return of a payment. -/
def sampleFile : File :=
  File.rebuildControls { File.new sampleFileHeader with
    batches := [
      { header := sampleBatchHeader
        entries := [
          sampleEntry,
          { sampleEntry with
            id := some "payment"
            addendaRecordIndicator := 1
            remittances := [{
              paymentRelatedInformation := "Payroll for March"
              sequenceNumber := 1
              entryDetailSequenceNumber := "0000001" }] }] },
      { header := { sampleBatchHeader with batchNumber := 2 }
        entries := [
          { sampleEntry with
            transactionCode := 26
            addendaRecordIndicator := 1
            returnNotice := some {
              returnCode := "R03"
              sentTrace := "121042880000001"
              sentDfi := "23138010"
              traceNumber := "121042880000001" } }] }] }

theorem read_text_sampleFile :
    read (Utf8.encode sampleFile.text) =
      .ok { sampleFile.withoutIds with hasValidHeader := true } :=
  read_text (by decide +kernel)

end AchCourier.Ach
