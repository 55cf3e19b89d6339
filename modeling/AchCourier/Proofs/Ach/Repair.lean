import AchCourier.Proofs.Ach.Grammar
import AchCourier.Proofs.Ach.ReadParts

/-!
# Files that are repaired

A file that was recovered from a damaged text has controls that may be missing or wrong, and its
records may stand in no batch.  With its controls rebuilt it is written as records in the usual
order, whatever their fields hold.  These lines are all admitted, so when they are read, the faults
are those of single header, entry and addenda records, and the batches are the ones that were
written.

## Main definitions

* `ReadsAs` — the file and the faults with which reading ends.
* `File.ControlsFit` — no number of a control goes beyond its columns.

## Main results

* `Ledger.takes_usualOrder` — records in the usual order are admitted, whatever their fields hold.
* `File.AsRead.record_of_mem_faultsOf_text` — the faults that are left.
* `read_rebuildControls` — **rebuilding the controls repairs any recovered file.**
-/

namespace AchCourier.Ach

/-! ### What reading ends with -/

/-- Reading the bytes ends with the file, be it whole or as far as it could be recovered, and with
the faults. -/
def ReadsAs (bytes : Bytes) (f : File) (faults : List Fault) : Prop :=
  read bytes = .ok f ∧ faults = [] ∨ read bytes = .error ⟨f, faults⟩

theorem readsAs_recover (bytes : Bytes) : ReadsAs bytes (recover bytes) (faultsOf bytes) := by
  by_cases h : faultsOf bytes = []
  · exact Or.inl ⟨read_of_no_faults h, h⟩
  · exact Or.inr (read_of_faults h)

/-- Reading ends with one file only. -/
theorem ReadsAs.eq_recover {bytes : Bytes} {f : File} {faults : List Fault}
    (h : ReadsAs bytes f faults) : f = recover bytes := by
  -- reading ends in one way only, so both descriptions speak of the same end
  rcases readsAs_recover bytes with ⟨hread, -⟩ | hread
  · rcases h with ⟨h, -⟩ | h
    · rw [h] at hread
      exact Except.ok.inj hread
    · rw [h] at hread
      cases hread
  · rcases h with ⟨h, -⟩ | h
    · rw [h] at hread
      cases hread
    · rw [h] at hread
      exact congrArg ReadError.recovered (Except.error.inj hread)

/-! ### Rebuilt controls -/

/-- No number of a control goes beyond its columns. -/
structure File.ControlsFit (f : File) : Prop where
  batches : ∀ b ∈ f.batches, ∀ c ∈ b.control.cells, c.excess = 0
  control : ∀ c ∈ f.control.cells, c.excess = 0

instance (f : File) : Decidable f.ControlsFit :=
  decidable_of_iff
    ((∀ b ∈ f.batches, ∀ c ∈ b.control.cells, c.excess = 0) ∧ ∀ c ∈ f.control.cells, c.excess = 0)
    ⟨fun ⟨hbatches, hcontrol⟩ => ⟨hbatches, hcontrol⟩, fun h => ⟨h.batches, h.control⟩⟩

/-- The texts of a rebuilt batch control are those of the batch header. -/
theorem Batch.legible_expectedControl {b : Batch} (hheader : ∀ c ∈ b.header.cells, c.Legible)
    (hexcess : ∀ c ∈ b.expectedControl.cells, c.excess = 0) :
    ∀ c ∈ b.expectedControl.cells, c.Legible := by
  -- the texts of the control are those of the header
  have hcompany : (Cell.left 10 b.header.companyIdentification).Legible :=
    hheader _ (@mem_of_cellAt _ _ 41 rfl)
  have hbank : (Cell.left 8 b.header.odfiIdentification).Legible :=
    hheader _ (@mem_of_cellAt _ _ 80 rfl)
  have hnumber : ∀ {width n : Nat}, (Cell.number width n).excess = 0 →
      (Cell.number width n).Legible := fun h => (Cell.fits_number_of_excess h).legible
  have hblank : ∀ width, (Cell.blank width).Legible := fun width => (Cell.fits_blank width).legible
  simp only [BatchControl.cells, List.forall_mem_cons] at hexcess ⊢
  obtain ⟨-, hclass, hcount, hhash, hdebit, hcredit, -, -, -, -, hbatch, -⟩ := hexcess
  exact ⟨rfl, hnumber hclass, hnumber hcount, hnumber hhash, hnumber hdebit, hnumber hcredit,
    hcompany, hblank 19, hblank 6, hbank, hnumber hbatch, List.forall_mem_nil _⟩

theorem FileControl.fits_of_excess {c : FileControl} (h : ∀ d ∈ c.cells, d.excess = 0) :
    ∀ d ∈ c.cells, d.Fits := by
  simp only [cells, List.forall_mem_cons] at h ⊢
  obtain ⟨-, hbatches, hblocks, hcount, hhash, hdebit, hcredit, -⟩ := h
  exact ⟨rfl, Cell.fits_number_of_excess hbatches, Cell.fits_number_of_excess hblocks,
    Cell.fits_number_of_excess hcount, Cell.fits_number_of_excess hhash,
    Cell.fits_number_of_excess hdebit, Cell.fits_number_of_excess hcredit,
    Cell.fits_blank 39, List.forall_mem_nil _⟩

/-- A file that was recovered can be written once its controls are rebuilt. -/
theorem File.AsRead.legible_rebuildControls {f : File} (h : f.AsRead)
    (hfit : f.rebuildControls.ControlsFit) : f.rebuildControls.Legible where
  header := h.header
  batches b hb := by
    have hexcess := hfit.batches b hb
    obtain ⟨b, hmem, rfl⟩ := List.mem_map.mp hb
    have hread := h.batches b hmem
    exact ⟨hread.header, fun e he => (hread.entries e he).toLegible,
      Batch.legible_expectedControl hread.header hexcess⟩
  control := Cell.legible_of_fits (FileControl.fits_of_excess hfit.control)

/-- What is read has no identities, and rebuilding gives it none. -/
theorem File.AsRead.filled_withoutIds {f : File} (h : f.AsRead) {b : Batch}
    (hb : b ∈ f.rebuildControls.batches) : b.filled.withoutIds = b.filled := by
  obtain ⟨b, hmem, rfl⟩ := List.mem_map.mp hb
  have hread := h.batches b hmem
  have hentries : (b.entries.map Entry.filled).map Entry.withoutId =
      b.entries.map Entry.filled := by
    rw [List.map_map]
    refine List.map_congr_left fun e he => Entry.withoutId_eq_self ?_
    rw [Entry.id_filled, (hread.entries e he).id]
  rw [Batch.withoutIds, Batch.filled, Batch.rebuildControl, hentries, hread.id]

/-! ### Lines in the usual order -/

namespace Ledger

theorem takes_padding (s : Ledger) (padding : Nat) :
    s.Takes (List.replicate padding .padding) s := by
  induction padding with
  | zero => exact Takes.nil s
  | succ padding ih => exact Takes.cons trivial ih

/-- **Records in the usual order are admitted, whatever their fields hold.** -/
theorem takes_usualOrder {header control : List Char} {batches : List BatchRecords}
    {padding : Nat} (hheader : IsWritten '1' header) (hcontrol : IsWritten '9' control)
    (hbatches : ∀ b ∈ batches, b.WellFormed)
    (hrecords : ∀ r ∈ batches.flatMap BatchRecords.records, IsRecord r)
    (hagree : (FileControl.ofLine control).Agrees (batches.map BatchRecords.batch)) :
    ({} : Ledger).Takes ((usualOrder header batches control padding).map classify)
      ⟨batches.map BatchRecords.batch, none⟩ := by
  have hpadding : (List.replicate padding paddingLine).map classify =
      List.replicate padding .padding := List.map_replicate
  have hbody := BatchRecords.takes_flatMap batches [] hbatches hrecords
  rw [usualOrder, List.map_append, List.map_append, List.map_cons, List.map_singleton,
    hheader.classify_eq, hcontrol.classify_eq, hpadding]
  -- the header and the padding change nothing, and the control finds all batches closed
  refine Takes.append (Takes.append (Takes.cons trivial hbody) ?_) (takes_padding _ padding)
  exact Takes.cons hagree (Takes.nil _)

end Ledger

/-- The lines of a file are in the usual order. -/
theorem File.exists_paddedLines_eq (f : File) :
    ∃ padding, f.paddedLines =
      usualOrder (lineOf f.header.cells) (f.batches.map Batch.written)
        (lineOf f.control.cells) padding := by
  rw [paddedLines, lines_eq]
  exact ⟨_, rfl⟩

/-! ### Reading a repaired file -/

/-- The rebuilt file control agrees with the batches, whose controls are rebuilt as well. -/
theorem File.agrees_rebuildControls (f : File) :
    f.rebuildControls.control.Agrees f.rebuildControls.batches := by
  -- rebuilding changes no entry
  have hentries : f.rebuildControls.batches.flatMap Batch.entries =
      f.batches.flatMap Batch.entries := by
    rw [rebuildControls, List.flatMap_map]
    rfl
  constructor
  · exact (List.length_map _).symm
  · rw [rebuildControls, List.map_map]
    rfl
  · rw [hentries]
    rfl
  · rw [rebuildControls, List.map_map]
    rfl
  · rw [rebuildControls, List.map_map]
    rfl

/-- What is wrong with the fields of a header, an entry or addenda is reported under its kind. -/
theorem Line.kind_ofType {t : Char} (ht : t ∈ ['1', '5', '6', '7']) (line : List Char) :
    (Line.ofType line t).kind ∉ [.unrecognised, .batchControl, .fileControl] := by
  simp only [List.mem_cons, List.not_mem_nil, or_false] at ht
  rcases ht with rfl | rfl | rfl | rfl <;> simp [Line.ofType, Line.kind]

namespace File.AsRead

variable {f : File} (h : f.AsRead) (hfit : f.rebuildControls.ControlsFit)
include h hfit

/-- The batches of a repaired file are written as well formed records. -/
theorem wellFormed_written :
    ∀ b ∈ f.rebuildControls.batches.map Batch.written, b.WellFormed := by
  intro r hr
  obtain ⟨b, hb, rfl⟩ := List.mem_map.mp hr
  have hcontrol : b.control = b.expectedControl := by
    obtain ⟨b, -, rfl⟩ := List.mem_map.mp hb
    rfl
  exact ((h.legible_rebuildControls hfit).batches b hb).wellFormed_written hcontrol

/-- The lines of a repaired file are admitted, and its batches are read back from them. -/
theorem takes_rebuildControls :
    ({} : Ledger).Takes (f.rebuildControls.paddedLines.map classify)
      ⟨f.rebuildControls.batches.map Batch.filled, none⟩ := by
  have hlegible := h.legible_rebuildControls hfit
  have hrecords : ∀ r ∈ (f.rebuildControls.batches.map Batch.written).flatMap
      BatchRecords.records, IsRecord r := by
    intro r hr
    have hline : r ∈ f.rebuildControls.lines := by
      rw [lines_eq]
      exact List.mem_append_left _ (List.mem_cons_of_mem _ hr)
    obtain ⟨t, ht⟩ := hlegible.isWritten_of_mem_lines hline
    exact ht.shape
  -- zeros and identities do not count, so the control agrees with what is read back
  have hagree : (FileControl.ofLine (lineOf f.rebuildControls.control.cells)).Agrees
      ((f.rebuildControls.batches.map Batch.written).map BatchRecords.batch) := by
    rw [FileControl.ofLine_lineOf (FileControl.fits_of_excess hfit.control),
      hlegible.batches_written,
      FileControl.agrees_map Entry.keepsTotals_filled_withoutId Batch.entries_filled_withoutIds]
    exact f.agrees_rebuildControls
  have hread : (f.rebuildControls.batches.map Batch.written).map BatchRecords.batch =
      f.rebuildControls.batches.map Batch.filled := by
    rw [hlegible.batches_written]
    exact List.map_congr_left fun b hb => h.filled_withoutIds hb
  obtain ⟨padding, hlines⟩ := f.rebuildControls.exists_paddedLines_eq
  rw [hlines, ← hread]
  exact Ledger.takes_usualOrder (FileHeader.isWritten_lineOf hlegible.header)
    (FileControl.isWritten_lineOf hlegible.control) (h.wellFormed_written hfit) hrecords hagree

/-- There is one header and one control among the lines of a repaired file. -/
theorem countP_rebuildControls {t : Char} (ht : ['5', '6', '7', '8'].contains t = false) :
    f.rebuildControls.paddedLines.countP (hasType t) =
      (if t = '1' then 1 else 0) + (if t = '9' then 1 else 0) := by
  have hlegible := h.legible_rebuildControls hfit
  obtain ⟨padding, hlines⟩ := f.rebuildControls.exists_paddedLines_eq
  rw [hlines]
  exact countP_usualOrder (FileHeader.isWritten_lineOf hlegible.header).type
    (FileControl.isWritten_lineOf hlegible.control).type (h.wellFormed_written hfit) ht

/-- Among the lines of a repaired file, nothing is wrong with the controls and the padding. -/
theorem kind_of_complaints {l : Line} (hl : l ∈ f.rebuildControls.paddedLines.map classify)
    (hne : l.complaints ≠ []) :
    l.kind ∉ [.unrecognised, .batchControl, .fileControl] := by
  have hlegible := h.legible_rebuildControls hfit
  obtain ⟨line, hline, rfl⟩ := List.mem_map.mp hl
  rcases List.mem_append.mp hline with hline | hline
  · rcases List.mem_append.mp hline with hline | hline
    · rcases List.mem_cons.mp hline with rfl | hline
      · rw [(FileHeader.isWritten_lineOf hlegible.header).classify_eq]
        exact Line.kind_ofType (by decide) _
      · obtain ⟨b, hb, hline⟩ := List.mem_flatMap.mp hline
        have hb := hlegible.batches b hb
        rcases hb.isWritten_of_mem_lines hline with ⟨t, ht, hline⟩ | rfl
        · rw [hline.classify_eq]
          exact Line.kind_ofType (List.mem_cons_of_mem '1' ht) line
        · -- a batch control passes the checks on its fields
          rw [(BatchControl.isWritten_lineOf hb.control).classify_eq] at hne
          exact absurd (BatchControl.complaints_lineOf hb.control) hne
    · rw [List.mem_singleton.mp hline,
        (FileControl.isWritten_lineOf hlegible.control).classify_eq] at hne
      exact absurd (FileControl.complaints_lineOf (FileControl.fits_of_excess hfit.control)) hne
  · rw [List.eq_of_mem_replicate hline] at hne
    exact absurd rfl hne

/-- The lines of the text of a repaired file. -/
theorem linesOf_text : linesOf (Utf8.encode f.rebuildControls.text) =
    f.rebuildControls.paddedLines.map classify ++ [Line.blank] :=
  linesOf_textOf fun _ hline =>
    ((h.legible_rebuildControls hfit).isRecord_of_mem_paddedLines hline).2.1

/-- The blank line behind the last line feed is admitted as well. -/
theorem takes_linesOf_text :
    ({} : Ledger).Takes (linesOf (Utf8.encode f.rebuildControls.text))
      ⟨f.rebuildControls.batches.map Batch.filled, none⟩ := by
  rw [h.linesOf_text hfit]
  exact (h.takes_rebuildControls hfit).append (Ledger.Takes.cons trivial (Ledger.Takes.nil _))

/-- **The batches that were written are recovered.** -/
theorem batches_recover_text : (recover (Utf8.encode f.rebuildControls.text)).batches =
    f.rebuildControls.batches.map Batch.filled := by
  have hledger := (h.takes_linesOf_text hfit).2
  rw [recover, file_readLines, recovered, hledger]
  exact List.append_nil _

/-- **The faults that are left** are those of header, entry and addenda records. -/
theorem record_of_mem_faultsOf_text {x : Fault}
    (hx : x ∈ faultsOf (Utf8.encode f.rebuildControls.text)) :
    x.record ∉ [.unrecognised, .batchControl, .fileControl] := by
  have hlegible := h.legible_rebuildControls hfit
  have hshape : ∀ r ∈ f.rebuildControls.paddedLines, IsRecord r := fun r hr =>
    (hlegible.isRecord_of_mem_paddedLines hr).1
  have hblank : ∀ r ∈ f.rebuildControls.paddedLines, r.all Text.isBlank = false := fun r hr =>
    (hlegible.isRecord_of_mem_paddedLines hr).2.2
  have hlines := h.linesOf_text hfit
  have htakes := h.takes_linesOf_text hfit
  -- from here on it does not matter which bytes the lines came from
  rw [faultsOf] at hx
  generalize linesOf (Utf8.encode f.rebuildControls.text) = lines at hx hlines htakes
  have hheader : lines.countP (·.fileHeader?.isSome) = 1 := by
    rw [hlines, List.countP_append, countP_map_classify hblank hshape rfl fileHeader?_ofType,
      h.countP_rebuildControls hfit rfl]
    rfl
  have hcontrol : lines.countP (·.fileControl?.isSome) = 1 := by
    rw [hlines, List.countP_append, countP_map_classify hblank hshape rfl fileControl?_ofType,
      h.countP_rebuildControls hfit rfl]
    rfl
  have hclosed := congrArg Ledger.current htakes.2
  obtain ⟨l, hl, hkind, hne⟩ := mem_faults_readLines htakes.1 hclosed hheader hcontrol hx
  rw [hkind]
  rw [hlines, List.mem_append] at hl
  rcases hl with hl | hl
  · exact h.kind_of_complaints hfit hl hne
  · rw [List.mem_singleton.mp hl] at hne
    exact absurd rfl hne

end File.AsRead

/-- **Rebuilding the controls repairs any recovered file.**  Whatever bytes the file was read from
and with whatever faults, its text is read back with the same batches, whose trace numbers and
sequence numbers are filled up with zeros, and no fault concerns a line of no known kind, a batch
control or a file control. -/
theorem read_rebuildControls {bytes : Bytes} {f : File} {faults : List Fault}
    (hread : ReadsAs bytes f faults) (hfit : f.rebuildControls.ControlsFit) :
    ∃ f' faults', ReadsAs (Utf8.encode f.rebuildControls.text) f' faults' ∧
      f'.batches = f.rebuildControls.batches.map Batch.filled ∧
      ∀ x ∈ faults', x.record ∉ [.unrecognised, .batchControl, .fileControl] := by
  have hasRead : f.AsRead := by
    rw [hread.eq_recover]
    exact asRead_recover bytes
  exact ⟨_, _, readsAs_recover _, hasRead.batches_recover_text hfit, fun x hx =>
    hasRead.record_of_mem_faultsOf_text hfit hx⟩

/-- A batch header and an entry whose trace number is cut short; nothing else is left. -/
def damagedBytes : Bytes :=
  Utf8.encode (textOf [lineOf sampleBatchHeader.cells,
    lineOf (sampleEntry.cells.dropLast ++ [.right 15 "121042"])])

theorem read_rebuildControls_damagedBytes :
    (recover damagedBytes).batches.length = 1 ∧
      ∃ f' faults', ReadsAs (Utf8.encode (recover damagedBytes).rebuildControls.text) f' faults' ∧
        f'.batches = (recover damagedBytes).rebuildControls.batches.map Batch.filled ∧
        ∀ x ∈ faults', x.record ∉ [.unrecognised, .batchControl, .fileControl] :=
  ⟨by decide +kernel, read_rebuildControls (readsAs_recover damagedBytes) (by decide +kernel)⟩

end AchCourier.Ach
