import AchCourier.Proofs.Ach.Faultless
import AchCourier.Proofs.Ach.Reconciliation
import AchCourier.Proofs.Ach.Repair

/-!
# Reading, writing and reading again

What was read without faults is faultless: the columns it was read from hold no more than fits in
them, the checks on its records were passed, and its controls were compared with what they control.
Only a file control that stands before a batch knows nothing of it.  So, unless batches follow the
file control, the file that was read can be written and read again.

The second reading differs from the first in the zeros that writing puts in front of the priority
code and of the sequence numbers of entries.  They are put there once, so writing the second
reading gives the same text.

## Main definitions

* `Entry.settled`, `Batch.settled`, `File.settled` — the parts with these zeros.
* `BatchesBeforeControl` — no record of a batch stands behind the file control.

## Main results

* `File.text_settled` — the zeros are written already.
* `faultless_of_read` — a file that was read without faults is faultless.
* `read_text_of_read` — **reading, writing and reading again is stable.**
-/

namespace AchCourier.Ach

/-! ### Zeros that are written -/

/-- The entry with the sequence numbers of its remittance information filled up with zeros. -/
def Entry.settled (e : Entry) : Entry :=
  { e with remittances := e.remittances.map Remittance.padded }

/-- The batch with the sequence numbers of its remittance information filled up with zeros. -/
def Batch.settled (b : Batch) : Batch :=
  { b with entries := b.entries.map Entry.settled }

/-- The file with its priority code and the sequence numbers of its remittance information filled
up with zeros. -/
def File.settled (f : File) : File :=
  { f with header := f.header.padded, batches := f.batches.map Batch.settled }

theorem Cell.render_zeros_zeroPadded (width : Nat) (s : String) :
    (zeros width (zeroPadded width s).toList).render = (zeros width s.toList).render := by
  have hfull : width ≤ (s.toList.leftpad width '0').length := by
    rw [List.length_leftpad]
    exact Nat.le_max_left width _
  rw [zeroPadded, String.toList_ofList, render, render, List.leftpad, Nat.sub_eq_zero_of_le hfull,
    List.replicate_zero, List.nil_append]

theorem FileHeader.lineOf_padded (h : FileHeader) : lineOf h.padded.cells = lineOf h.cells := by
  simp only [lineOf, cells, padded, List.flatMap_cons, Cell.render_zeros_zeroPadded]

theorem Remittance.lineOf_padded (a : Remittance) : lineOf a.padded.cells = lineOf a.cells := by
  simp only [lineOf, cells, padded, List.flatMap_cons, Cell.render_zeros_zeroPadded]

theorem Entry.lines_settled (e : Entry) : e.settled.lines = e.lines := by
  have hremittances : (e.remittances.map Remittance.padded).map (lineOf ·.cells) =
      e.remittances.map (lineOf ·.cells) := by
    rw [List.map_map]
    exact List.map_congr_left fun a _ => a.lineOf_padded
  rw [lines, settled, hremittances]
  rfl

theorem Batch.lines_settled (b : Batch) : b.settled.lines = b.lines := by
  rw [lines, settled, List.flatMap_map]
  simp only [Entry.lines_settled]
  rfl

theorem File.lines_settled (f : File) : f.settled.lines = f.lines := by
  rw [lines, settled, List.flatMap_map, FileHeader.lineOf_padded]
  simp only [Batch.lines_settled]
  rfl

/-- **The zeros are written already**, so filling them in changes nothing about the text. -/
theorem File.text_settled (f : File) : f.settled.text = f.text := by
  rw [text, text, paddedLines, paddedLines, lines_settled]

/-- Of a faultless entry, the trace number has all its digits. -/
theorem Entry.Faultless.filled_withoutId {e : Entry} (h : e.Faultless) (hid : e.id = none) :
    e.filled.withoutId = e.settled := by
  have hfilled : e.filled = e.settled := by
    rw [filled, padded, zeroPadded_eq_self h.valid.trace.1, settled]
  rw [hfilled]
  exact withoutId_eq_self hid

theorem Batch.Faultless.filled_withoutIds {b : Batch} (h : b.Faultless) (hread : b.AsRead) :
    b.filled.withoutIds = b.settled := by
  have hentries : (b.entries.map Entry.filled).map Entry.withoutId =
      b.entries.map Entry.settled := by
    rw [List.map_map]
    exact List.map_congr_left fun e he =>
      (h.entries e he).filled_withoutId (hread.entries e he).id
  rw [withoutIds, filled, hentries, hread.id, settled, hread.id]

/-! ### Records that were read without faults -/

theorem Conforms.complaints_of_mem {records : List (List Char)} {batches : List BatchRecords}
    (h : Conforms records batches) (hb : ∀ r ∈ records, r.all Text.isBlank = false)
    {record : List Char} (hmem : record ∈ records) {t : Char} (ht : hasType t record = true) :
    (Line.ofType record t).complaints = [] := by
  have hnone := (complaints_classify_eq_nil_iff (hb record hmem)).mpr
    ⟨h.shape record hmem, h.fields record hmem⟩
  rwa [classify_of_hasType (hb record hmem) (h.shape record hmem) ht] at hnone

/-- Nothing is wrong with any record of the entry. -/
def EntryRecords.Pass (e : EntryRecords) : Prop :=
  Entry.complaints e.record = [] ∧ ∀ a ∈ e.addenda, Addenda.complaints a = []

/-- Nothing is wrong with any record of the batch. -/
def BatchRecords.Pass (b : BatchRecords) : Prop :=
  BatchHeader.complaints b.header = [] ∧ ∀ e ∈ b.entries, e.Pass

theorem Conforms.pass {records : List (List Char)} {batches : List BatchRecords}
    (h : Conforms records batches) (hb : ∀ r ∈ records, r.all Text.isBlank = false)
    {b : BatchRecords} (hmem : b ∈ batches) : b.Pass := by
  -- the division of the records into batches adds none
  have hrecord : ∀ r ∈ b.records, r ∈ records := by
    intro r hr
    have hbatch : r ∈ records.filter isBatchRecord := by
      rw [h.division]
      exact List.mem_flatMap.mpr ⟨b, hmem, hr⟩
    exact (List.mem_filter.mp hbatch).1
  have hwf := (h.wellFormed b hmem).opening
  refine ⟨h.complaints_of_mem hb (hrecord _ ?_) hwf.type, fun e he => ⟨?_, fun a ha => ?_⟩⟩
  · simp [BatchRecords.records, BatchOpening.records]
  · refine h.complaints_of_mem hb (hrecord _ ?_) (hwf.entries e he).type
    simp only [BatchRecords.records, BatchOpening.records, EntryRecords.records, List.cons_append,
      List.mem_cons, List.mem_append, List.mem_flatMap]
    exact Or.inr (Or.inl ⟨e, he, Or.inl rfl⟩)
  · refine h.complaints_of_mem hb (hrecord _ ?_) ((hwf.entries e he).addendaTypes a ha)
    simp only [BatchRecords.records, BatchOpening.records, EntryRecords.records, List.cons_append,
      List.mem_cons, List.mem_append, List.mem_flatMap]
    exact Or.inr (Or.inl ⟨e, he, Or.inr ha⟩)

/-- The rules of an entry do not concern its addenda. -/
theorem Entry.valid_attach {e : Entry} (a : Addenda) : (e.attach a).Valid ↔ e.Valid := by
  rw [valid_iff, valid_iff]
  cases a <;> rfl

theorem Entry.valid_foldl_attach (as : List Addenda) (e : Entry) :
    (as.foldl attach e).Valid ↔ e.Valid := by
  induction as generalizing e with
  | nil => rfl
  | cons a as ih => rw [List.foldl_cons, ih, valid_attach]

/-- An entry has no other addenda than those that were attached. -/
theorem Entry.mem_addenda_foldl_attach {as : List Addenda} {e : Entry} {x : Addenda}
    (h : x ∈ (as.foldl attach e).addenda) : x ∈ e.addenda ∨ x ∈ as := by
  induction as generalizing e with
  | nil => exact Or.inl h
  | cons a as ih =>
    rcases ih h with h | h
    · rcases mem_addenda_attach h with h | rfl
      · exact Or.inl h
      · exact Or.inr List.mem_cons_self
    · exact Or.inr (List.mem_cons_of_mem a h)

theorem EntryRecords.Pass.faultless {e : EntryRecords} (h : e.Pass) (hread : e.entry.AsRead) :
    e.entry.Faultless where
  toLegible := hread.toLegible
  valid := by
    rw [EntryRecords.entry, Entry.valid_foldl_attach]
    exact (Entry.complaints_eq_nil_iff.mp h.1).2
  addendaValid x hx := by
    rcases Entry.mem_addenda_foldl_attach hx with hx | hx
    · cases hx
    · -- the addenda were read from a line that passed its checks
      obtain ⟨line, hline, hx⟩ := List.mem_filterMap.mp hx
      obtain ⟨a, ha, -, hvalid⟩ := Addenda.complaints_eq_nil_iff.mp (h.2 line hline)
      rw [ha, Option.some.injEq] at hx
      exact hx ▸ hvalid

theorem BatchRecords.Pass.faultless {b : BatchRecords} (h : b.Pass) (hwf : b.WellFormed)
    (hread : b.batch.AsRead) (hcontrol : ∀ c ∈ b.control, isRecordChar c = true) :
    b.batch.Faultless where
  header := hread.header
  headerValid := (BatchHeader.complaints_eq_nil_iff.mp h.1).2
  entries x hx := by
    have hentry := hread.entries x hx
    obtain ⟨e, he, rfl⟩ := List.mem_map.mp hx
    exact (h.2 e he).faultless hentry
  control := BatchControl.legible_ofLine hcontrol
  agrees := hwf.agrees

/-! ### Files that were read without faults -/

/-- From the file control on, no record belongs to a batch. -/
def BatchesBeforeControl (records : List (List Char)) : Prop :=
  (records.dropWhile fun r => !hasType '9' r).all (fun r => !isBatchRecord r) = true

instance (records : List (List Char)) : Decidable (BatchesBeforeControl records) :=
  inferInstanceAs (Decidable (_ = true))

/-- The only file control stands behind all batches. -/
theorem Conforms.agrees_of_batchesBeforeControl {records : List (List Char)}
    {batches : List BatchRecords} (h : Conforms records batches)
    (hlast : BatchesBeforeControl records) {control : List Char} (hmem : control ∈ records)
    (ht : hasType '9' control = true) :
    (FileControl.ofLine control).Agrees (batches.map BatchRecords.batch) := by
  obtain ⟨before, after, hsplit⟩ := List.append_of_mem hmem
  have hone := h.control
  rw [hsplit, List.countP_append, List.countP_cons, ht, if_pos rfl] at hone
  -- it is the first of its type, so dropping the others leads to it
  have hbefore : ∀ r ∈ before, (!hasType '9' r) = true := by
    have hzero : before.countP (hasType '9') = 0 := by omega
    intro r hr
    simpa using List.countP_eq_zero.mp hzero r hr
  have hrest : records.dropWhile (fun r => !hasType '9' r) = control :: after := by
    rw [hsplit, List.dropWhile_append_of_pos hbefore, List.dropWhile_cons, ht]
    rfl
  rw [BatchesBeforeControl, hrest, List.all_cons, Bool.and_eq_true, List.all_eq_true] at hlast
  refine (h.agrees_iff hsplit ht).mpr (List.countP_eq_zero.mpr fun r hr h8 => ?_)
  have hnot := hlast.2 r hr
  rw [isBatchRecord_of_hasType h8] at hnot
  cases hnot

/-- A record of a byte string whose type is known can stand in a text. -/
theorem isRecordChar_of_mem_recordsOf {bytes : Bytes} {record : List Char}
    (hmem : record ∈ recordsOf bytes) (hr : IsRecord record) {t : Char}
    (ht : hasType t record = true) (hread : record ∈ (Line.ofType record t).record?) :
    ∀ c ∈ record, isRecordChar c = true := by
  have hline : classify record ∈ linesOf bytes :=
    List.mem_map_of_mem (List.mem_filter.mp hmem).1
  rw [classify_of_hasType (not_blank_of_mem_recordsOf hmem) hr ht] at hline
  exact isRecordChar_of_mem_linesOf hline hread

/-- **A file that was read without faults is faultless**, unless batches follow its control. -/
theorem faultless_of_read {bytes : Bytes} {f : File} (hread : read bytes = .ok f)
    (hlast : BatchesBeforeControl (recordsOf bytes)) : f.Faultless := by
  have hasRead : f.AsRead := by
    rw [ReadsAs.eq_recover (Or.inl ⟨hread, rfl⟩ : ReadsAs bytes f [])]
    exact asRead_recover bytes
  obtain ⟨batches, h, header, hheader, hheaderType, control, hcontrol, hcontrolType, rfl⟩ :=
    read_eq_ok_iff.mp hread
  have hb : ∀ r ∈ recordsOf bytes, r.all Text.isBlank = false := fun r =>
    not_blank_of_mem_recordsOf
  constructor
  · exact hasRead.header
  · exact (FileHeader.complaints_eq_nil_iff.mp (h.complaints_header hheader hheaderType)).2
  · intro x hx
    have hbatch := hasRead.batches x hx
    obtain ⟨b, hmem, rfl⟩ := List.mem_map.mp hx
    have hwf := h.wellFormed b hmem
    -- the control of the batch is one of the records, so its characters can be written again
    have hcontrolMem : b.control ∈ recordsOf bytes := by
      have hfilter : b.control ∈ (recordsOf bytes).filter isBatchRecord := by
        rw [h.division]
        exact List.mem_flatMap.mpr ⟨b, hmem, List.mem_append_right _ List.mem_cons_self⟩
      exact (List.mem_filter.mp hfilter).1
    exact (h.pass hb hmem).faultless hwf hbatch
      (isRecordChar_of_mem_recordsOf hcontrolMem (h.shape _ hcontrolMem) hwf.type rfl)
  · exact FileControl.fits_ofLine control
  · exact h.agrees_of_batchesBeforeControl hlast hcontrol hcontrolType

/-- **Reading, writing and reading again is stable.**  A file that was read without faults, with no
record of a batch behind its control, is read again from its text, with zeros filled in; and the
second reading is written as the same text. -/
theorem read_text_of_read {bytes : Bytes} {f : File} (hread : read bytes = .ok f)
    (hlast : BatchesBeforeControl (recordsOf bytes)) :
    read (Utf8.encode f.text) = .ok f.settled ∧ f.settled.text = f.text := by
  have hfaultless := faultless_of_read hread hlast
  have hasRead : f.AsRead := by
    rw [ReadsAs.eq_recover (Or.inl ⟨hread, rfl⟩ : ReadsAs bytes f [])]
    exact asRead_recover bytes
  have hbatches : f.batches.map (fun b => b.filled.withoutIds) = f.batches.map Batch.settled :=
    List.map_congr_left fun b hb =>
      (hfaultless.batches b hb).filled_withoutIds (hasRead.batches b hb)
  refine ⟨?_, f.text_settled⟩
  rw [hfaultless.read_eq_ok, hbatches]
  -- what was read has no identity, and its header has passed its checks
  obtain ⟨batches, -, header, -, -, control, -, -, rfl⟩ := read_eq_ok_iff.mp hread
  rfl

/-- A payment with a priority code and a sequence number that lack their zeros, and with a tab and
a carriage return in its texts. -/
def untidyBytes : Bytes :=
  let entry := { sampleEntry with addendaRecordIndicator := 1, individualName := "Jane\tDoe" }
  let remittance : Remittance := {
    paymentRelatedInformation := "Rent\rMarch", sequenceNumber := 1,
    entryDetailSequenceNumber := "12" }
  let batch : Batch := {
    header := sampleBatchHeader, entries := [{ entry with remittances := [remittance] }] }
  Utf8.encode (textOf [
    lineOf (.fixed ['1'] :: .right 2 "1" :: sampleFileHeader.cells.drop 2),
    lineOf batch.header.cells,
    lineOf entry.cells,
    lineOf (remittance.cells.dropLast ++ [.right 7 "12"]),
    lineOf batch.expectedControl.cells,
    lineOf ({ batches := [batch] } : File).expectedControl.cells,
    paddingLine])

theorem read_text_of_read_untidyBytes :
    ∃ f, read untidyBytes = .ok f ∧ f.settled ≠ f ∧
      read (Utf8.encode f.text) = .ok f.settled ∧ f.settled.text = f.text := by
  have hread := read_of_no_faults (show faultsOf untidyBytes = [] by decide +kernel)
  exact ⟨_, hread, by decide +kernel, read_text_of_read hread (by decide +kernel)⟩

end AchCourier.Ach
