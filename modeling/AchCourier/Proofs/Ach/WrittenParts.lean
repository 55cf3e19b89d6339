import AchCourier.Proofs.Ach.Division
import AchCourier.Proofs.Ach.RecordWidth
import AchCourier.Proofs.Ach.TextLines
import AchCourier.Proofs.Ach.WrittenRecords

/-!
# Parts of a file on their lines

Entries, batches and files are written as records one after another.  When all their cells are
legible and addenda are announced, these records have the types and the order that reading expects,
and the same parts are read back from them, without their identities and with zeros filled in.

## Main definitions

* `Entry.Legible`, `Batch.Legible`, `File.Legible` — the parts that are read back.
* `IsWritten` — a record of a type that survives the text it stands in.
* `Entry.written`, `Batch.written` — the records that an entry and a batch are written as.
* `Entry.filled`, `Batch.filled` — an entry and a batch with zeros filled in.
* `Entry.withoutId`, `Batch.withoutIds` — an entry and a batch without their identities.

## Main results

* `Entry.Legible.entry_written`, `Batch.Legible.batch_written` — **parts are read back from their
  records.**
* `Batch.Legible.wellFormed_written` — a control that was rebuilt agrees with what is read back.
* `File.Legible.isWritten_of_mem_lines` — the lines of a file are records.
-/

namespace AchCourier.Ach

/-! ### Parts whose cells are legible -/

/-- The addenda of an entry, in the order in which they are written. -/
def Entry.addenda (e : Entry) : List Addenda :=
  e.remittances.map .remittance ++ e.changeNotice.toList.map .change ++
    e.returnNotice.toList.map .returned

/-- The cells of the entry and of its addenda are legible, and any addenda are announced. -/
structure Entry.Legible (e : Entry) : Prop where
  cells : ∀ c ∈ e.cells, c.Legible
  announced : e.addenda ≠ [] → e.addendaRecordIndicator = 1
  addenda : ∀ a ∈ e.addenda, ∀ c ∈ a.cells, c.Legible

/-- The cells of the batch are legible. -/
structure Batch.Legible (b : Batch) : Prop where
  header : ∀ c ∈ b.header.cells, c.Legible
  entries : ∀ e ∈ b.entries, e.Legible
  control : ∀ c ∈ b.control.cells, c.Legible

/-- The cells of the file are legible. -/
structure File.Legible (f : File) : Prop where
  header : ∀ c ∈ f.header.cells, c.Legible
  batches : ∀ b ∈ f.batches, b.Legible
  control : ∀ c ∈ f.control.cells, c.Legible

/-! ### Lines that are records -/

/-- The line is a record of the given type and survives the text that it stands in. -/
structure IsWritten (type : Char) (line : List Char) : Prop where
  shape : IsRecord line
  isLine : IsLine line
  notBlank : line.all Text.isBlank = false
  type : hasType type line = true

theorem IsWritten.classify_eq {t : Char} {line : List Char} (h : IsWritten t line) :
    classify line = .ofType line t :=
  classify_of_hasType h.notBlank h.shape h.type

theorem hasType_of_head? {t : Char} {line : List Char} (h : line.head? = some t)
    (hne : line ≠ paddingLine) : hasType t line = true := by
  simp [hasType, h, hne]

/-- No line of nines begins with anything else. -/
theorem ne_paddingLine_of_head? {t : Char} {line : List Char} (h : line.head? = some t)
    (ht : t ≠ '9') : line ≠ paddingLine := by
  rintro rfl
  rw [paddingLine, List.head?_replicate, if_neg (by decide), Option.some.injEq] at h
  exact ht h.symm

/-- The line of a record with legible cells is a record. -/
theorem Record.isWritten_line {r : Record} {t : Char} (hcells : ∀ c ∈ r.cells, c.Legible)
    (hhead : r.line.head? = some t) (hne : r.line ≠ paddingLine)
    (ht : Text.isBlank t = false) : IsWritten t r.line := by
  have hline : IsLine r.line := isLine_lineOf hcells
  have hlength : r.line.length = recordLength := by
    rw [line, length_lineOf_of_legible hcells, r.width_cells]
  have hascii : r.line.all isAscii = true :=
    List.all_eq_true.mpr fun c hc => hline.isAscii_of_mem hc
  have htype := hasType_of_head? hhead hne
  exact ⟨⟨hlength, hascii⟩, hline, not_blank_of_hasType htype ht, htype⟩

theorem FileHeader.isWritten_lineOf {h : FileHeader} (hcells : ∀ c ∈ h.cells, c.Legible) :
    IsWritten '1' (lineOf h.cells) := by
  have hhead : (lineOf h.cells).head? = some '1' := rfl
  exact Record.isWritten_line (r := .fileHeader h) hcells hhead
    (ne_paddingLine_of_head? hhead (by decide)) rfl

theorem BatchHeader.isWritten_lineOf {h : BatchHeader} (hcells : ∀ c ∈ h.cells, c.Legible) :
    IsWritten '5' (lineOf h.cells) := by
  have hhead : (lineOf h.cells).head? = some '5' := rfl
  exact Record.isWritten_line (r := .batchHeader h) hcells hhead
    (ne_paddingLine_of_head? hhead (by decide)) rfl

theorem Entry.isWritten_lineOf {e : Entry} (hcells : ∀ c ∈ e.cells, c.Legible) :
    IsWritten '6' (lineOf e.cells) := by
  have hhead : (lineOf e.cells).head? = some '6' := rfl
  exact Record.isWritten_line (r := .entry e) hcells hhead
    (ne_paddingLine_of_head? hhead (by decide)) rfl

theorem Addenda.isWritten_lineOf {a : Addenda} (hcells : ∀ c ∈ a.cells, c.Legible) :
    IsWritten '7' (lineOf a.cells) := by
  have hhead : (lineOf a.cells).head? = some '7' := by cases a <;> rfl
  exact Record.isWritten_line (r := .addenda a) hcells hhead
    (ne_paddingLine_of_head? hhead (by decide)) rfl

theorem BatchControl.isWritten_lineOf {c : BatchControl} (hcells : ∀ d ∈ c.cells, d.Legible) :
    IsWritten '8' (lineOf c.cells) := by
  have hhead : (lineOf c.cells).head? = some '8' := rfl
  exact Record.isWritten_line (r := .batchControl c) hcells hhead
    (ne_paddingLine_of_head? hhead (by decide)) rfl

/-- A file control ends with blanks, so it is no padding. -/
theorem FileControl.isWritten_lineOf {c : FileControl} (hcells : ∀ d ∈ c.cells, d.Legible) :
    IsWritten '9' (lineOf c.cells) := by
  -- its last columns are blank
  have hne : lineOf c.cells ≠ paddingLine := by
    intro heq
    have hblank := cut_lineOf hcells (by rfl : cellAt 56 c.cells = some (.blank 39))
    rw [heq] at hblank
    exact absurd hblank (by decide)
  exact Record.isWritten_line (r := .fileControl c) hcells rfl hne rfl

/-! ### What parts are written as -/

/-- The entry without its identity. -/
def Entry.withoutId (e : Entry) : Entry :=
  { e with id := none }

/-- The batch without its identity and those of its entries. -/
def Batch.withoutIds (b : Batch) : Batch :=
  { b with id := none, entries := b.entries.map Entry.withoutId }

/-- The entry with its trace number and the sequence numbers of its remittance information filled
up with zeros. -/
def Entry.filled (e : Entry) : Entry :=
  { e.padded with remittances := e.remittances.map Remittance.padded }

/-- The batch with its entries filled up with zeros. -/
def Batch.filled (b : Batch) : Batch :=
  { b with entries := b.entries.map Entry.filled }

/-- The records that an entry is written as. -/
def Entry.written (e : Entry) : EntryRecords where
  record := lineOf e.cells
  addenda := e.addenda.map (lineOf ·.cells)

/-- The records that a batch is written as. -/
def Batch.written (b : Batch) : BatchRecords where
  header := lineOf b.header.cells
  entries := b.entries.map Entry.written
  control := lineOf b.control.cells

namespace Entry

theorem records_written (e : Entry) : e.written.records = e.lines := by
  simp [EntryRecords.records, written, lines, addenda, Addenda.cells, Function.comp_def]

theorem id_filled (e : Entry) : e.filled.id = e.id := by
  simp only [filled, padded]

theorem withoutId_eq_self {e : Entry} (h : e.id = none) : e.withoutId = e := by
  cases e
  cases h
  rfl

theorem addenda_filled (e : Entry) : e.filled.addenda = e.addenda.map Addenda.padded := by
  simp [addenda, filled, padded, Addenda.padded, Function.comp_def]

theorem foldl_attach_remittance (as : List Remittance) (e : Entry) :
    (as.map Addenda.remittance).foldl attach e = { e with remittances := e.remittances ++ as } := by
  induction as generalizing e with
  | nil => simp
  | cons a as ih =>
    rw [List.map_cons, List.foldl_cons, ih]
    simp [attach]

/-- Attaching its addenda to a bare entry gives the entry back. -/
theorem foldl_attach_addenda (e : Entry) : e.addenda.foldl attach e.bare = e.withoutId := by
  -- of a notification and a return there is one each at most
  rw [addenda, List.foldl_append, List.foldl_append, foldl_attach_remittance]
  obtain ⟨-, -, -, -, -, -, -, -, -, -, -, -, _ | change, _ | returned⟩ := e <;> rfl

namespace Legible

variable {e : Entry} (h : e.Legible)
include h

theorem isWritten_of_mem_lines {line : List Char} (hline : line ∈ e.lines) :
    IsWritten '6' line ∨ IsWritten '7' line := by
  rw [← e.records_written] at hline
  rcases List.mem_cons.mp hline with rfl | hline
  · exact Or.inl (isWritten_lineOf h.cells)
  · obtain ⟨a, ha, rfl⟩ := List.mem_map.mp hline
    exact Or.inr (Addenda.isWritten_lineOf (h.addenda a ha))

/-- **An entry is read back from its records.** -/
theorem entry_written : e.written.entry = e.filled.withoutId := by
  have haddenda :
      (e.addenda.map (lineOf ·.cells)).filterMap Addenda.ofLine? = e.filled.addenda := by
    rw [List.filterMap_map, addenda_filled, ← List.filterMap_eq_map]
    exact List.filterMap_congr fun a ha => Addenda.ofLine?_lineOf (h.addenda a ha)
  have hrecord : ofLine (lineOf e.cells) = e.filled.bare := ofLine_lineOf h.cells
  rw [EntryRecords.entry, written, haddenda, hrecord, foldl_attach_addenda]

theorem wellFormed_written : e.written.WellFormed := by
  refine ⟨(isWritten_lineOf h.cells).type, fun line hline => ?_, fun hne => ?_⟩
  · obtain ⟨a, ha, rfl⟩ := List.mem_map.mp hline
    exact (Addenda.isWritten_lineOf (h.addenda a ha)).type
  · rw [written, ofLine_lineOf h.cells]
    exact h.announced fun hnil => hne (by rw [written, hnil]; rfl)

end Legible

end Entry

/-! ### What controls add up -/

/-- The change leaves alone what the control of a batch adds up. -/
structure Entry.KeepsTotals (g : Entry → Entry) : Prop where
  addendaCount : ∀ e, (g e).addendaCount = e.addendaCount
  rdfiIdentification : ∀ e, (g e).rdfiIdentification = e.rdfiIdentification
  transactionCode : ∀ e, (g e).transactionCode = e.transactionCode
  amount : ∀ e, (g e).amount = e.amount

/-- Identities and zeros in front do not count. -/
theorem Entry.keepsTotals_filled_withoutId :
    Entry.KeepsTotals fun e => e.filled.withoutId := by
  constructor <;> intro e
  · simp only [addendaCount, filled, padded, withoutId, List.length_map]
  · simp only [filled, padded, withoutId]
  · simp only [filled, padded, withoutId]
  · simp only [filled, padded, withoutId]

section
variable {g : Entry → Entry} (hg : Entry.KeepsTotals g)
include hg

theorem entryHash_map (entries : List Entry) : entryHash (entries.map g) = entryHash entries := by
  rw [entryHash, entryHash, List.map_map]
  simp only [Function.comp_def, hg.rdfiIdentification]

variable {b b' : Batch} (hentries : b'.entries = b.entries.map g)
include hentries

theorem Batch.entryAddendaCount_map : b'.entryAddendaCount = b.entryAddendaCount := by
  rw [entryAddendaCount, entryAddendaCount, hentries, List.map_map]
  simp only [Function.comp_def, hg.addendaCount]

theorem Batch.entryHash_map : b'.entryHash = b.entryHash := by
  rw [entryHash, entryHash, hentries, Ach.entryHash_map hg]

theorem Batch.totalDebit_map : b'.totalDebit = b.totalDebit := by
  rw [totalDebit, totalDebit, hentries, List.filter_map, List.map_map]
  simp only [Function.comp_def, hg.amount, Entry.isDebit, hg.transactionCode]
  rfl

theorem Batch.totalCredit_map : b'.totalCredit = b.totalCredit := by
  rw [totalCredit, totalCredit, hentries, List.filter_map, List.map_map]
  simp only [Function.comp_def, hg.amount, Entry.isCredit, hg.transactionCode]
  rfl

/-- A batch control agrees with the changed batch just when it agrees with the batch. -/
theorem BatchControl.agrees_map {c : BatchControl} (hheader : b'.header = b.header) :
    c.Agrees b' ↔ c.Agrees b := by
  rw [agrees_iff, agrees_iff, hheader, Batch.entryAddendaCount_map hg hentries,
    Batch.entryHash_map hg hentries, Batch.totalDebit_map hg hentries,
    Batch.totalCredit_map hg hentries]

omit hentries in
/-- A file control agrees with the changed batches just when it agrees with the batches. -/
theorem FileControl.agrees_map {c : FileControl} {k : Batch → Batch}
    (hk : ∀ b, (k b).entries = b.entries.map g) {batches : List Batch} :
    c.Agrees (batches.map k) ↔ c.Agrees batches := by
  -- the hash is taken over the entries of all batches at once
  have hentries : (batches.map k).flatMap Batch.entries =
      (batches.flatMap Batch.entries).map g := by
    rw [List.flatMap_map, List.map_flatMap]
    simp only [hk]
  rw [agrees_iff, agrees_iff, hentries, entryHash_map hg]
  simp only [List.length_map, List.map_map, Function.comp_def,
    Batch.entryAddendaCount_map hg (hk _), Batch.totalDebit_map hg (hk _),
    Batch.totalCredit_map hg (hk _)]

end

namespace Batch

theorem records_written (b : Batch) : b.written.records = b.lines := by
  simp [BatchRecords.records, BatchOpening.records, written, lines, List.flatMap_map,
    Entry.records_written]

theorem entries_filled_withoutIds (b : Batch) :
    b.filled.withoutIds.entries = b.entries.map fun e => e.filled.withoutId := by
  rw [withoutIds, filled, List.map_map]
  rfl

namespace Legible

variable {b : Batch} (h : b.Legible)
include h

/-- **A batch is read back from its records.** -/
theorem batch_written : b.written.batch = b.filled.withoutIds := by
  have hentries : (b.entries.map Entry.written).map EntryRecords.entry =
      b.filled.withoutIds.entries := by
    rw [entries_filled_withoutIds, List.map_map]
    exact List.map_congr_left fun e he => (h.entries e he).entry_written
  rw [BatchRecords.batch, BatchOpening.batch, written, BatchHeader.ofLine_lineOf h.header,
    BatchControl.ofLine_lineOf h.control, hentries]
  rfl

/-- A batch whose control agrees with it. -/
theorem wellFormed_written_of_agrees (hagree : b.control.Agrees b) : b.written.WellFormed := by
  refine ⟨⟨(BatchHeader.isWritten_lineOf h.header).type, ?_⟩,
    (BatchControl.isWritten_lineOf h.control).type, ?_⟩
  · exact List.forall_mem_map.mpr fun e he => (h.entries e he).wellFormed_written
  · rw [h.batch_written]
    exact (BatchControl.agrees_map Entry.keepsTotals_filled_withoutId
      b.entries_filled_withoutIds rfl).mpr hagree

/-- A batch whose control is the one that it calls for. -/
theorem wellFormed_written (hcontrol : b.control = b.expectedControl) :
    b.written.WellFormed := by
  have hagree : b.control.Agrees b := by
    rw [hcontrol]
    exact ⟨rfl, rfl, rfl, rfl, rfl, rfl⟩
  exact h.wellFormed_written_of_agrees hagree

/-- The records of a batch are its header, entries, addenda, and its control. -/
theorem isWritten_of_mem_lines {line : List Char} (hline : line ∈ b.lines) :
    (∃ t ∈ ['5', '6', '7'], IsWritten t line) ∨ line = lineOf b.control.cells := by
  rcases List.mem_append.mp hline with hline | hline
  · left
    rcases List.mem_cons.mp hline with rfl | hline
    · exact ⟨'5', by decide, BatchHeader.isWritten_lineOf h.header⟩
    · obtain ⟨e, he, hline⟩ := List.mem_flatMap.mp hline
      rcases (h.entries e he).isWritten_of_mem_lines hline with hline | hline
      · exact ⟨'6', by decide, hline⟩
      · exact ⟨'7', by decide, hline⟩
  · exact Or.inr (List.mem_singleton.mp hline)

end Legible

end Batch

/-! ### Files -/

namespace File

/-- The lines of a file are the records of its parts in the usual order. -/
theorem lines_eq (f : File) :
    f.lines = lineOf f.header.cells ::
      (f.batches.map Batch.written).flatMap BatchRecords.records ++ [lineOf f.control.cells] := by
  rw [lines, List.flatMap_map]
  simp only [Batch.records_written]

namespace Legible

variable {f : File} (h : f.Legible)
include h

theorem batches_written : (f.batches.map Batch.written).map BatchRecords.batch =
    f.batches.map fun b => b.filled.withoutIds := by
  rw [List.map_map]
  exact List.map_congr_left fun b hb => (h.batches b hb).batch_written

/-- **The lines of a file are records.** -/
theorem isWritten_of_mem_lines {line : List Char} (hline : line ∈ f.lines) :
    ∃ t, IsWritten t line := by
  rcases List.mem_append.mp hline with hline | hline
  · rcases List.mem_cons.mp hline with rfl | hline
    · exact ⟨'1', FileHeader.isWritten_lineOf h.header⟩
    · obtain ⟨b, hb, hline⟩ := List.mem_flatMap.mp hline
      rcases (h.batches b hb).isWritten_of_mem_lines hline with ⟨t, -, hline⟩ | rfl
      · exact ⟨t, hline⟩
      · exact ⟨'8', BatchControl.isWritten_lineOf (h.batches b hb).control⟩
  · rw [List.mem_singleton.mp hline]
    exact ⟨'9', FileControl.isWritten_lineOf h.control⟩

/-- Lines of padding are like records in everything but their type. -/
theorem isRecord_of_mem_paddedLines {line : List Char} (hline : line ∈ f.paddedLines) :
    IsRecord line ∧ IsLine line ∧ line.all Text.isBlank = false := by
  rcases List.mem_append.mp hline with hline | hline
  · obtain ⟨t, ht⟩ := h.isWritten_of_mem_lines hline
    exact ⟨ht.shape, ht.isLine, ht.notBlank⟩
  · rw [List.eq_of_mem_replicate hline]
    exact ⟨⟨by decide, by decide⟩, isLine_of_all_isLineChar (by decide), by decide⟩

end Legible

end File

end AchCourier.Ach
