import AchCourier.Proofs.Ach.RoundTrip

/-!
# The blocks of a file

The file control counts the blocks of ten records from the numbers of entries and addenda, and the
text is filled up by the number of its lines.  Both come to the same, so the text has as many
blocks as its control says.

## Main definitions

* `Entry.records`, `Batch.records`, `File.records` — the records of a file in order.
* `Record.FeedFree` — no field of the record holds a line feed.

## Main results

* `File.length_records` — the number of records, as it is counted for the control.
* `Record.FeedFree.rebuildControls` — rebuilt controls bring no line feed into a file.
* `File.text_rebuildControls` — **the block count counts the blocks of the text.**
-/

namespace AchCourier.Ach

/-! ### Records in order -/

/-- An entry and its addenda 05, 98 and 99. -/
def Entry.records (e : Entry) : List Record :=
  .entry e :: e.addenda.map .addenda

/-- The records of a batch: its header, its entries with their addenda, and its control. -/
def Batch.records (b : Batch) : List Record :=
  .batchHeader b.header :: b.entries.flatMap Entry.records ++ [.batchControl b.control]

/-- The records of a file: its header, its batches, and its control. -/
def File.records (f : File) : List Record :=
  .fileHeader f.header :: f.batches.flatMap Batch.records ++ [.fileControl f.control]

theorem Entry.map_line_records (e : Entry) : e.records.map Record.line = e.lines := by
  rw [← e.records_written, records, List.map_cons, List.map_map]
  rfl

theorem Batch.map_line_records (b : Batch) : b.records.map Record.line = b.lines := by
  simp [records, lines, List.map_flatMap, Entry.map_line_records, Record.line, Record.cells]

/-- The lines of a file are those of its records. -/
theorem File.map_line_records (f : File) : f.records.map Record.line = f.lines := by
  simp [records, lines, List.map_flatMap, Batch.map_line_records, Record.line, Record.cells]

/-! ### Counting records -/

theorem length_flatMap_eq_total {α β : Type} (g : α → List β) (l : List α) :
    (l.flatMap g).length = total (l.map fun a => (g a).length) :=
  List.length_flatMap

theorem Entry.length_records (e : Entry) : e.records.length = 1 + e.addendaCount := by
  simp [records, addenda, addendaCount, Nat.add_comm, Nat.add_assoc]

theorem Batch.length_records (b : Batch) : b.records.length = 2 + b.entryAddendaCount := by
  rw [records, List.length_append, List.length_cons, length_flatMap_eq_total]
  simp only [Entry.length_records, List.length_singleton, entryAddendaCount]
  omega

/-- The records are counted by what they belong to. -/
theorem File.length_records (f : File) : f.records.length = f.recordCount := by
  rw [records, List.length_append, List.length_cons, length_flatMap_eq_total]
  simp only [Batch.length_records, List.length_singleton, recordCount]
  omega

theorem File.recordCount_rebuildControls (f : File) :
    f.rebuildControls.recordCount = f.recordCount := by
  rw [recordCount, recordCount, rebuildControls, List.map_map]
  rfl

/-! ### Line feeds -/

/-- No field of the record holds a line feed. -/
def Record.FeedFree (r : Record) : Prop :=
  ∀ c ∈ r.cells, '\n' ∉ c.content

instance (r : Record) : Decidable r.FeedFree :=
  inferInstanceAs (Decidable (∀ c ∈ r.cells, '\n' ∉ c.content))

theorem Cell.feed_notMem_number (width n : Nat) : '\n' ∉ (number width n).content := fun h =>
  absurd (Nat.isDigit_of_mem_toDigits (by decide) (by decide) h) (by decide)

namespace Record.FeedFree

theorem feed_notMem_line {r : Record} (h : r.FeedFree) : '\n' ∉ r.line := by
  intro hfeed
  obtain ⟨c, hc, hfeed⟩ := List.mem_flatMap.mp hfeed
  rcases Cell.mem_content_of_mem_render hfeed with hfeed | hfeed | hfeed
  · exact h c hc hfeed
  · exact absurd hfeed (by decide)
  · exact absurd hfeed (by decide)

/-- The texts of a batch control that is called for are those of the header. -/
theorem expectedControl {b : Batch} (h : (Record.batchHeader b.header).FeedFree) :
    (Record.batchControl b.expectedControl).FeedFree := by
  have hcompany := h (.left 10 b.header.companyIdentification) (by simp [cells, BatchHeader.cells])
  have hodfi := h (.left 8 b.header.odfiIdentification) (by simp [cells, BatchHeader.cells])
  simp only [FeedFree, cells, BatchControl.cells, Batch.expectedControl, List.forall_mem_cons,
    Cell.feed_notMem_number, not_false_eq_true, true_and]
  exact ⟨by decide, hcompany, by decide, by decide, hodfi, List.forall_mem_nil _⟩

/-- A file control holds numbers only. -/
theorem fileControl (c : FileControl) : (Record.fileControl c).FeedFree := by
  simp only [FeedFree, cells, FileControl.cells, List.forall_mem_cons, Cell.feed_notMem_number,
    not_false_eq_true, true_and]
  exact ⟨by decide, by decide, List.forall_mem_nil _⟩

theorem rebuildControl {b : Batch} (h : ∀ r ∈ b.records, r.FeedFree) :
    ∀ r ∈ b.rebuildControl.records, r.FeedFree := by
  -- all records are kept but the control
  obtain ⟨hkept, -⟩ := List.forall_mem_append.mp h
  refine List.forall_mem_append.mpr ⟨hkept, List.forall_mem_singleton.mpr ?_⟩
  exact expectedControl (hkept _ List.mem_cons_self)

/-- **Rebuilt controls bring no line feed into a file.** -/
theorem rebuildControls {f : File} (h : ∀ r ∈ f.records, r.FeedFree) :
    ∀ r ∈ f.rebuildControls.records, r.FeedFree := by
  obtain ⟨hfront, -⟩ := List.forall_mem_append.mp h
  obtain ⟨hheader, hbatches⟩ := List.forall_mem_cons.mp hfront
  refine List.forall_mem_append.mpr
    ⟨List.forall_mem_cons.mpr ⟨hheader, ?_⟩, List.forall_mem_singleton.mpr (fileControl _)⟩
  intro r hr
  obtain ⟨_, hrebuilt, hr⟩ := List.mem_flatMap.mp hr
  obtain ⟨b, hb, rfl⟩ := List.mem_map.mp hrebuilt
  exact rebuildControl (fun r hr => hbatches r (List.mem_flatMap.mpr ⟨b, hb, hr⟩)) r hr

end Record.FeedFree

/-! ### Blocks -/

/-- Records and lines of nines fill whole blocks. -/
theorem File.exists_paddedLines_eq_append (f : File) :
    ∃ filling < 10,
      f.paddedLines = f.records.map Record.line ++ List.replicate filling paddingLine ∧
        f.paddedLines.length = 10 * ((f.recordCount + 9) / 10) := by
  have hcount : f.lines.length = f.recordCount := by
    rw [← f.map_line_records, List.length_map, f.length_records]
  refine ⟨(10 - f.recordCount % 10) % 10, Nat.mod_lt _ (by decide), ?_, ?_⟩
  · rw [f.map_line_records, ← hcount]
    rfl
  · rw [paddedLines, List.length_append, List.length_replicate, hcount, blockingFactor]
    omega

/-- **The block count counts the blocks of the text.**  When no field of a file holds a line feed,
the text of the file with rebuilt controls has ten lines for each block that its control counts:
the records in order, and fewer than ten lines of nines. -/
theorem File.text_rebuildControls {f : File} (h : ∀ r ∈ f.records, r.FeedFree) :
    ∃ filling < 10,
      let lines := f.rebuildControls.records.map Record.line ++ List.replicate filling paddingLine
      f.rebuildControls.text = textOf lines ∧
        splitLines f.rebuildControls.text = lines ++ [[]] ∧
          lines.length = 10 * f.rebuildControls.control.blockCount := by
  obtain ⟨filling, hfilling, hlines, hlength⟩ := f.rebuildControls.exists_paddedLines_eq_append
  have htext : f.rebuildControls.text =
      textOf (f.rebuildControls.records.map Record.line ++
        List.replicate filling paddingLine) := by
    rw [← hlines]
    rfl
  -- no line holds a line feed, so the text falls back into its lines
  have hfeed : ∀ line ∈ f.rebuildControls.records.map Record.line ++
      List.replicate filling paddingLine, '\n' ∉ line := by
    refine List.forall_mem_append.mpr ⟨List.forall_mem_map.mpr fun r hr => ?_, fun line hline => ?_⟩
    · exact (Record.FeedFree.rebuildControls h r hr).feed_notMem_line
    · rw [List.eq_of_mem_replicate hline]
      decide
  refine ⟨filling, hfilling, htext, ?_, ?_⟩
  · rw [htext, splitLines_textOf hfeed]
  · rw [← hlines, hlength, f.recordCount_rebuildControls]
    rfl

theorem File.text_rebuildControls_sampleFile :
    (∀ r ∈ sampleFile.records, r.FeedFree) ∧
      ∃ filling < 10,
        let lines :=
          sampleFile.rebuildControls.records.map Record.line ++ List.replicate filling paddingLine
        sampleFile.rebuildControls.text = textOf lines ∧
          splitLines sampleFile.rebuildControls.text = lines ++ [[]] ∧
            lines.length = 10 * sampleFile.rebuildControls.control.blockCount :=
  ⟨by decide +kernel, text_rebuildControls (by decide +kernel)⟩

end AchCourier.Ach
