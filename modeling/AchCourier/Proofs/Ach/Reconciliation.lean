import AchCourier.Proofs.Ach.Grammar
import AchCourier.Proofs.Ach.TextLines
import AchCourier.Proofs.Ach.WrittenRecords

/-!
# Files that reconcile

Every batch control of a file that reads without faults repeats what its batch adds up to.  The
file control is compared with the batches that are closed where it stands, so it repeats what the
whole file adds up to just when no batch is closed behind it.

## Main definitions

* `File.Reconciled` — the file control repeats what the batch controls add up to.
* `NoBatchBehindControl` — no batch control stands behind the file control.

## Main results

* `File.reconciled_iff_agrees` — batch controls that agree stand for their batches.
* `reconciled_iff_noBatchBehindControl` — **a file that reads without faults is reconciled just
  when no batch is closed behind its file control.**
-/

namespace AchCourier.Ach

/-- The file control repeats what the batch controls add up to. -/
@[mk_iff]
structure File.Reconciled (f : File) : Prop where
  batchCount : f.control.batchCount = f.batches.length
  entryAddendaCount :
    f.control.entryAddendaCount = total (f.batches.map fun b => b.control.entryAddendaCount)
  entryHash :
    f.control.entryHash = total (f.batches.map fun b => b.control.entryHash) % hashModulus
  totalDebit : f.control.totalDebit = total (f.batches.map fun b => b.control.totalDebit)
  totalCredit : f.control.totalCredit = total (f.batches.map fun b => b.control.totalCredit)

/-- No record that closes a batch stands behind the file control. -/
def NoBatchBehindControl (records : List (List Char)) : Prop :=
  ∀ before c after, records = before ++ c :: after → hasType '9' c = true →
    after.countP (hasType '8') = 0

/-! ### Adding up batch by batch -/

theorem entryHash_append (es es' : List Entry) :
    entryHash (es ++ es') = (entryHash es + entryHash es') % hashModulus := by
  rw [entryHash, List.map_append, total_append, Nat.add_mod]
  rfl

/-- The hash of a file can be taken from the hashes of its batches. -/
theorem entryHash_flatMap_entries (batches : List Batch) :
    entryHash (batches.flatMap Batch.entries) =
      total (batches.map Batch.entryHash) % hashModulus := by
  induction batches with
  | nil => rfl
  | cons b batches ih =>
    rw [List.flatMap_cons, entryHash_append, ih, List.map_cons, total_cons, Nat.add_mod_mod]
    rfl

/-- Batch controls that agree with their batches add up to the same. -/
theorem File.reconciled_iff_agrees {f : File} (h : ∀ b ∈ f.batches, b.control.Agrees b) :
    f.Reconciled ↔ f.control.Agrees f.batches := by
  rw [reconciled_iff, FileControl.agrees_iff, entryHash_flatMap_entries,
    List.map_congr_left fun b hb => (h b hb).entryAddendaCount,
    List.map_congr_left fun b hb => (h b hb).entryHash,
    List.map_congr_left fun b hb => (h b hb).totalDebit,
    List.map_congr_left fun b hb => (h b hb).totalCredit]

/-! ### Where the file control stands -/

/-- There is one batch control for every batch. -/
theorem Conforms.countP_batchControl {records : List (List Char)} {batches : List BatchRecords}
    (h : Conforms records batches) : records.countP (hasType '8') = batches.length := by
  rw [← countP_filter_isBatchRecord, h.division, BatchRecords.countP_flatMap_records h.wellFormed]

section
variable {records : List (List Char)} {batches : List BatchRecords}
  (h : Conforms records batches)
include h

/-- The file control agrees with all batches just when none is closed behind it. -/
theorem Conforms.agrees_iff {before after : List (List Char)} {c : List Char}
    (hsplit : records = before ++ c :: after) (hc : hasType '9' c = true) :
    (FileControl.ofLine c).Agrees (batches.map BatchRecords.batch) ↔
      after.countP (hasType '8') = 0 := by
  have hagree := h.totals before c after hsplit hc
  have hcount : before.countP (hasType '8') + after.countP (hasType '8') = batches.length := by
    rw [← h.countP_batchControl, hsplit, List.countP_append, List.countP_cons, hasType_eq_beq hc]
    simp
  constructor
  · -- a batch closed behind the control would be missing from its count
    intro hall
    have hbatches := hagree.batchCount.symm.trans hall.batchCount
    rw [List.length_map, List.length_map, List.length_take] at hbatches
    omega
  · intro hnone
    rwa [List.take_of_length_le (by omega)] at hagree

end

/-- **Reconciliation.**  A file that reads without faults is reconciled just when no batch is
closed behind its file control. -/
theorem reconciled_iff_noBatchBehindControl {bytes : Bytes} {f : File}
    (hread : read bytes = .ok f) : f.Reconciled ↔ NoBatchBehindControl (recordsOf bytes) := by
  obtain ⟨batches, h, header, -, -, control, hcontrol, hcontrolType, rfl⟩ :=
    read_eq_ok_iff.mp hread
  have hbatches : ∀ b ∈ batches.map BatchRecords.batch, b.control.Agrees b :=
    List.forall_mem_map.mpr fun b hb => (h.wellFormed b hb).agrees
  rw [File.reconciled_iff_agrees hbatches]
  constructor
  · intro hagree before c after hsplit hc
    -- there is one file control only
    have honly := filter_hasType_eq_singleton h.control hcontrol hcontrolType
    rw [filter_hasType_eq_singleton h.control (r := c) (by simp [hsplit]) hc] at honly
    cases honly
    exact (h.agrees_iff hsplit hc).mp hagree
  · intro hlast
    obtain ⟨before, after, hsplit⟩ := List.append_of_mem hcontrol
    exact (h.agrees_iff hsplit hcontrolType).mpr (hlast before control after hsplit hcontrolType)

/-- A file control that knows of no batch, and then a batch. -/
def controlBeforeBatch : List (List Char) :=
  [lineOf sampleFileHeader.cells, lineOf ({} : FileControl).cells,
    lineOf sampleBatchHeader.cells, lineOf sampleEntry.cells,
    lineOf ({ header := sampleBatchHeader, entries := [sampleEntry] } :
      Batch).expectedControl.cells]

theorem exists_read_not_reconciled :
    ∃ f, read (Utf8.encode (textOf controlBeforeBatch)) = .ok f ∧ ¬ f.Reconciled := by
  have hread := read_of_no_faults
    (show faultsOf (Utf8.encode (textOf controlBeforeBatch)) = [] by decide +kernel)
  refine ⟨_, hread, fun h => ?_⟩
  have hlast := (reconciled_iff_noBatchBehindControl hread).mp h
  rw [recordsOf_textOf (by decide +kernel) (by decide +kernel)] at hlast
  have hnone := hlast [_] _ [_, _, _] rfl (by decide +kernel)
  exact absurd hnone (by decide +kernel)

end AchCourier.Ach
