import AchCourier.Ach.Reader
import Mathlib.Tactic.MkIffOfInductiveProp
import Mathlib.Data.List.Basic

/-!
# What reading keeps and what it refuses

Of everything that is known between two records, the batches depend on the batch records alone:
faults, line numbers, the file header and the file control never touch them.  They are told by a
small machine of their own, the *ledger*, and the file header and the file control are the first
ones of the text.

A line adds no fault exactly when it passes its own checks and the reading *admits* it where it
stands.  A text is free of faults exactly when this holds line by line, the last batch is closed,
and there is one file header and one file control.

## Main definitions

* `Ledger`, `Ledger.step` — the batches, and what a line adds to them.
* `BatchControl.Agrees`, `FileControl.Agrees` — a control repeats what it controls.
* `Ledger.Admits`, `Ledger.AdmitsAll` — the lines that fit the order and the controls.
* `recovered` — the file that lines hold.

## Main results

* `file_readLines` — reading recovers that file, whatever the faults.
* `faults_readLines_eq_nil_iff` — the texts without faults.
* `mem_faults_readLines` — the faults of a text whose lines are admitted.
-/

namespace AchCourier.Ach

/-! ### Controls and what they control -/

/-- The control repeats what its batch adds up to. -/
@[mk_iff]
structure BatchControl.Agrees (c : BatchControl) (b : Batch) : Prop where
  serviceClassCode : c.serviceClassCode = b.header.serviceClassCode
  entryAddendaCount : c.entryAddendaCount = b.entryAddendaCount
  entryHash : c.entryHash = b.entryHash
  totalDebit : c.totalDebit = b.totalDebit
  totalCredit : c.totalCredit = b.totalCredit
  batchNumber : c.batchNumber = b.header.batchNumber

/-- What a batch adds up to does not depend on its control. -/
theorem BatchControl.agrees_withControl {c d : BatchControl} {b : Batch} :
    c.Agrees { b with control := d } ↔ c.Agrees b := by
  rw [agrees_iff, agrees_iff]
  rfl

/-- The control repeats what the batches add up to. -/
@[mk_iff]
structure FileControl.Agrees (c : FileControl) (batches : List Batch) : Prop where
  batchCount : c.batchCount = batches.length
  entryAddendaCount : c.entryAddendaCount = total (batches.map Batch.entryAddendaCount)
  entryHash : c.entryHash = Ach.entryHash (batches.flatMap Batch.entries)
  totalDebit : c.totalDebit = total (batches.map Batch.totalDebit)
  totalCredit : c.totalCredit = total (batches.map Batch.totalCredit)

theorem Reading.mustMatch_eq_nil_iff {field : String} {calculated found : Nat} :
    mustMatch field calculated found = [] ↔ found = calculated := by
  rw [mustMatch, complainUnless]
  split
  · next h => simp [(beq_iff_eq.mp h).symm]
  · next h => simpa using fun h' : found = calculated => h (by simp [h'])

theorem Reading.batchMismatches_eq_nil_iff {b : Batch} {c : BatchControl} :
    batchMismatches b c = [] ↔ c.Agrees b := by
  simp only [batchMismatches, List.append_eq_nil_iff, mustMatch_eq_nil_iff,
    BatchControl.agrees_iff, and_assoc]

theorem Reading.fileMismatches_eq_nil_iff {f : File} {c : FileControl} :
    fileMismatches f c = [] ↔ c.Agrees f.batches := by
  simp only [fileMismatches, List.append_eq_nil_iff, mustMatch_eq_nil_iff,
    FileControl.agrees_iff, and_assoc, File.expectedControl, File.entries]

/-! ### The ledger -/

/-- The batches of a reading: those that are closed, and the one that is open. -/
structure Ledger where
  /-- The batches that have been closed. -/
  closed : List Batch := []
  /-- The batch whose control has not been read. -/
  current : Option Batch := none
  deriving DecidableEq, Repr

/-- The batch with more addenda for its last entry, if that entry announces them. -/
def Batch.attachLast (b : Batch) (a : Addenda) : Batch :=
  match b.entries.getLast? with
  | none => b
  | some e =>
      if e.addendaRecordIndicator = 1 then
        { b with entries := b.entries.dropLast ++ [e.attach a] }
      else b

/-- What a line adds to the batches. -/
def Ledger.step (s : Ledger) : Line → Ledger
  | .batchHeader line => ⟨s.closed ++ s.current.toList, some { header := .ofLine line }⟩
  | .entry line =>
      { s with
        current := s.current.map fun b => { b with entries := b.entries ++ [.ofLine line] } }
  | .addenda line =>
      match Addenda.ofLine? line with
      | none => s
      | some a => { s with current := s.current.map (·.attachLast a) }
  | .batchControl line =>
      ⟨s.closed ++ (s.current.map fun b => { b with control := .ofLine line }).toList, none⟩
  | _ => s

/-- The batches of a reading. -/
def Reading.ledger (r : Reading) : Ledger :=
  ⟨r.file.batches, r.openBatch⟩

/-- The line of a type 1 record. -/
def Line.fileHeader? : Line → Option (List Char)
  | .fileHeader line => some line
  | _ => none

/-- The line of a type 9 record. -/
def Line.fileControl? : Line → Option (List Char)
  | .fileControl line => some line
  | _ => none

/-- **What a line adds to a reading**, its faults apart: the ledger moves on, and the first file
header and the first file control are kept. -/
theorem Reading.step_eq (r : Reading) (n : Nat) (l : Line) :
    r.step n l =
      { file :=
          { id := r.file.id
            header := if r.seenHeader then r.file.header
              else (l.fileHeader?.map FileHeader.ofLine).getD r.file.header
            batches := (r.ledger.step l).closed
            control := if r.seenControl then r.file.control
              else (l.fileControl?.map FileControl.ofLine).getD r.file.control
            hasValidHeader := if r.seenHeader then r.file.hasValidHeader
              else (l.fileHeader?.map fun line => (FileHeader.complaints line).isEmpty).getD
                r.file.hasValidHeader }
        openBatch := (r.ledger.step l).current
        seenHeader := r.seenHeader || l.fileHeader?.isSome
        seenControl := r.seenControl || l.fileControl?.isSome
        faults := (r.step n l).faults } := by
  -- by the kind of the line, and by everything that the step looks at
  cases l with
  | fileHeader line =>
    cases h : r.seenHeader <;>
      simp [step, fileHeader, note, ledger, Ledger.step, Line.fileHeader?, Line.fileControl?, h]
  | batchHeader line =>
    cases h : r.openBatch <;>
      simp [step, batchHeader, note, close, ledger, Ledger.step, Line.fileHeader?,
        Line.fileControl?, h]
  | entry line =>
    cases h : r.openBatch <;>
      simp [step, entry, note, ledger, Ledger.step, Line.fileHeader?, Line.fileControl?, h]
  | addenda line =>
    cases ha : Addenda.ofLine? line with
    | none =>
      simp [step, addenda, note, ledger, Ledger.step, Line.fileHeader?, Line.fileControl?, ha]
    | some a =>
      cases hb : r.openBatch with
      | none =>
        simp [step, addenda, note, ledger, Ledger.step, Line.fileHeader?, Line.fileControl?, ha,
          hb]
      | some b =>
        cases he : b.entries.getLast? with
        | none =>
          simp [step, addenda, note, ledger, Ledger.step, Line.fileHeader?, Line.fileControl?, ha,
            hb, he, Batch.attachLast]
        | some e =>
          by_cases hi : e.addendaRecordIndicator = 1 <;>
            simp [step, addenda, note, ledger, Ledger.step, Line.fileHeader?, Line.fileControl?,
              ha, hb, he, hi, Batch.attachLast]
  | batchControl line =>
    cases h : r.openBatch <;>
      simp [step, batchControl, note, close, ledger, Ledger.step, Line.fileHeader?,
        Line.fileControl?, h]
  | fileControl line =>
    cases h : r.seenControl <;>
      simp [step, fileControl, note, ledger, Ledger.step, Line.fileHeader?, Line.fileControl?, h]
  | _ => simp [step, note, ledger, Ledger.step, Line.fileHeader?, Line.fileControl?]

theorem Reading.ledger_step (r : Reading) (n : Nat) (l : Line) :
    (r.step n l).ledger = r.ledger.step l := by
  rw [step_eq]
  rfl

theorem Reading.ledger_run (r : Reading) (n : Nat) (lines : List Line) :
    (r.run n lines).ledger = lines.foldl Ledger.step r.ledger := by
  induction lines generalizing r n with
  | nil => rfl
  | cons l lines ih => rw [run, ih, ledger_step, List.foldl_cons]

/-! ### Lines that are admitted -/

/-- What the checks on a line by itself complain about. -/
def Line.complaints : Line → List Complaint
  | .blank => []
  | .padding => []
  | .misshapen length => [⟨"RecordLength", .badLength length⟩]
  | .fileHeader line => FileHeader.complaints line
  | .batchHeader line => BatchHeader.complaints line
  | .entry line => Entry.complaints line
  | .addenda line => Addenda.complaints line
  | .batchControl line => BatchControl.complaints line
  | .fileControl line => FileControl.complaints line
  | .unknown type => [⟨"RecordType", .unknownType type⟩]

/-- What a line is taken for in a report. -/
def Line.kind : Line → RecordKind
  | .fileHeader _ => .fileHeader
  | .batchHeader _ => .batchHeader
  | .entry _ => .entryDetail
  | .addenda _ => .addenda
  | .batchControl _ => .batchControl
  | .fileControl _ => .fileControl
  | _ => .unrecognised

/-- The line fits where it stands among the batches, and a control agrees with them. -/
def Ledger.Admits (s : Ledger) : Line → Prop
  | .batchHeader _ => s.current = none
  | .entry _ => s.current ≠ none
  | .addenda _ => ∃ b ∈ s.current, ∃ e ∈ b.entries.getLast?, e.addendaRecordIndicator = 1
  | .batchControl line => ∃ b ∈ s.current, (BatchControl.ofLine line).Agrees b
  | .fileControl line => (FileControl.ofLine line).Agrees s.closed
  | _ => True

/-- The line fits where it stands, and it is no second file header or file control. -/
def Reading.Admits (r : Reading) (l : Line) : Prop :=
  r.ledger.Admits l ∧ (l.fileHeader?.isSome → r.seenHeader = false) ∧
    (l.fileControl?.isSome → r.seenControl = false)

@[simp] theorem faultsAt_eq_nil_iff {n : Nat} {record : RecordKind} {complaints : List Complaint} :
    faultsAt n record complaints = [] ↔ complaints = [] := by
  simp [faultsAt]

namespace Reading

/-- An admitted line adds the faults of its own checks and no others. -/
theorem faults_step_of_admits {r : Reading} {l : Line} (n : Nat) (h : r.Admits l) :
    (r.step n l).faults = r.faults ++ faultsAt n l.kind l.complaints := by
  obtain ⟨hl, hh, hc⟩ := h
  -- what the line is admitted for is what the step would find fault with
  cases l with
  | blank => simp [step, Line.complaints, faultsAt]
  | padding => simp [step, Line.complaints, faultsAt]
  | misshapen length => rfl
  | unknown type => rfl
  | fileHeader line =>
    rw [step, fileHeader, if_neg (by simp [hh rfl])]
    rfl
  | batchHeader line =>
    replace hl : r.openBatch = none := hl
    simp [step, batchHeader, note, hl, Line.kind, Line.complaints]
  | entry line =>
    obtain ⟨b, hb⟩ := Option.ne_none_iff_exists'.mp (show r.openBatch ≠ none from hl)
    simp [step, entry, note, hb, Line.kind, Line.complaints]
  | addenda line =>
    obtain ⟨b, hb, e, he, hi⟩ := hl
    replace hb : r.openBatch = some b := hb
    replace he : b.entries.getLast? = some e := he
    cases ha : Addenda.ofLine? line <;>
      simp [step, addenda, note, hb, he, hi, ha, Line.kind, Line.complaints]
  | batchControl line =>
    obtain ⟨b, hb, hagree⟩ := hl
    replace hb : r.openBatch = some b := hb
    simp [step, batchControl, note, close, hb, batchMismatches_eq_nil_iff.mpr hagree, faultsAt,
      Line.kind, Line.complaints]
  | fileControl line =>
    rw [step, fileControl, if_neg (by simp [hc rfl])]
    simp [fileMismatches_eq_nil_iff.mpr hl, Line.kind, Line.complaints]

/-- A line that adds no fault is admitted and passes its own checks. -/
theorem admits_of_faults_step {r : Reading} {l : Line} {n : Nat}
    (h : (r.step n l).faults = []) :
    r.faults = [] ∧ l.complaints = [] ∧ r.Admits l := by
  -- a guard of the step that fails notes a fault, so each of them has held
  cases l with
  | blank => exact ⟨h, rfl, trivial, nofun, nofun⟩
  | padding => exact ⟨h, rfl, trivial, nofun, nofun⟩
  | misshapen length => simp [step, note] at h
  | unknown type => simp [step, note] at h
  | fileHeader line =>
    rw [step, fileHeader] at h
    split at h
    · simp [note] at h
    · next hseen =>
      obtain ⟨hr, hc⟩ := List.append_eq_nil_iff.mp h
      exact ⟨hr, faultsAt_eq_nil_iff.mp hc, trivial, fun _ => by simpa using hseen, nofun⟩
  | batchHeader line =>
    cases hb : r.openBatch with
    | some b => simp [step, batchHeader, note, close, hb] at h
    | none =>
      simp only [step, batchHeader, note, hb, List.append_eq_nil_iff, faultsAt_eq_nil_iff] at h
      exact ⟨h.1, h.2, hb, nofun, nofun⟩
  | entry line =>
    cases hb : r.openBatch with
    | none => simp [step, entry, note, hb] at h
    | some b =>
      simp only [step, entry, note, hb, List.append_eq_nil_iff, faultsAt_eq_nil_iff] at h
      exact ⟨h.1, h.2, by simp [Ledger.Admits, ledger, hb], nofun, nofun⟩
  | addenda line =>
    cases ha : Addenda.ofLine? line with
    | none => simp [step, addenda, note, ha, Addenda.complaints, faultsAt] at h
    | some a =>
      cases hb : r.openBatch with
      | none => simp [step, addenda, note, ha, hb] at h
      | some b =>
        cases he : b.entries.getLast? with
        | none => simp [step, addenda, note, ha, hb, he] at h
        | some e =>
          -- addenda that the entry has not announced are a fault as well
          by_cases hi : e.addendaRecordIndicator = 1
          · simp only [step, addenda, note, ha, hb, he, hi, if_true, List.append_eq_nil_iff,
              faultsAt_eq_nil_iff] at h
            exact ⟨h.1, h.2, ⟨b, hb, e, he, hi⟩, nofun, nofun⟩
          · simp [step, addenda, note, ha, hb, he, hi] at h
  | batchControl line =>
    cases hb : r.openBatch with
    | none => simp [step, batchControl, note, hb] at h
    | some b =>
      simp only [step, batchControl, note, close, hb, List.append_eq_nil_iff,
        faultsAt_eq_nil_iff, batchMismatches_eq_nil_iff] at h
      exact ⟨h.1.1, h.1.2, ⟨b, hb, h.2⟩, nofun, nofun⟩
  | fileControl line =>
    rw [step, fileControl] at h
    split at h
    · simp [note] at h
    · next hseen =>
      simp only [List.append_eq_nil_iff, faultsAt_eq_nil_iff, fileMismatches_eq_nil_iff] at h
      exact ⟨h.1, h.2.1, h.2.2, nofun, fun _ => by simpa using hseen⟩

theorem faults_step_eq_nil_iff {r : Reading} {l : Line} {n : Nat} :
    (r.step n l).faults = [] ↔ r.faults = [] ∧ l.complaints = [] ∧ r.Admits l := by
  refine ⟨admits_of_faults_step, fun ⟨hr, hc, ha⟩ => ?_⟩
  rw [faults_step_of_admits n ha, hr, hc]
  rfl

end Reading

/-! ### What a whole text holds -/

/-- The file that lines hold: their batches, with the first file header and the first file
control. -/
def recovered (lines : List Line) : File :=
  let header? := lines.findSome? Line.fileHeader?
  let ledger := lines.foldl Ledger.step {}
  { header := (header?.map FileHeader.ofLine).getD {}
    batches := ledger.closed ++ ledger.current.toList
    control := ((lines.findSome? Line.fileControl?).map FileControl.ofLine).getD {}
    hasValidHeader := (header?.map fun line => (FileHeader.complaints line).isEmpty).getD false }

namespace Reading

/-- Of the lines that `pick` finds, reading keeps the first. -/
theorem first_kept {α : Type} (seen : Reading → Bool) (get : Reading → α)
    (pick : Line → Option (List Char)) (f : List Char → α)
    (hseen : ∀ r n l, seen (step r n l) = (seen r || (pick l).isSome))
    (hget : ∀ r n l, get (step r n l) = if seen r then get r else ((pick l).map f).getD (get r))
    (r : Reading) (n : Nat) (lines : List Line) :
    get (r.run n lines) =
      if seen r then get r else ((lines.findSome? pick).map f).getD (get r) := by
  -- from the first record on, `seen` holds and the value stays
  induction lines generalizing r n with
  | nil => simp [run]
  | cons l lines ih =>
    rw [run, ih, hseen, hget, List.findSome?_cons]
    cases seen r <;> cases pick l <;> simp

theorem seenHeader_step (r : Reading) (n : Nat) (l : Line) :
    (r.step n l).seenHeader = (r.seenHeader || l.fileHeader?.isSome) := by
  rw [step_eq]

theorem seenControl_step (r : Reading) (n : Nat) (l : Line) :
    (r.step n l).seenControl = (r.seenControl || l.fileControl?.isSome) := by
  rw [step_eq]

theorem seenHeader_run (r : Reading) (n : Nat) (lines : List Line) :
    (r.run n lines).seenHeader = (r.seenHeader || lines.any (·.fileHeader?.isSome)) := by
  induction lines generalizing r n with
  | nil => simp [run]
  | cons l lines ih => rw [run, ih, seenHeader_step, List.any_cons, Bool.or_assoc]

theorem seenControl_run (r : Reading) (n : Nat) (lines : List Line) :
    (r.run n lines).seenControl = (r.seenControl || lines.any (·.fileControl?.isSome)) := by
  induction lines generalizing r n with
  | nil => simp [run]
  | cons l lines ih => rw [run, ih, seenControl_step, List.any_cons, Bool.or_assoc]

theorem file_run_empty (n : Nat) (lines : List Line) :
    (run {} n lines).file =
      { recovered lines with batches := (lines.foldl Ledger.step {}).closed } := by
  have hid : ∀ r n, (run r n lines).file.id = r.file.id := by
    induction lines with
    | nil => intro r n; rfl
    | cons l lines ih => intro r n; rw [run, ih, step_eq]
  -- header and control are those of the first line of their type
  have hheader := first_kept seenHeader (·.file.header) Line.fileHeader? FileHeader.ofLine
    seenHeader_step (fun r n l => by rw [step_eq]) {} n lines
  have hvalid := first_kept seenHeader (·.file.hasValidHeader) Line.fileHeader?
    (fun line => (FileHeader.complaints line).isEmpty)
    seenHeader_step (fun r n l => by rw [step_eq]) {} n lines
  have hcontrol := first_kept seenControl (·.file.control) Line.fileControl? FileControl.ofLine
    seenControl_step (fun r n l => by rw [step_eq]) {} n lines
  have hbatches : (run {} n lines).file.batches = (lines.foldl Ledger.step {}).closed :=
    congrArg Ledger.closed (ledger_run {} n lines)
  replace hid := hid {} n
  generalize (run {} n lines).file = f at *
  cases f
  simp_all [recovered]

theorem file_finish (r : Reading) (last : Nat) :
    (r.finish last).file = { r.file with batches := r.file.batches ++ r.openBatch.toList } := by
  cases hb : r.openBatch <;> cases hh : r.seenHeader <;> cases hc : r.seenControl <;>
    simp [finish, note, close, hb, hh, hc]

theorem faults_finish_eq_nil_iff {r : Reading} {last : Nat} :
    (r.finish last).faults = [] ↔
      r.faults = [] ∧ r.openBatch = none ∧ r.seenHeader = true ∧ r.seenControl = true := by
  cases hb : r.openBatch <;> cases hh : r.seenHeader <;> cases hc : r.seenControl <;>
    simp [finish, note, close, hb, hh, hc]

end Reading

/-- **Reading recovers the file that its lines hold**, whatever the faults. -/
theorem file_readLines (lines : List Line) : (readLines lines).file = recovered lines := by
  have hopen : (Reading.run {} 1 lines).openBatch = (lines.foldl Ledger.step {}).current :=
    congrArg Ledger.current (Reading.ledger_run {} 1 lines)
  rw [readLines, Reading.file_finish, Reading.file_run_empty, hopen]
  rfl

/-! ### Texts without faults -/

/-- Each line is admitted by the ledger that the lines before it leave. -/
def Ledger.AdmitsAll (s : Ledger) : List Line → Prop
  | [] => True
  | l :: lines => s.Admits l ∧ (s.step l).AdmitsAll lines

/-- What may be seen once has not been seen where it stands, and is not seen behind it. -/
theorem seen_once_iff (seen new : Bool) (k : Nat) :
    (new = true → seen = false) ∧ (seen || new).toNat + k ≤ 1 ↔
      seen.toNat + (k + if new then 1 else 0) ≤ 1 := by
  cases seen <;> cases new <;> simp [Nat.add_comm 1 k]

theorem Reading.faults_run_eq_nil_iff {r : Reading} {n : Nat} {lines : List Line} :
    (r.run n lines).faults = [] ↔
      r.faults = [] ∧ (∀ l ∈ lines, l.complaints = []) ∧ r.ledger.AdmitsAll lines ∧
        r.seenHeader.toNat + lines.countP (·.fileHeader?.isSome) ≤ 1 ∧
        r.seenControl.toNat + lines.countP (·.fileControl?.isSome) ≤ 1 := by
  induction lines generalizing r n with
  | nil => simp [run, Ledger.AdmitsAll, Bool.toNat_le]
  | cons l lines ih =>
    rw [run, ih, faults_step_eq_nil_iff, ledger_step, seenHeader_step, seenControl_step, Admits,
      Ledger.AdmitsAll, List.forall_mem_cons, List.countP_cons, List.countP_cons]
    -- a second header or control exceeds the count
    rw [← seen_once_iff, ← seen_once_iff]
    tauto

/-- **The texts without faults**: every line passes its checks and is admitted, the last batch is
closed, and there is one file header and one file control. -/
theorem faults_readLines_eq_nil_iff {lines : List Line} :
    (readLines lines).faults = [] ↔
      (∀ l ∈ lines, l.complaints = []) ∧ ({} : Ledger).AdmitsAll lines ∧
        (lines.foldl Ledger.step {}).current = none ∧
        lines.countP (·.fileHeader?.isSome) = 1 ∧ lines.countP (·.fileControl?.isSome) = 1 := by
  have hopen : (Reading.run {} 1 lines).openBatch = (lines.foldl Ledger.step {}).current :=
    congrArg Ledger.current (Reading.ledger_run {} 1 lines)
  -- what is seen at least once and at most once is there once
  have hone : ∀ p : Line → Bool,
      lines.any p = true ∧ lines.countP p ≤ 1 ↔ lines.countP p = 1 := by
    intro p
    rw [List.any_eq_true, ← List.countP_pos_iff]
    omega
  rw [readLines, Reading.faults_finish_eq_nil_iff, Reading.faults_run_eq_nil_iff, hopen,
    Reading.seenHeader_run, Reading.seenControl_run, ← hone, ← hone]
  simp only [Bool.false_or, Bool.toNat_false, Nat.zero_add, true_and]
  exact ⟨fun ⟨⟨hc, ha, hh, ht⟩, ho, hh', ht'⟩ => ⟨hc, ha, ho, ⟨hh', hh⟩, ht', ht⟩,
    fun ⟨hc, ha, ho, ⟨hh', hh⟩, ht', ht⟩ => ⟨⟨hc, ha, hh, ht⟩, ho, hh', ht'⟩⟩

/-! ### Texts whose lines are admitted -/

/-- In lines that are admitted, every fault is one of the checks on a line by itself. -/
theorem Reading.mem_faults_run {lines : List Line} :
    ∀ {r : Reading} {n : Nat}, r.ledger.AdmitsAll lines →
      r.seenHeader.toNat + lines.countP (·.fileHeader?.isSome) ≤ 1 →
      r.seenControl.toNat + lines.countP (·.fileControl?.isSome) ≤ 1 →
      ∀ x ∈ (r.run n lines).faults,
        x ∈ r.faults ∨ ∃ l ∈ lines, x.record = l.kind ∧ l.complaints ≠ [] := by
  -- by induction on the lines: one that is admitted adds complaints about its own fields only
  induction lines with
  | nil => exact fun _ _ _ x hx => Or.inl hx
  | cons l lines ih =>
    intro r n hadmits hheader hcontrol x hx
    rw [List.countP_cons, ← seen_once_iff] at hheader hcontrol
    rw [← seenHeader_step r n] at hheader
    rw [← seenControl_step r n] at hcontrol
    have hl : r.Admits l := ⟨hadmits.1, hheader.1, hcontrol.1⟩
    have hlines : (r.step n l).ledger.AdmitsAll lines := by
      rw [ledger_step]
      exact hadmits.2
    rcases ih hlines hheader.2 hcontrol.2 x hx with hx | ⟨l', hl', hkind, hne⟩
    · rw [faults_step_of_admits n hl, List.mem_append] at hx
      rcases hx with hx | hx
      · exact Or.inl hx
      · obtain ⟨c, hc, rfl⟩ := List.mem_map.mp hx
        exact Or.inr ⟨l, List.mem_cons_self, rfl, List.ne_nil_of_mem hc⟩
    · exact Or.inr ⟨l', List.mem_cons_of_mem l hl', hkind, hne⟩

/-- The same holds of a whole text that closes its last batch and has one file header and one file
control. -/
theorem mem_faults_readLines {lines : List Line} (hadmits : ({} : Ledger).AdmitsAll lines)
    (hclosed : (lines.foldl Ledger.step {}).current = none)
    (hheader : lines.countP (·.fileHeader?.isSome) = 1)
    (hcontrol : lines.countP (·.fileControl?.isSome) = 1) {x : Fault}
    (hx : x ∈ (readLines lines).faults) :
    ∃ l ∈ lines, x.record = l.kind ∧ l.complaints ≠ [] := by
  have hopen : (Reading.run {} 1 lines).openBatch = none :=
    (congrArg Ledger.current (Reading.ledger_run {} 1 lines)).trans hclosed
  have hseen : ∀ {p : Line → Bool}, lines.countP p = 1 → lines.any p = true := by
    intro p hp
    rw [List.any_eq_true, ← List.countP_pos_iff, hp]
    exact Nat.one_pos
  have hheader' : (Reading.run {} 1 lines).seenHeader = true := by
    rw [Reading.seenHeader_run, hseen hheader, Bool.or_true]
  have hcontrol' : (Reading.run {} 1 lines).seenControl = true := by
    rw [Reading.seenControl_run, hseen hcontrol, Bool.or_true]
  -- nothing is missing at the end
  have hfinish : (readLines lines).faults = (Reading.run {} 1 lines).faults := by
    simp [readLines, Reading.finish, hopen, hheader', hcontrol']
  rw [hfinish] at hx
  have hrun := @Reading.mem_faults_run lines {} 1 hadmits
    (by simp [hheader]) (by simp [hcontrol]) x hx
  rcases hrun with hx | hx
  · cases hx
  · exact hx

/-! ### Blank lines -/

theorem Ledger.foldl_filter_blank (s : Ledger) (lines : List Line) :
    (lines.filter (· != .blank)).foldl step s = lines.foldl step s := by
  induction lines generalizing s with
  | nil => rfl
  | cons l lines ih =>
    rw [List.filter_cons, List.foldl_cons]
    split
    · rw [List.foldl_cons, ih]
    · next hl =>
      have hl : l = .blank := by simpa using hl
      rw [ih, hl]
      rfl

theorem Ledger.admitsAll_filter_blank {s : Ledger} {lines : List Line} :
    s.AdmitsAll (lines.filter (· != .blank)) ↔ s.AdmitsAll lines := by
  induction lines generalizing s with
  | nil => rfl
  | cons l lines ih =>
    rw [List.filter_cons, AdmitsAll]
    split
    · rw [AdmitsAll, ih]
    · next hl =>
      have hl : l = .blank := by simpa using hl
      rw [ih, hl]
      exact ⟨fun h => ⟨trivial, h⟩, fun h => h.2⟩

theorem Line.findSome?_filter_blank {α : Type} {pick : Line → Option α}
    (h : pick .blank = none) (lines : List Line) :
    (lines.filter (· != .blank)).findSome? pick = lines.findSome? pick := by
  rw [← List.head?_filterMap, ← List.head?_filterMap, List.filterMap_filter]
  congr 2
  funext l
  by_cases hl : l = .blank <;> simp [hl, h]

/-- Blank lines hold nothing. -/
theorem recovered_filter_blank (lines : List Line) :
    recovered (lines.filter (· != .blank)) = recovered lines := by
  have hheader := Line.findSome?_filter_blank (show Line.fileHeader? .blank = none from rfl) lines
  have hcontrol :=
    Line.findSome?_filter_blank (show Line.fileControl? .blank = none from rfl) lines
  simp only [recovered, Ledger.foldl_filter_blank, hheader, hcontrol]

/-- Blank lines add no faults. -/
theorem faults_readLines_filter_blank (lines : List Line) :
    (readLines (lines.filter (· != .blank))).faults = [] ↔ (readLines lines).faults = [] := by
  -- a blank line is neither a header nor a control, and nothing is wrong with it
  have hcount : ∀ pick : Line → Option (List Char), pick .blank = none →
      (lines.filter (· != .blank)).countP (fun l => (pick l).isSome) =
        lines.countP fun l => (pick l).isSome := by
    intro pick hpick
    rw [List.countP_filter]
    refine List.countP_congr fun l _ => ?_
    by_cases hl : l = .blank <;> simp [hl, hpick]
  have hcomplaints : (∀ l ∈ lines.filter (· != .blank), l.complaints = []) ↔
      ∀ l ∈ lines, l.complaints = [] := by
    refine ⟨fun h l hl => ?_, fun h l hl => h l (List.mem_filter.mp hl).1⟩
    by_cases hblank : l = .blank
    · rw [hblank]
      rfl
    · exact h l (List.mem_filter.mpr ⟨hl, by simpa using hblank⟩)
  rw [faults_readLines_eq_nil_iff, faults_readLines_eq_nil_iff, Ledger.admitsAll_filter_blank,
    Ledger.foldl_filter_blank, hcount _ rfl, hcount _ rfl, hcomplaints]

end AchCourier.Ach
