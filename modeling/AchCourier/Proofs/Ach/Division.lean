import AchCourier.Proofs.Ach.RecordTypes
import Mathlib.Data.List.Induction

/-!
# Records that belong together

An entry and the addenda behind it, a batch header with the entries behind it, and the control that
closes the batch: the records of batches form trees, and each tree holds an entry or a batch.  The
ledger takes the records of well formed trees one after another, and conversely records that a
ledger admits divide into such trees.

## Main definitions

* `EntryRecords`, `BatchOpening`, `BatchRecords` — the records of an entry, of a batch up to its
  control, and of a whole batch, with the entry and the batch that they hold.
* `Ledger.Takes` — lines that are admitted and lead from one ledger to another.
* `Division` — records divided into closed batches and an open one.

## Main results

* `BatchRecords.takes_flatMap` — the records of well formed batches are admitted and close them.
* `exists_division_of_admitsAll` — **admitted records divide into batches.**
-/

namespace AchCourier.Ach

/-! ### Records that belong together -/

/-- The record of an entry and the addenda records behind it. -/
structure EntryRecords where
  record : List Char
  addenda : List (List Char)

namespace EntryRecords

/-- The records in their order. -/
def records (e : EntryRecords) : List (List Char) :=
  e.record :: e.addenda

/-- The entry with its addenda. -/
def entry (e : EntryRecords) : Entry :=
  (e.addenda.filterMap Addenda.ofLine?).foldl Entry.attach (.ofLine e.record)

/-- The records have the right types, and addenda are announced. -/
structure WellFormed (e : EntryRecords) : Prop where
  type : hasType '6' e.record = true
  addendaTypes : ∀ a ∈ e.addenda, hasType '7' a = true
  announced : e.addenda ≠ [] → (Entry.ofLine e.record).addendaRecordIndicator = 1

end EntryRecords

/-- The records of a batch up to its control. -/
structure BatchOpening where
  header : List Char
  entries : List EntryRecords

namespace BatchOpening

/-- The records in their order. -/
def records (o : BatchOpening) : List (List Char) :=
  o.header :: o.entries.flatMap EntryRecords.records

/-- The batch, whose control is still to come. -/
def batch (o : BatchOpening) : Batch where
  header := .ofLine o.header
  entries := o.entries.map EntryRecords.entry

/-- The records have the right types. -/
structure WellFormed (o : BatchOpening) : Prop where
  type : hasType '5' o.header = true
  entries : ∀ e ∈ o.entries, e.WellFormed

end BatchOpening

/-- The records of a batch. -/
structure BatchRecords extends BatchOpening where
  control : List Char

namespace BatchRecords

/-- The records in their order. -/
def records (b : BatchRecords) : List (List Char) :=
  b.toBatchOpening.records ++ [b.control]

/-- The batch with its control. -/
def batch (b : BatchRecords) : Batch :=
  { b.toBatchOpening.batch with control := .ofLine b.control }

/-- The records have the right types, and the control agrees with the batch. -/
structure WellFormed (b : BatchRecords) : Prop where
  opening : b.toBatchOpening.WellFormed
  type : hasType '8' b.control = true
  agrees : b.batch.control.Agrees b.batch

end BatchRecords

/-- One record of a batch closes it. -/
theorem BatchRecords.countP_records {b : BatchRecords} (hb : b.WellFormed) :
    b.records.countP (hasType '8') = 1 := by
  -- an entry and its addenda are of other types
  have hentry : ∀ e ∈ b.entries, e.records.countP (hasType '8') = 0 := by
    intro e he
    have hwf := hb.opening.entries e he
    rw [List.countP_eq_zero]
    intro r hr
    rcases List.mem_cons.mp hr with rfl | hr
    · rw [hasType_eq_beq hwf.type]
      decide
    · rw [hasType_eq_beq (hwf.addendaTypes r hr)]
      decide
  have hentries : (b.entries.flatMap EntryRecords.records).countP (hasType '8') = 0 := by
    rw [List.countP_eq_zero]
    intro r hr
    obtain ⟨e, he, hre⟩ := List.mem_flatMap.mp hr
    exact List.countP_eq_zero.mp (hentry e he) r hre
  rw [records, BatchOpening.records, List.countP_append, List.countP_cons, hentries,
    hasType_eq_beq hb.opening.type, List.countP_singleton, hb.type]
  decide

theorem BatchRecords.countP_flatMap_records {batches : List BatchRecords}
    (h : ∀ b ∈ batches, b.WellFormed) :
    (batches.flatMap records).countP (hasType '8') = batches.length := by
  have hone : batches.map (List.countP (hasType '8') ∘ records) = batches.map fun _ => 1 :=
    List.map_congr_left fun b hb => countP_records (h b hb)
  rw [List.countP_flatMap, hone]
  simp

/-! ### What a ledger takes -/

/-- The ledger admits the lines, and they lead from `s` to `t`. -/
def Ledger.Takes (s : Ledger) (lines : List Line) (t : Ledger) : Prop :=
  s.AdmitsAll lines ∧ lines.foldl Ledger.step s = t

namespace Ledger

theorem admitsAll_append {s : Ledger} {before after : List Line} :
    s.AdmitsAll (before ++ after) ↔
      s.AdmitsAll before ∧ (before.foldl step s).AdmitsAll after := by
  induction before generalizing s with
  | nil => simp [AdmitsAll]
  | cons l before ih => simp only [List.cons_append, AdmitsAll, List.foldl_cons, ih, and_assoc]

theorem Takes.nil (s : Ledger) : s.Takes [] s := ⟨trivial, rfl⟩

theorem Takes.cons {s t : Ledger} {l : Line} {lines : List Line} (hl : s.Admits l)
    (h : (s.step l).Takes lines t) : s.Takes (l :: lines) t :=
  ⟨⟨hl, h.1⟩, h.2⟩

theorem Takes.append {s t u : Ledger} {before after : List Line} (h : s.Takes before t)
    (h' : t.Takes after u) : s.Takes (before ++ after) u := by
  obtain ⟨ha, rfl⟩ := h
  refine ⟨admitsAll_append.mpr ⟨ha, h'.1⟩, ?_⟩
  rw [List.foldl_append, h'.2]

end Ledger

/-! ### Batches are admitted -/

theorem Entry.attach_addendaRecordIndicator (e : Entry) (a : Addenda) :
    (e.attach a).addendaRecordIndicator = e.addendaRecordIndicator := by
  cases a <;> rfl

theorem Batch.attachLast_append (b : Batch) (entries : List Entry) {e : Entry} (a : Addenda)
    (h : e.addendaRecordIndicator = 1) :
    { b with entries := entries ++ [e] }.attachLast a =
      { b with entries := entries ++ [e.attach a] } := by
  simp [attachLast, h]

/-- Addenda go to the last entry. -/
theorem Ledger.takes_addenda (closed : List Batch) (b : Batch) (entries : List Entry) :
    ∀ (addenda : List (List Char)) (e : Entry),
      (addenda ≠ [] → e.addendaRecordIndicator = 1) →
      Takes ⟨closed, some { b with entries := entries ++ [e] }⟩ (addenda.map .addenda)
        ⟨closed, some { b with
          entries := entries ++ [(addenda.filterMap Addenda.ofLine?).foldl Entry.attach e] }⟩ := by
  intro addenda
  induction addenda with
  | nil => intro e _; exact Takes.nil _
  | cons line addenda ih =>
    intro e he
    -- attaching does not change the indicator, so the next addenda are admitted as well
    have hi : e.addendaRecordIndicator = 1 := he (by simp)
    refine Takes.cons ⟨_, rfl, e, by simp, hi⟩ ?_
    cases ha : Addenda.ofLine? line with
    | none => simpa [step, ha] using ih e fun _ => hi
    | some a =>
      simpa [step, ha, Batch.attachLast_append b entries a hi] using
        ih (e.attach a) fun _ => by rw [Entry.attach_addendaRecordIndicator, hi]

theorem map_classify_of_hasType {t : Char} {records : List (List Char)}
    (hr : ∀ r ∈ records, IsRecord r) (ht : ∀ r ∈ records, hasType t r = true)
    (hblank : Text.isBlank t = false) :
    records.map classify = records.map (Line.ofType · t) :=
  List.map_congr_left fun r h =>
    classify_of_hasType (not_blank_of_hasType (ht r h) hblank) (hr r h) (ht r h)

theorem EntryRecords.takes {e : EntryRecords} (he : e.WellFormed)
    (hr : ∀ r ∈ e.records, IsRecord r) (closed : List Batch) (b : Batch) :
    Ledger.Takes ⟨closed, some b⟩ (e.records.map classify)
      ⟨closed, some { b with entries := b.entries ++ [e.entry] }⟩ := by
  have hentry : classify e.record = .entry e.record :=
    classify_of_hasType (not_blank_of_hasType he.type rfl) (hr _ (by simp [records])) he.type
  have haddenda : e.addenda.map classify = e.addenda.map .addenda :=
    map_classify_of_hasType (fun r h => hr r (List.mem_cons_of_mem _ h)) he.addendaTypes rfl
  rw [records, List.map_cons, hentry, haddenda]
  exact Ledger.Takes.cons (by simp [Ledger.Admits])
    (Ledger.takes_addenda closed b b.entries e.addenda _ he.announced)

theorem EntryRecords.takes_flatMap (closed : List Batch) :
    ∀ (entries : List EntryRecords) (b : Batch), (∀ e ∈ entries, e.WellFormed) →
      (∀ r ∈ entries.flatMap records, IsRecord r) →
      Ledger.Takes ⟨closed, some b⟩ ((entries.flatMap records).map classify)
        ⟨closed, some { b with entries := b.entries ++ entries.map entry }⟩ := by
  intro entries
  induction entries with
  | nil => intro b _ _; simpa using Ledger.Takes.nil _
  | cons e entries ih =>
    intro b he hr
    simp only [List.flatMap_cons, List.mem_append, or_imp, forall_and] at hr
    obtain ⟨he', hes⟩ := List.forall_mem_cons.mp he
    rw [List.flatMap_cons, List.map_append]
    refine (takes he' hr.1 closed b).append ?_
    simpa using ih { b with entries := b.entries ++ [e.entry] } hes hr.2

/-- The records of a batch close one more batch. -/
theorem BatchRecords.takes {b : BatchRecords} (hb : b.WellFormed)
    (hr : ∀ r ∈ b.records, IsRecord r) (closed : List Batch) :
    Ledger.Takes ⟨closed, none⟩ (b.records.map classify) ⟨closed ++ [b.batch], none⟩ := by
  -- each line is of the kind that the type of its record says
  have hheader : classify b.header = .batchHeader b.header :=
    classify_of_hasType (not_blank_of_hasType hb.opening.type rfl)
      (hr _ (by simp [records, BatchOpening.records])) hb.opening.type
  have hcontrol : classify b.control = .batchControl b.control :=
    classify_of_hasType (not_blank_of_hasType hb.type rfl) (hr _ (by simp [records])) hb.type
  have hentries := EntryRecords.takes_flatMap closed b.entries { header := .ofLine b.header }
    hb.opening.entries fun r h => hr r (by simp [records, BatchOpening.records, h])
  rw [records, BatchOpening.records, List.cons_append, List.map_cons, List.map_append, hheader]
  refine Ledger.Takes.cons rfl (Ledger.Takes.append (t := ⟨closed, some b.toBatchOpening.batch⟩)
    (by simpa [Ledger.step, BatchOpening.batch] using hentries) ?_)
  rw [List.map_singleton, hcontrol]
  exact Ledger.Takes.cons ⟨_, rfl, BatchControl.agrees_withControl.mp hb.agrees⟩
    (Ledger.Takes.nil _)

theorem BatchRecords.takes_flatMap :
    ∀ (batches : List BatchRecords) (closed : List Batch), (∀ b ∈ batches, b.WellFormed) →
      (∀ r ∈ batches.flatMap records, IsRecord r) →
      Ledger.Takes ⟨closed, none⟩ ((batches.flatMap records).map classify)
        ⟨closed ++ batches.map batch, none⟩ := by
  intro batches
  induction batches with
  | nil => intro closed _ _; simpa using Ledger.Takes.nil _
  | cons b batches ih =>
    intro closed hb hr
    simp only [List.flatMap_cons, List.mem_append, or_imp, forall_and] at hr
    obtain ⟨hb', hbs⟩ := List.forall_mem_cons.mp hb
    rw [List.flatMap_cons, List.map_append]
    refine (takes hb' hr.1 closed).append ?_
    simpa using ih (closed ++ [b.batch]) hbs hr.2

/-! ### Admitted records divide into batches -/

theorem isBatchRecord_of_hasType {t : Char} {record : List Char}
    (h : hasType t record = true) : isBatchRecord record = ['5', '6', '7', '8'].contains t := by
  simp only [isBatchRecord, hasType_eq_beq h, List.contains_eq_any_beq]
  congr 1
  funext u
  exact Bool.beq_comm

theorem isBatchRecord_paddingLine : isBatchRecord paddingLine = false := by
  simp [isBatchRecord]

/-- All records of a batch belong to it by their types. -/
theorem BatchRecords.isBatchRecord_of_mem {b : BatchRecords} (hb : b.WellFormed)
    {record : List Char} (h : record ∈ b.records) : isBatchRecord record = true := by
  rcases List.mem_append.mp h with h | h
  · rcases List.mem_cons.mp h with rfl | h
    · rw [isBatchRecord_of_hasType hb.opening.type]
      rfl
    · obtain ⟨e, he, hre⟩ := List.mem_flatMap.mp h
      have hwf := hb.opening.entries e he
      rcases List.mem_cons.mp hre with rfl | hre
      · rw [isBatchRecord_of_hasType hwf.type]
        rfl
      · rw [isBatchRecord_of_hasType (hwf.addendaTypes record hre)]
        rfl
  · rw [List.mem_singleton.mp h, isBatchRecord_of_hasType hb.type]
    rfl

/-- No record of a batch has the type of another record. -/
theorem BatchRecords.countP_flatMap_records_eq_zero {batches : List BatchRecords}
    (h : ∀ b ∈ batches, b.WellFormed) {t : Char} (ht : ['5', '6', '7', '8'].contains t = false) :
    (batches.flatMap records).countP (hasType t) = 0 := by
  rw [List.countP_eq_zero]
  intro r hr hrt
  obtain ⟨b, hb, hrb⟩ := List.mem_flatMap.mp hr
  rw [← isBatchRecord_of_hasType hrt, isBatchRecord_of_mem (h b hb) hrb] at ht
  cases ht

theorem EntryRecords.entry_snoc (e : EntryRecords) (line : List Char) :
    ({ e with addenda := e.addenda ++ [line] } : EntryRecords).entry =
      match Addenda.ofLine? line with
      | none => e.entry
      | some a => e.entry.attach a := by
  cases ha : Addenda.ofLine? line <;> simp [entry, List.filterMap_append, ha]

theorem EntryRecords.entry_addendaRecordIndicator (e : EntryRecords) :
    e.entry.addendaRecordIndicator = (Entry.ofLine e.record).addendaRecordIndicator := by
  have hfold : ∀ (as : List Addenda) (x : Entry),
      (as.foldl Entry.attach x).addendaRecordIndicator = x.addendaRecordIndicator := by
    intro as
    induction as with
    | nil => intro x; rfl
    | cons a as ih =>
      intro x
      rw [List.foldl_cons, ih, Entry.attach_addendaRecordIndicator]
  exact hfold _ _

/-- The records of the batches that are closed, and those of the batch that is open. -/
structure Division where
  closed : List BatchRecords
  opening : Option BatchOpening

namespace Division

/-- The records in their order. -/
def records (d : Division) : List (List Char) :=
  d.closed.flatMap BatchRecords.records ++ (d.opening.map BatchOpening.records).getD []

/-- The batches that the records hold. -/
def ledger (d : Division) : Ledger :=
  ⟨d.closed.map BatchRecords.batch, d.opening.map BatchOpening.batch⟩

/-- All parts are well formed. -/
structure WellFormed (d : Division) : Prop where
  closed : ∀ b ∈ d.closed, b.WellFormed
  opening : ∀ o ∈ d.opening, o.WellFormed

variable {d : Division} (hd : d.WellFormed) {record : List Char}
include hd

/-- A batch header opens a batch. -/
theorem exists_snoc_header (ht : hasType '5' record = true)
    (hadmits : d.ledger.Admits (.batchHeader record)) :
    ∃ d' : Division, d'.WellFormed ∧ d'.records = d.records ++ [record] ∧
      d'.ledger = d.ledger.step (.batchHeader record) := by
  obtain ⟨closed, _ | o⟩ := d
  · refine ⟨⟨closed, some ⟨record, []⟩⟩, ⟨hd.closed, ?_⟩, ?_, ?_⟩
    · rintro o ⟨⟩
      exact ⟨ht, by simp⟩
    · simp [records, BatchOpening.records]
    · simp [ledger, Ledger.step, BatchOpening.batch]
  · cases hadmits

/-- An entry joins the open batch. -/
theorem exists_snoc_entry (ht : hasType '6' record = true)
    (hadmits : d.ledger.Admits (.entry record)) :
    ∃ d' : Division, d'.WellFormed ∧ d'.records = d.records ++ [record] ∧
      d'.ledger = d.ledger.step (.entry record) := by
  obtain ⟨closed, _ | o⟩ := d
  · -- without an open batch the entry is not admitted
    exact absurd rfl hadmits
  · have ho := hd.opening o rfl
    refine ⟨⟨closed, some { o with entries := o.entries ++ [⟨record, []⟩] }⟩,
      ⟨hd.closed, ?_⟩, ?_, ?_⟩
    · rintro o' ⟨⟩
      refine ⟨ho.type, fun e he => ?_⟩
      rcases List.mem_append.mp he with he | he
      · exact ho.entries e he
      · rw [List.mem_singleton.mp he]
        exact ⟨ht, by simp, by simp⟩
    · simp [records, BatchOpening.records, EntryRecords.records]
    · simp [ledger, Ledger.step, BatchOpening.batch, EntryRecords.entry]

/-- Addenda join the last entry of the open batch. -/
theorem exists_snoc_addenda (ht : hasType '7' record = true)
    (hadmits : d.ledger.Admits (.addenda record)) :
    ∃ d' : Division, d'.WellFormed ∧ d'.records = d.records ++ [record] ∧
      d'.ledger = d.ledger.step (.addenda record) := by
  obtain ⟨closed, _ | o⟩ := d
  · obtain ⟨b, hb, -⟩ := hadmits
    cases hb
  · have ho := hd.opening o rfl
    -- the addenda go to the last entry, which is the one that the ledger has in mind
    obtain ⟨b, ⟨⟩, e, he, hi⟩ := hadmits
    rw [BatchOpening.batch, List.getLast?_map, Option.mem_def, Option.map_eq_some_iff] at he
    obtain ⟨x, hx, rfl⟩ := he
    obtain ⟨es, hes⟩ := List.getLast?_eq_some_iff.mp hx
    have hwf : x.WellFormed := ho.entries x (by rw [hes]; simp)
    refine ⟨⟨closed, some { o with
      entries := es ++ [{ x with addenda := x.addenda ++ [record] }] }⟩, ⟨hd.closed, ?_⟩, ?_, ?_⟩
    · rintro o' ⟨⟩
      refine ⟨ho.type, fun e he => ?_⟩
      rcases List.mem_append.mp he with he | he
      · exact ho.entries e (by rw [hes]; exact List.mem_append_left _ he)
      · rw [List.mem_singleton.mp he]
        refine ⟨hwf.type, fun a ha => ?_, fun _ => ?_⟩
        · rcases List.mem_append.mp ha with ha | ha
          · exact hwf.addendaTypes a ha
          · rwa [List.mem_singleton.mp ha]
        · rwa [← x.entry_addendaRecordIndicator]
    · simp [records, BatchOpening.records, EntryRecords.records, hes]
    · -- a record of an unknown addenda type changes no entry
      have hsnoc := x.entry_snoc record
      cases ha : Addenda.ofLine? record <;> rw [ha] at hsnoc <;>
        simp [ledger, Ledger.step, BatchOpening.batch, ha, hsnoc, hes, Batch.attachLast, hi]

/-- A batch control closes the open batch. -/
theorem exists_snoc_control (ht : hasType '8' record = true)
    (hadmits : d.ledger.Admits (.batchControl record)) :
    ∃ d' : Division, d'.WellFormed ∧ d'.records = d.records ++ [record] ∧
      d'.ledger = d.ledger.step (.batchControl record) := by
  obtain ⟨closed, _ | o⟩ := d
  · -- without an open batch the control is not admitted
    obtain ⟨b, hb, -⟩ := hadmits
    cases hb
  · obtain ⟨b, ⟨⟩, hagree⟩ := hadmits
    refine ⟨⟨closed ++ [⟨o, record⟩], none⟩, ⟨fun b hb => ?_, nofun⟩, ?_, ?_⟩
    · rcases List.mem_append.mp hb with hb | hb
      · exact hd.closed b hb
      · rw [List.mem_singleton.mp hb]
        exact ⟨hd.opening o rfl, ht, BatchControl.agrees_withControl.mpr hagree⟩
    · simp [records, BatchRecords.records]
    · simp [ledger, Ledger.step, BatchRecords.batch]

/-- One more admitted record of a batch finds its place. -/
theorem exists_snoc {t : Char} (ht : hasType t record = true)
    (hbatch : ['5', '6', '7', '8'].contains t = true)
    (hadmits : d.ledger.Admits (.ofType record t)) :
    ∃ d' : Division, d'.WellFormed ∧ d'.records = d.records ++ [record] ∧
      d'.ledger = d.ledger.step (.ofType record t) := by
  fun_cases Line.ofType record t with
  | case1 => cases hbatch
  | case2 => exact exists_snoc_header hd ht hadmits
  | case3 => exact exists_snoc_entry hd ht hadmits
  | case4 => exact exists_snoc_addenda hd ht hadmits
  | case5 => exact exists_snoc_control hd ht hadmits
  | case6 => cases hbatch
  | case7 h1 h5 h6 h7 h8 h9 => simp_all

end Division

/-- Records that belong to no batch leave the ledger as it is. -/
theorem Ledger.step_classify_of_not_isBatchRecord (s : Ledger) {record : List Char}
    (hb : record.all Text.isBlank = false) (hr : IsRecord record)
    (hn : isBatchRecord record = false) : s.step (classify record) = s := by
  rcases eq_paddingLine_or_hasType hb with rfl | ⟨t, ht⟩
  · rw [classify_of_isRecord hb hr, if_pos rfl]
    rfl
  · rw [classify_of_hasType hb hr ht]
    rw [isBatchRecord_of_hasType ht] at hn
    fun_cases Line.ofType record t with
    | case1 => rfl
    | case6 => rfl
    | case7 => rfl
    | _ => cases hn

/-- Records that belong to no batch are admitted anywhere, if a file control agrees. -/
theorem Ledger.admits_classify_of_not_isBatchRecord {s : Ledger} {record : List Char}
    (hb : record.all Text.isBlank = false) (hr : IsRecord record)
    (hn : isBatchRecord record = false)
    (hcontrol : hasType '9' record = true → (FileControl.ofLine record).Agrees s.closed) :
    s.Admits (classify record) := by
  rcases eq_paddingLine_or_hasType hb with rfl | ⟨t, ht⟩
  · rw [classify_of_isRecord hb hr, if_pos rfl]
    trivial
  · rw [classify_of_hasType hb hr ht]
    rw [isBatchRecord_of_hasType ht] at hn
    fun_cases Line.ofType record t with
    | case1 => trivial
    | case6 => exact hcontrol ht
    | case7 => trivial
    | _ => cases hn

/-- **Admitted records divide into batches.** -/
theorem exists_division_of_admitsAll {records : List (List Char)} :
    (∀ r ∈ records, r.all Text.isBlank = false) → (∀ r ∈ records, IsRecord r) →
      ({} : Ledger).AdmitsAll (records.map classify) →
      ∃ d : Division, d.WellFormed ∧ records.filter isBatchRecord = d.records ∧
        (records.map classify).foldl Ledger.step {} = d.ledger := by
  -- the last record finds its place behind those that already have theirs
  induction records using List.reverseRecOn with
  | nil =>
    intro _ _ _
    exact ⟨⟨[], none⟩, ⟨by simp, nofun⟩, rfl, rfl⟩
  | append_singleton records record ih =>
    intro hb hr hadmits
    simp only [List.mem_append, List.mem_singleton, or_imp, forall_and, forall_eq] at hb hr
    rw [List.map_append, Ledger.admitsAll_append, List.map_singleton] at hadmits
    obtain ⟨d, hd, hrecords, hledger⟩ := ih hb.1 hr.1 hadmits.1
    have hlast : d.ledger.Admits (classify record) := by
      rw [← hledger]
      exact hadmits.2.1
    rw [List.map_append, List.foldl_append, hledger, List.filter_append, hrecords]
    by_cases hbatch : isBatchRecord record = true
    · rcases eq_paddingLine_or_hasType hb.2 with rfl | ⟨t, ht⟩
      · rw [isBatchRecord_paddingLine] at hbatch
        cases hbatch
      · rw [classify_of_hasType hb.2 hr.2 ht] at hlast
        rw [isBatchRecord_of_hasType ht] at hbatch
        obtain ⟨d', hd', hrecords', hledger'⟩ := Division.exists_snoc hd ht hbatch hlast
        refine ⟨d', hd', ?_, ?_⟩
        · rw [hrecords', List.filter_singleton, isBatchRecord_of_hasType ht, hbatch, cond_true]
        · rw [hledger', List.map_singleton, List.foldl_cons, List.foldl_nil,
            classify_of_hasType hb.2 hr.2 ht]
    · rw [Bool.not_eq_true] at hbatch
      refine ⟨d, hd, ?_, ?_⟩
      · rw [List.filter_singleton, hbatch, cond_false, List.append_nil]
      · exact Ledger.step_classify_of_not_isBatchRecord _ hb.2 hr.2 hbatch

end AchCourier.Ach
