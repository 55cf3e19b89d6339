import AchCourier.Proofs.Ach.Grammar
import AchCourier.Proofs.Ach.TextLines
import AchCourier.Proofs.Ach.WrittenRecords
import Mathlib.Data.List.Forall2

/-!
# The addenda that an entry keeps

An entry has room for any number of addenda 05, but for one addenda 98 and one addenda 99 only.
Reading collects the former and overwrites the latter two, so a second addenda 98 or 99 behind an
entry replaces the first.  The control of the batch counts what has been kept and does not tell.

## Main definitions

* `addendaBehind` — the addenda records behind each entry record.
* `Entry.Keeps` — what an entry keeps of the addenda records behind it.

## Main results

* `Conforms.flatten_addendaBehind` — all addenda records of a file without faults stand behind its
  entries.
* `EntryRecords.entry_keeps` — what is kept of them.
* `addendaCount_eq_length_iff` — **all addenda of an entry are kept just when there is at most one
  98 and at most one 99 among them.**
-/

namespace AchCourier.Ach

/-! ### Addenda records behind an entry -/

/-- An entry or the end of a batch, behind which addenda belong to no entry before it. -/
def endsEntry (record : List Char) : Bool :=
  hasType '6' record || hasType '8' record

/-- For each entry record, the addenda records behind it and before the next entry or the end of
the batch. -/
def addendaBehind : List (List Char) → List (List (List Char))
  | [] => []
  | record :: records =>
      if hasType '6' record then
        (records.takeWhile (!endsEntry ·)).filter (hasType '7') :: addendaBehind records
      else addendaBehind records

theorem addendaBehind_cons_of_ne {t : Char} {record : List Char} {records : List (List Char)}
    (h : hasType t record = true) (ht : t ≠ '6') :
    addendaBehind (record :: records) = addendaBehind records := by
  rw [addendaBehind, if_neg]
  rw [hasType_eq_beq h, beq_iff_eq]
  exact ht.symm

/-- Up to the end of an entry, records that belong to no batch can be left out. -/
theorem filter_takeWhile_filter_isBatchRecord (records : List (List Char)) :
    ((records.filter isBatchRecord).takeWhile (!endsEntry ·)).filter (hasType '7') =
      (records.takeWhile (!endsEntry ·)).filter (hasType '7') := by
  induction records with
  | nil => rfl
  | cons r records ih =>
    rw [List.filter_cons, List.takeWhile_cons]
    by_cases hr : isBatchRecord r = true
    · rw [if_pos hr, List.takeWhile_cons]
      split
      · rw [List.filter_cons, List.filter_cons, ih]
      · rfl
    · -- a record of no batch neither ends an entry nor is an addenda record
      obtain ⟨h6, h7, h8⟩ :
          hasType '6' r = false ∧ hasType '7' r = false ∧ hasType '8' r = false := by
        simp_all [isBatchRecord]
      have hend : endsEntry r = false := by rw [endsEntry, h6, h8, Bool.or_false]
      rw [if_neg hr, ih, hend, Bool.not_false, if_pos rfl, List.filter_cons, h7,
        if_neg Bool.false_ne_true]

/-- Records that belong to no batch can be left out. -/
theorem addendaBehind_filter_isBatchRecord (records : List (List Char)) :
    addendaBehind (records.filter isBatchRecord) = addendaBehind records := by
  induction records with
  | nil => rfl
  | cons r records ih =>
    rw [List.filter_cons]
    by_cases hr : isBatchRecord r = true
    · rw [if_pos hr, addendaBehind, addendaBehind, filter_takeWhile_filter_isBatchRecord, ih]
    · have hnot : hasType '6' r = false := by simp_all [isBatchRecord]
      rw [if_neg hr, ih, addendaBehind, hnot, if_neg Bool.false_ne_true]

/-- The records of an entry, when the next record ends it. -/
theorem EntryRecords.addendaBehind_append {e : EntryRecords} (he : e.WellFormed)
    {r : List Char} {rest : List (List Char)} (hr : endsEntry r = true) :
    addendaBehind (e.records ++ r :: rest) = e.addenda :: addendaBehind (r :: rest) := by
  have hopen : ∀ a ∈ e.addenda, (!endsEntry a) = true := by
    intro a ha
    rw [endsEntry, hasType_eq_beq (he.addendaTypes a ha), hasType_eq_beq (he.addendaTypes a ha)]
    decide
  have htake : (e.addenda ++ r :: rest).takeWhile (!endsEntry ·) = e.addenda := by
    rw [List.takeWhile_append_of_pos hopen, List.takeWhile_cons, hr]
    simp
  have hdrop : ∀ addenda : List (List Char), (∀ a ∈ addenda, hasType '7' a = true) →
      addendaBehind (addenda ++ r :: rest) = addendaBehind (r :: rest) := by
    intro addenda h
    -- the addenda records begin no entry themselves, so each of them is passed over
    induction addenda with
    | nil => rfl
    | cons a addenda ih =>
      obtain ⟨ha, has⟩ := List.forall_mem_cons.mp h
      rw [List.cons_append, addendaBehind_cons_of_ne ha (by decide), ih has]
  rw [records, List.cons_append, addendaBehind, if_pos he.type, htake,
    List.filter_eq_self.mpr he.addendaTypes, hdrop _ he.addendaTypes]

theorem EntryRecords.addendaBehind_flatMap {r : List Char} {rest : List (List Char)}
    (hr : endsEntry r = true) (entries : List EntryRecords) (h : ∀ e ∈ entries, e.WellFormed) :
    addendaBehind (entries.flatMap records ++ r :: rest) =
      entries.map addenda ++ addendaBehind (r :: rest) := by
  induction entries with
  | nil => rfl
  | cons e entries ih =>
    obtain ⟨he, hes⟩ := List.forall_mem_cons.mp h
    rw [List.flatMap_cons, List.append_assoc, List.map_cons, List.cons_append, ← ih hes]
    -- the entry is ended by the next one or, if it is the last, by `r`
    cases entries with
    | nil => exact addendaBehind_append he hr
    | cons e' entries =>
      have hend : endsEntry e'.record = true := by
        rw [endsEntry, (hes e' (by simp)).type, Bool.true_or]
      exact addendaBehind_append he hend

/-- The addenda records behind the entries of well formed batches. -/
theorem BatchRecords.addendaBehind_flatMap (batches : List BatchRecords)
    (h : ∀ b ∈ batches, b.WellFormed) :
    addendaBehind (batches.flatMap records) =
      (batches.flatMap (·.entries)).map EntryRecords.addenda := by
  induction batches with
  | nil => rfl
  | cons b batches ih =>
    obtain ⟨hb, hbs⟩ := List.forall_mem_cons.mp h
    have hend : endsEntry b.control = true := by rw [endsEntry, hb.type, Bool.or_true]
    rw [List.flatMap_cons, records, BatchOpening.records, List.append_assoc, List.cons_append,
      addendaBehind_cons_of_ne hb.opening.type (by decide), List.singleton_append,
      EntryRecords.addendaBehind_flatMap hend b.entries hb.opening.entries,
      addendaBehind_cons_of_ne hb.type (by decide), ih hbs, List.flatMap_cons, List.map_append]

/-! ### What an entry keeps -/

/-- The addenda record has the given type code. -/
def hasAddendaType (code : List Char) (record : List Char) : Bool :=
  cut 2 3 record == code

/-- What the entry keeps of the addenda records behind it: every 05, the last 98 and the last
99. -/
structure Entry.Keeps (e : Entry) (behind : List (List Char)) : Prop where
  remittances :
    e.remittances = (behind.filter (hasAddendaType ['0', '5'])).map Remittance.ofLine
  changeNotice :
    e.changeNotice = (behind.filter (hasAddendaType ['9', '8'])).getLast?.map ChangeNotice.ofLine
  returnNotice :
    e.returnNotice = (behind.filter (hasAddendaType ['9', '9'])).getLast?.map ReturnNotice.ofLine

/-- One more addenda record of a known type. -/
theorem Entry.Keeps.attach {e : Entry} {behind : List (List Char)} (h : e.Keeps behind)
    {line : List Char} {a : Addenda} (ha : Addenda.ofLine? line = some a) :
    (e.attach a).Keeps (behind ++ [line]) := by
  unfold Addenda.ofLine? at ha
  -- one case for each type of addenda record, and none for a line of no type
  split at ha
  · next hcut =>
    cases ha
    constructor <;>
      simp [Entry.attach, h.remittances, h.changeNotice, h.returnNotice, hasAddendaType, hcut]
  · next hcut =>
    cases ha
    constructor <;>
      simp [Entry.attach, h.remittances, h.returnNotice, hasAddendaType, hcut]
  · next hcut =>
    cases ha
    constructor <;>
      simp [Entry.attach, h.remittances, h.changeNotice, hasAddendaType, hcut]
  · cases ha

/-- One more addenda record of an unknown type. -/
theorem Entry.Keeps.skip {e : Entry} {behind : List (List Char)} (h : e.Keeps behind)
    {line : List Char} (ha : Addenda.ofLine? line = none) : e.Keeps (behind ++ [line]) := by
  unfold Addenda.ofLine? at ha
  split at ha
  · cases ha
  · cases ha
  · cases ha
  · next h05 h98 h99 =>
    constructor <;>
      simp_all [h.remittances, h.changeNotice, h.returnNotice, hasAddendaType]

/-- **What is kept of addenda**: every 05, the last 98 and the last 99. -/
theorem EntryRecords.entry_keeps (e : EntryRecords) : e.entry.Keeps e.addenda := by
  obtain ⟨record, addenda⟩ := e
  -- attaching goes from the first record to the last, so what is kept is told by the last one
  induction addenda using List.reverseRecOn with
  | nil => constructor <;> rfl
  | append_singleton addenda line ih =>
    have hsnoc := EntryRecords.entry_snoc ⟨record, addenda⟩ line
    cases ha : Addenda.ofLine? line with
    | none =>
      rw [ha] at hsnoc
      rw [hsnoc]
      exact ih.skip ha
    | some a =>
      rw [ha] at hsnoc
      rw [hsnoc]
      exact ih.attach ha

theorem length_toList_getLast? {α : Type} (l : List α) :
    l.getLast?.toList.length = min l.length 1 := by
  cases l using List.reverseRecOn with
  | nil => rfl
  | append_singleton l a => simp

/-- Second addenda of the types 98 and 99 are not counted. -/
theorem Entry.Keeps.addendaCount_eq {e : Entry} {behind : List (List Char)}
    (h : e.Keeps behind) :
    e.addendaCount = behind.countP (hasAddendaType ['0', '5']) +
      min (behind.countP (hasAddendaType ['9', '8'])) 1 +
      min (behind.countP (hasAddendaType ['9', '9'])) 1 := by
  rw [addendaCount, h.remittances, h.changeNotice, h.returnNotice, ← List.getLast?_map,
    ← List.getLast?_map, length_toList_getLast?, length_toList_getLast?, List.length_map,
    List.length_map, List.length_map, ← List.countP_eq_length_filter,
    ← List.countP_eq_length_filter, ← List.countP_eq_length_filter]

/-- Addenda records of known types are of one type each. -/
theorem length_eq_countP_addendaTypes {behind : List (List Char)}
    (h : ∀ r ∈ behind, (Addenda.ofLine? r).isSome = true) :
    behind.length = behind.countP (hasAddendaType ['0', '5']) +
      behind.countP (hasAddendaType ['9', '8']) + behind.countP (hasAddendaType ['9', '9']) := by
  induction behind with
  | nil => rfl
  | cons r behind ih =>
    obtain ⟨hr, hrs⟩ := List.forall_mem_cons.mp h
    -- the record counts once on either side
    have hone : (if hasAddendaType ['0', '5'] r then 1 else 0) +
        (if hasAddendaType ['9', '8'] r then 1 else 0) +
        (if hasAddendaType ['9', '9'] r then 1 else 0) = 1 := by
      unfold Addenda.ofLine? at hr
      split at hr
      · next hcut => simp [hasAddendaType, hcut]
      · next hcut => simp [hasAddendaType, hcut]
      · next hcut => simp [hasAddendaType, hcut]
      · cases hr
    rw [List.length_cons, ih hrs, List.countP_cons, List.countP_cons, List.countP_cons]
    omega

/-! ### Files without faults -/

theorem EntryRecords.filter_addenda {e : EntryRecords} (he : e.WellFormed) :
    e.records.filter (hasType '7') = e.addenda := by
  rw [records, List.filter_cons, hasType_eq_beq he.type, List.filter_eq_self.mpr he.addendaTypes]
  rfl

theorem BatchRecords.filter_addenda {b : BatchRecords} (hb : b.WellFormed) :
    b.records.filter (hasType '7') = b.entries.flatMap EntryRecords.addenda := by
  have hentries : (b.entries.flatMap EntryRecords.records).filter (hasType '7') =
      b.entries.flatMap EntryRecords.addenda := by
    rw [List.filter_flatMap]
    exact List.flatMap_congr fun e he => EntryRecords.filter_addenda (hb.opening.entries e he)
  rw [records, BatchOpening.records, List.filter_append, List.filter_cons,
    hasType_eq_beq hb.opening.type, hentries, List.filter_singleton, hasType_eq_beq hb.type]
  simp

section
variable {records : List (List Char)} {batches : List BatchRecords}
  (h : Conforms records batches)
include h

/-- The addenda records behind the entries of conforming records. -/
theorem Conforms.addendaBehind_eq :
    addendaBehind records = (batches.flatMap (·.entries)).map EntryRecords.addenda := by
  rw [← addendaBehind_filter_isBatchRecord, h.division,
    BatchRecords.addendaBehind_flatMap batches h.wellFormed]

/-- All addenda records stand behind entries. -/
theorem Conforms.flatten_addendaBehind :
    (addendaBehind records).flatten = records.filter (hasType '7') := by
  -- addenda records belong to batches, so the other records play no part
  have hfilter : (records.filter isBatchRecord).filter (hasType '7') =
      records.filter (hasType '7') := by
    rw [List.filter_filter]
    refine List.filter_congr fun r _ => ?_
    cases ht : hasType '7' r with
    | false => rfl
    | true =>
      rw [isBatchRecord_of_hasType ht]
      rfl
  rw [h.addendaBehind_eq, ← hfilter, h.division, List.filter_flatMap,
    List.flatMap_congr fun b hb => BatchRecords.filter_addenda (h.wellFormed b hb),
    ← List.flatMap_def, List.flatMap_assoc]

/-- All addenda records are of known types. -/
theorem Conforms.isSome_ofLine? {e : EntryRecords} (he : e ∈ batches.flatMap (·.entries))
    {r : List Char} (hr : r ∈ e.addenda) : (Addenda.ofLine? r).isSome = true := by
  have hmem : r ∈ records.filter (hasType '7') := by
    rw [← h.flatten_addendaBehind, h.addendaBehind_eq]
    exact List.mem_flatten.mpr ⟨e.addenda, List.mem_map_of_mem he, hr⟩
  obtain ⟨hrecord, ht⟩ := List.mem_filter.mp hmem
  simp only [hasType, Bool.and_eq_true, beq_iff_eq, bne_iff_ne] at ht
  have hpass := (h.fields r hrecord).resolve_left ht.2
  rw [FieldsPass, ht.1] at hpass
  obtain ⟨a, ha, -⟩ := Addenda.complaints_eq_nil_iff.mp hpass
  rw [ha, Option.isSome_some]

end

theorem entries_fileOf (header control : List Char) (batches : List BatchRecords) :
    (fileOf header batches control).entries =
      (batches.flatMap (·.entries)).map EntryRecords.entry := by
  rw [File.entries, fileOf, List.flatMap_map, List.map_flatMap]
  rfl

/-- **Addenda that are kept.**  In a file that reads without faults every addenda record stands
behind an entry, and all those behind an entry are kept just when there is at most one 98 and at
most one 99 among them. -/
theorem addendaCount_eq_length_iff {bytes : Bytes} {f : File} (hread : read bytes = .ok f) :
    (addendaBehind (recordsOf bytes)).flatten = (recordsOf bytes).filter (hasType '7') ∧
      List.Forall₂
        (fun e behind => e.addendaCount = behind.length ↔
          behind.countP (hasAddendaType ['9', '8']) ≤ 1 ∧
            behind.countP (hasAddendaType ['9', '9']) ≤ 1)
        f.entries (addendaBehind (recordsOf bytes)) := by
  obtain ⟨batches, h, header, -, -, control, -, -, rfl⟩ := read_eq_ok_iff.mp hread
  refine ⟨h.flatten_addendaBehind, ?_⟩
  rw [entries_fileOf, h.addendaBehind_eq, List.forall₂_map_left_iff,
    List.forall₂_map_right_iff, List.forall₂_same]
  intro e he
  have hcount := e.entry_keeps.addendaCount_eq
  have hlength := length_eq_countP_addendaTypes fun r hr => h.isSome_ofLine? he hr
  omega

/-- The notice that a field of the sample entry is to be corrected. -/
def sampleNotice (changeCode correctedData : String) : ChangeNotice where
  changeCode := changeCode
  sentTrace := "121042880000001"
  sentDfi := "23138010"
  correctedData := correctedData
  traceNumber := "121042880000001"

/-- An entry with notices of two changes, of which the second is kept, and the controls of what is
kept. -/
def correctedTwice : List (List Char) :=
  let entry : Entry :=
    { sampleEntry with
      transactionCode := 21, amount := 0, addendaRecordIndicator := 1
      changeNotice := some (sampleNotice "C05" "27") }
  let batch : Batch := { header := sampleBatchHeader, entries := [entry] }
  [lineOf sampleFileHeader.cells, lineOf sampleBatchHeader.cells, lineOf entry.cells,
    lineOf (sampleNotice "C01" "1918171614").cells, lineOf (sampleNotice "C05" "27").cells,
    lineOf batch.expectedControl.cells,
    lineOf ({ batches := [batch] } : File).expectedControl.cells]

theorem exists_read_addenda_lost :
    ∃ f, read (Utf8.encode (textOf correctedTwice)) = .ok f ∧
      ¬ List.Forall₂ (fun e behind => e.addendaCount = behind.length) f.entries
        (addendaBehind (recordsOf (Utf8.encode (textOf correctedTwice)))) := by
  have hread := read_of_no_faults
    (show faultsOf (Utf8.encode (textOf correctedTwice)) = [] by decide +kernel)
  refine ⟨_, hread, fun hall => ?_⟩
  -- an agreeing count would mean one notice at most, and two stand behind the entry
  have hkept := (addendaCount_eq_length_iff hread).2
  have hrecords : recordsOf (Utf8.encode (textOf correctedTwice)) = correctedTwice :=
    recordsOf_textOf (by decide +kernel) (by decide +kernel)
  have hbehind : addendaBehind correctedTwice =
      [[lineOf (sampleNotice "C01" "1918171614").cells,
        lineOf (sampleNotice "C05" "27").cells]] := by decide +kernel
  rw [hrecords, hbehind] at hkept hall
  generalize (recover (Utf8.encode (textOf correctedTwice))).entries = entries at hkept hall
  cases hkept with
  | cons hiff _ =>
    cases hall with
    | cons hcount _ => exact absurd (hiff.mp hcount).1 (by decide +kernel)

end AchCourier.Ach
