import AchCourier.Proofs.Ach.Repair
import Mathlib.Data.List.Nodup

/-!
# Batches and entries are conserved

Whatever a text looks like, reading makes one batch of each batch header, and an entry belongs to
the batch of the last batch header before it unless a batch control stands between them.  So the
batches of a text are spans of its lines: each begins with a batch header and ends before the next
batch header or with the next batch control.  What stands outside of the spans is reported, and so
is a span that does not end with a batch control.

Reading goes by whether a batch is open before a line.  A span has exactly those entries before
which a batch is open, and it ends with the first batch header or batch control behind it, so the
spans and the reports are told by the same list.

## Main definitions

* `numberedLines`, `isOf` — the lines of a byte string, and those that are records of a type.
* `BatchSpan`, `spans` — the lines of a batch, and the batches of a text.
* `opens`, `standing` — whether a batch is open behind a line and, for each line, before it.
* `outOfPlace` — the report of a record that stands where it must not.
* `Conserves` — every batch header, entry and batch control is kept or reported.

## Main results

* `Ledger.outline_foldl` — the ledger holds the batches of the spans.
* `exists_span_iff` — the lines of the batches are those before which a batch is open.
* `Reading.mem_faults_run_iff` — the records out of place are those that are reported.
* `batches_conserved` — **batches and entries are conserved.**
-/

namespace AchCourier.Ach

/-! ### Lines and spans -/

/-- A line of a text and its number. -/
abbrev NumberedLine := List Char × ℕ

/-- The lines of a byte string, or the slices of an unbroken text, with their numbers.  What a text
is cut into is said by `rawLines_eq_iff`. -/
def numberedLines (bytes : Bytes) : List NumberedLine :=
  (rawLines (Utf8.decodeLossy bytes)).zipIdx 1

instance : DecidablePred IsRecord := fun _ => inferInstanceAs (Decidable (_ ∧ _))

/-- The line is a record of the given type: 94 ASCII characters, and the first is the type. -/
def isOf (type : Char) (line : NumberedLine) : Bool :=
  decide (IsRecord line.1) && hasType type line.1

/-- A batch header or a batch control, which ends the batch before it. -/
def endsBatch (line : NumberedLine) : Bool :=
  isOf '5' line || isOf '8' line

/-- The entry records before the next batch header or batch control. -/
def leadingEntries (lines : List NumberedLine) : List NumberedLine :=
  (lines.takeWhile (!endsBatch ·)).filter (isOf '6')

/-- The lines of a batch. -/
structure BatchSpan where
  header : NumberedLine
  /-- The entry records behind the header and before the end of the batch. -/
  entries : List NumberedLine
  /-- The next batch header or batch control, if there is one. -/
  ending : Option NumberedLine

namespace BatchSpan

/-- The batch control that ends the batch. -/
def control? (s : BatchSpan) : Option NumberedLine :=
  s.ending.filter (isOf '8')

/-- The batch on the lines, without the addenda of its entries. -/
def batch (s : BatchSpan) : Batch where
  header := .ofLine s.header.1
  entries := s.entries.map (Entry.ofLine ·.1)
  control := (s.control?.map (BatchControl.ofLine ·.1)).getD {}

/-- The report of a batch that does not end with a batch control, in a text whose last line has the
number `last`. -/
def missingControl (last : ℕ) (s : BatchSpan) : Fault :=
  match s.ending with
  | none => .ofRecord last .batchControl .batchLeftOpenAtEnd
  | some line => .ofRecord line.2 .batchControl .batchLeftOpen

end BatchSpan

/-- The batches of a text: one for each batch header, with the entry records up to the next batch
header or batch control. -/
def spans : List NumberedLine → List BatchSpan
  | [] => []
  | line :: lines =>
      if isOf '5' line then ⟨line, leadingEntries lines, lines.find? endsBatch⟩ :: spans lines
      else spans lines

/-- **There is one batch for each batch header**, in order. -/
theorem map_header_spans (lines : List NumberedLine) :
    (spans lines).map BatchSpan.header = lines.filter (isOf '5') := by
  induction lines with
  | nil => rfl
  | cons line lines ih =>
    rw [spans, List.filter_cons]
    split
    · rw [List.map_cons, ih]
    · exact ih

/-! ### Kinds of lines -/

/-- The line is neither a batch header nor an entry nor a batch control. -/
def Line.isBesides : Line → Bool
  | .batchHeader _ => false
  | .entry _ => false
  | .batchControl _ => false
  | _ => true

theorem isOf_eq_beq {t u : Char} {line : NumberedLine} (h : isOf t line = true) :
    isOf u line = (u == t) := by
  obtain ⟨hr, ht⟩ := Bool.and_eq_true_iff.mp h
  rw [isOf, hr, Bool.true_and, hasType_eq_beq ht]

/-- A record of a type is classified by it. -/
theorem classify_of_isOf {t : Char} {line : NumberedLine} (h : isOf t line = true)
    (hblank : Text.isBlank t = false) : classify line.1 = .ofType line.1 t := by
  obtain ⟨hr, ht⟩ := Bool.and_eq_true_iff.mp h
  exact classify_of_hasType (not_blank_of_hasType ht hblank) (of_decide_eq_true hr) ht

/-- A line is a record of a type, or it is blank, misshapen or padding. -/
theorem classify_eq_ofType_or (line : NumberedLine) :
    (∃ t, isOf t line = true ∧ classify line.1 = .ofType line.1 t) ∨
      classify line.1 = .blank ∨ classify line.1 = .misshapen line.1.length ∨
      classify line.1 = .padding := by
  cases hb : line.1.all Text.isBlank with
  | true => exact Or.inr (Or.inl (classify_eq_blank_iff.mpr hb))
  | false =>
    by_cases hr : IsRecord line.1
    · rcases eq_paddingLine_or_hasType hb with hpad | ⟨t, ht⟩
      · refine Or.inr (Or.inr (Or.inr ?_))
        rw [classify_of_isRecord hb hr, if_pos hpad]
      · have hof : isOf t line = true := by rw [isOf, decide_eq_true hr, ht]; rfl
        exact Or.inl ⟨t, hof, classify_of_hasType hb hr ht⟩
    · exact Or.inr (Or.inr (Or.inl (classify_of_not_isRecord hb hr)))

/-- A line is a batch header, an entry, a batch control or none of them. -/
theorem classify_cases (line : NumberedLine) :
    (isOf '5' line = true ∧ classify line.1 = .batchHeader line.1) ∨
      (isOf '6' line = true ∧ classify line.1 = .entry line.1) ∨
      (isOf '8' line = true ∧ classify line.1 = .batchControl line.1) ∨
      (isOf '5' line = false ∧ isOf '6' line = false ∧ isOf '8' line = false ∧
        (classify line.1).isBesides = true) := by
  by_cases h5 : isOf '5' line = true
  · exact Or.inl ⟨h5, classify_of_isOf h5 rfl⟩
  by_cases h6 : isOf '6' line = true
  · exact Or.inr (Or.inl ⟨h6, classify_of_isOf h6 rfl⟩)
  by_cases h8 : isOf '8' line = true
  · exact Or.inr (Or.inr (Or.inl ⟨h8, classify_of_isOf h8 rfl⟩))
  -- a line of any other type, or of none, stands beside the batches
  refine Or.inr (Or.inr (Or.inr ⟨by simpa using h5, by simpa using h6, by simpa using h8, ?_⟩))
  rcases classify_eq_ofType_or line with ⟨t, ht, hl⟩ | hl | hl | hl <;> rw [hl]
  · fun_cases Line.ofType line.1 t with
    | case2 => exact absurd ht h5
    | case3 => exact absurd ht h6
    | case5 => exact absurd ht h8
    | _ => rfl
  all_goals rfl

/-! ### The batches of a ledger -/

/-- The entry without its addenda. -/
def Entry.withoutAddenda (e : Entry) : Entry :=
  { e with remittances := [], changeNotice := none, returnNotice := none }

/-- The batch without the addenda of its entries. -/
def Batch.withoutAddenda (b : Batch) : Batch :=
  { b with entries := b.entries.map Entry.withoutAddenda }

theorem Entry.withoutAddenda_attach (e : Entry) (a : Addenda) :
    (e.attach a).withoutAddenda = e.withoutAddenda := by
  cases a <;> rfl

theorem Batch.withoutAddenda_attachLast (b : Batch) (a : Addenda) :
    (b.attachLast a).withoutAddenda = b.withoutAddenda := by
  unfold attachLast
  split
  · rfl
  · next e he =>
    split
    · obtain ⟨front, hfront⟩ := List.getLast?_eq_some_iff.mp he
      simp [withoutAddenda, hfront, Entry.withoutAddenda_attach]
    · rfl

/-- The batch with what the lines up to its end add to it. -/
def Batch.upTo (b : Batch) (lines : List NumberedLine) : Batch :=
  { b with
    entries := b.entries ++ (leadingEntries lines).map (Entry.ofLine ·.1)
    control := (((lines.find? endsBatch).filter (isOf '8')).map (BatchControl.ofLine ·.1)).getD
      b.control }

namespace Ledger

/-- The batches of a ledger, without addenda. -/
def outline (s : Ledger) : List Batch :=
  s.closed.map Batch.withoutAddenda ++ (s.current.map Batch.withoutAddenda).toList

/-- A line that is no batch header, entry or batch control changes at most addenda. -/
theorem step_of_isBesides {l : Line} (h : l.isBesides = true) (s : Ledger) :
    (s.step l).closed = s.closed ∧
      (s.step l).current.map Batch.withoutAddenda = s.current.map Batch.withoutAddenda := by
  cases l with
  | addenda line =>
    -- attaching changes the addenda of an entry and nothing else of the batch
    rw [step]
    split
    · exact ⟨rfl, rfl⟩
    · refine ⟨rfl, ?_⟩
      rw [Option.map_map]
      congr 1
      funext b
      exact b.withoutAddenda_attachLast _
  | batchHeader => cases h
  | entry => cases h
  | batchControl => cases h
  | _ => exact ⟨rfl, rfl⟩

end Ledger

section
variable {line : NumberedLine} (lines : List NumberedLine)

/-- A batch header or a batch control ends the lines that belong to a batch. -/
theorem leadingEntries_cons_of_endsBatch (h : endsBatch line = true) :
    leadingEntries (line :: lines) = [] := by
  rw [leadingEntries, List.takeWhile_cons, h]
  rfl

theorem leadingEntries_cons_of_not_endsBatch (h : endsBatch line = false) :
    leadingEntries (line :: lines) =
      if isOf '6' line then line :: leadingEntries lines else leadingEntries lines := by
  rw [leadingEntries, List.takeWhile_cons, h, Bool.not_false, if_pos rfl, List.filter_cons]
  rfl

theorem Batch.upTo_nil (b : Batch) : b.upTo [] = b := by
  rw [upTo, leadingEntries, List.takeWhile_nil, List.filter_nil, List.map_nil, List.append_nil]
  rfl

/-- The next batch header adds nothing to a batch. -/
theorem Batch.upTo_cons_header (b : Batch) (h : isOf '5' line = true) :
    b.upTo (line :: lines) = b := by
  have hends : endsBatch line = true := by rw [endsBatch, h, Bool.true_or]
  have hcontrol : isOf '8' line = false := isOf_eq_beq h
  rw [upTo, leadingEntries_cons_of_endsBatch lines hends, List.find?_cons_of_pos hends,
    Option.filter_some, hcontrol, List.map_nil, List.append_nil]
  rfl

/-- The next batch control becomes the control of a batch. -/
theorem Batch.upTo_cons_control (b : Batch) (h : isOf '8' line = true) :
    b.upTo (line :: lines) = { b with control := .ofLine line.1 } := by
  have hends : endsBatch line = true := by rw [endsBatch, h, Bool.or_true]
  rw [upTo, leadingEntries_cons_of_endsBatch lines hends, List.find?_cons_of_pos hends,
    Option.filter_some, h, List.map_nil, List.append_nil]
  rfl

/-- An entry is added to a batch. -/
theorem Batch.upTo_cons_entry (b : Batch) (h : isOf '6' line = true) :
    b.upTo (line :: lines) =
      Batch.upTo { b with entries := b.entries ++ [.ofLine line.1] } lines := by
  have hends : endsBatch line = false := by rw [endsBatch, isOf_eq_beq h, isOf_eq_beq h]; rfl
  rw [upTo, upTo, leadingEntries_cons_of_not_endsBatch lines hends, if_pos h,
    List.find?_cons_of_neg (by simp [hends]), List.map_cons, List.append_assoc]
  rfl

/-- Other lines add nothing to a batch. -/
theorem Batch.upTo_cons_besides (b : Batch) (h5 : isOf '5' line = false)
    (h6 : isOf '6' line = false) (h8 : isOf '8' line = false) :
    b.upTo (line :: lines) = b.upTo lines := by
  have hends : endsBatch line = false := by rw [endsBatch, h5, h8]; rfl
  rw [upTo, upTo, leadingEntries_cons_of_not_endsBatch lines hends, h6,
    if_neg Bool.false_ne_true, List.find?_cons_of_neg (by simp [hends])]

end

/-- The ledger holds the batches that it held, the open one with what the lines up to its end add
to it, and **the batches of the spans**. -/
theorem Ledger.outline_foldl (s : Ledger) (lines : List NumberedLine) :
    ((lines.map (classify ·.1)).foldl step s).outline =
      s.closed.map Batch.withoutAddenda ++
        (s.current.map fun b => b.withoutAddenda.upTo lines).toList ++
        (spans lines).map BatchSpan.batch := by
  induction lines generalizing s with
  | nil => simp [outline, spans, Batch.upTo_nil]
  | cons line lines ih =>
    rw [List.map_cons, List.foldl_cons, ih, spans]
    rcases classify_cases line with ⟨h, hl⟩ | ⟨h, hl⟩ | ⟨h, hl⟩ | ⟨h5, h6, h8, hl⟩
    · -- the open batch is closed as it is, and the next one begins
      have hspan : BatchSpan.batch ⟨line, leadingEntries lines, lines.find? endsBatch⟩ =
          Batch.upTo (Batch.withoutAddenda { header := .ofLine line.1 }) lines := rfl
      simp only [hl, step, Batch.upTo_cons_header lines _ h, if_pos h, List.map_cons, hspan]
      cases s.current <;> simp
    · have hne : isOf '5' line = false := isOf_eq_beq h
      simp only [hl, step, Batch.upTo_cons_entry lines _ h, hne, if_neg Bool.false_ne_true]
      cases s.current <;> simp [Batch.withoutAddenda, Entry.withoutAddenda, Entry.ofLine]
    · have hne : isOf '5' line = false := isOf_eq_beq h
      simp only [hl, step, Batch.upTo_cons_control lines _ h, hne, if_neg Bool.false_ne_true]
      cases s.current <;> simp [Batch.withoutAddenda]
    · obtain ⟨hclosed, hcurrent⟩ := step_of_isBesides hl s
      have hmap : ∀ c : Option Batch, (c.map fun b => b.withoutAddenda.upTo lines) =
          (c.map Batch.withoutAddenda).map fun b => b.upTo lines := fun c => by
        rw [Option.map_map]
        rfl
      simp only [Batch.upTo_cons_besides lines _ h5 h6 h8, h5, if_neg Bool.false_ne_true, hclosed,
        hmap, hcurrent]

/-! ### Lines and open batches -/

/-- A batch is open behind a line: a batch header opens one, and a batch control leaves none. -/
def opens (isOpen : Bool) (line : NumberedLine) : Bool :=
  isOf '5' line || (isOpen && !isOf '8' line)

/-- The lines, each with whether a batch is open before it. -/
def standing (isOpen : Bool) : List NumberedLine → List (NumberedLine × Bool)
  | [] => []
  | line :: lines => (line, isOpen) :: standing (opens isOpen line) lines

theorem map_fst_standing (isOpen : Bool) (lines : List NumberedLine) :
    (standing isOpen lines).map Prod.fst = lines := by
  induction lines generalizing isOpen with
  | nil => rfl
  | cons line lines ih => rw [standing, List.map_cons, ih]

/-- What a batch has of a line `r` behind its header is known from the lines up to its end.  So the
lines that the batches have are **the lines before which a batch is open**; if a batch is open
before the first line, it comes first. -/
theorem exists_span_iff {r : NumberedLine} {test : NumberedLine → Bool} {has : BatchSpan → Prop}
    {within : List NumberedLine → Prop}
    (hhas : ∀ line lines,
      has ⟨line, leadingEntries lines, lines.find? endsBatch⟩ ↔ within lines)
    (hnil : ¬ within [])
    (hcons : ∀ line lines, within (line :: lines) ↔
      test line = true ∧ r = line ∨ endsBatch line = false ∧ within lines)
    (isOpen : Bool) (lines : List NumberedLine) :
    isOpen = true ∧ within lines ∨ (∃ s ∈ spans lines, has s) ↔
      test r = true ∧ (r, true) ∈ standing isOpen lines := by
  induction lines generalizing isOpen with
  | nil => simp [hnil, spans, standing]
  | cons line lines ih =>
    have hfirst : test r = true ∧ r = line ↔ test line = true ∧ r = line :=
      and_congr_left fun h => by rw [h]
    rw [standing, spans, List.mem_cons, Prod.mk.injEq, and_or_left, ← ih, ← and_assoc, hfirst,
      hcons, and_comm (b := true = isOpen), eq_comm (a := true)]
    by_cases h5 : isOf '5' line = true
    · -- the batch before ends with this line, and the next one begins
      have hends : endsBatch line = true := by rw [endsBatch, h5, Bool.true_or]
      have hopens : opens isOpen line = true := by rw [opens, h5, Bool.true_or]
      simp [h5, hends, hopens, hhas]
    cases h8 : isOf '8' line with
    | true =>
      have hends : endsBatch line = true := by rw [endsBatch, h8, Bool.or_true]
      have hopens : opens isOpen line = false := by simp [opens, h5, h8]
      simp [h5, hends, hopens]
    | false =>
      have hends : endsBatch line = false := by simp [endsBatch, h5, h8]
      have hopens : opens isOpen line = isOpen := by simp [opens, h5, h8]
      simp [h5, hends, hopens, and_or_left, or_assoc]

/-- The entries of the spans are **the entries before which a batch is open**. -/
theorem exists_mem_entries_iff (lines : List NumberedLine) (r : NumberedLine) :
    (∃ s ∈ spans lines, r ∈ s.entries) ↔ isOf '6' r = true ∧ (r, true) ∈ standing false lines := by
  have hcons : ∀ line lines, r ∈ leadingEntries (line :: lines) ↔
      isOf '6' line = true ∧ r = line ∨ endsBatch line = false ∧ r ∈ leadingEntries lines := by
    intro line lines
    cases hends : endsBatch line
    · rw [leadingEntries_cons_of_not_endsBatch lines hends]
      split
      · next h6 => simp [h6]
      · next h6 => simp [h6]
    · -- a line that ends a batch is no entry
      have hne : isOf '6' line = false := by
        rcases Bool.or_eq_true_iff.mp hends with h | h <;> exact isOf_eq_beq h
      simp [leadingEntries_cons_of_endsBatch lines hends, hne]
  have hiff := @exists_span_iff r (isOf '6') (fun s => r ∈ s.entries) (r ∈ leadingEntries ·)
    (fun _ _ => Iff.rfl) List.not_mem_nil hcons false lines
  rwa [Bool.false_eq_true, false_and, false_or] at hiff

/-- The ends of the spans are **the batch headers and controls before which a batch is open**. -/
theorem exists_ending_eq_iff (lines : List NumberedLine) (r : NumberedLine) :
    (∃ s ∈ spans lines, s.ending = some r) ↔
      endsBatch r = true ∧ (r, true) ∈ standing false lines := by
  have hcons : ∀ line lines, (line :: lines).find? endsBatch = some r ↔
      endsBatch line = true ∧ r = line ∨ endsBatch line = false ∧ lines.find? endsBatch = some r :=
    fun line lines => by cases h : endsBatch line <;> simp [h, eq_comm]
  have hiff := @exists_span_iff r endsBatch (fun s => s.ending = some r)
    (fun lines => lines.find? endsBatch = some r) (fun _ _ => Iff.rfl) nofun hcons false lines
  rwa [Bool.false_eq_true, false_and, false_or] at hiff

/-- A span without an end is **a batch that is open behind the last line**. -/
theorem exists_ending_eq_none_iff (isOpen : Bool) (lines : List NumberedLine) :
    isOpen = true ∧ lines.find? endsBatch = none ∨ (∃ s ∈ spans lines, s.ending = none) ↔
      lines.foldl opens isOpen = true := by
  induction lines generalizing isOpen with
  | nil => simp [spans]
  | cons line lines ih =>
    rw [List.foldl_cons, ← ih, spans]
    cases h5 : isOf '5' line <;> cases h8 : isOf '8' line <;> simp [endsBatch, opens, h5, h8]

/-! ### Records out of place -/

/-- The cause is that a batch record stands where it must not or that a batch control is missing. -/
def Cause.isOutOfPlace : Cause → Bool
  | .batchLeftOpen => true
  | .batchLeftOpenAtEnd => true
  | .entryOutsideBatch => true
  | .controlWithoutBatch => true
  | _ => false

theorem forall_mem_complainUnless {p : Complaint → Prop} {ok : Bool} {field : String}
    {cause : Cause} (h : p ⟨field, cause⟩) : ∀ c ∈ complainUnless ok field cause, p c := by
  rw [complainUnless]
  split
  · exact List.forall_mem_nil p
  · exact List.forall_mem_singleton.mpr h

/-- The checks on the fields of a line never find it out of place. -/
theorem Line.isOutOfPlace_complaints (l : Line) :
    ∀ c ∈ l.complaints, c.cause.isOutOfPlace = false := by
  -- each complaint is about a field of the record, and none about its place
  cases l with
  | blank => exact List.forall_mem_nil _
  | padding => exact List.forall_mem_nil _
  | misshapen length => exact List.forall_mem_singleton.mpr rfl
  | unknown type => exact List.forall_mem_singleton.mpr rfl
  | fileHeader line =>
    have hdate : ∀ c ∈ FileHeader.dateComplaints (FileHeader.ofLine line).fileCreationDate,
        c.cause.isOutOfPlace = false := by
      rw [FileHeader.dateComplaints]
      split
      · exact List.forall_mem_singleton.mpr rfl
      · exact forall_mem_complainUnless rfl
    simp only [complaints, FileHeader.complaints, List.forall_mem_append]
    and_intros
    all_goals first | with_reducible exact hdate | exact forall_mem_complainUnless rfl
  | batchHeader line =>
    simp only [complaints, BatchHeader.complaints, List.forall_mem_append]
    and_intros
    all_goals exact forall_mem_complainUnless rfl
  | entry line =>
    have hdigit : ∀ c ∈ Entry.checkDigitComplaints (Entry.ofLine line).rdfiIdentification
        (Entry.ofLine line).checkDigit, c.cause.isOutOfPlace = false := by
      rw [Entry.checkDigitComplaints]
      split
      · exact List.forall_mem_nil _
      · exact forall_mem_complainUnless rfl
    simp only [complaints, Entry.complaints, List.forall_mem_append]
    and_intros
    all_goals first | with_reducible exact hdigit | exact forall_mem_complainUnless rfl
  | addenda line =>
    simp only [complaints, Addenda.complaints]
    split
    · exact forall_mem_complainUnless rfl
    · exact List.forall_mem_append.mpr
        ⟨forall_mem_complainUnless rfl, forall_mem_complainUnless rfl⟩
    · exact forall_mem_complainUnless rfl
    · exact List.forall_mem_singleton.mpr rfl
  | batchControl line =>
    simp only [complaints, BatchControl.complaints, List.forall_mem_append]
    and_intros
    all_goals exact forall_mem_complainUnless rfl
  | fileControl line =>
    simp only [complaints, FileControl.complaints, List.forall_mem_append]
    and_intros
    all_goals exact forall_mem_complainUnless rfl

theorem Reading.isOutOfPlace_batchMismatches (b : Batch) (c : BatchControl) :
    ∀ d ∈ batchMismatches b c, d.cause.isOutOfPlace = false := by
  simp only [batchMismatches, List.forall_mem_append]
  and_intros
  all_goals exact forall_mem_complainUnless rfl

theorem Reading.isOutOfPlace_fileMismatches (f : File) (c : FileControl) :
    ∀ d ∈ fileMismatches f c, d.cause.isOutOfPlace = false := by
  simp only [fileMismatches, List.forall_mem_append]
  and_intros
  all_goals exact forall_mem_complainUnless rfl

/-- Complaints about a line are no reports of records out of place. -/
theorem not_mem_faultsAt {n : ℕ} {record : RecordKind} {complaints : List Complaint}
    (h : ∀ c ∈ complaints, c.cause.isOutOfPlace = false) {x : Fault}
    (hx : x.cause.isOutOfPlace = true) : x ∉ faultsAt n record complaints := by
  intro hmem
  obtain ⟨c, hc, rfl⟩ := List.mem_map.mp hmem
  exact absurd (h c hc) (by simp [hx])

/-- The report of a record that is out of place. -/
def outOfPlace (isOpen : Bool) (line : NumberedLine) : List Fault :=
  if isOf '5' line && isOpen then [.ofRecord line.2 .batchControl .batchLeftOpen]
  else if isOf '6' line && !isOpen then [.ofRecord line.2 .entryDetail .entryOutsideBatch]
  else if isOf '8' line && !isOpen then [.ofRecord line.2 .batchControl .controlWithoutBatch]
  else []

namespace Reading

theorem mem_faults_note_iff (r : Reading) {faults : List Fault} {x : Fault} (h : x ∉ faults) :
    x ∈ (r.note faults).faults ↔ x ∈ r.faults := by
  rw [note, List.mem_append, or_iff_left h]

/-- A line that is no batch header, entry or batch control is never out of place. -/
theorem mem_faults_step_of_isBesides (r : Reading) (n : ℕ) {l : Line} (h : l.isBesides = true)
    {x : Fault} (hx : x.cause.isOutOfPlace = true) :
    x ∈ (r.step n l).faults ↔ x ∈ r.faults := by
  have hfields : ∀ record, x ∉ faultsAt n record l.complaints :=
    fun _ => not_mem_faultsAt l.isOutOfPlace_complaints hx
  have hother : ∀ {new : Fault}, new.cause.isOutOfPlace = false → x ∉ [new] := by
    intro new hnew hmem
    rw [List.mem_singleton.mp hmem, hnew] at hx
    cases hx
  -- what else such a line adds does not say that a record is out of place
  cases l with
  | batchHeader => cases h
  | entry => cases h
  | batchControl => cases h
  | blank => rfl
  | padding => rfl
  | misshapen length => exact mem_faults_note_iff r (hother rfl)
  | unknown type => exact mem_faults_note_iff r (hother rfl)
  | fileHeader line =>
    rw [step, fileHeader]
    split
    · exact mem_faults_note_iff r (hother rfl)
    · exact mem_faults_note_iff r (hfields .fileHeader)
  | fileControl line =>
    rw [step, fileControl]
    split
    · exact mem_faults_note_iff r (hother rfl)
    · exact mem_faults_note_iff r (not_mem_faultsAt
        (List.forall_mem_append.mpr ⟨(Line.fileControl line).isOutOfPlace_complaints,
          isOutOfPlace_fileMismatches r.file (.ofLine line)⟩) hx)
  | addenda line =>
    rw [← mem_faults_note_iff r (hfields .addenda)]
    simp only [step, addenda, Line.complaints]
    split
    · rfl
    · split
      · exact mem_faults_note_iff _ (hother rfl)
      · split
        · exact mem_faults_note_iff _ (hother rfl)
        · split
          · rfl
          · exact mem_faults_note_iff _ (hother rfl)

/-- **What a line is reported for, besides what is in it**, depends on its type and on whether a
batch is open. -/
theorem mem_faults_step_iff (r : Reading) (line : NumberedLine) {x : Fault}
    (hx : x.cause.isOutOfPlace = true) :
    x ∈ (r.step line.2 (classify line.1)).faults ↔
      x ∈ r.faults ∨ x ∈ outOfPlace r.openBatch.isSome line := by
  have hfields : ∀ n record, x ∉ faultsAt n record (classify line.1).complaints :=
    fun _ _ => not_mem_faultsAt (classify line.1).isOutOfPlace_complaints hx
  rcases classify_cases line with ⟨h, hl⟩ | ⟨h, hl⟩ | ⟨h, hl⟩ | ⟨h5, h6, h8, hl⟩
  · rw [hl, Line.complaints] at hfields
    cases hb : r.openBatch <;>
      simp [hl, step, batchHeader, note, close, hb, outOfPlace, isOf_eq_beq h, hfields]
  · rw [hl, Line.complaints] at hfields
    cases hb : r.openBatch <;>
      simp [hl, step, entry, note, hb, outOfPlace, isOf_eq_beq h, hfields]
  · rw [hl, Line.complaints] at hfields
    cases hb : r.openBatch <;>
      simp [hl, step, batchControl, note, close, hb, outOfPlace, isOf_eq_beq h, hfields,
        not_mem_faultsAt (isOutOfPlace_batchMismatches _ _) hx]
  · rw [mem_faults_step_of_isBesides r line.2 hl hx]
    simp [outOfPlace, h5, h6, h8]

theorem isSome_openBatch_step (r : Reading) (line : NumberedLine) :
    (r.step line.2 (classify line.1)).openBatch.isSome = opens r.openBatch.isSome line := by
  -- the ledger decides whether a batch is open
  have hledger : (r.step line.2 (classify line.1)).openBatch =
      (r.ledger.step (classify line.1)).current :=
    congrArg Ledger.current (r.ledger_step line.2 (classify line.1))
  rw [hledger]
  rcases classify_cases line with ⟨h, hl⟩ | ⟨h, hl⟩ | ⟨h, hl⟩ | ⟨h5, h6, h8, hl⟩
  · rw [hl, opens, h, Bool.true_or]
    rfl
  · rw [hl, opens, isOf_eq_beq h, isOf_eq_beq h, Ledger.step, Option.isSome_map]
    simp [ledger]
  · rw [hl, opens, isOf_eq_beq h, isOf_eq_beq h]
    simp [Ledger.step]
  · have hcurrent := congrArg Option.isSome (Ledger.step_of_isBesides hl r.ledger).2
    rw [Option.isSome_map, Option.isSome_map] at hcurrent
    rw [hcurrent, opens, h5, h8]
    simp [ledger]

/-- **The records out of place are those that are reported**, each for what is open where it
stands. -/
theorem mem_faults_run_iff (r : Reading) (n : ℕ) (lines : List (List Char)) {x : Fault}
    (hx : x.cause.isOutOfPlace = true) :
    x ∈ (r.run n (lines.map classify)).faults ↔
      x ∈ r.faults ∨
        ∃ p ∈ standing r.openBatch.isSome (lines.zipIdx n), x ∈ outOfPlace p.2 p.1 := by
  induction lines generalizing r n with
  | nil => simp [run, standing]
  | cons line lines ih =>
    rw [List.map_cons, run, ih, List.zipIdx_cons, standing, List.exists_mem_cons_iff,
      mem_faults_step_iff r (line, n) hx, isSome_openBatch_step r (line, n), or_assoc]

theorem isSome_openBatch_run (r : Reading) (n : ℕ) (lines : List (List Char)) :
    (r.run n (lines.map classify)).openBatch.isSome =
      (lines.zipIdx n).foldl opens r.openBatch.isSome := by
  induction lines generalizing r n with
  | nil => rfl
  | cons line lines ih =>
    rw [List.map_cons, run, ih, List.zipIdx_cons, List.foldl_cons,
      isSome_openBatch_step r (line, n)]

/-- At the end, a batch that is still open is reported. -/
theorem mem_faults_finish_iff (r : Reading) (last : ℕ) {x : Fault}
    (hx : x.cause.isOutOfPlace = true) :
    x ∈ (r.finish last).faults ↔
      x ∈ r.faults ∨ r.openBatch.isSome = true ∧
        x = .ofRecord last .batchControl .batchLeftOpenAtEnd := by
  have hheader : x ≠ .ofRecord 1 .fileHeader .fileHeaderMissing := by
    rintro rfl
    cases hx
  have hcontrol : x ≠ .ofRecord last .fileControl .fileControlMissing := by
    rintro rfl
    cases hx
  cases hb : r.openBatch <;> cases hh : r.seenHeader <;> cases hc : r.seenControl <;>
    simp [finish, note, close, hb, hh, hc, hheader, hcontrol]

end Reading

theorem mem_outOfPlace_iff {isOpen : Bool} {line : NumberedLine} {x : Fault} :
    x ∈ outOfPlace isOpen line ↔
      isOf '5' line = true ∧ isOpen = true ∧ x = .ofRecord line.2 .batchControl .batchLeftOpen ∨
      isOf '6' line = true ∧ isOpen = false ∧
        x = .ofRecord line.2 .entryDetail .entryOutsideBatch ∨
      isOf '8' line = true ∧ isOpen = false ∧
        x = .ofRecord line.2 .batchControl .controlWithoutBatch := by
  rw [outOfPlace]
  rcases classify_cases line with ⟨h, -⟩ | ⟨h, -⟩ | ⟨h, -⟩ | ⟨h5, h6, h8, -⟩
  · cases isOpen <;> simp [isOf_eq_beq h]
  · cases isOpen <;> simp [isOf_eq_beq h]
  · cases isOpen <;> simp [isOf_eq_beq h]
  · simp [h5, h6, h8]

/-! ### Whole texts -/

section
variable {bytes : Bytes}

theorem mem_faultsOf_iff {x : Fault} (hx : x.cause.isOutOfPlace = true) :
    x ∈ faultsOf bytes ↔
      (∃ p ∈ standing false (numberedLines bytes), x ∈ outOfPlace p.2 p.1) ∨
        (numberedLines bytes).foldl opens false = true ∧
          x = .ofRecord (lastLine (linesOf bytes)) .batchControl .batchLeftOpenAtEnd := by
  have hrun : ∀ n, x ∈ (Reading.run {} n (linesOf bytes)).faults ↔ _ :=
    fun n => Reading.mem_faults_run_iff {} n (rawLines (Utf8.decodeLossy bytes)) hx
  have hopen := Reading.isSome_openBatch_run {} 1 (rawLines (Utf8.decodeLossy bytes))
  rw [faultsOf, readLines, Reading.mem_faults_finish_iff _ _ hx, hrun, linesOf, hopen]
  simp [numberedLines]

theorem nodup_numbers : ((numberedLines bytes).map Prod.snd).Nodup := by
  rw [numberedLines, List.zipIdx_map_snd]
  exact List.nodup_range'

/-- A line is known from its number. -/
theorem eq_of_number_eq {r s : NumberedLine} (hr : r ∈ numberedLines bytes)
    (hs : s ∈ numberedLines bytes) (h : r.2 = s.2) : r = s := by
  exact List.inj_on_of_nodup_map nodup_numbers hr hs h

/-- Before a line, a batch is open or not. -/
theorem mem_standing_false_iff {r : NumberedLine} (hr : r ∈ numberedLines bytes) :
    (r, false) ∈ standing false (numberedLines bytes) ↔
      (r, true) ∉ standing false (numberedLines bytes) := by
  -- every line stands there once, because its number does
  have hmap := map_fst_standing false (numberedLines bytes)
  have hnodup : ((standing false (numberedLines bytes)).map Prod.fst).Nodup := by
    rw [hmap]
    exact List.Nodup.of_map Prod.snd nodup_numbers
  constructor
  · intro hfalse htrue
    cases List.inj_on_of_nodup_map hnodup hfalse htrue rfl
  · intro htrue
    rw [← hmap] at hr
    obtain ⟨⟨r, isOpen⟩, hp, rfl⟩ := List.mem_map.mp hr
    cases isOpen with
    | false => exact hp
    | true => exact absurd hp htrue

/-- A report with the number of a line is the report of that line. -/
theorem exists_standing_iff {r : NumberedLine} (hr : r ∈ numberedLines bytes)
    {test : NumberedLine → Bool} {isOpen : Bool} :
    (∃ p ∈ standing false (numberedLines bytes), test p.1 = true ∧ p.2 = isOpen ∧ r.2 = p.1.2) ↔
      test r = true ∧ (r, isOpen) ∈ standing false (numberedLines bytes) := by
  constructor
  · rintro ⟨⟨s, _⟩, hp, htest, rfl, hnumber⟩
    have hs : s ∈ numberedLines bytes := by
      rw [← map_fst_standing false (numberedLines bytes)]
      exact List.mem_map_of_mem hp
    obtain rfl := eq_of_number_eq hr hs hnumber
    exact ⟨htest, hp⟩
  · rintro ⟨htest, hp⟩
    exact ⟨_, hp, htest, rfl, rfl⟩

section
variable {r : NumberedLine} (hr : r ∈ numberedLines bytes)
include hr

theorem entryOutsideBatch_mem_iff :
    .ofRecord r.2 .entryDetail .entryOutsideBatch ∈ faultsOf bytes ↔
      isOf '6' r = true ∧ (r, false) ∈ standing false (numberedLines bytes) := by
  rw [mem_faultsOf_iff rfl, ← exists_standing_iff hr]
  simp [mem_outOfPlace_iff, Fault.ofRecord]

theorem controlWithoutBatch_mem_iff :
    .ofRecord r.2 .batchControl .controlWithoutBatch ∈ faultsOf bytes ↔
      isOf '8' r = true ∧ (r, false) ∈ standing false (numberedLines bytes) := by
  rw [mem_faultsOf_iff rfl, ← exists_standing_iff hr]
  simp [mem_outOfPlace_iff, Fault.ofRecord]

theorem batchLeftOpen_mem_iff :
    .ofRecord r.2 .batchControl .batchLeftOpen ∈ faultsOf bytes ↔
      isOf '5' r = true ∧ (r, true) ∈ standing false (numberedLines bytes) := by
  rw [mem_faultsOf_iff rfl, ← exists_standing_iff hr]
  simp [mem_outOfPlace_iff, Fault.ofRecord]

/-- An entry is reported just when it belongs to no batch. -/
theorem entryOutsideBatch_mem_iff_forall_notMem (h : isOf '6' r = true) :
    .ofRecord r.2 .entryDetail .entryOutsideBatch ∈ faultsOf bytes ↔
      ∀ s ∈ spans (numberedLines bytes), r ∉ s.entries := by
  have hspans := exists_mem_entries_iff (numberedLines bytes) r
  rw [h, eq_self, true_and] at hspans
  rw [entryOutsideBatch_mem_iff hr, mem_standing_false_iff hr, ← hspans, h, eq_self, true_and,
    not_exists]
  simp only [not_and]

/-- A batch control is reported just when it ends no batch. -/
theorem controlWithoutBatch_mem_iff_forall_ne (h : isOf '8' r = true) :
    .ofRecord r.2 .batchControl .controlWithoutBatch ∈ faultsOf bytes ↔
      ∀ s ∈ spans (numberedLines bytes), s.ending ≠ some r := by
  have hspans := exists_ending_eq_iff (numberedLines bytes) r
  rw [endsBatch, h, Bool.or_true, eq_self, true_and] at hspans
  rw [controlWithoutBatch_mem_iff hr, mem_standing_false_iff hr, ← hspans, h, eq_self, true_and,
    not_exists]
  simp only [not_and, ne_eq]

end

theorem batchLeftOpenAtEnd_mem_iff :
    .ofRecord (lastLine (linesOf bytes)) .batchControl .batchLeftOpenAtEnd ∈ faultsOf bytes ↔
      (numberedLines bytes).foldl opens false = true := by
  rw [mem_faultsOf_iff rfl]
  simp [mem_outOfPlace_iff, Fault.ofRecord]

/-- A batch is reported just when it does not end with a batch control. -/
theorem missingControl_mem_iff {s : BatchSpan} (hs : s ∈ spans (numberedLines bytes)) :
    s.missingControl (lastLine (linesOf bytes)) ∈ faultsOf bytes ↔ s.control? = none := by
  rw [BatchSpan.control?]
  cases hending : s.ending with
  | none =>
    rw [BatchSpan.missingControl, hending]
    refine iff_of_true (batchLeftOpenAtEnd_mem_iff.mpr ?_) rfl
    exact (exists_ending_eq_none_iff false _).mp (Or.inr ⟨s, hs, hending⟩)
  | some r =>
    obtain ⟨hends, hopen⟩ := (exists_ending_eq_iff _ r).mp ⟨s, hs, hending⟩
    have hr : r ∈ numberedLines bytes := by
      rw [← map_fst_standing false (numberedLines bytes)]
      exact List.mem_map_of_mem hopen
    rw [BatchSpan.missingControl, hending]
    -- what ends a batch and is no batch control is a batch header
    rcases Bool.or_eq_true_iff.mp hends with h | h
    · exact iff_of_true ((batchLeftOpen_mem_iff hr).mpr ⟨h, hopen⟩) (by simp [isOf_eq_beq h])
    · refine iff_of_false (fun hmem => ?_) (by simp [h])
      have h5 := ((batchLeftOpen_mem_iff hr).mp hmem).1
      rw [isOf_eq_beq h] at h5
      cases h5

end

theorem map_classify_numberedLines (bytes : Bytes) :
    (numberedLines bytes).map (classify ·.1) = linesOf bytes := by
  rw [linesOf, numberedLines, ← List.zipIdx_map_fst 1 (rawLines _), List.map_map,
    List.zipIdx_map_fst]
  rfl

/-- **The batches that are recovered are those of the spans**, the addenda of their entries
apart. -/
theorem batches_recover (bytes : Bytes) :
    (recover bytes).batches.map Batch.withoutAddenda =
      (spans (numberedLines bytes)).map BatchSpan.batch := by
  have houtline := Ledger.outline_foldl {} (numberedLines bytes)
  rw [map_classify_numberedLines] at houtline
  calc (recover bytes).batches.map Batch.withoutAddenda
    _ = (recovered (linesOf bytes)).batches.map Batch.withoutAddenda := by
        rw [recover, file_readLines]
    _ = ((linesOf bytes).foldl Ledger.step {}).outline := by
        rw [recovered, Ledger.outline, List.map_append, Option.toList_map]
    _ = (spans (numberedLines bytes)).map BatchSpan.batch := houtline

/-- What the batch records of a text become: they are all kept or reported. -/
structure Conserves (bytes : Bytes) (f : File) (faults : List Fault) : Prop where
  /-- There is one span for each batch header, in order. -/
  headers : (spans (numberedLines bytes)).map BatchSpan.header =
    (numberedLines bytes).filter (isOf '5')
  /-- The batches of the file are those of the spans. -/
  batches : f.batches.map Batch.withoutAddenda = (spans (numberedLines bytes)).map BatchSpan.batch
  /-- An entry is reported just when it belongs to no batch. -/
  entries : ∀ r ∈ numberedLines bytes, isOf '6' r = true →
    (.ofRecord r.2 .entryDetail .entryOutsideBatch ∈ faults ↔
      ∀ s ∈ spans (numberedLines bytes), r ∉ s.entries)
  /-- A batch control is reported just when it ends no batch. -/
  controls : ∀ r ∈ numberedLines bytes, isOf '8' r = true →
    (.ofRecord r.2 .batchControl .controlWithoutBatch ∈ faults ↔
      ∀ s ∈ spans (numberedLines bytes), s.ending ≠ some r)
  /-- A batch is reported just when it does not end with a batch control. -/
  missingControls : ∀ s ∈ spans (numberedLines bytes),
    (s.missingControl (lastLine (linesOf bytes)) ∈ faults ↔ s.control? = none)

/-- **Batches and entries are conserved**, whatever the bytes are and whatever is wrong with
them. -/
theorem batches_conserved (bytes : Bytes) :
    ReadsAs bytes (recover bytes) (faultsOf bytes) ∧
      Conserves bytes (recover bytes) (faultsOf bytes) where
  left := readsAs_recover bytes
  right :=
    { headers := map_header_spans (numberedLines bytes)
      batches := batches_recover bytes
      entries := fun _ hr h => entryOutsideBatch_mem_iff_forall_notMem hr h
      controls := fun _ hr h => controlWithoutBatch_mem_iff_forall_ne hr h
      missingControls := fun _ hs => missingControl_mem_iff hs }

/-- Three batch headers, with an entry before the first and a batch control behind the second. -/
def strayLines : List (List Char) :=
  let header := lineOf sampleBatchHeader.cells
  let entry := lineOf sampleEntry.cells
  let control := lineOf ({ header := sampleBatchHeader } : Batch).expectedControl.cells
  [entry, header, entry, header, control, control, header, entry]

/-- The entry of line 1 and the batch control of line 6 are reported, and so are the batches of the
lines 2 and 7. -/
example :
    (faultsOf (Utf8.encode (textOf strayLines))).filter (·.cause.isOutOfPlace) =
      [.ofRecord 1 .entryDetail .entryOutsideBatch, .ofRecord 4 .batchControl .batchLeftOpen,
        .ofRecord 6 .batchControl .controlWithoutBatch,
        .ofRecord 8 .batchControl .batchLeftOpenAtEnd] := by
  decide +kernel

end AchCourier.Ach
