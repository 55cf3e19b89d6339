import AchCourier.Proofs.Ach.TextLines
import AchCourier.Proofs.Ach.WrittenRecords

/-!
# The physical form of a file

The records of a file come on lines that end with a line feed, with or without a carriage return
before it, or one behind the other with nothing between them.  A text of the last kind is cut every
94 characters and the others at their line feeds, and both ways give the records back, so reading
ends with the same file and the same faults, on the same lines.

A blank line or a line of nines between the records says nothing.  It moves the records behind it to
other line numbers, and the numbers in the faults are all that tells.

## Main definitions

* `PhysicalForm` — the ways to put lines into a text.
* `IsPlain` — the lines that every form keeps.
* `IsFiller`, `Fills` — blank lines and lines of nines, and lines with some of them added.
* `Fault.unnumbered`, `Reading.unnumbered` — what is left of faults without line numbers.

## Main results

* `rawLines_text` — every form of plain lines is cut into those lines.
* `Reading.unnumbered_step` — but for line numbers, a line adds the same wherever it stands.
* `unnumbered_readLines` — **but for line numbers, fillers add nothing.**
* `read_eq_of_form` — the physical form of a file does not matter.
-/

namespace AchCourier.Ach

/-! ### Forms -/

/-- What stands between two lines. -/
inductive LineBreak where
  /-- A line feed. -/
  | feed
  /-- A carriage return and a line feed. -/
  | returnFeed
  deriving DecidableEq, Repr

/-- The carriage returns of a line break. -/
def LineBreak.returns : LineBreak → List Char
  | .feed => []
  | .returnFeed => ['\r']

/-- The characters of a line break. -/
def LineBreak.chars (mark : LineBreak) : List Char :=
  mark.returns ++ ['\n']

/-- A way to put lines into a text. -/
inductive PhysicalForm where
  /-- One line behind the other. -/
  | unbroken
  /-- A line break between two lines and, in a terminated text, behind the last one. -/
  | broken (mark : LineBreak) (terminated : Bool)
  deriving DecidableEq, Repr

/-- The text of the lines in this form. -/
def PhysicalForm.text : PhysicalForm → List (List Char) → List Char
  | .unbroken, lines => lines.flatten
  | .broken mark terminated, lines =>
      mark.chars.intercalate lines ++ if terminated then mark.chars else []

/-- The line is as long as a record, and its characters belong to ASCII and break no line. -/
structure IsPlain (line : List Char) : Prop where
  length_eq : line.length = recordLength
  chars : ∀ c ∈ line, isLineChar c = true

instance (line : List Char) : Decidable (IsPlain line) :=
  decidable_of_iff (line.length = recordLength ∧ line.all isLineChar = true)
    ⟨fun ⟨hlength, hchars⟩ => ⟨hlength, List.all_eq_true.mp hchars⟩,
      fun h => ⟨h.length_eq, List.all_eq_true.mpr h.chars⟩⟩

theorem IsPlain.isLine {line : List Char} (h : IsPlain line) : IsLine line :=
  isLine_of_all_isLineChar (List.all_eq_true.mpr h.chars)

/-! ### Lines between line breaks -/

theorem dropEndWhile_append_returns (line : List Char) (mark : LineBreak) :
    Text.dropEndWhile (· == '\r') (line ++ mark.returns) = Text.dropEndWhile (· == '\r') line :=
  Text.dropEndWhile_append_of_pos (by cases mark <;> simp [LineBreak.returns]) line

theorem LineBreak.feed_notMem_append_returns {line : List Char} (h : '\n' ∉ line)
    (mark : LineBreak) : '\n' ∉ line ++ mark.returns := by
  cases mark <;> simpa [LineBreak.returns] using h

section
variable (mark : LineBreak) (terminated : Bool) {lines : List (List Char)} (hne : lines ≠ [])
include hne

/-- The line feeds of a broken text are those of its line breaks. -/
theorem map_splitLines_text (hfeed : ∀ line ∈ lines, '\n' ∉ line) :
    (splitLines ((PhysicalForm.broken mark terminated).text lines)).map
        (Text.dropEndWhile (· == '\r')) =
      lines.map (Text.dropEndWhile (· == '\r')) ++ if terminated then [[]] else [] := by
  -- by induction on the lines; behind the last one stands a line break, or nothing
  induction lines with
  | nil => exact absurd rfl hne
  | cons line lines ih =>
    obtain ⟨hline, hlines⟩ := List.forall_mem_cons.mp hfeed
    have hbreak := mark.feed_notMem_append_returns hline
    cases lines with
    | nil =>
      cases terminated with
      | false => simp [PhysicalForm.text, splitLines, List.splitOn_eq_singleton hline]
      | true =>
        have htext : (PhysicalForm.broken mark true).text [line] =
            (line ++ mark.returns) ++ '\n' :: [] := by
          simp [PhysicalForm.text, LineBreak.chars]
        rw [htext, splitLines, List.splitOn_append_cons_self_of_not_mem hbreak, List.map_cons,
          dropEndWhile_append_returns]
        rfl
    | cons next lines =>
      have htext : (PhysicalForm.broken mark terminated).text (line :: next :: lines) =
          (line ++ mark.returns) ++
            '\n' :: (PhysicalForm.broken mark terminated).text (next :: lines) := by
        simp [PhysicalForm.text, LineBreak.chars, List.intercalate_cons_cons]
      have hrest := ih (List.cons_ne_nil _ _) hlines
      rw [splitLines] at hrest
      rw [htext, splitLines, List.splitOn_append_cons_self_of_not_mem hbreak, List.map_cons,
        dropEndWhile_append_returns, hrest]
      rfl

/-- A text with a line break is broken, and so is a line that is no longer than a record. -/
theorem isUnbroken_text_broken (hone : ∀ line, lines = [line] → line.length ≤ recordLength) :
    isUnbroken ((PhysicalForm.broken mark terminated).text lines) = false := by
  match lines, hne, hone with
  | [line], _, hone =>
    cases terminated with
    | false =>
      -- without a line feed the text is too short to be cut into slices
      have hshort : ¬ recordLength < line.length := Nat.not_lt.mpr (hone line rfl)
      simp [isUnbroken, PhysicalForm.text, hshort]
    | true => simp [isUnbroken, PhysicalForm.text, LineBreak.chars]
  | line :: next :: lines, _, _ =>
    simp [isUnbroken, PhysicalForm.text, LineBreak.chars, List.intercalate_cons_cons]

theorem rawLines_text_broken (hfeed : ∀ line ∈ lines, '\n' ∉ line)
    (hone : ∀ line, lines = [line] → line.length ≤ recordLength) :
    rawLines ((PhysicalForm.broken mark terminated).text lines) =
      lines.map (Text.dropEndWhile (· == '\r')) ++ if terminated then [[]] else [] := by
  rw [rawLines, isUnbroken_text_broken mark terminated hne hone, if_neg Bool.false_ne_true,
    map_splitLines_text mark terminated hne hfeed]

end

/-! ### Lines one behind the other -/

section
variable {lines : List (List Char)} (hne : lines ≠ []) (h : ∀ line ∈ lines, IsPlain line)
include hne h

/-- Several lines are cut apart after 94 characters each, and one line is left whole. -/
theorem rawLines_flatten : rawLines lines.flatten = lines := by
  have hlength : ∀ line ∈ lines, line.length = recordLength := fun line hline =>
    (h line hline).length_eq
  have hflatten := length_flatten_of_uniform hlength
  have hmem : ∀ c ∈ lines.flatten, ∃ line, IsLine line ∧ c ∈ line := by
    intro c hc
    obtain ⟨line, hline, hc⟩ := List.mem_flatten.mp hc
    exact ⟨line, (h line hline).isLine, hc⟩
  by_cases hone : 1 < lines.length
  · refine rawLines_eq_iff.mpr (.slices ⟨fun hc => ?_, ?_, ?_, fun c hc => ?_⟩ hlength rfl)
    · obtain ⟨line, hline, hc⟩ := hmem '\n' hc
      exact hline.feed_notMem hc
    · rw [hflatten, recordLength]
      omega
    · exact hflatten ▸ Nat.dvd_mul_left _ _
    · obtain ⟨line, hline, hc⟩ := hmem c hc
      exact hline.isAscii_of_mem hc
  · -- one line alone is too short for that, and is kept as it is
    have hpos : 0 < lines.length := List.length_pos_iff.mpr hne
    obtain ⟨line, rfl⟩ := List.length_eq_one_iff.mp (show lines.length = 1 by omega)
    have hline := (h line (List.mem_singleton.mpr rfl)).isLine
    have hcut : CutInto [line].flatten ([line].map (List.rdropWhile (· == '\r'))) :=
      .feeds (fun hpiece => absurd hpiece.long (by simp [hlength])) hne
        (List.forall_mem_singleton.mpr hline.feed_notMem) (by simp)
    rw [rawLines_eq_iff.mpr hcut, List.map_singleton]
    exact congrArg ([·]) hline.dropEndWhile_eq_self

/-- **Every form of plain lines is cut into those lines**, and a terminated text has an empty line
behind them. -/
theorem rawLines_text (form : PhysicalForm) :
    rawLines (form.text lines) = lines ∨ rawLines (form.text lines) = lines ++ [[]] := by
  cases form with
  | unbroken => exact Or.inl (rawLines_flatten hne h)
  | broken mark terminated =>
    have hself : lines.map (Text.dropEndWhile (· == '\r')) = lines := by
      rw [List.map_congr_left fun line hline => (h line hline).isLine.dropEndWhile_eq_self,
        List.map_id']
    rw [rawLines_text_broken mark terminated hne
      (fun line hline => (h line hline).isLine.feed_notMem) fun line heq => ?_, hself]
    · cases terminated with
      | false => exact Or.inl (List.append_nil lines)
      | true => exact Or.inr rfl
    · exact (h line (by simp [heq])).length_eq.le

end

/-! ### Readings without line numbers -/

/-- The fault without the number of its line. -/
def Fault.unnumbered (x : Fault) : Fault :=
  { x with line := 0 }

/-- The error without line numbers. -/
def ReadError.unnumbered (e : ReadError) : ReadError :=
  { e with faults := e.faults.map Fault.unnumbered }

/-- The line says nothing: it is blank, or it fills up a block. -/
def Line.isFiller : Line → Bool
  | .blank => true
  | .padding => true
  | _ => false

@[simp] theorem map_unnumbered_faultsAt (n : Nat) (record : RecordKind)
    (complaints : List Complaint) :
    (faultsAt n record complaints).map Fault.unnumbered = faultsAt 0 record complaints := by
  simp [faultsAt, Fault.unnumbered]

@[simp] theorem Fault.unnumbered_ofRecord (n : Nat) (record : RecordKind) (cause : Cause) :
    (Fault.ofRecord n record cause).unnumbered = .ofRecord 0 record cause := rfl

@[simp] theorem Fault.unnumbered_unnumbered (x : Fault) : x.unnumbered.unnumbered = x.unnumbered :=
  rfl

namespace Reading

/-- The reading with faults without line numbers. -/
def unnumbered (r : Reading) : Reading :=
  { r with faults := r.faults.map Fault.unnumbered }

theorem unnumbered_note (r : Reading) (faults : List Fault) :
    (r.note faults).unnumbered = r.unnumbered.note (faults.map Fault.unnumbered) := by
  simp [unnumbered, note]

/-- **But for line numbers, a line adds the same wherever it stands.** -/
theorem unnumbered_step (r : Reading) (n : Nat) (l : Line) :
    (r.step n l).unnumbered = r.unnumbered.step 0 l := by
  -- the number goes into the faults only, and is dropped from them
  cases l with
  | blank => rfl
  | padding => rfl
  | misshapen length => exact r.unnumbered_note _
  | unknown type => exact r.unnumbered_note _
  | fileHeader line =>
    cases h : r.seenHeader <;> simp [step, fileHeader, note, unnumbered, h]
  | batchHeader line =>
    cases h : r.openBatch <;> simp [step, batchHeader, note, close, unnumbered, h]
  | entry line =>
    cases h : r.openBatch <;> simp [step, entry, note, unnumbered, h]
  | addenda line =>
    cases ha : Addenda.ofLine? line with
    | none => simp [step, addenda, note, unnumbered, ha]
    | some a =>
      cases hb : r.openBatch with
      | none => simp [step, addenda, note, unnumbered, ha, hb]
      | some b =>
        cases he : b.entries.getLast? with
        | none => simp [step, addenda, note, unnumbered, ha, hb, he]
        | some e =>
          by_cases hi : e.addendaRecordIndicator = 1 <;>
            simp [step, addenda, note, unnumbered, ha, hb, he, hi, Fault.unnumbered]
  | batchControl line =>
    cases h : r.openBatch <;> simp [step, batchControl, note, close, unnumbered, h]
  | fileControl line =>
    cases h : r.seenControl <;> simp [step, fileControl, note, unnumbered, h]

/-- But for line numbers, a run is that of the lines that say something. -/
theorem unnumbered_run (r : Reading) (n : Nat) (lines : List Line) :
    (r.run n lines).unnumbered =
      (lines.filter (!·.isFiller)).foldl (fun r l => r.step 0 l) r.unnumbered := by
  induction lines generalizing r n with
  | nil => rfl
  | cons l lines ih =>
    rw [run, ih, unnumbered_step, List.filter_cons]
    split
    · rfl
    · next hfiller =>
      -- a filler changes nothing that a reading keeps
      have hstep : r.unnumbered.step 0 l = r.unnumbered := by
        cases l <;> first | rfl | exact absurd rfl hfiller
      rw [hstep]

theorem unnumbered_finish (r : Reading) (last : Nat) :
    (r.finish last).unnumbered = (r.unnumbered.finish 0).unnumbered := by
  cases hb : r.openBatch <;> cases hh : r.seenHeader <;> cases hc : r.seenControl <;>
    simp [finish, note, close, unnumbered, hb, hh, hc]

end Reading

/-- **But for line numbers, fillers add nothing.** -/
theorem unnumbered_readLines {lines lines' : List Line}
    (h : lines.filter (!·.isFiller) = lines'.filter (!·.isFiller)) :
    (readLines lines).unnumbered = (readLines lines').unnumbered := by
  rw [readLines, readLines, Reading.unnumbered_finish, Reading.unnumbered_run, h,
    ← Reading.unnumbered_run, ← Reading.unnumbered_finish]

/-- What reading returns, but for line numbers, is known from the reading without them. -/
theorem mapError_read_congr {bytes bytes' : Bytes}
    (h : (readLines (linesOf bytes)).unnumbered = (readLines (linesOf bytes')).unnumbered) :
    (read bytes).mapError ReadError.unnumbered = (read bytes').mapError ReadError.unnumbered := by
  have hread : ∀ bytes, (read bytes).mapError ReadError.unnumbered =
      let r := (readLines (linesOf bytes)).unnumbered
      if r.faults.isEmpty then .ok r.file else .error ⟨r.file, r.faults⟩ := by
    intro bytes
    rw [read]
    generalize readLines (linesOf bytes) = r
    obtain ⟨file, _, _, _, faults⟩ := r
    cases faults <;> rfl
  rw [hread, hread, h]

/-- A blank line at the end says nothing, and no line number depends on it. -/
theorem readLines_append_blank (lines : List Line) :
    readLines (lines ++ [.blank]) = readLines lines := by
  have hrun : ∀ (r : Reading) (n : Nat), r.run n (lines ++ [.blank]) = r.run n lines := by
    induction lines with
    | nil => intro r n; rfl
    | cons l lines ih => intro r n; exact ih (r.step n l) (n + 1)
  have hlast : Text.dropEndWhile (· == .blank) (lines ++ [.blank]) =
      Text.dropEndWhile (· == .blank) lines :=
    Text.dropEndWhile_append_of_pos (List.forall_mem_singleton.mpr rfl) lines
  rw [readLines, readLines, lastLine, lastLine, hrun, hlast]

/-! ### Lines that say nothing -/

/-- The line is blank, or it is all nines. -/
def IsFiller (line : List Char) : Prop :=
  '\n' ∉ line ∧ line.all Text.isBlank = true ∨ line = paddingLine

/-- `filled` has the given lines, and any fillers between them. -/
inductive Fills : List (List Char) → List (List Char) → Prop
  /-- Nothing is added. -/
  | nil : Fills [] []
  /-- A line stays. -/
  | keep {lines filled : List (List Char)} (line : List Char) :
      Fills lines filled → Fills (line :: lines) (line :: filled)
  /-- A filler is added. -/
  | insert {lines filled : List (List Char)} {line : List Char} :
      IsFiller line → Fills lines filled → Fills lines (line :: filled)

theorem Fills.refl (lines : List (List Char)) : Fills lines lines := by
  induction lines with
  | nil => exact .nil
  | cons line lines ih => exact .keep line ih

theorem isPlain_paddingLine : IsPlain paddingLine := by decide

namespace IsFiller

variable {line : List Char} (h : IsFiller line)
include h

theorem feed_notMem : '\n' ∉ line := by
  rcases h with ⟨hfeed, -⟩ | rfl
  · exact hfeed
  · exact isPlain_paddingLine.isLine.feed_notMem

/-- Of a filler, the carriage returns at its end make no difference. -/
theorem isFiller_classify : (classify (Text.dropEndWhile (· == '\r') line)).isFiller = true := by
  rcases h with ⟨-, hblank⟩ | rfl
  · have hrest : (Text.dropEndWhile (· == '\r') line).all Text.isBlank = true := by
      rw [Text.dropEndWhile_eq_rdropWhile]
      rw [List.all_eq_true] at hblank ⊢
      exact fun c hc => hblank c ((List.rdropWhile_prefix _ line).subset hc)
    rw [classify_eq_blank_iff.mpr hrest]
    rfl
  · rw [isPlain_paddingLine.isLine.dropEndWhile_eq_self]
    rfl

end IsFiller

section
variable {lines filled : List (List Char)} (h : ∀ line ∈ lines, IsPlain line)
  (hfills : Fills lines filled)
include h hfills

theorem Fills.feed_notMem : ∀ line ∈ filled, '\n' ∉ line := by
  induction hfills with
  | nil => exact List.forall_mem_nil _
  | keep line _ ih =>
    obtain ⟨hline, hlines⟩ := List.forall_mem_cons.mp h
    exact List.forall_mem_cons.mpr ⟨hline.isLine.feed_notMem, ih hlines⟩
  | insert hfiller _ ih => exact List.forall_mem_cons.mpr ⟨hfiller.feed_notMem, ih h⟩

/-- Only fillers are added. -/
theorem Fills.filter_classify :
    ((filled.map (Text.dropEndWhile (· == '\r'))).map classify).filter (!·.isFiller) =
      (lines.map classify).filter (!·.isFiller) := by
  induction hfills with
  | nil => rfl
  | keep line _ ih =>
    obtain ⟨hline, hlines⟩ := List.forall_mem_cons.mp h
    rw [List.map_cons, List.map_cons, List.map_cons, hline.isLine.dropEndWhile_eq_self,
      List.filter_cons, List.filter_cons, ih hlines]
  | insert hfiller _ ih =>
    -- what was inserted is filtered out again
    rw [List.map_cons, List.map_cons, List.filter_cons_of_neg (by simp [hfiller.isFiller_classify]),
      ih h]

/-- A single line is no longer than a record: it is one of the lines. -/
theorem Fills.length_le_of_eq_singleton (hne : lines ≠ []) :
    ∀ line, filled = [line] → line.length ≤ recordLength := by
  rintro line rfl
  cases hfills with
  | keep _ hnil =>
    cases hnil
    exact (h line List.mem_cons_self).length_eq.le
  | insert _ hnil =>
    cases hnil
    exact absurd rfl hne

end

/-! ### Texts of plain lines -/

section
variable {lines : List (List Char)} (hne : lines ≠ []) (h : ∀ line ∈ lines, IsPlain line)
include hne h

/-- Reading goes by the lines and not by the form of their text. -/
theorem readLines_linesOf_text (form : PhysicalForm) :
    readLines (linesOf (Utf8.encode (form.text lines))) = readLines (lines.map classify) := by
  rw [linesOf, Utf8.decodeLossy_encode]
  rcases rawLines_text hne h form with hraw | hraw
  · rw [hraw]
  · rw [hraw, List.map_append]
    exact readLines_append_blank _

theorem unnumbered_readLines_linesOf_text {filled : List (List Char)} (hfills : Fills lines filled)
    (mark : LineBreak) (terminated : Bool) :
    (readLines (linesOf
        (Utf8.encode ((PhysicalForm.broken mark terminated).text filled)))).unnumbered =
      (readLines (lines.map classify)).unnumbered := by
  have hfilled : filled ≠ [] := by
    rintro rfl
    cases hfills
    exact hne rfl
  have hfilter : ∀ tail : List Line, tail.filter (!·.isFiller) = [] →
      (((filled.map (Text.dropEndWhile (· == '\r'))).map classify) ++ tail).filter
        (!·.isFiller) = (lines.map classify).filter (!·.isFiller) := fun tail htail => by
    rw [List.filter_append, hfills.filter_classify h, htail, List.append_nil]
  apply unnumbered_readLines
  rw [linesOf, Utf8.decodeLossy_encode, rawLines_text_broken mark terminated hfilled
    (hfills.feed_notMem h) (hfills.length_le_of_eq_singleton h hne), List.map_append, hfilter]
  -- a line feed at the end leaves an empty line behind it, which is a filler
  cases terminated <;> rfl

end

/-- **The physical form of a file does not matter.**  Reading ends with the same file and the same
faults on the same lines, whether the lines are broken by line feeds, by carriage returns and line
feeds or not at all; and blank lines and lines of nines between broken lines change line numbers
and nothing else. -/
theorem read_eq_of_form {lines : List (List Char)} (hne : lines ≠ [])
    (h : ∀ line ∈ lines, IsPlain line) :
    (∀ form form' : PhysicalForm,
        read (Utf8.encode (form.text lines)) = read (Utf8.encode (form'.text lines))) ∧
      ∀ (mark : LineBreak) (terminated : Bool) (filled : List (List Char)), Fills lines filled →
        (read (Utf8.encode ((PhysicalForm.broken mark terminated).text filled))).mapError
            ReadError.unnumbered =
          (read (Utf8.encode ((PhysicalForm.broken mark terminated).text lines))).mapError
            ReadError.unnumbered := by
  constructor
  · intro form form'
    rw [read, read, readLines_linesOf_text hne h form, readLines_linesOf_text hne h form']
  · intro mark terminated filled hfills
    refine mapError_read_congr ?_
    rw [unnumbered_readLines_linesOf_text hne h hfills, readLines_linesOf_text hne h]

/-- A file header, and an entry that stands in no batch. -/
def strayEntry : List (List Char) :=
  [lineOf sampleFileHeader.cells, lineOf sampleEntry.cells]

/-- The same with a blank line and a line of nines before the entry. -/
def strayEntryFilled : List (List Char) :=
  [lineOf sampleFileHeader.cells, [' ', '\r'], paddingLine, lineOf sampleEntry.cells]

theorem read_eq_of_form_strayEntry :
    (strayEntry ≠ [] ∧ (∀ line ∈ strayEntry, IsPlain line) ∧ Fills strayEntry strayEntryFilled) ∧
      read (Utf8.encode (PhysicalForm.unbroken.text strayEntry)) =
          read (Utf8.encode ((PhysicalForm.broken .returnFeed true).text strayEntry)) ∧
        (read (Utf8.encode ((PhysicalForm.broken .feed false).text strayEntryFilled))).mapError
            ReadError.unnumbered =
          (read (Utf8.encode ((PhysicalForm.broken .feed false).text strayEntry))).mapError
            ReadError.unnumbered := by
  have hne : strayEntry ≠ [] := List.cons_ne_nil _ _
  have hplain : ∀ line ∈ strayEntry, IsPlain line := by decide +kernel
  have hblank : IsFiller [' ', '\r'] := Or.inl (by decide)
  have hfills : Fills strayEntry strayEntryFilled :=
    .keep _ (.insert hblank (.insert (Or.inr rfl) (Fills.refl _)))
  obtain ⟨hforms, hfilled⟩ := read_eq_of_form hne hplain
  exact ⟨⟨hne, hplain, hfills⟩, hforms _ _, hfilled _ _ _ hfills⟩

end AchCourier.Ach
