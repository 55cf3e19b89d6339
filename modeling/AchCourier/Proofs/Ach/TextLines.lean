import AchCourier.Proofs.Ach.Columns
import AchCourier.Proofs.Ach.RecordTypes
import AchCourier.Proofs.Text.Utf8

/-!
# The lines of a text

A text is cut into its lines in one of two ways, and which of them it is can be told from the text
alone.  Lines that are written one after another, each with a line feed behind it, are read back as
they were.

## Main definitions

* `InOnePiece` — the text is several records one behind the other.
* `CutInto` — the lines of a text, whichever way it is cut.
* `IsLine` — the line survives the text that it stands in.

## Main results

* `rawLines_eq_iff` — **the lines of a text are those that it is cut into.**
* `rawLines_textOf` — lines survive the text that they make up.
* `isLine_lineOf` — lines of legible cells are such lines.
* `recordsOf_textOf` — **lines that are not blank are the records of their text.**
-/

namespace AchCourier.Ach

/-! ### Cutting a text -/

/-- The text is several whole records one behind the other: ASCII characters, none of them a line
feed, and more than 94 of them in number, which is a multiple of 94. -/
structure InOnePiece (text : List Char) : Prop where
  feedFree : '\n' ∉ text
  long : recordLength < text.length
  whole : recordLength ∣ text.length
  ascii : ∀ c ∈ text, isAscii c = true

theorem isUnbroken_iff {text : List Char} : isUnbroken text = true ↔ InOnePiece text := by
  simp only [isUnbroken, Bool.and_eq_true, Bool.not_eq_true', List.contains_eq_mem,
    decide_eq_false_iff_not, decide_eq_true_eq, beq_iff_eq, List.all_eq_true,
    ← Nat.dvd_iff_mod_eq_zero]
  exact ⟨fun ⟨⟨⟨hfeed, hlong⟩, hwhole⟩, hascii⟩ => ⟨hfeed, hlong, hwhole, hascii⟩,
    fun h => ⟨⟨⟨h.feedFree, h.long⟩, h.whole⟩, h.ascii⟩⟩

/-- The lines that a text is cut into. -/
inductive CutInto (text : List Char) : List (List Char) → Prop where
  /-- A text in one piece is cut every 94 characters. -/
  | slices {lines : List (List Char)} : InOnePiece text →
      (∀ line ∈ lines, line.length = recordLength) → lines.flatten = text → CutInto text lines
  /-- Any other text is cut at its line feeds, and the carriage returns at the end of a part do not
  belong to the line. -/
  | feeds {parts : List (List Char)} : ¬ InOnePiece text → parts ≠ [] →
      (∀ part ∈ parts, '\n' ∉ part) → ['\n'].intercalate parts = text →
      CutInto text (parts.map (List.rdropWhile (· == '\r')))

section
variable {width : Nat} {lines : List (List Char)} (h : ∀ line ∈ lines, line.length = width)
include h

theorem length_flatten_of_uniform : lines.flatten.length = lines.length * width := by
  induction lines with
  | nil => simp
  | cons line lines ih =>
    obtain ⟨hline, hlines⟩ := List.forall_mem_cons.mp h
    rw [List.flatten_cons, List.length_append, hline, ih hlines, List.length_cons, Nat.succ_mul,
      Nat.add_comm]

theorem slices_flatten : slices width lines.length lines.flatten = lines := by
  induction lines with
  | nil => rfl
  | cons line lines ih =>
    obtain ⟨hline, hlines⟩ := List.forall_mem_cons.mp h
    rw [List.length_cons, List.flatten_cons, slices, List.take_left' hline, List.drop_left' hline,
      ih hlines]

end

/-- Slices that use a text up make it up. -/
theorem flatten_slices {width count : Nat} {text : List Char} (h : text.length = count * width) :
    (slices width count text).flatten = text ∧
      ∀ line ∈ slices width count text, line.length = width := by
  -- by induction on the slices; behind the first one a whole number of them is left
  induction count generalizing text with
  | zero =>
    rw [Nat.zero_mul, List.length_eq_zero_iff] at h
    simp [slices, h]
  | succ count ih =>
    rw [Nat.succ_mul] at h
    have hdrop : (text.drop width).length = count * width := by
      rw [List.length_drop, h]
      omega
    obtain ⟨hrest, hlines⟩ := ih hdrop
    rw [slices, List.flatten_cons, hrest, List.take_append_drop]
    refine ⟨rfl, List.forall_mem_cons.mpr ⟨?_, hlines⟩⟩
    rw [List.length_take, h]
    omega

theorem cutInto_rawLines (text : List Char) : CutInto text (rawLines text) := by
  cases hu : isUnbroken text with
  | true =>
    have hpiece := isUnbroken_iff.mp hu
    obtain ⟨htext, hlines⟩ := flatten_slices (Nat.div_mul_cancel hpiece.whole).symm
    rw [rawLines, hu, if_pos rfl]
    exact .slices hpiece hlines htext
  | false =>
    rw [rawLines, hu, if_neg Bool.false_ne_true]
    refine .feeds (fun hpiece => ?_) (List.splitOn_ne_nil '\n' text)
      (fun part hpart => Text.notMem_of_mem_splitOn hpart) (List.intercalate_splitOn '\n')
    cases hu.symm.trans (isUnbroken_iff.mpr hpiece)

/-- **The lines of a text are those that it is cut into**, and no others. -/
theorem rawLines_eq_iff {text : List Char} {lines : List (List Char)} :
    rawLines text = lines ↔ CutInto text lines := by
  refine ⟨fun h => h ▸ cutInto_rawLines text, fun h => ?_⟩
  cases h with
  | slices hpiece hlines htext =>
    -- the text has as many slices as there are lines
    have hcount : text.length / recordLength = lines.length := by
      rw [← htext, length_flatten_of_uniform hlines, Nat.mul_div_cancel _ (by decide)]
    rw [rawLines, if_pos (isUnbroken_iff.mpr hpiece), hcount, ← htext, slices_flatten hlines]
  | feeds hpiece hne hfeed htext =>
    rw [rawLines, if_neg fun hu => hpiece (isUnbroken_iff.mp hu), splitLines, ← htext,
      List.splitOn_intercalate '\n' hfeed hne]
    rfl

/-! ### Lines -/

/-- The line can stand in a record, and its end is not taken for a part of its line break. -/
structure IsLine (line : List Char) : Prop where
  chars : ∀ c ∈ line, isRecordChar c = true
  ending : ∀ c ∈ line.getLast?, c ≠ '\r'

theorem isLine_of_all_isLineChar {line : List Char} (h : line.all isLineChar = true) :
    IsLine line := by
  refine ⟨fun c hc => isRecordChar_of_isLineChar (List.all_eq_true.mp h c hc), fun c hc => ?_⟩
  have hchar : isLineChar c = true := List.all_eq_true.mp h c (List.mem_of_mem_getLast? hc)
  rw [isLineChar, Bool.and_eq_true, bne_iff_ne] at hchar
  exact hchar.2

theorem isLine_lineOf {cells : List Cell} (hcells : ∀ c ∈ cells, c.Legible) :
    IsLine (lineOf cells) :=
  ⟨isRecordChar_of_mem_lineOf hcells, ne_return_of_mem_getLast?_lineOf hcells⟩

namespace IsLine

variable {line : List Char} (h : IsLine line)
include h

theorem isAscii_of_mem {c : Char} (hc : c ∈ line) : isAscii c = true := by
  have hchar := h.chars c hc
  rw [isRecordChar, Bool.and_eq_true] at hchar
  exact hchar.1

theorem feed_notMem : '\n' ∉ line := fun hc => absurd (h.chars '\n' hc) (by decide)

theorem dropEndWhile_eq_self : Text.dropEndWhile (· == '\r') line = line := by
  rw [Text.dropEndWhile_eq_self_iff]
  exact fun c hc => beq_eq_false_iff_ne.mpr (h.ending c hc)

end IsLine

/-- The text of lines, each of them with a line feed behind it. -/
def textOf (lines : List (List Char)) : List Char :=
  lines.flatMap (· ++ ['\n'])

/-- There is a line feed between two lines, and one behind the last. -/
theorem intercalate_concat_nil (lines : List (List Char)) :
    ['\n'].intercalate (lines ++ [[]]) = textOf lines := by
  induction lines with
  | nil => rfl
  | cons line lines ih =>
    obtain ⟨next, rest, hrest⟩ :=
      List.exists_cons_of_ne_nil (List.append_ne_nil_of_right_ne_nil lines (List.cons_ne_nil [] []))
    rw [List.cons_append, hrest, List.intercalate_cons_cons, ← hrest, ih]
    simp [textOf]

theorem splitLines_textOf {lines : List (List Char)} (h : ∀ line ∈ lines, '\n' ∉ line) :
    splitLines (textOf lines) = lines ++ [[]] := by
  rw [splitLines, ← intercalate_concat_nil]
  exact List.splitOn_intercalate '\n' (List.forall_mem_append.mpr ⟨h, by simp⟩) (by simp)

section
variable {lines : List (List Char)} (h : ∀ line ∈ lines, IsLine line)
include h

/-- **Lines survive the text that they make up**, which ends with a line feed. -/
theorem rawLines_textOf : rawLines (textOf lines) = lines ++ [[]] := by
  -- the text ends in a line feed, so it is no single piece
  have hbroken : isUnbroken (textOf lines) = false := by
    cases lines with
    | nil => rfl
    | cons line lines => simp [isUnbroken, textOf]
  have hreturn : ∀ line ∈ lines ++ [[]], Text.dropEndWhile (· == '\r') line = line := by
    intro line hline
    rcases List.mem_append.mp hline with hline | hline
    · exact (h line hline).dropEndWhile_eq_self
    · rw [List.mem_singleton.mp hline]
      rfl
  rw [rawLines, hbroken, if_neg Bool.false_ne_true,
    splitLines_textOf fun line hline => (h line hline).feed_notMem,
    List.map_congr_left hreturn, List.map_id']

/-- The lines of a text by kind, and the blank one behind its last line feed. -/
theorem linesOf_textOf :
    linesOf (Utf8.encode (textOf lines)) = lines.map classify ++ [.blank] := by
  rw [linesOf, Utf8.decodeLossy_encode, rawLines_textOf h, List.map_append]
  rfl

/-- Lines that are not blank are the records of their text. -/
theorem recordsOf_textOf_of_isLine (hb : ∀ line ∈ lines, line.all Text.isBlank = false) :
    recordsOf (Utf8.encode (textOf lines)) = lines := by
  have hkept : lines.filter (fun line => !line.all Text.isBlank) = lines :=
    List.filter_eq_self.mpr fun line hline => by rw [hb line hline]; rfl
  rw [recordsOf, Utf8.decodeLossy_encode, rawLines_textOf h, List.filter_append, hkept]
  simp

end

/-- **Lines that are not blank are the records of their text.** -/
theorem recordsOf_textOf {lines : List (List Char)}
    (h : ∀ line ∈ lines, line.all isLineChar = true)
    (hb : ∀ line ∈ lines, line.all Text.isBlank = false) :
    recordsOf (Utf8.encode (textOf lines)) = lines :=
  recordsOf_textOf_of_isLine (fun line hline => isLine_of_all_isLineChar (h line hline)) hb

end AchCourier.Ach
