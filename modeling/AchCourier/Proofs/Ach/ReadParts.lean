import AchCourier.Proofs.Ach.WrittenParts

/-!
# Parts that were read

Whatever a text holds, what is read from it can be written again.  A field has no more characters
than the columns it was read from, no blanks at its ends and no line feeds; a number has no more
digits than columns; and addenda are attached only to entries that announce them.  A record may be
damaged in every other way.

The last part is an invariant of the ledger: it holds before the first line, and every line keeps
it.

## Main definitions

* `Line.record?` — the record that is read from a line.
* `Entry.AsRead`, `Batch.AsRead`, `Ledger.AsRead`, `File.AsRead` — the parts that reading makes.

## Main results

* `legibleIn_textAt`, `naturalAt_lt` — what can be read from columns.
* `legible_ofLine` in the namespace of each record — the cells of a record that was read.
* `Ledger.AsRead.step`, `Ledger.AsRead.foldl_step` — what one line and what many lines keep.
* `asRead_recover` — **all that is recovered from a byte string can be written again.**
-/

namespace AchCourier.Ach

/-! ### Reading columns -/

theorem length_cut_le (first last : Nat) (line : List Char) :
    (cut first last line).length ≤ last - (first - 1) := by
  unfold cut
  exact List.length_take_le _ _

theorem mem_of_mem_cut {first last : Nat} {line : List Char} {c : Char}
    (hc : c ∈ cut first last line) : c ∈ line :=
  List.mem_of_mem_drop (List.mem_of_mem_take hc)

/-- Digits show a number that has no more digits. -/
theorem ofDigitChars_lt {digits : List Char} (h : ∀ c ∈ digits, c.isDigit = true) :
    Nat.ofDigitChars 10 digits 0 < Nat.pow 10 digits.length := by
  induction digits with
  | nil => simp
  | cons c digits ih =>
    obtain ⟨hc, hdigits⟩ := List.forall_mem_cons.mp h
    have hdigit : c.toNat - '0'.toNat ≤ 9 := by
      have h₉ : c.toNat ≤ 57 := (Char.isDigit_iff_toNat.mp hc).2
      have h₀ : '0'.toNat = 48 := rfl
      omega
    -- the first digit counts as often as the others can count at most, and once more
    calc Nat.ofDigitChars 10 (c :: digits) 0
        = Nat.pow 10 digits.length * (c.toNat - '0'.toNat) + Nat.ofDigitChars 10 digits 0 := by
          rw [Nat.ofDigitChars_cons, Nat.ofDigitChars_eq_ofDigitChars_zero, Nat.mul_zero,
            Nat.zero_add]
          rfl
      _ < Nat.pow 10 digits.length * 9 + Nat.pow 10 digits.length :=
          Nat.add_lt_add_of_le_of_lt (Nat.mul_le_mul_left _ hdigit) (ih hdigits)
      _ = Nat.pow 10 digits.length * 10 := (Nat.mul_succ _ 9).symm
      _ = Nat.pow 10 (digits.length + 1) := (Nat.pow_succ ..).symm

/-- **A number has no more digits than the columns it was read from.** -/
theorem naturalAt_lt (first last : Nat) (line : List Char) :
    naturalAt first last line < Nat.pow 10 (last - (first - 1)) := by
  have hzero : 0 < Nat.pow 10 (last - (first - 1)) := Nat.pow_pos (by decide)
  have hlength : (Text.trim (cut first last line)).length ≤ last - (first - 1) :=
    (Text.trim_infix_self _).length_le.trans (length_cut_le first last line)
  -- blank columns and columns without a number read as zero
  unfold naturalAt naturalAt? shownNumber?
  split
  · exact hzero
  · split
    · next hdigits =>
      have hlt := ofDigitChars_lt (List.all_eq_true.mp hdigits)
      exact hlt.trans_le (Nat.pow_le_pow_right (by decide) hlength)
    · exact hzero

theorem legible_naturalAt {first last : Nat} (h : 0 < last - (first - 1)) (line : List Char) :
    (Cell.number (last - (first - 1)) (naturalAt first last line)).Legible :=
  ((Cell.fits_number_iff h).mpr (naturalAt_lt first last line)).legible

section
variable {line : List Char} (hline : ∀ c ∈ line, isRecordChar c = true)
include hline

/-- **A text is no longer than the columns it was read from**, and has no blanks at its ends. -/
theorem legibleIn_textAt (first last : Nat) :
    LegibleIn (last - (first - 1)) (textAt first last line).toList := by
  have hpart := Text.trim_infix_self (cut first last line)
  rw [textAt, String.toList_ofList]
  refine ⟨?_, fun c hc => ?_, Text.trim_trim _⟩
  · exact hpart.length_le.trans (length_cut_le first last line)
  · exact hline c (mem_of_mem_cut (hpart.subset hc))

/-! ### Reading records -/

theorem FileHeader.legible_ofLine : ∀ c ∈ (ofLine line).cells, c.Legible := by
  have htext := legibleIn_textAt hline
  simp only [cells, ofLine, List.forall_mem_cons]
  exact ⟨rfl, htext 2 3, htext 4 13, htext 14 23, htext 24 29, htext 30 33, htext 34 34, rfl,
    htext 41 63, htext 64 86, htext 87 94, List.forall_mem_nil _⟩

theorem BatchHeader.legible_ofLine : ∀ c ∈ (ofLine line).cells, c.Legible := by
  have htext := legibleIn_textAt hline
  simp only [cells, ofLine, List.forall_mem_cons]
  exact ⟨rfl, @legible_naturalAt 2 4 (by decide) line, htext 5 20, htext 21 40, htext 41 50,
    htext 51 53, htext 54 63, htext 64 69, htext 70 75, htext 76 78, htext 79 79, htext 80 87,
    @legible_naturalAt 88 94 (by decide) line, List.forall_mem_nil _⟩

theorem Entry.legible_ofLine : ∀ c ∈ (ofLine line).cells, c.Legible := by
  have htext := legibleIn_textAt hline
  simp only [cells, ofLine, List.forall_mem_cons]
  exact ⟨rfl, @legible_naturalAt 2 3 (by decide) line, htext 4 11, htext 12 12, htext 13 29,
    @legible_naturalAt 30 39 (by decide) line, htext 40 54, htext 55 76, htext 77 78,
    @legible_naturalAt 79 79 (by decide) line, htext 80 94, List.forall_mem_nil _⟩

theorem Remittance.legible_ofLine : ∀ c ∈ (ofLine line).cells, c.Legible := by
  have htext := legibleIn_textAt hline
  simp only [cells, ofLine, List.forall_mem_cons]
  exact ⟨rfl, htext 4 83, @legible_naturalAt 84 87 (by decide) line, htext 88 94,
    List.forall_mem_nil _⟩

theorem ChangeNotice.legible_ofLine : ∀ c ∈ (ofLine line).cells, c.Legible := by
  have htext := legibleIn_textAt hline
  have hblank : ∀ width, (Cell.blank width).Legible := fun width => (Cell.fits_blank width).legible
  simp only [cells, ofLine, List.forall_mem_cons]
  exact ⟨rfl, htext 4 6, htext 7 21, hblank 6, htext 28 35, htext 36 64, hblank 15, htext 80 94,
    List.forall_mem_nil _⟩

theorem ReturnNotice.legible_ofLine : ∀ c ∈ (ofLine line).cells, c.Legible := by
  have htext := legibleIn_textAt hline
  simp only [cells, ofLine, List.forall_mem_cons]
  exact ⟨rfl, htext 4 6, htext 7 21, htext 22 27, htext 28 35, htext 36 79, htext 80 94,
    List.forall_mem_nil _⟩

theorem BatchControl.legible_ofLine : ∀ c ∈ (ofLine line).cells, c.Legible := by
  have htext := legibleIn_textAt hline
  simp only [cells, ofLine, List.forall_mem_cons]
  exact ⟨rfl, @legible_naturalAt 2 4 (by decide) line, @legible_naturalAt 5 10 (by decide) line,
    @legible_naturalAt 11 20 (by decide) line, @legible_naturalAt 21 32 (by decide) line,
    @legible_naturalAt 33 44 (by decide) line, htext 45 54, htext 55 73,
    (Cell.fits_blank 6).legible, htext 80 87, @legible_naturalAt 88 94 (by decide) line,
    List.forall_mem_nil _⟩

theorem Addenda.legible_ofLine? {a : Addenda} (ha : ofLine? line = some a) :
    ∀ c ∈ a.cells, c.Legible := by
  unfold ofLine? at ha
  split at ha
  · cases ha
    exact Remittance.legible_ofLine hline
  · cases ha
    exact ChangeNotice.legible_ofLine hline
  · cases ha
    exact ReturnNotice.legible_ofLine hline
  · cases ha

end

/-- A file control holds nothing but numbers. -/
theorem FileControl.fits_ofLine (line : List Char) : ∀ c ∈ (ofLine line).cells, c.Fits := by
  have hnumber : ∀ first last, 0 < last - (first - 1) →
      (Cell.number (last - (first - 1)) (naturalAt first last line)).Fits :=
    fun first last h => (Cell.fits_number_iff h).mpr (naturalAt_lt first last line)
  simp only [cells, ofLine, List.forall_mem_cons]
  exact ⟨rfl, hnumber 2 7 (by decide), hnumber 8 13 (by decide), hnumber 14 21 (by decide),
    hnumber 22 31 (by decide), hnumber 32 43 (by decide), hnumber 44 55 (by decide),
    Cell.fits_blank 39, List.forall_mem_nil _⟩

/-! ### Reading lines -/

/-- The record that is read from a line. -/
def Line.record? : Line → Option (List Char)
  | .fileHeader line => some line
  | .batchHeader line => some line
  | .entry line => some line
  | .addenda line => some line
  | .batchControl line => some line
  | .fileControl line => some line
  | _ => none

theorem Line.eq_of_mem_record?_ofType {line record : List Char} {t : Char}
    (h : record ∈ (Line.ofType line t).record?) : record = line := by
  revert h
  fun_cases Line.ofType line t with
  | case7 => intro h; cases h
  | _ => exact fun h => (Option.some.inj h).symm

theorem Line.record?_of_fileHeader? {l : Line} {line : List Char}
    (h : l.fileHeader? = some line) : l.record? = some line := by
  cases l with
  | fileHeader line' => exact h
  | _ => cases h

/-- A line whose record is read is that record, of ASCII characters. -/
theorem isRecordChar_of_mem_record?_classify {line record : List Char} (hfeed : '\n' ∉ line)
    (h : record ∈ (classify line).record?) : ∀ c ∈ record, isRecordChar c = true := by
  cases hb : line.all Text.isBlank with
  | true =>
    rw [classify_eq_blank_iff.mpr hb] at h
    cases h
  | false =>
    by_cases hr : IsRecord line
    · -- a record of a known type is kept as it is, and no other is kept
      have hrecord : record = line := by
        rcases eq_paddingLine_or_hasType hb with rfl | ⟨t, ht⟩
        · rw [classify_of_isRecord hb hr, if_pos rfl] at h
          cases h
        · rw [classify_of_hasType hb hr ht] at h
          exact Line.eq_of_mem_record?_ofType h
      rw [hrecord]
      intro c hc
      have hascii : isAscii c = true := List.all_eq_true.mp hr.2 c hc
      have hne : c ≠ '\n' := fun heq => hfeed (heq ▸ hc)
      rw [isRecordChar, hascii, Bool.true_and, bne_iff_ne]
      exact hne
    · rw [classify_of_not_isRecord hb hr] at h
      cases h

/-- No line holds a line feed, be it cut at line feeds or from a text without any. -/
theorem feed_notMem_of_mem_rawLines {text line : List Char} (h : line ∈ rawLines text) :
    '\n' ∉ line := by
  have hcut := cutInto_rawLines text
  generalize rawLines text = lines at h hcut
  intro hc
  cases hcut with
  | slices hpiece _ htext => exact hpiece.feedFree (htext ▸ List.mem_flatten.mpr ⟨line, h, hc⟩)
  | feeds _ _ hfeed _ =>
    obtain ⟨part, hpart, rfl⟩ := List.mem_map.mp h
    exact hfeed part hpart (List.IsPrefix.subset (List.rdropWhile_prefix _ part) hc)

/-- The record of every line of a byte string can stand in a text. -/
theorem isRecordChar_of_mem_linesOf {bytes : Bytes} {l : Line} (hl : l ∈ linesOf bytes)
    {record : List Char} (h : record ∈ l.record?) : ∀ c ∈ record, isRecordChar c = true := by
  obtain ⟨line, hline, rfl⟩ := List.mem_map.mp hl
  exact isRecordChar_of_mem_record?_classify (feed_notMem_of_mem_rawLines hline) h

/-! ### Reading entries and batches -/

/-- The entry is one that reading makes: it can be written, and it has no identity. -/
structure Entry.AsRead (e : Entry) : Prop extends Entry.Legible e where
  id : e.id = none

/-- The batch is one that reading makes; of its control nothing is said. -/
structure Batch.AsRead (b : Batch) : Prop where
  id : b.id = none
  header : ∀ c ∈ b.header.cells, c.Legible
  entries : ∀ e ∈ b.entries, e.AsRead

/-- The batches of the ledger are ones that reading makes. -/
structure Ledger.AsRead (s : Ledger) : Prop where
  closed : ∀ b ∈ s.closed, b.AsRead
  current : ∀ b ∈ s.current, b.AsRead

namespace Entry

theorem cells_attach (e : Entry) (a : Addenda) : (e.attach a).cells = e.cells := by
  cases a <;> rfl

/-- An addenda record that is attached may take the place of another one. -/
theorem mem_addenda_attach {e : Entry} {a x : Addenda} (h : x ∈ (e.attach a).addenda) :
    x ∈ e.addenda ∨ x = a := by
  simp only [addenda, List.mem_append] at h ⊢
  -- the addenda are listed by type: remittances, the change notice, the return notice
  cases a with
  | remittance a =>
    simp only [attach, List.map_append, List.mem_append, List.map_singleton,
      List.mem_singleton] at h
    rcases h with ((h | h) | h) | h
    · exact Or.inl (Or.inl (Or.inl h))
    · exact Or.inr h
    · exact Or.inl (Or.inl (Or.inr h))
    · exact Or.inl (Or.inr h)
  | change a =>
    simp only [attach, Option.toList_some, List.map_singleton, List.mem_singleton] at h
    rcases h with (h | h) | h
    · exact Or.inl (Or.inl (Or.inl h))
    · exact Or.inr h
    · exact Or.inl (Or.inr h)
  | returned a =>
    simp only [attach, Option.toList_some, List.map_singleton, List.mem_singleton] at h
    rcases h with (h | h) | h
    · exact Or.inl (Or.inl (Or.inl h))
    · exact Or.inl (Or.inl (Or.inr h))
    · exact Or.inr h

theorem AsRead.attach {e : Entry} (h : e.AsRead) (hi : e.addendaRecordIndicator = 1)
    {a : Addenda} (ha : ∀ c ∈ a.cells, c.Legible) : (e.attach a).AsRead where
  cells := by
    rw [cells_attach]
    exact h.cells
  announced _ := by rw [attach_addendaRecordIndicator, hi]
  addenda x hx := by
    rcases mem_addenda_attach hx with hx | rfl
    · exact h.addenda x hx
    · exact ha
  id := by
    have hid : (e.attach a).id = e.id := by cases a <;> rfl
    rw [hid, h.id]

theorem asRead_ofLine {line : List Char} (hline : ∀ c ∈ line, isRecordChar c = true) :
    (ofLine line).AsRead where
  cells := legible_ofLine hline
  announced hne := absurd rfl hne
  addenda := List.forall_mem_nil _
  id := rfl

end Entry

/-- Addenda go to an entry that announces them, or nowhere. -/
theorem Batch.AsRead.attachLast {b : Batch} (h : b.AsRead) {a : Addenda}
    (ha : ∀ c ∈ a.cells, c.Legible) : (b.attachLast a).AsRead := by
  unfold Batch.attachLast
  cases he : b.entries.getLast? with
  | none => exact h
  | some e =>
    dsimp only
    split
    · next hi =>
      refine ⟨h.id, h.header, fun x hx => ?_⟩
      -- only the last entry has changed
      rcases List.mem_append.mp hx with hx | hx
      · exact h.entries x (List.dropLast_subset _ hx)
      · rw [List.mem_singleton.mp hx]
        exact (h.entries e (List.mem_of_mem_getLast? he)).attach hi ha
    · exact h

namespace Ledger

/-- **Every line leaves batches that reading makes.** -/
theorem AsRead.step {s : Ledger} (h : s.AsRead) {l : Line}
    (hl : ∀ line ∈ l.record?, ∀ c ∈ line, isRecordChar c = true) : (s.step l).AsRead := by
  have hbatches : ∀ b ∈ s.closed ++ s.current.toList, b.AsRead := by
    intro b hb
    rcases List.mem_append.mp hb with hb | hb
    · exact h.closed b hb
    · exact h.current b (Option.mem_toList.mp hb)
  cases l with
  | batchHeader line =>
    -- a batch that is still open is closed as it is
    refine ⟨hbatches, fun b hb => ?_⟩
    cases hb
    exact ⟨rfl, BatchHeader.legible_ofLine (hl line rfl), List.forall_mem_nil _⟩
  | entry line =>
    refine ⟨h.closed, fun b' hb' => ?_⟩
    obtain ⟨b, hb, rfl⟩ := Option.map_eq_some_iff.mp hb'
    have hread := h.current b hb
    refine ⟨hread.id, hread.header, fun e he => ?_⟩
    rcases List.mem_append.mp he with he | he
    · exact hread.entries e he
    · rw [List.mem_singleton.mp he]
      exact Entry.asRead_ofLine (hl line rfl)
  | addenda line =>
    rw [Ledger.step]
    cases ha : Addenda.ofLine? line with
    | none => exact h
    | some a =>
      refine ⟨h.closed, fun b' hb' => ?_⟩
      obtain ⟨b, hb, rfl⟩ := Option.map_eq_some_iff.mp hb'
      exact (h.current b hb).attachLast (Addenda.legible_ofLine? (hl line rfl) ha)
  | batchControl line =>
    -- only the control changes, of which nothing is said
    refine ⟨fun b' hb' => ?_, fun b' hb' => by cases hb'⟩
    rcases List.mem_append.mp hb' with hb' | hb'
    · exact h.closed b' hb'
    · obtain ⟨b, hb, rfl⟩ := Option.map_eq_some_iff.mp (Option.mem_toList.mp hb')
      have hread := h.current b hb
      exact ⟨hread.id, hread.header, hread.entries⟩
  | _ => exact h

/-- So do all lines together. -/
theorem AsRead.foldl_step {s : Ledger} (h : s.AsRead) {lines : List Line}
    (hlines : ∀ l ∈ lines, ∀ line ∈ l.record?, ∀ c ∈ line, isRecordChar c = true) :
    (lines.foldl Ledger.step s).AsRead := by
  induction lines generalizing s with
  | nil => exact h
  | cons l lines ih =>
    obtain ⟨hl, hlines⟩ := List.forall_mem_cons.mp hlines
    exact ih (h.step hl) hlines

end Ledger

/-! ### What is recovered -/

/-- The file is one that reading makes; of its control nothing is said. -/
structure File.AsRead (f : File) : Prop where
  header : ∀ c ∈ f.header.cells, c.Legible
  batches : ∀ b ∈ f.batches, b.AsRead

/-- **All that is recovered from a byte string can be written again.** -/
theorem asRead_recover (bytes : Bytes) : (recover bytes).AsRead := by
  have hlines : ∀ l ∈ linesOf bytes, ∀ line ∈ l.record?, ∀ c ∈ line, isRecordChar c = true :=
    fun l hl line hline => isRecordChar_of_mem_linesOf hl hline
  have hledger : ((linesOf bytes).foldl Ledger.step {}).AsRead :=
    Ledger.AsRead.foldl_step ⟨List.forall_mem_nil _, fun b hb => by cases hb⟩ hlines
  rw [recover, file_readLines]
  constructor
  · -- the header is that of a line or, without such a line, empty
    cases hheader : (linesOf bytes).findSome? Line.fileHeader? with
    | none =>
      simp only [recovered, hheader]
      exact Cell.legible_of_fits (by decide)
    | some line =>
      obtain ⟨l, hl, hline⟩ := List.exists_of_findSome?_eq_some hheader
      simp only [recovered, hheader]
      exact FileHeader.legible_ofLine (hlines l hl line (Line.record?_of_fileHeader? hline))
  · intro b hb
    rcases List.mem_append.mp hb with hb | hb
    · exact hledger.closed b hb
    · exact hledger.current b (Option.mem_toList.mp hb)

end AchCourier.Ach
