import AchCourier.Proofs.Ach.Digits
import AchCourier.Proofs.Ach.Grammar
import AchCourier.Proofs.Ach.TextLines
import AchCourier.Proofs.Ach.WrittenRecords
import Mathlib.Algebra.Group.Prod

/-!
# Wrong digits

A control repeats what stands before it, and a routing number carries a check digit, so a single
wrong digit in what they guard is noticed.  In a control it no longer agrees; in a batch header or
in an amount the batch no longer agrees with its control, which stands somewhere behind it; and in
an entry the routing number no longer goes with its check digit.

Between the wrong digit and the control two ledgers run along the same lines, with open batches that
differ in their figures.  Entries add the same to both, and addenda add nothing.

## Main definitions

* `guardedColumns`, `IsGuarded` — the columns in which a wrong digit is noticed, by the type of the
  record.
* `Batch.figures` — what a control repeats of its batch, the counts and the hash apart.
* `Ledger.Differ` — ledgers whose open batches differ in their figures.
* `StandsGuarded` — the byte stands in guarded columns of a record.

## Main results

* `Ledger.Differ.step`, `Ledger.Differ.foldl_step` — ledgers that differ never close their batches.
* `faults_ne_nil_of_digitChanged` — of two lines with one digit between them, one is a fault.
* `exists_read_eq_error_of_wrong_digit` — **a single wrong digit in guarded columns is an error.**
-/

namespace AchCourier.Ach

/-! ### Figures of a batch -/

/-- What a control repeats of its batch, the counts and the hash apart: the service class, the batch
number, the debits and the credits. -/
def Batch.figures (b : Batch) : Nat × Nat × Nat × Nat :=
  (b.header.serviceClassCode, b.header.batchNumber, b.totalDebit, b.totalCredit)

/-- What an entry adds to the figures of its batch. -/
def Entry.figures (e : Entry) : Nat × Nat × Nat × Nat :=
  (0, 0, if e.isDebit then e.amount else 0, if e.isCredit then e.amount else 0)

theorem BatchControl.Agrees.figures_eq {c : BatchControl} {b b' : Batch} (h : c.Agrees b)
    (h' : c.Agrees b') : b.figures = b'.figures := by
  rw [Batch.figures, Batch.figures, ← h.serviceClassCode, ← h.batchNumber, ← h.totalDebit,
    ← h.totalCredit, h'.serviceClassCode, h'.batchNumber, h'.totalDebit, h'.totalCredit]

/-- The sum over the entries that pass a test, with one entry more. -/
theorem total_filter_amount_append (p : Entry → Bool) (entries : List Entry) (e : Entry) :
    total (((entries ++ [e]).filter p).map Entry.amount) =
      total ((entries.filter p).map Entry.amount) + if p e then e.amount else 0 := by
  rw [List.filter_append, List.map_append, total_append, List.filter_singleton]
  cases p e <;> rfl

theorem Batch.figures_append (b : Batch) (entries : List Entry) (e : Entry) :
    { b with entries := entries ++ [e] }.figures =
      { b with entries := entries }.figures + e.figures := by
  rw [figures, figures, Entry.figures, totalDebit, totalDebit, totalCredit, totalCredit,
    total_filter_amount_append, total_filter_amount_append]
  rfl

theorem Entry.figures_attach (e : Entry) (a : Addenda) : (e.attach a).figures = e.figures := by
  cases a <;> rfl

/-- Addenda add nothing. -/
theorem Batch.figures_attachLast (b : Batch) (a : Addenda) :
    (b.attachLast a).figures = b.figures := by
  rw [attachLast]
  cases he : b.entries.getLast? with
  | none => rfl
  | some e =>
    dsimp only
    split
    · -- only the last entry has changed, and addenda are no figures
      have hentries : b.entries = b.entries.dropLast ++ [e] :=
        (List.dropLast_append_getLast? e he).symm
      have hb : b = { b with entries := b.entries.dropLast ++ [e] } := by rw [← hentries]
      rw [figures_append, Entry.figures_attach, ← figures_append, ← hb]
    · rfl

/-- Every transaction is a debit or a credit, so an amount shows in the figures. -/
theorem Entry.figures_ne {e e' : Entry} (hcode : e.transactionCode = e'.transactionCode)
    (hvalid : e.transactionCode ∈ transactionCodes) (hne : e.amount ≠ e'.amount) :
    e.figures ≠ e'.figures := by
  have hkind : ∀ n ∈ transactionCodes, 5 ≤ n % 10 ∨ 1 ≤ n % 10 ∧ n % 10 ≤ 4 := by decide
  rw [figures, figures, isDebit, isDebit, isCredit, isCredit, ← hcode]
  rcases hkind _ hvalid with hdebit | hcredit
  · simp [hdebit, hne]
  · simp [hcredit, hne]

/-! ### Ledgers that differ -/

namespace Ledger

/-- Both ledgers have an open batch, and their figures are not the same. -/
def Differ (s t : Ledger) : Prop :=
  ∃ b ∈ s.current, ∃ b' ∈ t.current, b.figures ≠ b'.figures

/-- **Whatever line both ledgers admit, they go on to differ.**  It is no batch control, because
that cannot agree with both. -/
theorem Differ.step {s t : Ledger} (h : s.Differ t) {l : Line} (hs : s.Admits l)
    (ht : t.Admits l) : (s.step l).Differ (t.step l) := by
  obtain ⟨b, hb, b', hb', hne⟩ := h
  rw [Option.mem_def] at hb hb'
  -- both take the line in the same way, and no control agrees with both
  cases l with
  | batchHeader line =>
    rw [Admits, hb] at hs
    cases hs
  | entry line =>
    refine ⟨{ b with entries := b.entries ++ [.ofLine line] }, by simp [Ledger.step, hb],
      { b' with entries := b'.entries ++ [.ofLine line] }, by simp [Ledger.step, hb'], ?_⟩
    rw [Batch.figures_append, Batch.figures_append]
    exact fun heq => hne (add_right_cancel heq)
  | addenda line =>
    rw [Ledger.step, Ledger.step]
    cases Addenda.ofLine? line with
    | none => exact ⟨b, hb, b', hb', hne⟩
    | some a =>
      refine ⟨b.attachLast a, by simp [hb], b'.attachLast a, by simp [hb'], ?_⟩
      rwa [Batch.figures_attachLast, Batch.figures_attachLast]
  | batchControl line =>
    obtain ⟨x, hx, hagrees⟩ := hs
    obtain ⟨y, hy, hagrees'⟩ := ht
    rw [Option.mem_def, hb, Option.some.injEq] at hx
    rw [Option.mem_def, hb', Option.some.injEq] at hy
    subst hx hy
    exact absurd (hagrees.figures_eq hagrees') hne
  | _ => exact ⟨b, hb, b', hb', hne⟩

/-- So they do along all lines, and the batches stay open. -/
theorem Differ.foldl_step {lines : List Line} :
    ∀ {s t : Ledger}, s.Differ t → s.AdmitsAll lines → t.AdmitsAll lines →
      (lines.foldl Ledger.step s).Differ (lines.foldl Ledger.step t) := by
  induction lines with
  | nil => exact fun h _ _ => h
  | cons l lines ih => exact fun h hs ht => ih (h.step hs.1 ht.1) hs.2 ht.2

end Ledger

/-! ### Numbers that are guarded -/

/-- The columns of numbers that a control or a check digit guards, by the type of the record: the
first and the last column of each. -/
def guardedColumns : Char → List (Nat × Nat)
  | '5' => [(2, 4), (88, 94)]
  | '6' => [(4, 11), (12, 12), (30, 39)]
  | '8' => [(2, 4), (5, 10), (11, 20), (21, 32), (33, 44), (88, 94)]
  | '9' => [(2, 7), (14, 21), (22, 31), (32, 43), (44, 55)]
  | _ => []

/-- The column belongs to a number that is guarded in records of the type. -/
def IsGuarded (type : Char) (column : Nat) : Prop :=
  ∃ c ∈ guardedColumns type, c.1 ≤ column ∧ column ≤ c.2

instance (type : Char) (column : Nat) : Decidable (IsGuarded type column) :=
  inferInstanceAs (Decidable (∃ c ∈ guardedColumns type, _ ∧ _))

theorem BatchHeader.isNumeric_of_mem_guardedColumns {line : List Char} (h : complaints line = []) :
    ∀ c ∈ guardedColumns '5', IsNumeric c.1 c.2 line := by
  obtain ⟨⟨h2, h88⟩, -⟩ := complaints_eq_nil_iff.mp h
  simp only [guardedColumns, List.forall_mem_cons]
  exact ⟨h2, h88, List.forall_mem_nil _⟩

/-- The open batch shows the numbers of its header. -/
theorem BatchHeader.naturalAt_eq_of_figures {line line' : List Char}
    (h : ({ header := ofLine line } : Batch).figures =
      ({ header := ofLine line' } : Batch).figures) :
    ∀ c ∈ guardedColumns '5', naturalAt c.1 c.2 line = naturalAt c.1 c.2 line' := by
  rw [Batch.figures, Batch.figures, Prod.mk.injEq, Prod.mk.injEq] at h
  simp only [guardedColumns, List.forall_mem_cons]
  exact ⟨h.1, h.2.1, List.forall_mem_nil _⟩

theorem BatchControl.isNumeric_of_mem_guardedColumns {line : List Char} (h : complaints line = []) :
    ∀ c ∈ guardedColumns '8', IsNumeric c.1 c.2 line := by
  obtain ⟨h2, h5, h11, h21, h33, h88⟩ := complaints_eq_nil_iff.mp h
  simp only [guardedColumns, List.forall_mem_cons]
  exact ⟨h2, h5, h11, h21, h33, h88, List.forall_mem_nil _⟩

/-- Controls that agree with the same batch show the same numbers. -/
theorem BatchControl.naturalAt_eq_of_agrees {line line' : List Char} {b : Batch}
    (h : (ofLine line).Agrees b) (h' : (ofLine line').Agrees b) :
    ∀ c ∈ guardedColumns '8', naturalAt c.1 c.2 line = naturalAt c.1 c.2 line' := by
  simp only [guardedColumns, List.forall_mem_cons]
  exact ⟨h.serviceClassCode.trans h'.serviceClassCode.symm,
    h.entryAddendaCount.trans h'.entryAddendaCount.symm, h.entryHash.trans h'.entryHash.symm,
    h.totalDebit.trans h'.totalDebit.symm, h.totalCredit.trans h'.totalCredit.symm,
    h.batchNumber.trans h'.batchNumber.symm, List.forall_mem_nil _⟩

theorem FileControl.isNumeric_of_mem_guardedColumns {line : List Char} (h : complaints line = []) :
    ∀ c ∈ guardedColumns '9', IsNumeric c.1 c.2 line := by
  obtain ⟨h2, -, h14, h22, h32, h44⟩ := complaints_eq_nil_iff.mp h
  simp only [guardedColumns, List.forall_mem_cons]
  exact ⟨h2, h14, h22, h32, h44, List.forall_mem_nil _⟩

theorem FileControl.naturalAt_eq_of_agrees {line line' : List Char} {batches : List Batch}
    (h : (ofLine line).Agrees batches) (h' : (ofLine line').Agrees batches) :
    ∀ c ∈ guardedColumns '9', naturalAt c.1 c.2 line = naturalAt c.1 c.2 line' := by
  simp only [guardedColumns, List.forall_mem_cons]
  exact ⟨h.batchCount.trans h'.batchCount.symm,
    h.entryAddendaCount.trans h'.entryAddendaCount.symm, h.entryHash.trans h'.entryHash.symm,
    h.totalDebit.trans h'.totalDebit.symm, h.totalCredit.trans h'.totalCredit.symm,
    List.forall_mem_nil _⟩

/-- Guarded numbers that are the same have no wrong digit. -/
theorem DigitChanged.not_isGuarded {k : Nat} {line line' : List Char} {t : Char}
    (h : DigitChanged k line line')
    (hn : ∀ c ∈ guardedColumns t, IsNumeric c.1 c.2 line)
    (hn' : ∀ c ∈ guardedColumns t, IsNumeric c.1 c.2 line')
    (heq : ∀ c ∈ guardedColumns t, naturalAt c.1 c.2 line = naturalAt c.1 c.2 line') :
    ¬ IsGuarded t k := by
  rintro ⟨c, hc, hfirst, hlast⟩
  exact h.naturalAt_ne hfirst hlast (hn c hc) (hn' c hc) (heq c hc)

/-! ### Records with a wrong digit -/

/-- Nothing is wrong with the line and with the lines below it up to the end: they are admitted, and
the last batch is closed. -/
structure Ledger.Passes (s : Ledger) (l : Line) (below : List Line) : Prop where
  complaints : l.complaints = []
  admits : s.Admits l
  admitsAll : (s.step l).AdmitsAll below
  closed : (below.foldl Ledger.step (s.step l)).current = none

theorem passes_of_faults_eq_nil {above below : List Line} {l : Line}
    (h : (readLines (above ++ l :: below)).faults = []) :
    (above.foldl Ledger.step {}).Passes l below := by
  obtain ⟨hcomplaints, hadmits, hclosed, -, -⟩ := faults_readLines_eq_nil_iff.mp h
  rw [Ledger.admitsAll_append] at hadmits
  rw [List.foldl_append] at hclosed
  exact ⟨hcomplaints l (by simp), hadmits.2.1, hadmits.2.2, hclosed⟩

/-- Lines behind which the open batches differ cannot both pass. -/
theorem Ledger.Passes.not_differ {s : Ledger} {l l' : Line} {below : List Line}
    (h : s.Passes l below) (h' : s.Passes l' below) : ¬ (s.step l).Differ (s.step l') := by
  intro hdiffer
  obtain ⟨b, hb, -⟩ := hdiffer.foldl_step h.admitsAll h'.admitsAll
  rw [h.closed] at hb
  cases hb

section
variable {k : Nat} {line line' : List Char} (h : DigitChanged k line line') {s : Ledger}
  {below : List Line}
include h

theorem DigitChanged.not_passes_batchHeader (hk : IsGuarded '5' k)
    (hpass : s.Passes (.batchHeader line) below) :
    ¬ s.Passes (.batchHeader line') below := by
  intro hpass'
  refine hpass.not_differ hpass' ⟨_, rfl, _, rfl, fun hfigures => ?_⟩
  exact h.not_isGuarded (BatchHeader.isNumeric_of_mem_guardedColumns hpass.complaints)
    (BatchHeader.isNumeric_of_mem_guardedColumns hpass'.complaints)
    (BatchHeader.naturalAt_eq_of_figures hfigures) hk

theorem DigitChanged.not_passes_batchControl (hk : IsGuarded '8' k)
    (hpass : s.Passes (.batchControl line) below) :
    ¬ s.Passes (.batchControl line') below := by
  intro hpass'
  obtain ⟨b, hb, hagrees⟩ := hpass.admits
  obtain ⟨b', hb', hagrees'⟩ := hpass'.admits
  obtain rfl : b = b' := Option.some.inj (hb.symm.trans hb')
  exact h.not_isGuarded (BatchControl.isNumeric_of_mem_guardedColumns hpass.complaints)
    (BatchControl.isNumeric_of_mem_guardedColumns hpass'.complaints)
    (BatchControl.naturalAt_eq_of_agrees hagrees hagrees') hk

theorem DigitChanged.not_passes_fileControl (hk : IsGuarded '9' k)
    (hpass : s.Passes (.fileControl line) below) :
    ¬ s.Passes (.fileControl line') below := by
  intro hpass'
  exact h.not_isGuarded (FileControl.isNumeric_of_mem_guardedColumns hpass.complaints)
    (FileControl.isNumeric_of_mem_guardedColumns hpass'.complaints)
    (FileControl.naturalAt_eq_of_agrees hpass.admits hpass'.admits) hk

/-- A wrong digit in an amount shows in the figures of the batch. -/
theorem DigitChanged.not_passes_entry (hk : IsGuarded '6' k)
    (hpass : s.Passes (.entry line) below) : ¬ s.Passes (.entry line') below := by
  intro hpass'
  have hcomplaints : Entry.complaints line = [] := hpass.complaints
  have hcomplaints' : Entry.complaints line' = [] := hpass'.complaints
  obtain ⟨columns, hmem, hfirst, hlast⟩ := hk
  simp only [guardedColumns, List.mem_cons, List.not_mem_nil, or_false] at hmem
  rcases hmem with rfl | rfl | rfl
  · exact h.not_in_rdfi hcomplaints hcomplaints' ⟨hfirst, hlast⟩
  · exact h.not_in_checkDigit hcomplaints hcomplaints' (Nat.le_antisymm hlast hfirst)
  · -- an amount counts in the totals, and the batch control agrees with one of them only
    obtain ⟨⟨-, hn, -⟩, hvalid⟩ := Entry.complaints_eq_nil_iff.mp hcomplaints
    obtain ⟨⟨-, hn', -⟩, -⟩ := Entry.complaints_eq_nil_iff.mp hcomplaints'
    have hcode : (Entry.ofLine line).transactionCode = (Entry.ofLine line').transactionCode :=
      h.naturalAt_eq (Or.inl (lt_of_lt_of_le (by decide) hfirst))
    have hamount : (Entry.ofLine line).amount ≠ (Entry.ofLine line').amount :=
      h.naturalAt_ne hfirst hlast hn hn'
    obtain ⟨b, hb⟩ := Option.ne_none_iff_exists'.mp hpass.admits
    refine hpass.not_differ hpass' ⟨{ b with entries := b.entries ++ [.ofLine line] },
      by simp [Ledger.step, hb], { b with entries := b.entries ++ [.ofLine line'] },
      by simp [Ledger.step, hb], ?_⟩
    rw [Batch.figures_append, Batch.figures_append]
    exact fun heq => Entry.figures_ne hcode hvalid.transaction hamount (add_left_cancel heq)

/-- So it is with all records that have guarded columns. -/
theorem DigitChanged.not_passes_ofType {t : Char} (hk : IsGuarded t k)
    (hpass : s.Passes (.ofType line t) below) : ¬ s.Passes (.ofType line' t) below := by
  have htype : t = '5' ∨ t = '6' ∨ t = '8' ∨ t = '9' := by
    obtain ⟨c, hc, -⟩ := hk
    revert hc
    fun_cases guardedColumns t <;> simp
  rcases htype with rfl | rfl | rfl | rfl
  · exact h.not_passes_batchHeader hk hpass
  · exact h.not_passes_entry hk hpass
  · exact h.not_passes_batchControl hk hpass
  · exact h.not_passes_fileControl hk hpass

end

theorem one_lt_of_isGuarded {t : Char} {k : Nat} (h : IsGuarded t k) : 1 < k := by
  have hfirst : ∀ c ∈ guardedColumns t, 1 < c.1 := by
    fun_cases guardedColumns t <;> decide
  obtain ⟨c, hc, hle, -⟩ := h
  exact lt_of_lt_of_le (hfirst c hc) hle

/-- **Two lines that differ in a guarded digit cannot both stand in the same place of texts without
faults.** -/
theorem faults_ne_nil_of_digitChanged {above below : List (List Char)} {line line' : List Char}
    {k : Nat} {t : Char} (h : DigitChanged k line line') (ht : hasType t line = true)
    (hk : IsGuarded t k)
    (hnone : (readLines ((above ++ line :: below).map classify)).faults = []) :
    (readLines ((above ++ line' :: below).map classify)).faults ≠ [] := by
  rw [List.map_append, List.map_cons] at hnone ⊢
  intro hnone'
  obtain ⟨hb, hb'⟩ := h.not_blank
  have hpass := passes_of_faults_eq_nil hnone
  have hpass' := passes_of_faults_eq_nil hnone'
  have hr : IsRecord line := ((complaints_classify_eq_nil_iff hb).mp hpass.complaints).1
  have hr' : IsRecord line' := ((complaints_classify_eq_nil_iff hb').mp hpass'.complaints).1
  have hline : classify line = .ofType line t := classify_of_hasType hb hr ht
  -- the type stays, unless nines alone are left
  have hhead : line'.head? = some t := by
    rw [← h.head?_eq (one_lt_of_isGuarded hk)]
    simp only [hasType, Bool.and_eq_true, beq_iff_eq] at ht
    exact ht.1
  by_cases hp : line' = paddingLine
  · have ht9 : t = '9' := by
      rw [hp] at hhead
      exact (Option.some.inj hhead).symm
    subst ht9
    -- then there was a file control before, and there is one less now
    have hcount := (faults_readLines_eq_nil_iff.mp hnone).2.2.2.2
    have hcount' := (faults_readLines_eq_nil_iff.mp hnone').2.2.2.2
    have hline' : classify line' = .padding := by rw [classify_of_isRecord hb' hr', if_pos hp]
    rw [hline, List.countP_append, List.countP_cons_of_pos rfl] at hcount
    rw [hline', List.countP_append, List.countP_cons_of_neg Bool.false_ne_true] at hcount'
    omega
  · have ht' : hasType t line' = true := by simp [hasType, hhead, hp]
    rw [hline] at hpass
    rw [classify_of_hasType hb' hr' ht'] at hpass'
    exact h.not_passes_ofType hk hpass hpass'

/-! ### Wrong digits in a byte string -/

/-- The byte is a decimal digit. -/
def IsDigitByte (b : UInt8) : Prop :=
  0x30 ≤ b ∧ b ≤ 0x39

instance (b : UInt8) : Decidable (IsDigitByte b) :=
  inferInstanceAs (Decidable (_ ∧ _))

namespace IsDigitByte

variable {b : UInt8} (h : IsDigitByte b)
include h

theorem lt : b < 0x80 :=
  UInt8.lt_of_le_of_lt h.2 (by decide)

theorem toNat_char : (Char.ofNat b.toNat).toNat = b.toNat := by
  have hlt : b.toNat < 0x80 := UInt8.lt_iff_toNat_lt.mp h.lt
  have hvalid : b.toNat.isValidChar := Or.inl (by omega)
  rw [Char.ofNat, dif_pos hvalid]
  rfl

theorem isDigit_char : (Char.ofNat b.toNat).isDigit = true := by
  rw [Char.isDigit_iff_toNat, h.toNat_char]
  exact ⟨UInt8.le_iff_toNat_le.mp h.1, UInt8.le_iff_toNat_le.mp h.2⟩

end IsDigitByte

/-- The byte behind `before` stands in guarded columns of a record of the byte string. -/
def StandsGuarded (before bytes : Bytes) : Prop :=
  let text := Utf8.decodeLossy bytes
  let place := placeBehind (isUnbroken text) (Utf8.decodeLossy before)
  ∃ record ∈ (rawLines text)[place.line]?, ∃ t, hasType t record = true ∧ IsGuarded t place.column

/-- **A single wrong digit is an error**, wherever in a file it stands in the routing number, the
check digit or the amount of an entry, in the service class or the number of a batch header, or in a
number of a control. -/
theorem exists_read_eq_error_of_wrong_digit {before after : Bytes} {d d' : UInt8} {f : File}
    (hread : read (before ++ d :: after) = .ok f) (hd : IsDigitByte d) (hd' : IsDigitByte d')
    (hne : d ≠ d') (hguarded : StandsGuarded before (before ++ d :: after)) :
    ∃ e, read (before ++ d' :: after) = .error e := by
  have hnone : faultsOf (before ++ d :: after) = [] := by
    by_contra hfaults
    rw [read_of_faults hfaults] at hread
    cases hread
  have hchar := isLineChar_of_isDigit hd.isDigit_char
  obtain ⟨above, left, right, below, hplace, hlines⟩ :=
    exists_rawLines_eq (Utf8.decodeLossy before) (Utf8.decodeLossy after) hchar
  have hlinesOf : ∀ {x : UInt8}, IsDigitByte x → linesOf (before ++ x :: after) =
      (above ++ (left ++ Char.ofNat x.toNat :: right) :: below).map classify := by
    intro x hx
    rw [linesOf, Utf8.decodeLossy_append_cons hx.lt,
      hlines _ (isLineChar_of_isDigit hx.isDigit_char)]
  -- the record with the digit is the one between the others
  obtain ⟨record, hrecord, t, ht, hk⟩ := hguarded
  rw [Utf8.decodeLossy_append_cons hd.lt, hplace] at hrecord hk
  rw [hlines _ hchar, Option.mem_def, List.getElem?_append_right (Nat.le_refl _), Nat.sub_self,
    List.getElem?_cons_zero, Option.some.injEq] at hrecord
  subst hrecord
  have hchanged : DigitChanged (left.length + 1) (left ++ Char.ofNat d.toNat :: right)
      (left ++ Char.ofNat d'.toNat :: right) := by
    refine ⟨left, _, _, right, rfl, rfl, rfl, hd.isDigit_char, hd'.isDigit_char, fun heq => hne ?_⟩
    have htoNat := congrArg Char.toNat heq
    rw [hd.toNat_char, hd'.toNat_char] at htoNat
    exact UInt8.toNat_inj.mp htoNat
  have hfaults : faultsOf (before ++ d' :: after) ≠ [] := by
    rw [faultsOf, hlinesOf hd']
    rw [faultsOf, hlinesOf hd] at hnone
    exact faults_ne_nil_of_digitChanged hchanged ht hk hnone
  exact ⟨_, read_of_faults hfaults⟩

/-- A file with one payment. -/
def paymentBytes : Bytes :=
  let batch : Batch := { header := sampleBatchHeader, entries := [sampleEntry] }
  Utf8.encode (textOf [
    lineOf sampleFileHeader.cells,
    lineOf batch.header.cells,
    lineOf sampleEntry.cells,
    lineOf batch.expectedControl.cells,
    lineOf ({ batches := [batch] } : File).expectedControl.cells])

/-- The last digit of its amount is wrong. -/
theorem exists_read_eq_error_of_wrong_digit_amount :
    paymentBytes = paymentBytes.take 228 ++ 0x30 :: paymentBytes.drop 229 ∧
      (∃ f, read paymentBytes = .ok f) ∧
      ∃ e, read (paymentBytes.take 228 ++ 0x31 :: paymentBytes.drop 229) = .error e := by
  have hsplit : paymentBytes = paymentBytes.take 228 ++ 0x30 :: paymentBytes.drop 229 := by
    decide +kernel
  have hread := read_of_no_faults (show faultsOf paymentBytes = [] by decide +kernel)
  refine ⟨hsplit, ⟨_, hread⟩, ?_⟩
  rw [hsplit] at hread
  have hguarded : StandsGuarded (paymentBytes.take 228)
      (paymentBytes.take 228 ++ 0x30 :: paymentBytes.drop 229) :=
    ⟨lineOf sampleEntry.cells, by decide +kernel, '6', by decide +kernel, by decide +kernel⟩
  exact exists_read_eq_error_of_wrong_digit hread (by decide) (by decide) (by decide) hguarded

end AchCourier.Ach
