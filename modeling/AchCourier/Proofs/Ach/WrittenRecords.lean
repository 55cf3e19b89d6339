import AchCourier.Proofs.Ach.Columns
import AchCourier.Proofs.Ach.Rules

/-!
# Records on their lines

A record whose cells are legible reads back from its line.  Three fields are filled up with zeros
on the way: the priority code of a file, the trace number of an entry, and the sequence number of
the entry in remittance information.  A record that also keeps the rules of its kind leaves nothing
to complain about.

## Main definitions

* `Entry.bare` — an entry without its identity and its addenda, which is all that its line holds.
* `FileHeader.padded`, `Entry.padded`, `Remittance.padded` — a record with its zeros.

## Main results

* `ofLine_lineOf` in the namespace of each record — what its line reads back as.
* `complaints_lineOf` in the namespace of each record — its line passes the checks.
-/

namespace AchCourier.Ach

/-- The columns of a number read as a number. -/
theorem isNumeric_number {cells : List Cell} (hcells : ∀ c ∈ cells, c.Legible)
    {first last width n : Nat} (hat : cellAt first cells = some (.number width n))
    (hlast : first - 1 + width = last) : IsNumeric first last (lineOf cells) := by
  rw [IsNumeric, naturalAt?_number hcells hat hlast, Option.isSome_some]

/-! ### File headers -/

namespace FileHeader

/-- The header with its priority code filled up with zeros. -/
def padded (h : FileHeader) : FileHeader :=
  { h with priorityCode := zeroPadded 2 h.priorityCode }

section
variable {h : FileHeader} (hcells : ∀ c ∈ h.cells, c.Legible)
include hcells

theorem ofLine_lineOf_of_legible : ofLine (lineOf h.cells) = h.padded := by
  cases h
  simp only [ofLine, padded, mk.injEq]
  exact ⟨textAt_zeros hcells rfl rfl, textAt_right hcells rfl rfl, textAt_right hcells rfl rfl,
    textAt_left hcells rfl rfl, textAt_left hcells rfl rfl, textAt_left hcells rfl rfl,
    textAt_left hcells rfl rfl, textAt_left hcells rfl rfl, textAt_left hcells rfl rfl⟩

theorem complaints_lineOf (hv : h.Valid) : complaints (lineOf h.cells) = [] := by
  have hat : cellAt 35 h.cells = some (.fixed "094101".toList) := rfl
  have hfixed : cut 35 40 (lineOf h.cells) = "094101".toList := cut_lineOf hcells hat
  refine complaints_eq_nil_iff.mpr ⟨⟨?_, ?_, ?_⟩, ?_⟩
  · rw [cut_within (by decide) (by decide : 35 ≤ 35) (by decide : 37 ≤ 40), hfixed]; rfl
  · rw [cut_within (by decide) (by decide : 35 ≤ 38) (by decide : 39 ≤ 40), hfixed]; rfl
  · rw [cut_within (by decide) (by decide : 35 ≤ 40) (by decide : 40 ≤ 40), hfixed]; rfl
  · rw [ofLine_lineOf_of_legible hcells]
    simp only [padded]
    exact ⟨hv.destination, hv.origin, hv.date, hv.modifier⟩

end

theorem ofLine_lineOf {h : FileHeader} (hfit : ∀ c ∈ h.cells, c.Fits) :
    ofLine (lineOf h.cells) = h.padded :=
  ofLine_lineOf_of_legible (Cell.legible_of_fits hfit)

end FileHeader

/-! ### Batch headers -/

namespace BatchHeader

variable {h : BatchHeader} (hcells : ∀ c ∈ h.cells, c.Legible)
include hcells

theorem ofLine_lineOf : ofLine (lineOf h.cells) = h := by
  cases h
  simp only [ofLine, mk.injEq]
  exact ⟨naturalAt_number hcells rfl rfl, textAt_left hcells rfl rfl, textAt_left hcells rfl rfl,
    textAt_left hcells rfl rfl, textAt_left hcells rfl rfl, textAt_left hcells rfl rfl,
    textAt_left hcells rfl rfl, textAt_left hcells rfl rfl, textAt_left hcells rfl rfl,
    textAt_left hcells rfl rfl, textAt_left hcells rfl rfl, naturalAt_number hcells rfl rfl⟩

theorem complaints_lineOf (hv : h.Valid) : complaints (lineOf h.cells) = [] := by
  refine complaints_eq_nil_iff.mpr
    ⟨⟨isNumeric_number hcells rfl rfl, isNumeric_number hcells rfl rfl⟩, ?_⟩
  rwa [ofLine_lineOf hcells]

end BatchHeader

/-! ### Entries -/

namespace Entry

/-- The entry without its identity and its addenda. -/
def bare (e : Entry) : Entry :=
  { e with id := none, remittances := [], changeNotice := none, returnNotice := none }

/-- The entry with its trace number filled up with zeros. -/
def padded (e : Entry) : Entry :=
  { e with traceNumber := zeroPadded 15 e.traceNumber }

variable {e : Entry} (hcells : ∀ c ∈ e.cells, c.Legible)
include hcells

theorem ofLine_lineOf : ofLine (lineOf e.cells) = e.padded.bare := by
  cases e
  simp only [ofLine, padded, bare, mk.injEq]
  exact ⟨trivial, naturalAt_number hcells rfl rfl, textAt_left hcells rfl rfl,
    textAt_left hcells rfl rfl, textAt_left hcells rfl rfl, naturalAt_number hcells rfl rfl,
    textAt_left hcells rfl rfl, textAt_left hcells rfl rfl, textAt_left hcells rfl rfl,
    naturalAt_number hcells rfl rfl, textAt_zeros hcells rfl rfl, trivial, trivial, trivial⟩

theorem complaints_lineOf (hv : e.Valid) : complaints (lineOf e.cells) = [] := by
  refine complaints_eq_nil_iff.mpr ⟨⟨isNumeric_number hcells rfl rfl,
    isNumeric_number hcells rfl rfl, isNumeric_number hcells rfl rfl⟩, ?_⟩
  rw [ofLine_lineOf hcells]
  simp only [bare, padded, zeroPadded_eq_self hv.trace.1]
  exact ⟨hv.transaction, hv.rdfi, hv.checkDigit, hv.account, hv.indicator, hv.trace, hv.prenote⟩

end Entry

/-! ### Addenda -/

/-- The information with the sequence number of its entry filled up with zeros. -/
def Remittance.padded (a : Remittance) : Remittance :=
  { a with entryDetailSequenceNumber := zeroPadded 7 a.entryDetailSequenceNumber }

theorem Remittance.ofLine_lineOf {a : Remittance} (hcells : ∀ c ∈ a.cells, c.Legible) :
    ofLine (lineOf a.cells) = a.padded := by
  cases a
  simp only [ofLine, padded, mk.injEq]
  exact ⟨textAt_left hcells rfl rfl, naturalAt_number hcells rfl rfl, textAt_zeros hcells rfl rfl⟩

theorem ChangeNotice.ofLine_lineOf {a : ChangeNotice} (hcells : ∀ c ∈ a.cells, c.Legible) :
    ofLine (lineOf a.cells) = a := by
  cases a
  simp only [ofLine, mk.injEq]
  exact ⟨textAt_left hcells rfl rfl, textAt_left hcells rfl rfl, textAt_left hcells rfl rfl,
    textAt_left hcells rfl rfl, textAt_left hcells rfl rfl⟩

theorem ReturnNotice.ofLine_lineOf {a : ReturnNotice} (hcells : ∀ c ∈ a.cells, c.Legible) :
    ofLine (lineOf a.cells) = a := by
  cases a
  simp only [ofLine, mk.injEq]
  exact ⟨textAt_left hcells rfl rfl, textAt_left hcells rfl rfl, textAt_left hcells rfl rfl,
    textAt_left hcells rfl rfl, textAt_left hcells rfl rfl, textAt_left hcells rfl rfl⟩

namespace Addenda

/-- The addenda with the zeros of remittance information. -/
def padded : Addenda → Addenda
  | .remittance a => .remittance a.padded
  | .change a => .change a
  | .returned a => .returned a

variable {a : Addenda} (hcells : ∀ c ∈ a.cells, c.Legible)
include hcells

theorem ofLine?_lineOf : ofLine? (lineOf a.cells) = some a.padded := by
  cases a with
  | remittance a => exact congrArg (some ∘ remittance) (Remittance.ofLine_lineOf hcells)
  | change a => exact congrArg (some ∘ change) (ChangeNotice.ofLine_lineOf hcells)
  | returned a => exact congrArg (some ∘ returned) (ReturnNotice.ofLine_lineOf hcells)

theorem complaints_lineOf (hv : a.Valid) : complaints (lineOf a.cells) = [] := by
  refine complaints_eq_nil_iff.mpr ⟨a.padded, ofLine?_lineOf hcells, ?_⟩
  cases a with
  | remittance a =>
    exact ⟨isNumeric_number hcells (by rfl : cellAt 84 a.cells = some (.number 4 _)) rfl, trivial⟩
  | change a => exact ⟨trivial, hv⟩
  | returned a => exact ⟨trivial, hv⟩

end Addenda

/-! ### Controls -/

theorem BatchControl.ofLine_lineOf {c : BatchControl} (hcells : ∀ d ∈ c.cells, d.Legible) :
    ofLine (lineOf c.cells) = c := by
  cases c
  simp only [ofLine, mk.injEq]
  exact ⟨naturalAt_number hcells rfl rfl, naturalAt_number hcells rfl rfl,
    naturalAt_number hcells rfl rfl, naturalAt_number hcells rfl rfl,
    naturalAt_number hcells rfl rfl, textAt_left hcells rfl rfl, textAt_left hcells rfl rfl,
    textAt_left hcells rfl rfl, naturalAt_number hcells rfl rfl⟩

theorem BatchControl.complaints_lineOf {c : BatchControl} (hcells : ∀ d ∈ c.cells, d.Legible) :
    complaints (lineOf c.cells) = [] :=
  complaints_eq_nil_iff.mpr ⟨isNumeric_number hcells rfl rfl, isNumeric_number hcells rfl rfl,
    isNumeric_number hcells rfl rfl, isNumeric_number hcells rfl rfl,
    isNumeric_number hcells rfl rfl, isNumeric_number hcells rfl rfl⟩

theorem FileControl.ofLine_lineOf {c : FileControl} (hfit : ∀ d ∈ c.cells, d.Fits) :
    ofLine (lineOf c.cells) = c := by
  have hcells := Cell.legible_of_fits hfit
  cases c
  simp only [ofLine, mk.injEq]
  exact ⟨naturalAt_number hcells rfl rfl, naturalAt_number hcells rfl rfl,
    naturalAt_number hcells rfl rfl, naturalAt_number hcells rfl rfl,
    naturalAt_number hcells rfl rfl, naturalAt_number hcells rfl rfl⟩

theorem FileControl.complaints_lineOf {c : FileControl} (hfit : ∀ d ∈ c.cells, d.Fits) :
    complaints (lineOf c.cells) = [] := by
  have hcells := Cell.legible_of_fits hfit
  exact complaints_eq_nil_iff.mpr ⟨isNumeric_number hcells rfl rfl,
    isNumeric_number hcells rfl rfl, isNumeric_number hcells rfl rfl,
    isNumeric_number hcells rfl rfl, isNumeric_number hcells rfl rfl,
    isNumeric_number hcells rfl rfl⟩

/-! ### Sample records -/

/-- A file header with what must be given. -/
def sampleFileHeader : FileHeader where
  priorityCode := "01"
  immediateDestination := "231380104"
  immediateOrigin := "121042882"
  fileCreationDate := "190816"
  fileIdModifier := "A"

/-- A batch header for payments to persons. -/
def sampleBatchHeader : BatchHeader where
  serviceClassCode := 220
  companyIdentification := "121042882"
  standardEntryClassCode := "PPD"
  odfiIdentification := "12104288"
  batchNumber := 1

/-- A credit of a thousand dollars to a checking account. -/
def sampleEntry : Entry where
  transactionCode := 22
  rdfiIdentification := "23138010"
  checkDigit := "4"
  dfiAccountNumber := "81967038518"
  amount := 100000
  traceNumber := "121042880000001"

end AchCourier.Ach
