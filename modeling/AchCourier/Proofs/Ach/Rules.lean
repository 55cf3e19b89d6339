import AchCourier.Ach.Reader
import Mathlib.Tactic.MkIffOfInductiveProp

/-!
# The rules of a record

A line passes its checks exactly when its numbers are numbers, its fixed columns hold their text,
and the record on it keeps the rules of its kind.  The rules concern the record alone, so they can
be said of records that were never read.

## Main definitions

* `Valid` in the namespace of each record — the rules of its kind.

## Main results

* `complaints_eq_nil_iff` in the namespace of each record — the lines that pass.
-/

namespace AchCourier.Ach

/-! ### Single rules -/

/-- The text is `count` digits. -/
def IsDigits (count : Nat) (s : String) : Prop :=
  s.toList.length = count ∧ s.toList.all Char.isDigit = true

instance (count : Nat) (s : String) : Decidable (IsDigits count s) :=
  inferInstanceAs (Decidable (_ ∧ _))

/-- The columns hold a number or blanks alone. -/
def IsNumeric (first last : Nat) (line : List Char) : Prop :=
  (naturalAt? first last line).isSome = true

@[simp] theorem complainUnless_eq_nil_iff {ok : Bool} {field : String} {cause : Cause} :
    complainUnless ok field cause = [] ↔ ok = true := by
  cases ok <;> simp [complainUnless]

@[simp] theorem mustBeNumeric_eq_nil_iff {field : String} {first last : Nat}
    {line : List Char} : mustBeNumeric field first last line = [] ↔ IsNumeric first last line := by
  simp [mustBeNumeric, IsNumeric]

@[simp] theorem mustBeFixed_eq_nil_iff {field expected : String} {first last : Nat}
    {line : List Char} :
    mustBeFixed field first last expected line = [] ↔ cut first last line = expected.toList := by
  rw [mustBeFixed, complainUnless_eq_nil_iff, beq_iff_eq]
  constructor
  · rintro rfl
    rw [String.toList_ofList]
  · intro h
    rw [h, String.ofList_toList]

@[simp] theorem mustBeGiven_eq_nil_iff {field value : String} :
    mustBeGiven field value = [] ↔ value ≠ "" := by
  simp [mustBeGiven]

@[simp] theorem mustBeDigits_eq_nil_iff {field value : String} {count : Nat} :
    mustBeDigits field value count = [] ↔ IsDigits count value := by
  simp [mustBeDigits, IsDigits]

/-! ### Headers -/

/-- The rules of a file header. -/
@[mk_iff]
structure FileHeader.Valid (h : FileHeader) : Prop where
  destination : h.immediateDestination ≠ ""
  origin : h.immediateOrigin ≠ ""
  date : isDate h.fileCreationDate = true
  modifier : isModifier h.fileIdModifier = true

instance (h : FileHeader) : Decidable h.Valid :=
  decidable_of_iff' _ h.valid_iff

theorem FileHeader.dateComplaints_eq_nil_iff {date : String} :
    dateComplaints date = [] ↔ isDate date = true := by
  by_cases h : date = ""
  · subst h
    constructor
    · intro h; cases h
    · intro h; exact absurd h (by decide)
  · simp [dateComplaints, h]

theorem FileHeader.complaints_eq_nil_iff {line : List Char} :
    complaints line = [] ↔
      (cut 35 37 line = "094".toList ∧ cut 38 39 line = "10".toList ∧
        cut 40 40 line = "1".toList) ∧ (ofLine line).Valid := by
  simp only [complaints, List.append_eq_nil_iff, mustBeFixed_eq_nil_iff, mustBeGiven_eq_nil_iff,
    dateComplaints_eq_nil_iff, complainUnless_eq_nil_iff, valid_iff, and_assoc]

/-- The rules of a batch header. -/
@[mk_iff]
structure BatchHeader.Valid (h : BatchHeader) : Prop where
  serviceClass : h.serviceClassCode ∈ serviceClassCodes
  entryClass : isEntryClass h.standardEntryClassCode = true
  company : h.companyIdentification ≠ ""
  odfi : IsDigits 8 h.odfiIdentification

instance (h : BatchHeader) : Decidable h.Valid :=
  decidable_of_iff' _ h.valid_iff

theorem BatchHeader.complaints_eq_nil_iff {line : List Char} :
    complaints line = [] ↔
      (IsNumeric 2 4 line ∧ IsNumeric 88 94 line) ∧ (ofLine line).Valid := by
  simp only [complaints, List.append_eq_nil_iff, mustBeNumeric_eq_nil_iff,
    complainUnless_eq_nil_iff, List.contains_iff_mem, mustBeGiven_eq_nil_iff,
    mustBeDigits_eq_nil_iff, valid_iff, and_assoc]

/-! ### Entries and addenda -/

/-- The rules of an entry. -/
@[mk_iff]
structure Entry.Valid (e : Entry) : Prop where
  transaction : e.transactionCode ∈ transactionCodes
  rdfi : IsDigits 8 e.rdfiIdentification
  checkDigit : ∀ d ∈ checkDigit? e.rdfiIdentification, e.checkDigit = d.repr
  account : e.dfiAccountNumber ≠ ""
  indicator : e.addendaRecordIndicator ≤ 1
  trace : IsDigits 15 e.traceNumber
  prenote : e.isPrenote = true → e.amount = 0

instance (e : Entry) : Decidable e.Valid :=
  decidable_of_iff' _ e.valid_iff

theorem Entry.checkDigitComplaints_eq_nil_iff {routing digit : String} :
    checkDigitComplaints routing digit = [] ↔ ∀ d ∈ checkDigit? routing, digit = d.repr := by
  rw [checkDigitComplaints]
  cases checkDigit? routing <;> simp

theorem Entry.complaints_eq_nil_iff {line : List Char} :
    complaints line = [] ↔
      (IsNumeric 2 3 line ∧ IsNumeric 30 39 line ∧ IsNumeric 79 79 line) ∧
        (ofLine line).Valid := by
  have hprenote : ∀ e : Entry,
      (!e.isPrenote || e.amount == 0) = true ↔ (e.isPrenote = true → e.amount = 0) := by
    intro e
    cases e.isPrenote <;> simp
  simp only [complaints, List.append_eq_nil_iff, mustBeNumeric_eq_nil_iff,
    complainUnless_eq_nil_iff, List.contains_iff_mem, mustBeGiven_eq_nil_iff,
    mustBeDigits_eq_nil_iff, checkDigitComplaints_eq_nil_iff, decide_eq_true_eq, hprenote,
    valid_iff, and_assoc]

/-- The rules of an addenda record. -/
def Addenda.Valid : Addenda → Prop
  | .remittance _ => True
  | .change a => isReasonCode 'C' a.changeCode = true ∧ a.correctedData ≠ ""
  | .returned a => isReasonCode 'R' a.returnCode = true

instance : (a : Addenda) → Decidable a.Valid
  | .remittance _ => inferInstanceAs (Decidable True)
  | .change _ => inferInstanceAs (Decidable (_ ∧ _))
  | .returned _ => inferInstanceAs (Decidable (_ = true))

/-- The numbers of an addenda record are numbers; only remittance information has one. -/
def Addenda.NumericOn (line : List Char) : Addenda → Prop
  | .remittance _ => IsNumeric 84 87 line
  | .change _ => True
  | .returned _ => True

theorem Addenda.complaints_eq_nil_iff {line : List Char} :
    complaints line = [] ↔ ∃ a, ofLine? line = some a ∧ a.NumericOn line ∧ a.Valid := by
  rw [complaints]
  cases ofLine? line with
  | none => simp
  | some a =>
    cases a <;> simp [NumericOn, Valid]

/-! ### Controls -/

theorem BatchControl.complaints_eq_nil_iff {line : List Char} :
    complaints line = [] ↔
      IsNumeric 2 4 line ∧ IsNumeric 5 10 line ∧ IsNumeric 11 20 line ∧ IsNumeric 21 32 line ∧
        IsNumeric 33 44 line ∧ IsNumeric 88 94 line := by
  simp only [complaints, List.append_eq_nil_iff, mustBeNumeric_eq_nil_iff, and_assoc]

theorem FileControl.complaints_eq_nil_iff {line : List Char} :
    complaints line = [] ↔
      IsNumeric 2 7 line ∧ IsNumeric 8 13 line ∧ IsNumeric 14 21 line ∧ IsNumeric 22 31 line ∧
        IsNumeric 32 43 line ∧ IsNumeric 44 55 line := by
  simp only [complaints, List.append_eq_nil_iff, mustBeNumeric_eq_nil_iff, and_assoc]

end AchCourier.Ach
