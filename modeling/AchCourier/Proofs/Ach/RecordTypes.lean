import AchCourier.Ach.Writer
import AchCourier.Proofs.Ach.Ledger

/-!
# Records by their type

The records of a text are its lines that are not blank.  A record is 94 ASCII characters long, and
its first character is its type; a line of nines has none.  These notions say what a record is from
its characters alone, and classifying a line comes to the same.

## Main definitions

* `recordsOf` — the records of a byte string.
* `IsRecord`, `hasType`, `isBatchRecord` — the shape and the type of a record.
* `FieldsPass` — the checks on the fields of a record.

## Main results

* `complaints_classify_eq_nil_iff` — the records with which nothing is wrong.
* `classify_of_hasType` — a record of a type is classified by it.
-/

namespace AchCourier.Ach

/-- The records of a byte string: the lines, or the slices of an unbroken text, that are not
blank.  What a text is cut into is said by `rawLines_eq_iff`. -/
def recordsOf (bytes : Bytes) : List (List Char) :=
  (rawLines (Utf8.decodeLossy bytes)).filter fun line => !line.all Text.isBlank

/-- The record is 94 ASCII characters. -/
def IsRecord (record : List Char) : Prop :=
  record.length = recordLength ∧ record.all isAscii = true

/-- The record begins with the given type and does not only fill up a block. -/
def hasType (type : Char) (record : List Char) : Bool :=
  record.head? == some type && record != paddingLine

/-- The record belongs to a batch: its type is 5, 6, 7 or 8. -/
def isBatchRecord (record : List Char) : Bool :=
  ['5', '6', '7', '8'].any (hasType · record)

/-- The record is of a known type and passes the checks on its own fields. -/
def FieldsPass (record : List Char) : Prop :=
  match record.head? with
  | some '1' => FileHeader.complaints record = []
  | some '5' => BatchHeader.complaints record = []
  | some '6' => Entry.complaints record = []
  | some '7' => Addenda.complaints record = []
  | some '8' => BatchControl.complaints record = []
  | some '9' => FileControl.complaints record = []
  | _ => False

/-- The line that a record of the given type is. -/
def Line.ofType (record : List Char) : Char → Line
  | '1' => .fileHeader record
  | '5' => .batchHeader record
  | '6' => .entry record
  | '7' => .addenda record
  | '8' => .batchControl record
  | '9' => .fileControl record
  | type => .unknown type

theorem paddingLine_eq_iff {record : List Char} (hr : IsRecord record) :
    record.all (· == '9') = true ↔ record = paddingLine := by
  rw [paddingLine, List.eq_replicate_iff, List.all_eq_true]
  simp [hr.1]

/-- A line of 94 ASCII characters is classified by its first one. -/
theorem classify_of_isRecord {record : List Char} (hb : record.all Text.isBlank = false)
    (hr : IsRecord record) :
    classify record =
      if record = paddingLine then .padding
      else (record.head?.map (Line.ofType record)).getD .blank := by
  have hshape : (!record.all isAscii || record.length != recordLength) = false := by
    rw [hr.1, hr.2]
    rfl
  unfold classify
  rw [hb, hshape, if_neg Bool.false_ne_true, if_neg Bool.false_ne_true]
  -- a line of nines is padding, although it begins like a file control
  by_cases hp : record = paddingLine
  · rw [if_pos ((paddingLine_eq_iff hr).mpr hp), if_pos hp]
  · rw [if_neg fun h => hp ((paddingLine_eq_iff hr).mp h), if_neg hp]
    cases record with
    | nil => rfl
    | cons c cs =>
      simp only [List.head?_cons, Option.map_some, Option.getD_some]
      fun_cases Line.ofType (c :: cs) c with
      | case7 h1 h5 h6 h7 h8 h9 => split <;> simp_all
      | _ => rfl

theorem classify_of_not_isRecord {record : List Char} (hb : record.all Text.isBlank = false)
    (hr : ¬ IsRecord record) : classify record = .misshapen record.length := by
  have hshape : (!record.all isAscii || record.length != recordLength) = true := by
    rw [Bool.or_eq_true, Bool.not_eq_true', bne_iff_ne]
    by_cases ha : record.all isAscii = true
    · exact Or.inr fun hl => hr ⟨hl, ha⟩
    · exact Or.inl (Bool.eq_false_iff.mpr ha)
  unfold classify
  rw [hb, hshape, if_neg Bool.false_ne_true, if_pos rfl]

theorem hasType_eq_beq {t u : Char} {record : List Char} (h : hasType t record = true) :
    hasType u record = (u == t) := by
  simp only [hasType, Bool.and_eq_true, beq_iff_eq, bne_iff_ne] at h
  rw [hasType, h.1, bne_iff_ne.mpr h.2, Bool.and_true]
  by_cases hu : u = t
  · simp [hu]
  · simp [hu, Ne.symm hu]

@[simp] theorem hasType_paddingLine (t : Char) : hasType t paddingLine = false := by
  simp [hasType]

theorem not_blank_of_hasType {t : Char} {record : List Char} (h : hasType t record = true)
    (ht : Text.isBlank t = false) : record.all Text.isBlank = false := by
  simp only [hasType, Bool.and_eq_true, beq_iff_eq] at h
  exact List.all_eq_false.mpr ⟨t, List.mem_of_mem_head? h.1, by simp [ht]⟩

section
variable {record : List Char} (hb : record.all Text.isBlank = false)
include hb

theorem classify_of_hasType {t : Char} (hr : IsRecord record) (h : hasType t record = true) :
    classify record = .ofType record t := by
  simp only [hasType, Bool.and_eq_true, beq_iff_eq, bne_iff_ne] at h
  rw [classify_of_isRecord hb hr, if_neg h.2, h.1]
  rfl

/-- A record fills up a block or has a type. -/
theorem eq_paddingLine_or_hasType : record = paddingLine ∨ ∃ t, hasType t record = true := by
  by_cases hp : record = paddingLine
  · exact Or.inl hp
  · cases record with
    | nil => simp at hb
    | cons t cs => exact Or.inr ⟨t, by simp [hasType, hp]⟩

/-- A test that looks at the type alone can be made before or after classifying. -/
theorem test_classify {test : Line → Bool} {types : List Char} (hr : IsRecord record)
    (hpad : test .padding = false)
    (htest : ∀ line t, test (.ofType line t) = types.contains t) :
    test (classify record) = types.any (hasType · record) := by
  rcases eq_paddingLine_or_hasType hb with rfl | ⟨t, ht⟩
  · rw [classify_of_isRecord hb hr, if_pos rfl, hpad]
    simp
  · rw [classify_of_hasType hb hr ht, htest]
    simp only [hasType_eq_beq ht, List.contains_eq_any_beq]
    congr 1
    funext u
    exact Bool.beq_comm

/-- **The records with which nothing is wrong.** -/
theorem complaints_classify_eq_nil_iff :
    (classify record).complaints = [] ↔
      IsRecord record ∧ (record = paddingLine ∨ FieldsPass record) := by
  by_cases hr : IsRecord record
  · rw [classify_of_isRecord hb hr]
    by_cases hp : record = paddingLine
    · subst hp
      simp [hr, Line.complaints]
    · cases record with
      | nil => simp at hb
      | cons c cs =>
        simp only [hp, if_false, List.head?_cons, Option.map_some, Option.getD_some, hr,
          FieldsPass, true_and, false_or]
        -- an unknown type is a complaint in itself
        fun_cases Line.ofType (c :: cs) c with
        | case7 h1 h5 h6 h7 h8 h9 => split <;> simp_all [Line.complaints]
        | _ => rfl
  · simp [classify_of_not_isRecord hb hr, hr, Line.complaints]

end

theorem classify_eq_blank_iff {record : List Char} :
    classify record = .blank ↔ record.all Text.isBlank = true := by
  cases hb : record.all Text.isBlank with
  | true =>
    refine iff_of_true ?_ rfl
    unfold classify
    rw [if_pos hb]
  | false =>
    rw [Bool.false_eq_true, iff_false]
    by_cases hr : IsRecord record
    · rcases eq_paddingLine_or_hasType hb with rfl | ⟨t, ht⟩
      · rw [classify_of_isRecord hb hr, if_pos rfl]
        exact Line.noConfusion
      · rw [classify_of_hasType hb hr ht]
        fun_cases Line.ofType record t <;> exact Line.noConfusion
    · rw [classify_of_not_isRecord hb hr]
      exact Line.noConfusion

/-- Classifying keeps the records of a byte string apart from its blank lines. -/
theorem filter_linesOf (bytes : Bytes) :
    (linesOf bytes).filter (· != .blank) = (recordsOf bytes).map classify := by
  rw [linesOf, recordsOf, List.filter_map]
  congr 1
  refine List.filter_congr fun record _ => ?_
  cases hb : record.all Text.isBlank with
  | true => simp [classify_eq_blank_iff.mpr hb]
  | false =>
    have hne : classify record ≠ .blank := fun h => by
      rw [classify_eq_blank_iff.mp h] at hb
      cases hb
    simp [hne]

theorem not_blank_of_mem_recordsOf {bytes : Bytes} {record : List Char}
    (h : record ∈ recordsOf bytes) : record.all Text.isBlank = false := by
  simpa using (List.mem_filter.mp h).2

end AchCourier.Ach
