import AchCourier.Proofs.Ach.Division

/-!
# The grammar of a file

Apart from its file header, its file control and its padding, a file without faults is a sequence
of batches: a batch header, entries with the addenda that they announce, and a control that repeats
what they add up to.  The file header and the file control may stand anywhere, and the file control
repeats what the batches closed before it add up to.

## Main definitions

* `Conforms` — the records of a file that divide into the given batches.
* `usualOrder` — a file header, batches, a file control and padding.
* `fileOf` — the file that conforming records hold.

## Main results

* `Conforms.admitsAll`, `exists_conforms` — the records with which nothing is wrong.
* `exists_read_eq_ok_iff` — **reading succeeds exactly on the records of the grammar.**
* `read_eq_ok_iff` — what reading makes of them.
-/

namespace AchCourier.Ach

/-- The records of a file, with the records of its batches. -/
structure Conforms (records : List (List Char)) (batches : List BatchRecords) : Prop where
  /-- Every record is 94 ASCII characters. -/
  shape : ∀ r ∈ records, IsRecord r
  /-- Every record fills up a block or is of a known type and passes the checks on its fields. -/
  fields : ∀ r ∈ records, r = paddingLine ∨ FieldsPass r
  /-- There is one file header. -/
  header : records.countP (hasType '1') = 1
  /-- There is one file control. -/
  control : records.countP (hasType '9') = 1
  /-- The other records are those of the batches, in their order. -/
  division : records.filter isBatchRecord = batches.flatMap BatchRecords.records
  /-- Each batch is well formed, and its control agrees with it. -/
  wellFormed : ∀ b ∈ batches, b.WellFormed
  /-- The file control agrees with the batches closed before it. -/
  totals : ∀ before c after, records = before ++ c :: after → hasType '9' c = true →
    (FileControl.ofLine c).Agrees
      ((batches.take (before.countP (hasType '8'))).map BatchRecords.batch)

/-! ### Ledgers along a text -/

/-- The line closes a batch. -/
def Line.isBatchControl : Line → Bool
  | .batchControl _ => true
  | _ => false

namespace Ledger

/-- Lines are admitted when each of them is, by the ledger that the lines before it leave. -/
theorem admitsAll_iff_forall_split {s : Ledger} {lines : List Line} :
    s.AdmitsAll lines ↔
      ∀ before l after, lines = before ++ l :: after → (before.foldl step s).Admits l := by
  constructor
  · rintro h before l after rfl
    exact (admitsAll_append.mp h).2.1
  · intro h
    induction lines generalizing s with
    | nil => trivial
    | cons l lines ih =>
      refine ⟨h [] l lines rfl, ih fun before l' after heq => ?_⟩
      exact h (l :: before) l' after (by rw [heq, List.cons_append])

theorem closed_prefix_step (s : Ledger) (l : Line) : s.closed <+: (s.step l).closed := by
  cases l with
  | addenda line =>
    rw [step]
    split <;> exact List.prefix_refl _
  | batchHeader line => exact List.prefix_append _ _
  | batchControl line => exact List.prefix_append _ _
  | _ => exact List.prefix_refl _

/-- Batches stay closed. -/
theorem closed_prefix_foldl (s : Ledger) (lines : List Line) :
    s.closed <+: (lines.foldl step s).closed := by
  induction lines generalizing s with
  | nil => exact List.prefix_refl _
  | cons l lines ih => exact (closed_prefix_step s l).trans (ih (s.step l))

theorem length_closed_step {s : Ledger} {l : Line} (h : s.Admits l) :
    (s.step l).closed.length = s.closed.length + if l.isBatchControl then 1 else 0 := by
  cases l with
  | addenda line =>
    rw [step]
    split <;> rfl
  | batchHeader line =>
    -- a batch header is admitted only where no batch is open, so it closes none
    replace h : s.current = none := h
    simp [step, h, Line.isBatchControl]
  | batchControl line =>
    obtain ⟨b, hb, -⟩ := h
    replace hb : s.current = some b := hb
    simp [step, hb, Line.isBatchControl]
  | _ => rfl

/-- Every batch control that is admitted closes one batch, and nothing else does. -/
theorem length_closed_foldl {s : Ledger} {lines : List Line} (h : s.AdmitsAll lines) :
    (lines.foldl step s).closed.length =
      s.closed.length + lines.countP Line.isBatchControl := by
  induction lines generalizing s with
  | nil => rfl
  | cons l lines ih =>
    rw [List.foldl_cons, ih h.2, length_closed_step h.1, List.countP_cons]
    omega

end Ledger

section
variable {records : List (List Char)} (hb : ∀ r ∈ records, r.all Text.isBlank = false)
  (hr : ∀ r ∈ records, IsRecord r)
include hb hr

/-- Counting records of a type is counting lines of their kind. -/
theorem countP_map_classify {test : Line → Bool} {t : Char} (hpad : test .padding = false)
    (htest : ∀ line u, test (.ofType line u) = [t].contains u) :
    (records.map classify).countP test = records.countP (hasType t) := by
  rw [List.countP_map]
  refine List.countP_congr fun r h => ?_
  rw [Function.comp_apply, test_classify (hb r h) (hr r h) hpad htest]
  simp

/-- Only the records of batches change the ledger. -/
theorem foldl_map_classify_filter (s : Ledger) :
    ((records.filter isBatchRecord).map classify).foldl Ledger.step s =
      (records.map classify).foldl Ledger.step s := by
  induction records generalizing s with
  | nil => rfl
  | cons r records ih =>
    obtain ⟨hb', hbs⟩ := List.forall_mem_cons.mp hb
    obtain ⟨hr', hrs⟩ := List.forall_mem_cons.mp hr
    rw [List.filter_cons]
    split
    · rw [List.map_cons, List.foldl_cons, List.map_cons, List.foldl_cons, ih hbs hrs]
    · next hn =>
      rw [List.map_cons, List.foldl_cons, ih hbs hrs,
        Ledger.step_classify_of_not_isBatchRecord s hb' hr' (by simpa using hn)]

end

/-- The batches closed by some of the records are the first ones of those closed by all. -/
theorem closed_before (before after : List (List Char))
    (hb : ∀ r ∈ before ++ after, r.all Text.isBlank = false)
    (hr : ∀ r ∈ before ++ after, IsRecord r)
    (h : ({} : Ledger).AdmitsAll (before.map classify)) :
    ((before.map classify).foldl Ledger.step {}).closed =
      (((before ++ after).map classify).foldl Ledger.step {}).closed.take
        (before.countP (hasType '8')) := by
  have hlen := Ledger.length_closed_foldl h
  rw [countP_map_classify (fun r h => hb r (List.mem_append_left _ h))
    (fun r h => hr r (List.mem_append_left _ h)) (t := '8') rfl
    fun line u => by fun_cases Line.ofType line u <;> simp_all [Line.isBatchControl],
    List.length_nil, Nat.zero_add] at hlen
  -- they are a prefix, and every batch control among `before` has closed one
  have hpre := Ledger.closed_prefix_foldl ((before.map classify).foldl Ledger.step {})
    (after.map classify)
  rw [← List.foldl_append, ← List.map_append, List.prefix_iff_eq_take, hlen] at hpre
  exact hpre

/-! ### Records that conform -/

section
variable {records : List (List Char)} {batches : List BatchRecords}
  (hb : ∀ r ∈ records, r.all Text.isBlank = false)
include hb

/-- The ledger behind conforming records has their batches closed and none open. -/
theorem Conforms.foldl_step (h : Conforms records batches) :
    (records.map classify).foldl Ledger.step {} = ⟨batches.map BatchRecords.batch, none⟩ := by
  have htakes := BatchRecords.takes_flatMap batches [] h.wellFormed fun r hr =>
    h.shape r (List.mem_filter.mp (h.division ▸ hr)).1
  rw [← foldl_map_classify_filter hb h.shape, h.division]
  exact htakes.2

omit hb in
/-- The type of a record of a batch is counted among all records or among those of batches. -/
theorem countP_filter_isBatchRecord (records : List (List Char)) :
    (records.filter isBatchRecord).countP (hasType '8') = records.countP (hasType '8') := by
  rw [List.countP_filter]
  refine List.countP_congr fun r _ => ?_
  rw [Bool.and_eq_true]
  refine ⟨And.left, fun ht => ⟨ht, ?_⟩⟩
  rw [isBatchRecord_of_hasType ht]
  rfl

/-- **Conforming records are admitted**, one after another. -/
theorem Conforms.admitsAll (h : Conforms records batches) :
    ({} : Ledger).AdmitsAll (records.map classify) := by
  have hbatch : ∀ r ∈ records.filter isBatchRecord, r.all Text.isBlank = false ∧ IsRecord r :=
    fun r hr => ⟨hb r (List.mem_filter.mp hr).1, h.shape r (List.mem_filter.mp hr).1⟩
  have htakes := BatchRecords.takes_flatMap batches [] h.wellFormed fun r hr =>
    (hbatch r (h.division ▸ hr)).2
  rw [← h.division] at htakes
  rw [Ledger.admitsAll_iff_forall_split]
  intro before' l after' heq
  obtain ⟨before, rest, hrecords, rfl, hrest⟩ := List.map_eq_append_iff.mp heq
  obtain ⟨r, after, rfl, rfl, rfl⟩ := List.map_eq_cons_iff.mp hrest
  subst hrecords
  have hr : r.all Text.isBlank = false ∧ IsRecord r :=
    ⟨hb r (by simp), h.shape r (by simp)⟩
  -- the ledger before the record is the one that the batch records before it leave
  rw [← foldl_map_classify_filter (fun r hr => hb r (List.mem_append_left _ hr))
    fun r hr => h.shape r (List.mem_append_left _ hr)]
  rw [List.filter_append] at htakes hbatch
  have hsplit := htakes.1
  rw [List.map_append, Ledger.admitsAll_append] at hsplit
  by_cases hrb : isBatchRecord r = true
  · rw [List.filter_cons_of_pos hrb, List.map_cons] at hsplit
    exact hsplit.2.1
  · refine Ledger.admits_classify_of_not_isBatchRecord hr.1 hr.2 (by simpa using hrb)
      fun ht => ?_
    -- the file control stands behind the batches closed before it
    rw [closed_before _ _ (fun r hr => (hbatch r hr).1) (fun r hr => (hbatch r hr).2) hsplit.1,
      htakes.2, List.nil_append, countP_filter_isBatchRecord, ← List.map_take]
    exact h.totals before r after rfl ht

/-- **Records without faults conform.** -/
theorem exists_conforms (hcomplaints : ∀ r ∈ records, (classify r).complaints = [])
    (hadmits : ({} : Ledger).AdmitsAll (records.map classify))
    (hclosed : ((records.map classify).foldl Ledger.step {}).current = none)
    (hheader : records.countP (hasType '1') = 1) (hcontrol : records.countP (hasType '9') = 1) :
    ∃ batches, Conforms records batches := by
  have hpass : ∀ r ∈ records, IsRecord r ∧ (r = paddingLine ∨ FieldsPass r) := fun r hr =>
    (complaints_classify_eq_nil_iff (hb r hr)).mp (hcomplaints r hr)
  have hshape : ∀ r ∈ records, IsRecord r := fun r hr => (hpass r hr).1
  -- the batches are those into which the admitted records divide
  obtain ⟨⟨batches, opening⟩, hwf, hdivision, hledger⟩ :=
    exists_division_of_admitsAll hb hshape hadmits
  rw [hledger, Division.ledger, Option.map_eq_none_iff] at hclosed
  subst hclosed
  refine ⟨batches, hshape, fun r hr => (hpass r hr).2, hheader, hcontrol, ?_, hwf.closed, ?_⟩
  · simpa [Division.records] using hdivision
  · rintro before c after rfl ht
    have hc : classify c = .fileControl c :=
      classify_of_hasType (hb c (by simp)) (hshape c (by simp)) ht
    -- the file control was admitted behind the batches of the records before it
    have hsplit := hadmits
    rw [List.map_append, Ledger.admitsAll_append, List.map_cons, hc] at hsplit
    have hagree := hsplit.2.1
    rwa [Ledger.Admits, closed_before before (c :: after) hb hshape hsplit.1, hledger,
      Division.ledger, ← List.map_take] at hagree

end

/-! ### The usual order -/

/-- A file header, batches, a file control, and lines that only fill up a block. -/
def usualOrder (header : List Char) (batches : List BatchRecords) (control : List Char)
    (padding : Nat) : List (List Char) :=
  header :: batches.flatMap BatchRecords.records ++ [control] ++
    List.replicate padding paddingLine

section
variable {header control : List Char} {batches : List BatchRecords} {padding : Nat}
  (hheader : hasType '1' header = true) (hcontrol : hasType '9' control = true)
  (hbatches : ∀ b ∈ batches, b.WellFormed)
include hheader hcontrol hbatches

theorem countP_usualOrder {t : Char} (ht : ['5', '6', '7', '8'].contains t = false) :
    (usualOrder header batches control padding).countP (hasType t) =
      (if t = '1' then 1 else 0) + (if t = '9' then 1 else 0) := by
  have hpadding : (List.replicate padding paddingLine).countP (hasType t) = 0 := by
    rw [List.countP_replicate, hasType_paddingLine]
    rfl
  rw [usualOrder, List.countP_append, List.countP_append, List.countP_cons,
    BatchRecords.countP_flatMap_records_eq_zero hbatches ht, hpadding, List.countP_singleton,
    hasType_eq_beq hheader, hasType_eq_beq hcontrol]
  simp

theorem filter_usualOrder :
    (usualOrder header batches control padding).filter isBatchRecord =
      batches.flatMap BatchRecords.records := by
  have hbatch : ∀ r ∈ batches.flatMap BatchRecords.records, isBatchRecord r = true := by
    intro r hr
    obtain ⟨b, hb, hrb⟩ := List.mem_flatMap.mp hr
    exact BatchRecords.isBatchRecord_of_mem (hbatches b hb) hrb
  rw [usualOrder, List.filter_append, List.filter_append, List.filter_cons,
    List.filter_singleton, List.filter_replicate, isBatchRecord_of_hasType hheader,
    isBatchRecord_of_hasType hcontrol, isBatchRecord_paddingLine,
    List.filter_eq_self.mpr hbatch]
  simp

omit hcontrol in
/-- The file control stands behind all batches. -/
theorem usualOrder_split {before after : List (List Char)} {c : List Char}
    (hsplit : usualOrder header batches control padding = before ++ c :: after)
    (hc : hasType '9' c = true) :
    c = control ∧ before.countP (hasType '8') = batches.length := by
  -- it is the only record of its type
  have hbefore : c ∉ header :: batches.flatMap BatchRecords.records := by
    intro hmem
    rcases List.mem_cons.mp hmem with rfl | hmem
    · rw [hasType_eq_beq hheader] at hc
      exact absurd hc (by decide)
    · have hzero := BatchRecords.countP_flatMap_records_eq_zero hbatches (t := '9') rfl
      exact List.countP_eq_zero.mp hzero c hmem hc
  have hafter : c ∉ List.replicate padding paddingLine := by
    intro hmem
    rw [List.eq_of_mem_replicate hmem, hasType_paddingLine] at hc
    cases hc
  rw [usualOrder, List.append_assoc, List.singleton_append] at hsplit
  obtain ⟨rfl, rfl, -⟩ := (List.append_cons_inj_of_notMem hbefore hafter).mp hsplit
  rw [List.countP_cons, hasType_eq_beq hheader, BatchRecords.countP_flatMap_records hbatches]
  exact ⟨rfl, rfl⟩

/-- **Records in the usual order conform.** -/
theorem conforms_usualOrder
    (hpass : ∀ r ∈ header :: batches.flatMap BatchRecords.records ++ [control],
      IsRecord r ∧ FieldsPass r)
    (hagree : (FileControl.ofLine control).Agrees (batches.map BatchRecords.batch)) :
    Conforms (usualOrder header batches control padding) batches := by
  refine ⟨fun r hr => ?_, fun r hr => ?_, ?_, ?_, ?_, hbatches, fun before c after hsplit hc => ?_⟩
  · rcases List.mem_append.mp hr with hr | hr
    · exact (hpass r hr).1
    · rw [List.eq_of_mem_replicate hr]
      exact ⟨List.length_replicate, by decide⟩
  · rcases List.mem_append.mp hr with hr | hr
    · exact Or.inr (hpass r hr).2
    · exact Or.inl (List.eq_of_mem_replicate hr)
  · rw [countP_usualOrder hheader hcontrol hbatches rfl]
    rfl
  · rw [countP_usualOrder hheader hcontrol hbatches rfl]
    rfl
  · exact filter_usualOrder hheader hcontrol hbatches
  · obtain ⟨rfl, hclosed⟩ := usualOrder_split hheader hbatches hsplit hc
    rwa [hclosed, List.take_length]

end

/-! ### Reading -/

theorem fileHeader?_ofType (line : List Char) (t : Char) :
    (Line.ofType line t).fileHeader?.isSome = ['1'].contains t := by
  fun_cases Line.ofType line t <;> simp_all [Line.fileHeader?]

theorem fileControl?_ofType (line : List Char) (t : Char) :
    (Line.ofType line t).fileControl?.isSome = ['9'].contains t := by
  fun_cases Line.ofType line t <;> simp_all [Line.fileControl?]

theorem read_of_no_faults {bytes : Bytes} (h : faultsOf bytes = []) :
    read bytes = .ok (recover bytes) := by
  rw [faultsOf] at h
  rw [read, h]
  rfl

theorem read_of_faults {bytes : Bytes} (h : faultsOf bytes ≠ []) :
    read bytes = .error ⟨recover bytes, faultsOf bytes⟩ := by
  rw [read, if_neg (by rwa [List.isEmpty_iff])]
  rfl

/-- **The texts without faults are those whose records conform.** -/
theorem faultsOf_eq_nil_iff (bytes : Bytes) :
    faultsOf bytes = [] ↔ ∃ batches, Conforms (recordsOf bytes) batches := by
  have hb : ∀ r ∈ recordsOf bytes, r.all Text.isBlank = false := fun r =>
    not_blank_of_mem_recordsOf
  rw [faultsOf, ← faults_readLines_filter_blank, filter_linesOf, faults_readLines_eq_nil_iff,
    List.forall_mem_map]
  constructor
  · rintro ⟨hcomplaints, hadmits, hclosed, hheader, hcontrol⟩
    -- the types of the records are those of their lines
    have hr : ∀ r ∈ recordsOf bytes, IsRecord r := fun r hr =>
      ((complaints_classify_eq_nil_iff (hb r hr)).mp (hcomplaints r hr)).1
    rw [countP_map_classify hb hr rfl fileHeader?_ofType] at hheader
    rw [countP_map_classify hb hr rfl fileControl?_ofType] at hcontrol
    exact exists_conforms hb hcomplaints hadmits hclosed hheader hcontrol
  · rintro ⟨batches, h⟩
    refine ⟨fun r hr => ?_, h.admitsAll hb, by rw [h.foldl_step hb], ?_, ?_⟩
    · exact (complaints_classify_eq_nil_iff (hb r hr)).mpr ⟨h.shape r hr, h.fields r hr⟩
    · rw [countP_map_classify hb h.shape rfl fileHeader?_ofType, h.header]
    · rw [countP_map_classify hb h.shape rfl fileControl?_ofType, h.control]

/-- **Reading succeeds exactly on the records of the grammar.** -/
theorem exists_read_eq_ok_iff (bytes : Bytes) :
    (∃ f, read bytes = .ok f) ↔ ∃ batches, Conforms (recordsOf bytes) batches := by
  rw [← faultsOf_eq_nil_iff]
  constructor
  · rintro ⟨f, hf⟩
    by_contra hne
    rw [read_of_faults hne] at hf
    cases hf
  · intro h
    exact ⟨_, read_of_no_faults h⟩

/-! ### The file that conforming records hold -/

/-- The file with the given header, batches and control. -/
def fileOf (header : List Char) (batches : List BatchRecords) (control : List Char) : File where
  header := .ofLine header
  batches := batches.map BatchRecords.batch
  control := .ofLine control
  hasValidHeader := true

theorem filter_hasType_eq_singleton {records : List (List Char)} {t : Char} {r : List Char}
    (hone : records.countP (hasType t) = 1) (hmem : r ∈ records) (ht : hasType t r = true) :
    records.filter (hasType t) = [r] := by
  obtain ⟨x, hx⟩ := List.length_eq_one_iff.mp (List.countP_eq_length_filter ▸ hone)
  have hxr : r = x := by
    rw [← List.mem_singleton, ← hx]
    exact List.mem_filter.mpr ⟨hmem, ht⟩
  rw [hx, hxr]

/-- The only record of its type is the first one that is found. -/
theorem findSome?_map_classify {records : List (List Char)} {pick : Line → Option (List Char)}
    {t : Char} {r : List Char} (hb : ∀ r ∈ records, r.all Text.isBlank = false)
    (hr : ∀ r ∈ records, IsRecord r) (hpad : pick .padding = none)
    (hpick : ∀ line u, pick (.ofType line u) = if u = t then some line else none)
    (hone : records.countP (hasType t) = 1) (hmem : r ∈ records) (ht : hasType t r = true) :
    (records.map classify).findSome? pick = some r := by
  -- among the records that are read, the line picked is the one of the type
  have hguard : ∀ r ∈ records, pick (classify r) = Option.guard (hasType t) r := by
    intro r h
    rcases eq_paddingLine_or_hasType (hb r h) with rfl | ⟨u, hu⟩
    · rw [classify_of_isRecord (hb _ h) (hr _ h), if_pos rfl, hpad, Option.guard,
        hasType_paddingLine]
      rfl
    · rw [classify_of_hasType (hb r h) (hr r h) hu, hpick, Option.guard, hasType_eq_beq hu]
      by_cases hut : u = t <;> simp [hut, Ne.symm]
  have hfilter : records.filterMap (pick ∘ classify) = records.filter (hasType t) := by
    rw [← List.filterMap_eq_filter]
    exact List.filterMap_congr fun r h => hguard r h
  rw [List.findSome?_map, ← List.head?_filterMap, hfilter,
    filter_hasType_eq_singleton hone hmem ht]
  rfl

section
variable {records : List (List Char)} {batches : List BatchRecords} {header control : List Char}
  (h : Conforms records batches) (hheader : header ∈ records)
  (hheaderType : hasType '1' header = true)
include h hheader hheaderType

/-- The file header has passed its checks. -/
theorem Conforms.complaints_header : FileHeader.complaints header = [] := by
  simp only [hasType, Bool.and_eq_true, beq_iff_eq, bne_iff_ne] at hheaderType
  have hpass := (h.fields header hheader).resolve_left hheaderType.2
  rwa [FieldsPass, hheaderType.1] at hpass

/-- Conforming records hold the file of their parts. -/
theorem Conforms.recovered_map_classify (hb : ∀ r ∈ records, r.all Text.isBlank = false)
    (hcontrol : control ∈ records) (hcontrolType : hasType '9' control = true) :
    recovered (records.map classify) = fileOf header batches control := by
  have hfirst : (records.map classify).findSome? Line.fileHeader? = some header :=
    findSome?_map_classify hb h.shape rfl
      (fun line u => by fun_cases Line.ofType line u <;> simp_all [Line.fileHeader?])
      h.header hheader hheaderType
  have hlast : (records.map classify).findSome? Line.fileControl? = some control :=
    findSome?_map_classify hb h.shape rfl
      (fun line u => by fun_cases Line.ofType line u <;> simp_all [Line.fileControl?])
      h.control hcontrol hcontrolType
  simp [recovered, fileOf, hfirst, hlast, h.foldl_step hb,
    h.complaints_header hheader hheaderType]

end

/-- **What reading returns**: the file that the conforming records hold. -/
theorem read_eq_ok_iff {bytes : Bytes} {f : File} :
    read bytes = .ok f ↔ ∃ batches, Conforms (recordsOf bytes) batches ∧
      ∃ header ∈ recordsOf bytes, hasType '1' header = true ∧
        ∃ control ∈ recordsOf bytes, hasType '9' control = true ∧
          f = fileOf header batches control := by
  have hb : ∀ r ∈ recordsOf bytes, r.all Text.isBlank = false := fun r =>
    not_blank_of_mem_recordsOf
  have hrecover : recover bytes = recovered ((recordsOf bytes).map classify) := by
    rw [recover, file_readLines, ← recovered_filter_blank, filter_linesOf]
  constructor
  · intro hread
    -- what is read without an error had no faults, so the records conform
    have hnone : faultsOf bytes = [] := by
      by_contra hne
      rw [read_of_faults hne] at hread
      cases hread
    obtain ⟨batches, h⟩ := (faultsOf_eq_nil_iff bytes).mp hnone
    obtain ⟨header, hheader, ht⟩ := List.countP_pos_iff.mp (h.header ▸ Nat.one_pos)
    obtain ⟨control, hcontrol, hct⟩ := List.countP_pos_iff.mp (h.control ▸ Nat.one_pos)
    rw [read_of_no_faults hnone, hrecover,
      h.recovered_map_classify hheader ht hb hcontrol hct] at hread
    cases hread
    exact ⟨batches, h, header, hheader, ht, control, hcontrol, hct, rfl⟩
  · rintro ⟨batches, h, header, hheader, ht, control, hcontrol, hct, rfl⟩
    rw [read_of_no_faults ((faultsOf_eq_nil_iff bytes).mpr ⟨batches, h⟩), hrecover,
      h.recovered_map_classify hheader ht hb hcontrol hct]

end AchCourier.Ach
