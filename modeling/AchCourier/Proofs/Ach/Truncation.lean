import AchCourier.Proofs.Ach.Conservation
import AchCourier.Proofs.Ach.Places

/-!
# Truncated texts

A transfer that breaks off leaves the beginning of a text.  If the beginning ends with a line feed,
its records are records of the whole text, and the reader of the whole goes on from where the
reader of the beginning stopped.  What it had closed stays as it was, so only the batch that was
open can become another, and of that batch only the last entry.

What is missing shows as long as the file control is missing.

## Main definitions

* `GrowsAtEnd` — a list is continued, and its last member may have grown before.
* `Entry.GrowsTo`, `Batch.GrowsTo` — what more records make of the last entry and the last batch.
* `HoldsBeginning` — the batches of a whole text, compared with those of its beginning.

## Main results

* `linesOf_append_feed` — behind a line feed, the lines of a text begin anew.
* `Ledger.growsAtEnd_batches_foldl` — **more lines change at most the last batch.**
* `Ledger.lt_length_closed_of_ending` — a batch whose end was read is closed.
* `truncation_is_reported` — truncation loses the end alone, and it is reported.
-/

namespace AchCourier.Ach

/-! ### Growing at the end -/

/-- `ys` begins as `xs` does, but the last member of `xs` may have become another, to which it is
related. -/
def GrowsAtEnd {α : Type} (R : α → α → Prop) (xs ys : List α) : Prop :=
  xs = [] ∨ ∃ front x y more, xs = front ++ [x] ∧ ys = front ++ y :: more ∧ R x y

namespace GrowsAtEnd

variable {α : Type} {R : α → α → Prop} {xs ys zs : List α}

theorem of_last {x y : α} (h : R x y) (front more : List α) :
    GrowsAtEnd R (front ++ [x]) (front ++ y :: more) :=
  Or.inr ⟨front, x, y, more, rfl, rfl, h⟩

theorem append (hrefl : ∀ x, R x x) (xs more : List α) : GrowsAtEnd R xs (xs ++ more) := by
  rcases xs.eq_nil_or_concat with rfl | ⟨front, x, rfl⟩
  · exact Or.inl rfl
  · rw [List.concat_eq_append, List.append_assoc]
    exact of_last (hrefl x) front more

theorem refl (hrefl : ∀ x, R x x) (xs : List α) : GrowsAtEnd R xs xs := by
  simpa using append hrefl xs []

theorem trans (htrans : ∀ {x y z}, R x y → R y z → R x z) (h : GrowsAtEnd R xs ys)
    (h' : GrowsAtEnd R ys zs) : GrowsAtEnd R xs zs := by
  obtain rfl | ⟨front, x, y, more, rfl, rfl, hxy⟩ := h
  · exact Or.inl rfl
  obtain hnil | ⟨front', u, v, more', hys, rfl, huv⟩ := h'
  · simp at hnil
  rcases more.eq_nil_or_concat with rfl | ⟨more, w, rfl⟩
  · -- the member that grew is the one that grows again
    obtain ⟨rfl, hu⟩ := List.append_inj' hys rfl
    obtain rfl : y = u := by simpa using hu
    exact of_last (htrans hxy huv) front more'
  · -- another one grows, behind it
    rw [List.concat_eq_append, ← List.cons_append, ← List.append_assoc] at hys
    obtain ⟨rfl, -⟩ := List.append_inj' hys rfl
    rw [List.append_assoc, List.cons_append]
    exact of_last hxy front _

theorem length_le (h : GrowsAtEnd R xs ys) : xs.length ≤ ys.length := by
  obtain rfl | ⟨front, x, y, more, rfl, rfl, -⟩ := h
  · exact Nat.zero_le _
  · simp

end GrowsAtEnd

/-! ### What more records make of an entry and a batch -/

/-- The entry may have gained remittances, and a notification of change or a return may have been
set. -/
structure Entry.GrowsTo (e e' : Entry) : Prop where
  withoutAddenda : e'.withoutAddenda = e.withoutAddenda
  remittances : e.remittances <+: e'.remittances
  changeNotice : e'.changeNotice = e.changeNotice ∨ e'.changeNotice.isSome
  returnNotice : e'.returnNotice = e.returnNotice ∨ e'.returnNotice.isSome

/-- The batch may have gained entries, its last entry may have grown, and its control may have been
set. -/
structure Batch.GrowsTo (b b' : Batch) : Prop where
  header : b'.header = b.header
  entries : GrowsAtEnd Entry.GrowsTo b.entries b'.entries

namespace Entry.GrowsTo

theorem refl (e : Entry) : e.GrowsTo e :=
  ⟨rfl, List.prefix_rfl, Or.inl rfl, Or.inl rfl⟩

/-- What was set stays set, or it is set again. -/
theorem trans {e e' e'' : Entry} (h : e.GrowsTo e') (h' : e'.GrowsTo e'') : e.GrowsTo e'' where
  withoutAddenda := h'.withoutAddenda.trans h.withoutAddenda
  remittances := h.remittances.trans h'.remittances
  changeNotice := h'.changeNotice.elim (fun heq => heq ▸ h.changeNotice) Or.inr
  returnNotice := h'.returnNotice.elim (fun heq => heq ▸ h.returnNotice) Or.inr

theorem attach (e : Entry) (a : Addenda) : e.GrowsTo (e.attach a) := by
  cases a with
  | remittance a => exact ⟨rfl, List.prefix_append _ _, Or.inl rfl, Or.inl rfl⟩
  | change a => exact ⟨rfl, List.prefix_rfl, Or.inr rfl, Or.inl rfl⟩
  | returned a => exact ⟨rfl, List.prefix_rfl, Or.inl rfl, Or.inr rfl⟩

end Entry.GrowsTo

namespace Batch.GrowsTo

theorem refl (b : Batch) : b.GrowsTo b :=
  ⟨rfl, GrowsAtEnd.refl Entry.GrowsTo.refl b.entries⟩

theorem trans {b b' b'' : Batch} (h : b.GrowsTo b') (h' : b'.GrowsTo b'') : b.GrowsTo b'' where
  header := h'.header.trans h.header
  entries := h.entries.trans Entry.GrowsTo.trans h'.entries

theorem attachLast (b : Batch) (a : Addenda) : b.GrowsTo (b.attachLast a) := by
  unfold Batch.attachLast
  split
  · exact refl b
  · next e he =>
    split
    · obtain ⟨front, hfront⟩ := List.getLast?_eq_some_iff.mp he
      refine ⟨rfl, ?_⟩
      rw [hfront, List.dropLast_concat]
      exact GrowsAtEnd.of_last (Entry.GrowsTo.attach e a) front []
    · exact refl b

end Batch.GrowsTo

/-! ### What more lines make of the batches -/

namespace Ledger

/-- The batches that reading would end with: those that are closed, and the open one. -/
def batches (s : Ledger) : List Batch :=
  s.closed ++ s.current.toList

/-- The open batch is the last one, and it may grow. -/
theorem growsAtEnd_batches {closed : List Batch} {current current' : Option Batch}
    (h : ∀ b ∈ current, ∃ b' ∈ current', b.GrowsTo b') :
    GrowsAtEnd Batch.GrowsTo (batches ⟨closed, current⟩) (batches ⟨closed, current'⟩) := by
  cases current with
  | none =>
    rw [batches, Option.toList_none, List.append_nil]
    exact GrowsAtEnd.append Batch.GrowsTo.refl closed _
  | some b =>
    obtain ⟨b', hb', hgrows⟩ := h b rfl
    rw [Option.mem_def.mp hb']
    exact GrowsAtEnd.of_last hgrows closed []

/-- **A line changes at most the last batch**, and it takes nothing away from it. -/
theorem growsAtEnd_batches_step (s : Ledger) (l : Line) :
    GrowsAtEnd Batch.GrowsTo s.batches (s.step l).batches := by
  have hmap : ∀ {f : Batch → Batch}, (∀ b, Batch.GrowsTo b (f b)) →
      ∀ b ∈ s.current, ∃ b' ∈ s.current.map f, b.GrowsTo b' :=
    fun hf b hb => ⟨_, Option.mem_map_of_mem _ hb, hf b⟩
  have hsame : GrowsAtEnd Batch.GrowsTo s.batches s.batches :=
    GrowsAtEnd.refl Batch.GrowsTo.refl _
  cases l with
  | batchHeader line => exact GrowsAtEnd.append Batch.GrowsTo.refl s.batches _
  | entry line =>
    exact growsAtEnd_batches (hmap fun b => ⟨rfl, GrowsAtEnd.append Entry.GrowsTo.refl _ _⟩)
  | addenda line =>
    rw [step]
    split
    · exact hsame
    · exact growsAtEnd_batches (hmap fun b => Batch.GrowsTo.attachLast b _)
  | batchControl line =>
    -- the batch that is closed keeps its place
    have hbatches : (s.step (.batchControl line)).batches =
        batches ⟨s.closed, s.current.map fun b => { b with control := .ofLine line }⟩ := by
      simp [batches, step]
    rw [hbatches]
    exact growsAtEnd_batches (hmap fun b => ⟨rfl, GrowsAtEnd.refl Entry.GrowsTo.refl _⟩)
  | _ => exact hsame

/-- **More lines change at most the last batch**, and they take nothing away from it. -/
theorem growsAtEnd_batches_foldl (s : Ledger) (lines : List Line) :
    GrowsAtEnd Batch.GrowsTo s.batches (lines.foldl step s).batches := by
  induction lines generalizing s with
  | nil => exact GrowsAtEnd.refl Batch.GrowsTo.refl _
  | cons l lines ih =>
    exact (s.growsAtEnd_batches_step l).trans Batch.GrowsTo.trans (ih (s.step l))

/-! ### Batches whose end was read -/

section
variable {line : NumberedLine} (s : Ledger)

/-- A batch header or a batch control closes the open batch. -/
theorem length_closed_step_of_endsBatch (h : endsBatch line = true) :
    (s.step (classify line.1)).closed.length = s.batches.length := by
  rcases Bool.or_eq_true_iff.mp h with h | h
  · rw [classify_of_isOf h rfl]
    rfl
  · rw [classify_of_isOf h rfl]
    cases hcurrent : s.current <;> simp [Line.ofType, step, batches, hcurrent]

/-- Other lines close no batch and open none. -/
theorem step_of_not_endsBatch (h : endsBatch line = false) :
    (s.step (classify line.1)).closed = s.closed ∧
      (s.step (classify line.1)).current.isSome = s.current.isSome := by
  obtain ⟨h5, h8⟩ := Bool.or_eq_false_iff.mp h
  rcases classify_cases line with ⟨h, -⟩ | ⟨-, hl⟩ | ⟨h, -⟩ | ⟨-, -, -, hl⟩
  · rw [h] at h5
    cases h5
  · rw [hl]
    exact ⟨rfl, Option.isSome_map⟩
  · rw [h] at h8
    cases h8
  · obtain ⟨hclosed, hcurrent⟩ := step_of_isBesides hl s
    have hsome := congrArg Option.isSome hcurrent
    rw [Option.isSome_map, Option.isSome_map] at hsome
    exact ⟨hclosed, hsome⟩

/-- Only a batch header begins a batch. -/
theorem length_batches_step (h : isOf '5' line = false) :
    (s.step (classify line.1)).batches.length = s.batches.length := by
  cases hends : endsBatch line with
  | true =>
    have h8 : isOf '8' line = true := by rwa [endsBatch, h, Bool.false_or] at hends
    rw [← s.length_closed_step_of_endsBatch hends, classify_of_isOf h8 rfl]
    simp [Line.ofType, step, batches]
  | false =>
    obtain ⟨hclosed, hsome⟩ := s.step_of_not_endsBatch hends
    rw [batches, batches, List.length_append, List.length_append, hclosed, Option.length_toList,
      Option.length_toList, hsome]

end

/-- The next batch header or batch control closes the open batch. -/
theorem lt_length_closed_of_find? {s : Ledger} (hopen : s.current.isSome = true)
    {lines : List NumberedLine} (hend : (lines.find? endsBatch).isSome = true) :
    s.closed.length < ((lines.map (classify ·.1)).foldl step s).closed.length := by
  induction lines generalizing s with
  | nil => cases hend
  | cons line lines ih =>
    rw [List.map_cons, List.foldl_cons]
    cases hends : endsBatch line with
    | true =>
      -- what is closed here stays closed
      refine lt_of_lt_of_le ?_ (closed_prefix_foldl _ _).length_le
      rw [s.length_closed_step_of_endsBatch hends, batches, List.length_append,
        Option.length_toList, if_pos hopen]
      exact Nat.lt_succ_self _
    | false =>
      rw [List.find?_cons_of_neg (by simp [hends])] at hend
      obtain ⟨hclosed, hsome⟩ := s.step_of_not_endsBatch hends
      rw [← hclosed]
      exact ih (hsome.trans hopen) hend

/-- **A batch whose end was read is closed.**  The batches of the spans come behind those that the
ledger held. -/
theorem lt_length_closed_of_ending {s : Ledger} {lines : List NumberedLine} {i : ℕ}
    {span : BatchSpan} (hspan : (spans lines)[i]? = some span)
    (hend : span.ending.isSome = true) :
    s.batches.length + i < ((lines.map (classify ·.1)).foldl step s).closed.length := by
  -- by induction on the lines, with the batches that are there already in front
  induction lines generalizing s i with
  | nil => cases hspan
  | cons line lines ih =>
    rw [List.map_cons, List.foldl_cons]
    rw [spans] at hspan
    by_cases h5 : isOf '5' line = true
    · rw [if_pos h5] at hspan
      have hends : endsBatch line = true := by rw [endsBatch, h5, Bool.true_or]
      have hclosed := s.length_closed_step_of_endsBatch hends
      have hopen : (s.step (classify line.1)).current.isSome = true := by
        rw [classify_of_isOf h5 rfl]
        rfl
      cases i with
      | zero =>
        -- the span begins here, so it is the batch that is open now
        cases hspan
        rw [Nat.add_zero, ← hclosed]
        exact lt_length_closed_of_find? hopen hend
      | succ i =>
        have hlt := @ih (s.step (classify line.1)) i hspan
        rw [batches, List.length_append, Option.length_toList, if_pos hopen, hclosed] at hlt
        omega
    · rw [if_neg h5] at hspan
      rw [← s.length_batches_step (by simpa using h5)]
      exact ih hspan

end Ledger

/-! ### Texts that break off -/

/-- The lines of a text that is cut at its line feeds. -/
def linesAtFeeds (bytes : Bytes) : List Line :=
  ((splitLines (Utf8.decodeLossy bytes)).map (Text.dropEndWhile (· == '\r'))).map classify

/-- **Behind a line feed, the lines of a text begin anew**, whatever the bytes around it are. -/
theorem linesOf_append_feed (front back : Bytes) :
    linesOf (front ++ 0x0A :: back) = linesAtFeeds front ++ linesAtFeeds back := by
  have hdecode : Utf8.decodeLossy (front ++ 0x0A :: back) =
      Utf8.decodeLossy front ++ '\n' :: Utf8.decodeLossy back :=
    Utf8.decodeLossy_append_cons (by decide) front back
  have hbroken : isUnbroken (Utf8.decodeLossy front ++ '\n' :: Utf8.decodeLossy back) = false := by
    simp [isUnbroken]
  rw [linesOf, hdecode, rawLines, hbroken, if_neg Bool.false_ne_true, splitLines,
    List.splitOn_append_cons_self, List.map_append, List.map_append]
  rfl

/-- The reader of the whole text goes on from where the reader of its beginning stopped. -/
theorem foldl_step_linesOf_append_feed (front back : Bytes) :
    (linesOf (front ++ 0x0A :: back)).foldl Ledger.step {} =
      (linesAtFeeds back).foldl Ledger.step
        ((linesOf (front ++ [0x0A])).foldl Ledger.step {}) := by
  have hblank : linesAtFeeds [] = [.blank] := rfl
  rw [linesOf_append_feed, linesOf_append_feed, List.foldl_append, List.foldl_append, hblank]
  rfl

theorem batches_recover_eq (bytes : Bytes) :
    (recover bytes).batches = ((linesOf bytes).foldl Ledger.step {}).batches := by
  rw [recover, file_readLines]
  rfl

/-- The batches of the whole text are those of its beginning, up to what becomes of the last. -/
structure HoldsBeginning (kept whole : Bytes) : Prop where
  /-- There are at least as many. -/
  length_le : (recover kept).batches.length ≤ (recover whole).batches.length
  /-- They are the same, but the last of the beginning may have grown. -/
  batches : GrowsAtEnd Batch.GrowsTo (recover kept).batches (recover whole).batches
  /-- A batch whose batch control stands in the beginning is the same. -/
  controlled : ∀ (i : ℕ) (span : BatchSpan), (spans (numberedLines kept))[i]? = some span →
    span.control?.isSome = true →
    ∃ b, b.withoutAddenda = span.batch ∧ (recover kept).batches[i]? = some b ∧
      (recover whole).batches[i]? = some b

/-- A beginning that ends with a line feed is a part of its text. -/
theorem holdsBeginning_append_feed (front back : Bytes) :
    HoldsBeginning (front ++ [0x0A]) (front ++ 0x0A :: back) := by
  have hkept := batches_recover_eq (front ++ [0x0A])
  have hwhole := batches_recover_eq (front ++ 0x0A :: back)
  rw [foldl_step_linesOf_append_feed] at hwhole
  have hspan := fun i span => @Ledger.lt_length_closed_of_ending {}
    (numberedLines (front ++ [0x0A])) i span
  rw [map_classify_numberedLines] at hspan
  generalize (linesOf (front ++ [0x0A])).foldl Ledger.step {} = s at hkept hwhole hspan
  have hgrows := s.growsAtEnd_batches_foldl (linesAtFeeds back)
  rw [← hkept, ← hwhole] at hgrows
  refine ⟨hgrows.length_le, hgrows, fun i span hi hcontrol => ?_⟩
  -- its batch control ends the batch, so it is closed
  have hending : span.ending.isSome = true := by
    rw [BatchSpan.control?] at hcontrol
    cases hending : span.ending with
    | none =>
      rw [hending] at hcontrol
      cases hcontrol
    | some line => rfl
  have hlt : i < s.closed.length := by simpa [Ledger.batches] using hspan i span hi hending
  have hb : (recover (front ++ [0x0A])).batches[i]? = some s.closed[i] := by
    rw [hkept, Ledger.batches, List.getElem?_append_left hlt, List.getElem?_eq_getElem hlt]
  obtain ⟨more, hmore⟩ := Ledger.closed_prefix_foldl s (linesAtFeeds back)
  refine ⟨s.closed[i], ?_, hb, ?_⟩
  · have hbatch := congrArg (·[i]?) (batches_recover (front ++ [0x0A]))
    simpa [hb, hi] using hbatch
  · rw [hwhole, Ledger.batches, ← hmore, List.append_assoc, List.getElem?_append_left hlt,
      List.getElem?_eq_getElem hlt]

/-! ### Missing file controls -/

theorem isSome_fileControl?_classify {line : NumberedLine} (h : isOf '9' line = false) :
    (classify line.1).fileControl?.isSome = false := by
  rcases classify_eq_ofType_or line with ⟨t, ht, hl⟩ | hl | hl | hl <;> rw [hl]
  · have hne : t ≠ '9' := by
      rintro rfl
      rw [h] at ht
      cases ht
    rw [fileControl?_ofType]
    simpa using hne
  all_goals rfl

theorem Reading.fileControlMissing_mem_finish {r : Reading} (h : r.seenControl = false) (last : ℕ) :
    .ofRecord last .fileControl .fileControlMissing ∈ (r.finish last).faults := by
  cases hb : r.openBatch <;> cases hh : r.seenHeader <;> simp [finish, note, close, hb, hh, h]

/-- **A text without a file control is no valid file**, and what is reported says why. -/
theorem exists_read_eq_error_of_no_fileControl {bytes : Bytes}
    (h : ∀ line ∈ numberedLines bytes, isOf '9' line = false) :
    ∃ e, read bytes = .error e ∧
      .ofRecord (lastLine (linesOf bytes)) .fileControl .fileControlMissing ∈ e.faults := by
  have hany : (linesOf bytes).any (·.fileControl?.isSome) = false := by
    rw [← map_classify_numberedLines, List.any_map, List.any_eq_false]
    intro line hline
    simp [isSome_fileControl?_classify (h line hline)]
  have hseen : (Reading.run {} 1 (linesOf bytes)).seenControl = false := by
    rw [Reading.seenControl_run, hany]
    rfl
  have hmem : .ofRecord (lastLine (linesOf bytes)) .fileControl .fileControlMissing ∈
      faultsOf bytes := Reading.fileControlMissing_mem_finish hseen _
  exact ⟨_, read_of_faults (List.ne_nil_of_mem hmem), hmem⟩

/-- **Truncation loses the end alone, and it is reported.**  Of a text that breaks off behind a line
feed, the batches are recovered as from the whole text, but the last one may lack its end; and as
long as the file control is missing, reading what is left is an error. -/
theorem truncation_is_reported (front back : Bytes) :
    HoldsBeginning (front ++ [0x0A]) (front ++ 0x0A :: back) ∧
      ((∀ line ∈ numberedLines (front ++ [0x0A]), isOf '9' line = false) →
        ∃ e, read (front ++ [0x0A]) = .error e ∧
          .ofRecord (lastLine (linesOf (front ++ [0x0A]))) .fileControl .fileControlMissing ∈
            e.faults) :=
  ⟨holdsBeginning_append_feed front back, exists_read_eq_error_of_no_fileControl⟩

/-- The stray lines up to the first batch control, without the line feed behind it. -/
def strayBeginning : Bytes :=
  (Utf8.encode (textOf (strayLines.take 5))).dropLast

/-- Two batches are kept, and the file control is missing. -/
theorem truncation_is_reported_strayBeginning :
    (recover (strayBeginning ++ [0x0A])).batches.length = 2 ∧
      HoldsBeginning (strayBeginning ++ [0x0A])
        (strayBeginning ++ 0x0A :: Utf8.encode (textOf (strayLines.drop 5))) ∧
      (∀ line ∈ numberedLines (strayBeginning ++ [0x0A]), isOf '9' line = false) ∧
      ∃ e, read (strayBeginning ++ [0x0A]) = .error e := by
  obtain ⟨hholds, herror⟩ := truncation_is_reported strayBeginning
    (Utf8.encode (textOf (strayLines.drop 5)))
  have hmissing : ∀ line ∈ numberedLines (strayBeginning ++ [0x0A]), isOf '9' line = false := by
    decide +kernel
  obtain ⟨e, he, -⟩ := herror hmissing
  exact ⟨by decide +kernel, hholds, hmissing, e, he⟩

/-- Behind the second of the stray lines, the first batch is still without its entry. -/
example :
    (recover (Utf8.encode (textOf (strayLines.take 2)))).batches.map (·.entries.length) = [0] ∧
      (recover (Utf8.encode (textOf strayLines))).batches.map (·.entries.length) = [1, 0, 1] := by
  decide +kernel

end AchCourier.Ach
