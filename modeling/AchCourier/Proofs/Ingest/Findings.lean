import AchCourier.Ingest.Processor
import Mathlib.Data.List.Forall2

/-!
# What is told of a file

A place in a file is the number of a batch and the number of an entry in it, and places are ordered
like the entries of the file.  Each of the processors that tell what the bank has to say looks for
entries of one kind.  It lists what it finds place by place, so that no entry is missed and none is
told twice, and sends one event with the whole list, unless the list is empty.  The kinds do not
know of each other: an entry of two kinds is told in two events.

## Main definitions

* `File.HasEntry` — an entry stands at a place of a file.
* `ListsMatches` — a list tells every matching entry of a file once, in order.
* `TellsMatches` — so does the event that a processor sends, which it does if there is a match.

## Main results

* `listsMatches_filterMap` — what is found in the entries of a file lists its matches.
* `tellsMatches_telling` — a processor tells the matches if it tells a list of them.
* `every_match_is_told` — **corrections, returns and tests of accounts are told, each once.**
-/

namespace AchCourier.Ach

/-- The entry stands at the place in the file, and belongs to the batch. -/
def File.HasEntry (f : File) (place : ℕ × ℕ) (b : Batch) (e : Entry) : Prop :=
  f.batches[place.1]? = some b ∧ b.entries[place.2]? = some e

/-- Every entry of a file with its batch and its place, in order. -/
def File.placedEntries (f : File) : List ((ℕ × ℕ) × Batch × Entry) :=
  f.batches.zipIdx.flatMap fun b => b.1.entries.zipIdx.map fun e => ((b.2, e.2), b.1, e.1)

theorem File.mem_placedEntries {f : File} {place : ℕ × ℕ} {b : Batch} {e : Entry} :
    (place, b, e) ∈ f.placedEntries ↔ f.HasEntry place b e := by
  obtain ⟨i, j⟩ := place
  constructor
  · intro h
    obtain ⟨⟨b', i'⟩, hb, h⟩ := List.mem_flatMap.mp h
    obtain ⟨⟨e', j'⟩, he, heq⟩ := List.mem_map.mp h
    cases heq
    exact ⟨List.mem_zipIdx_iff_getElem?.mp hb, List.mem_zipIdx_iff_getElem?.mp he⟩
  · rintro ⟨hb, he⟩
    exact List.mem_flatMap.mpr ⟨(b, i), List.mem_zipIdx_iff_getElem?.mpr hb,
      List.mem_map.mpr ⟨(e, j), List.mem_zipIdx_iff_getElem?.mpr he, rfl⟩⟩

/-- The entries stand in the order of their places. -/
theorem File.pairwise_placedEntries (f : File) :
    (f.placedEntries.map Prod.fst).Pairwise (Prod.Lex (· < ·) (· < ·)) := by
  have hnumbers : ∀ {α : Type} (xs : List α), xs.zipIdx.Pairwise fun x y => x.2 < y.2 := by
    intro α xs
    rw [← List.pairwise_map, List.zipIdx_map_snd]
    exact List.pairwise_lt_range'
  rw [List.pairwise_map, placedEntries, List.pairwise_flatMap]
  constructor
  · -- two entries of one batch
    intro b _
    rw [List.pairwise_map]
    refine (hnumbers b.1.entries).imp fun h => ?_
    exact Prod.Lex.right _ h
  · -- entries of two batches
    refine (hnumbers f.batches).imp fun {b b'} h x hx y hy => ?_
    obtain ⟨e, -, rfl⟩ := List.mem_map.mp hx
    obtain ⟨e', -, rfl⟩ := List.mem_map.mp hy
    exact Prod.Lex.left _ _ h

end AchCourier.Ach

namespace AchCourier.Ingest

open Ach (Batch Entry)

theorem map_snd_placedEntries (f : Ach.File) :
    f.placedEntries.map Prod.snd = entriesWithBatch f := by
  rw [Ach.File.placedEntries, List.map_flatMap, entriesWithBatch]
  have hbatch : ∀ b : Batch × ℕ,
      (b.1.entries.zipIdx.map fun e => ((b.2, e.2), b.1, e.1)).map Prod.snd =
        b.1.entries.map fun e => (b.1, e) := by
    intro b
    rw [List.map_map]
    conv_rhs => rw [← List.zipIdx_map_fst 0 b.1.entries, List.map_map]
    rfl
  simp only [hbatch]
  conv_rhs => rw [← List.zipIdx_map_fst 0 f.batches, List.flatMap_map]

/-! ### Lists of matches -/

section
variable {α : Type}

/-- The items tell the entries of a file that match: in the order of the file, one item for each.
What an item says of an entry and its batch is up to `Says`. -/
def ListsMatches (f : Ach.File) (Matches : Entry → Prop) (Says : Batch → Entry → α → Prop)
    (items : List α) : Prop :=
  ∃ places : List (ℕ × ℕ), places.Pairwise (Prod.Lex (· < ·) (· < ·)) ∧
    (∀ place, place ∈ places ↔ ∃ b e, f.HasEntry place b e ∧ Matches e) ∧
    List.Forall₂ (fun place item => ∃ b e, f.HasEntry place b e ∧ Says b e item) places items

theorem ListsMatches.eq_nil_iff {f : Ach.File} {Matches : Entry → Prop}
    {Says : Batch → Entry → α → Prop} {items : List α} (h : ListsMatches f Matches Says items) :
    items = [] ↔ ¬∃ place b e, f.HasEntry place b e ∧ Matches e := by
  obtain ⟨places, -, hplaces, hitems⟩ := h
  rw [← List.length_eq_zero_iff, ← hitems.length_eq, List.length_eq_zero_iff,
    List.eq_nil_iff_forall_not_mem, not_exists]
  exact forall_congr' fun place => not_congr (hplaces place)

/-- What is found in each of the members keeps to the members in which something is found. -/
theorem forall₂_filterMap {ξ ι : Type} {R : ι → α → Prop} {find : ξ → Option α} {key : ξ → ι}
    {xs : List ξ} (h : ∀ x ∈ xs, ∀ a, find x = some a → R (key x) a) :
    List.Forall₂ R ((xs.filter fun x => (find x).isSome).map key) (xs.filterMap find) := by
  -- by induction on the list, as the filter and the map drop the same members
  induction xs with
  | nil => exact .nil
  | cons x xs ih =>
    obtain ⟨hx, hxs⟩ := List.forall_mem_cons.mp h
    cases hfind : find x with
    | none =>
      rw [List.filter_cons_of_neg (by simp [hfind]), List.filterMap_cons_none hfind]
      exact ih hxs
    | some a =>
      rw [List.filter_cons_of_pos (by simp [hfind]), List.filterMap_cons_some hfind, List.map_cons]
      exact .cons (hx a hfind) (ih hxs)

/-- **What is found in the entries of a file lists its matches**, if something is found in an entry
exactly when it matches. -/
theorem listsMatches_filterMap {Matches : Entry → Prop} {Says : Batch → Entry → α → Prop}
    {item? : Batch → Entry → Option α} (hmatches : ∀ b e, (item? b e).isSome ↔ Matches e)
    (hitems : ∀ b e a, item? b e = some a → Says b e a) (f : Ach.File) :
    ListsMatches f Matches Says ((entriesWithBatch f).filterMap fun p => item? p.1 p.2) := by
  rw [← map_snd_placedEntries, List.filterMap_map]
  -- the places of the matches are those of the entries for which there is an item
  refine ⟨(f.placedEntries.filter fun x => (item? x.2.1 x.2.2).isSome).map Prod.fst, ?_, ?_,
    forall₂_filterMap ?_⟩
  · exact f.pairwise_placedEntries.sublist (List.filter_sublist.map _)
  · intro place
    constructor
    · intro h
      obtain ⟨⟨_, b, e⟩, hmem, rfl⟩ := List.mem_map.mp h
      obtain ⟨hplaced, hitem⟩ := List.mem_filter.mp hmem
      exact ⟨b, e, Ach.File.mem_placedEntries.mp hplaced, (hmatches b e).mp hitem⟩
    · rintro ⟨b, e, hentry, he⟩
      refine List.mem_map.mpr ⟨(place, b, e), List.mem_filter.mpr ⟨?_, ?_⟩, rfl⟩
      · exact Ach.File.mem_placedEntries.mpr hentry
      · exact (hmatches b e).mpr he
  · rintro ⟨place, b, e⟩ hplaced a hitem
    exact ⟨b, e, Ach.File.mem_placedEntries.mp hplaced, hitems b e a hitem⟩

/-! ### Processors -/

/-- Of the entries that match the processor sends one event if somebody receives it, and fails if
nobody does; the event lists the matches.  Without a match it does nothing. -/
structure TellsMatches (processor : Sink → Processor) (wrap : List α → Findings)
    (Matches : Entry → Prop) (Says : Batch → Entry → α → Prop) (f : IncomingFile) : Prop where
  live : (∃ place b e, f.file.HasEntry place b e ∧ Matches e) →
    ∃ items, ListsMatches f.file Matches Says items ∧
      (processor .live).handle f = { events := [.about f (wrap items)], failure := none }
  closed : (∃ place b e, f.file.HasEntry place b e ∧ Matches e) →
    (processor .closed).handle f = { events := [], failure := some .sinkClosed }
  silent : (¬∃ place b e, f.file.HasEntry place b e ∧ Matches e) →
    ∀ sink, (processor sink).handle f = { events := [], failure := none }

/-- A processor that tells a list of matches tells the matches. -/
theorem tellsMatches_telling {Matches : Entry → Prop} {Says : Batch → Entry → α → Prop}
    {name : String} {find : Ach.File → List α} {wrap : List α → Findings} {f : IncomingFile}
    (h : ListsMatches f.file Matches Says (find f.file)) :
    TellsMatches (Processor.telling name find wrap) wrap Matches Says f := by
  have hnone := h.eq_nil_iff
  -- the event is sent just where there is an item to send
  cases hfind : find f.file with
  | nil =>
    have hsilent := hnone.mp hfind
    refine ⟨fun hmatch => absurd hmatch hsilent, fun hmatch => absurd hmatch hsilent, ?_⟩
    intro _ sink
    rw [Processor.telling]
    simp only [hfind]
  | cons item items =>
    refine ⟨fun _ => ⟨find f.file, h, ?_⟩, fun _ => ?_, fun hsilent => ?_⟩
    · rw [Processor.telling]
      simp only [hfind]
      rfl
    · rw [Processor.telling]
      simp only [hfind]
      rfl
    · exact absurd (hnone.mpr hsilent) (hfind ▸ List.cons_ne_nil item items)

end

/-- **Corrections, returns and tests of accounts are told, each once.**  For each of the three kinds
there is one event if an entry of the kind stands anywhere in the file, and none if not.  It lists
the entries of its kind in the order of the file, each once, with the identities of the entry and of
its batch and with its trace number; entries of another kind as well are listed all the same.  If
nobody receives events, the processor fails exactly when there is an entry of its kind. -/
theorem every_match_is_told (f : IncomingFile) :
    TellsMatches Processor.corrections .corrections
        (fun e => e.changeNotice.isSome)
        (fun b e (item : Correction) => ∃ n, e.changeNotice = some n ∧ item = {
          batchId := b.id
          entryId := e.id
          traceNumber := e.traceNumber
          changeCode := n.changeCode
          sentTrace := n.sentTrace
          correctedData := n.correctedData }) f ∧
      TellsMatches Processor.returns .returns
        (fun e => e.returnNotice.isSome)
        (fun b e (item : ReturnedEntry) => ∃ n, e.returnNotice = some n ∧ item = {
          batchId := b.id
          entryId := e.id
          traceNumber := e.traceNumber
          returnCode := n.returnCode
          sentTrace := n.sentTrace
          amount := e.amount }) f ∧
      TellsMatches Processor.prenotes .prenotes
        (fun e => e.transactionCode ∈ [23, 28, 33, 38, 43, 48, 53])
        (fun b e (item : Prenote) => item = {
          batchId := b.id
          entryId := e.id
          traceNumber := e.traceNumber
          transactionCode := e.transactionCode
          dfiAccountNumber := e.dfiAccountNumber }) f := by
  refine ⟨tellsMatches_telling (listsMatches_filterMap ?_ ?_ f.file),
    tellsMatches_telling (listsMatches_filterMap ?_ ?_ f.file),
    tellsMatches_telling (listsMatches_filterMap ?_ ?_ f.file)⟩
  · intro b e
    rw [Correction.of?, Option.isSome_map]
  · intro b e item hitem
    obtain ⟨n, hn, heq⟩ := Option.map_eq_some_iff.mp hitem
    exact ⟨n, hn, heq.symm⟩
  · intro b e
    rw [ReturnedEntry.of?, Option.isSome_map]
  · intro b e item hitem
    obtain ⟨n, hn, heq⟩ := Option.map_eq_some_iff.mp hitem
    exact ⟨n, hn, heq.symm⟩
  · intro b e
    -- the transaction code alone makes an entry a prenote
    have hcode : e.isPrenote = true ↔ e.transactionCode ∈ [23, 28, 33, 38, 43, 48, 53] :=
      List.contains_iff_mem
    rw [Prenote.of?, ← hcode]
    cases e.isPrenote <;> simp
  · intro b e item hitem
    rw [Prenote.of?] at hitem
    split at hitem
    · exact (Option.some.inj hitem).symm
    · cases hitem

end AchCourier.Ingest
