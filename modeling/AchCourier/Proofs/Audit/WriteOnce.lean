import AchCourier.Audit
import Mathlib.Data.List.Dedup
import Mathlib.Data.List.Nodup

/-!
# Records that are written once

Many writers may save to one storage.  Each save is a single step, so whatever the writers do, the
storage sees one sequence of saves.  After any sequence it holds the first save of every pair of
hash and host name and nothing else: a later save of the pair finds it on record, and a save
without a hash is refused.

## Main definitions

* `Record.pair` — what a record is known by.
* `Storage.saveAll` — a storage after saves, and what came of them.
* `Trail.HoldsFirst` — a trail that holds the first save of each pair.

## Main results

* `Trail.HoldsFirst.save` — a save keeps the trail so.
* `Storage.writeOnce_saveAll` — **a storage in memory writes every pair once.**
-/

namespace AchCourier.Audit

/-- What a record is known by. -/
def Record.pair (r : Record) : String × String :=
  (r.hash, r.hostname)

/-- The storage after saves, one after the other, and what came of each of them.  A save is told by
the record that it asks for. -/
def Storage.saveAll (s : Storage) : List Record → Storage × List (Except Failure Unit)
  | [] => (s, [])
  | r :: rs =>
      let first := s.save r.hash r.hostname r.direction
      let more := first.1.saveAll rs
      (more.1, first.2 :: more.2)

/-- The first of the saves for a pair of hash and host name. -/
def firstSave? (calls : List Record) (hash hostname : String) : Option Record :=
  calls.find? fun r => r.hash == hash && r.hostname == hostname

/-- Whether a save succeeds in memory: only a missing hash is refused. -/
def outcome (r : Record) : Except Failure Unit :=
  if r.hash = "" then .error .missingHash else .ok ()

namespace Trail

/-- The trail holds the first of the saves of every pair that has a hash, and one record for each
pair. -/
structure HoldsFirst (t : Trail) (calls : List Record) : Prop where
  get?_eq : ∀ hash hostname,
    t.get? hash hostname = if hash = "" then none else firstSave? calls hash hostname
  nodup : (t.records.map Record.pair).Nodup

/-- Where each pair has one record, that is the one which is found. -/
theorem get?_eq_some_iff {t : Trail} (hnodup : (t.records.map Record.pair).Nodup)
    {hash hostname : String} {r : Record} :
    t.get? hash hostname = some r ↔ r ∈ t.records ∧ r.hash = hash ∧ r.hostname = hostname := by
  have hfound : ∀ {r' : Record}, t.get? hash hostname = some r' →
      r' ∈ t.records ∧ r'.hash = hash ∧ r'.hostname = hostname := fun hget =>
    ⟨List.mem_of_find?_eq_some hget, by simpa using List.find?_some hget⟩
  refine ⟨hfound, ?_⟩
  rintro ⟨hr, rfl, rfl⟩
  cases hget : t.get? r.hash r.hostname with
  | none =>
    have hnone := List.find?_eq_none.mp hget r hr
    simp at hnone
  | some r' =>
    -- two records of one pair are the same record
    obtain ⟨hr', hhash, hhost⟩ := hfound hget
    rw [List.inj_on_of_nodup_map hnodup hr' hr (Prod.ext hhash hhost)]

namespace HoldsFirst

variable {t : Trail} {calls : List Record}

theorem empty : HoldsFirst {} [] :=
  ⟨fun hash hostname => by simp [Trail.get?, firstSave?], List.nodup_nil⟩

theorem firstSave?_append (before after : List Record) (hash hostname : String) :
    firstSave? (before ++ after) hash hostname =
      (firstSave? before hash hostname).or (firstSave? after hash hostname) :=
  List.find?_append

/-- The records are the first saves of their pairs. -/
theorem mem_records_iff (h : t.HoldsFirst calls) (r : Record) :
    r ∈ t.records ↔ r.hash ≠ "" ∧ firstSave? calls r.hash r.hostname = some r := by
  have hget : t.get? r.hash r.hostname = some r ↔ r ∈ t.records := by
    simp [get?_eq_some_iff h.nodup]
  rw [← hget, h.get?_eq]
  by_cases hhash : r.hash = "" <;> simp [hhash]

/-- The pairs on record are those that were saved with a hash. -/
theorem mem_pairs_iff (h : t.HoldsFirst calls) (p : String × String) :
    p ∈ t.records.map Record.pair ↔ p ∈ (calls.filter (·.hash ≠ "")).map Record.pair := by
  simp only [List.mem_map, h.mem_records_iff, List.mem_filter, decide_eq_true_eq]
  constructor
  · rintro ⟨r, ⟨hhash, hfirst⟩, rfl⟩
    exact ⟨r, ⟨List.mem_of_find?_eq_some hfirst, hhash⟩, rfl⟩
  · rintro ⟨r, ⟨hr, hhash⟩, rfl⟩
    -- the first save of the pair is one of the same pair
    cases hfirst : firstSave? calls r.hash r.hostname with
    | none =>
      have hnone := List.find?_eq_none.mp hfirst r hr
      simp at hnone
    | some first =>
      have htest := List.find?_some hfirst
      rw [Bool.and_eq_true, beq_iff_eq, beq_iff_eq] at htest
      refine ⟨first, ⟨htest.1 ▸ hhash, ?_⟩, Prod.ext htest.1 htest.2⟩
      rw [htest.1, htest.2, hfirst]

/-- A save that is refused adds nothing. -/
theorem refused (h : t.HoldsFirst calls) {r : Record} (hr : r.hash = "") :
    t.HoldsFirst (calls ++ [r]) := by
  refine ⟨fun hash hostname => ?_, h.nodup⟩
  rw [h.get?_eq, firstSave?_append]
  split
  · rfl
  · next hhash =>
    have hne : ¬ r.hash = hash := fun heq => hhash (heq.symm.trans hr)
    simp [firstSave?, hne]

/-- **A save keeps the first record of every pair.** -/
theorem save (h : t.HoldsFirst calls) {r : Record} {t' : Trail}
    (hsave : t.save r.hash r.hostname r.direction = .ok t') :
    t.records <+: t'.records ∧ t'.HoldsFirst (calls ++ [r]) := by
  unfold Trail.save at hsave
  split at hsave
  · cases hsave
  · next hhash =>
    split at hsave
    · next r' hget =>
      -- the pair is on record
      obtain rfl := Except.ok.inj hsave
      have hfirst : firstSave? calls r.hash r.hostname = some r' := by
        rw [← hget, h.get?_eq, if_neg hhash]
      refine ⟨List.prefix_rfl, fun hash hostname => ?_, h.nodup⟩
      rw [h.get?_eq, firstSave?_append]
      by_cases hpair : r.hash = hash ∧ r.hostname = hostname
      · rw [← hpair.1, ← hpair.2, hfirst, Option.some_or]
      · have hnone : firstSave? [r] hash hostname = none := by simpa [firstSave?] using hpair
        rw [hnone, Option.or_none]
    · next hget =>
      obtain rfl := Except.ok.inj hsave
      have hfresh : ∀ r' ∈ t.records, r'.pair ≠ r.pair := by
        intro r' hr' hpair
        have hnone := List.find?_eq_none.mp hget r' hr'
        obtain ⟨hhash', hhost'⟩ := Prod.mk.inj hpair
        simp [hhash', hhost'] at hnone
      refine ⟨List.prefix_append _ _, fun hash hostname => ?_, ?_⟩
      · show (t.records ++ [r]).find? _ = _
        rw [List.find?_append, firstSave?_append]
        show (t.get? hash hostname).or (firstSave? [r] hash hostname) = _
        rw [h.get?_eq]
        by_cases hempty : hash = ""
        · have hne : ¬ r.hash = hash := fun heq => hhash (heq.trans hempty)
          simp [hempty, firstSave?, hempty ▸ hne]
        · rw [if_neg hempty, if_neg hempty]
      · rw [List.map_append, List.map_singleton, List.nodup_append]
        refine ⟨h.nodup, List.nodup_singleton _, fun p hp q hq => ?_⟩
        obtain ⟨r', hr', rfl⟩ := List.mem_map.mp hp
        rw [List.mem_singleton.mp hq]
        exact hfresh r' hr'

end HoldsFirst

end Trail

namespace Storage

variable {s : Storage}

theorem failsAt_save (s : Storage) (hash hostname : String) (direction : Direction) :
    (s.save hash hostname direction).1.failsAt = s.failsAt := by
  unfold Storage.save
  split
  · rfl
  · split <;> rfl

/-- In memory only a save without a hash fails, and it changes nothing. -/
theorem save_cases (hmemory : ∀ k, s.failsAt k = false) (hash hostname : String)
    (direction : Direction) :
    (hash = "" ∧ (s.save hash hostname direction).2 = .error .missingHash ∧
        (s.save hash hostname direction).1.trail = s.trail) ∨
      hash ≠ "" ∧ (s.save hash hostname direction).2 = .ok () ∧
        s.trail.save hash hostname direction =
          .ok (s.save hash hostname direction).1.trail := by
  unfold Storage.save
  rw [hmemory, if_neg Bool.false_ne_true]
  by_cases hhash : hash = ""
  · refine Or.inl ⟨hhash, ?_⟩
    rw [Trail.save, if_pos hhash]
    exact ⟨rfl, rfl⟩
  · refine Or.inr ⟨hhash, ?_⟩
    cases hsave : s.trail.save hash hostname direction with
    | ok t => exact ⟨rfl, rfl⟩
    | error e =>
      -- the hash was all that could be wrong
      rw [Trail.save, if_neg hhash] at hsave
      split at hsave <;> cases hsave

/-- A save in memory adds a save to those of which the trail holds the first ones. -/
theorem holdsFirst_save {calls : List Record} (hmemory : ∀ k, s.failsAt k = false)
    (h : s.trail.HoldsFirst calls) (r : Record) :
    (s.save r.hash r.hostname r.direction).2 = outcome r ∧
      s.trail.records <+: (s.save r.hash r.hostname r.direction).1.trail.records ∧
      (s.save r.hash r.hostname r.direction).1.trail.HoldsFirst (calls ++ [r]) := by
  rw [outcome]
  rcases save_cases hmemory r.hash r.hostname r.direction with
    ⟨hhash, hresult, htrail⟩ | ⟨hhash, hresult, hsave⟩
  · rw [hresult, htrail, if_pos hhash]
    exact ⟨rfl, List.prefix_rfl, h.refused hhash⟩
  · rw [hresult, if_neg hhash]
    exact ⟨rfl, h.save hsave⟩

/-- So do any number of saves. -/
theorem holdsFirst_saveAll (more : List Record) :
    ∀ {s : Storage} {calls : List Record}, (∀ k, s.failsAt k = false) →
      s.trail.HoldsFirst calls →
      (s.saveAll more).2 = more.map outcome ∧
        s.trail.records <+: (s.saveAll more).1.trail.records ∧
        (s.saveAll more).1.trail.HoldsFirst (calls ++ more) := by
  -- by induction on the saves: each of them keeps what those before it have put on record
  induction more with
  | nil =>
    intro s calls _ h
    exact ⟨rfl, List.prefix_rfl, by rwa [List.append_nil]⟩
  | cons r more ih =>
    intro s calls hmemory h
    obtain ⟨hresult, hprefix, hholds⟩ := holdsFirst_save hmemory h r
    obtain ⟨hresults, hprefixes, hall⟩ := ih (by rwa [failsAt_save]) hholds
    rw [List.append_assoc, List.singleton_append] at hall
    exact ⟨by rw [List.map_cons, ← hresult, ← hresults]; rfl, hprefix.trans hprefixes, hall⟩

theorem saveAll_append (before after : List Record) :
    (s.saveAll (before ++ after)).1 = ((s.saveAll before).1.saveAll after).1 := by
  induction before generalizing s with
  | nil => rfl
  | cons r before ih => exact ih

theorem failsAt_saveAll (calls : List Record) : (s.saveAll calls).1.failsAt = s.failsAt := by
  induction calls generalizing s with
  | nil => rfl
  | cons r calls ih => exact ih.trans (failsAt_save s _ _ _)

/-- **A storage in memory writes every pair once.**  After any sequence of saves, by however many
writers, it holds one record for each pair that was saved with a hash, namely the first save of
the pair.  Looking a pair up, listing the records and counting them all tell of these records.
Only a save without a hash fails, and it changes nothing; and no later save changes a record or
takes one away. -/
theorem writeOnce_saveAll (calls : List Record) :
    let s := (({} : Storage).saveAll calls).1
    (({} : Storage).saveAll calls).2 = calls.map outcome ∧
      (∀ hash hostname, s.trail.get? hash hostname =
        if hash = "" then none else firstSave? calls hash hostname) ∧
      (s.trail.records.map Record.pair).Perm
        ((calls.filter (·.hash ≠ "")).map Record.pair).dedup ∧
      (∀ r, r ∈ s.trail.records ↔ s.trail.get? r.hash r.hostname = some r) ∧
      s.trail.sorted.Perm s.trail.records ∧
      s.trail.length = ((calls.filter (·.hash ≠ "")).map Record.pair).dedup.length ∧
      (∀ hostname direction, (s.save "" hostname direction).2 = .error .missingHash ∧
        (s.save "" hostname direction).1.trail = s.trail) ∧
      ∀ later, s.trail.records <+: (({} : Storage).saveAll (calls ++ later)).1.trail.records := by
  intro s
  obtain ⟨hresults, -, hholds : s.trail.HoldsFirst ([] ++ calls)⟩ :=
    holdsFirst_saveAll calls (s := {}) (fun _ => rfl) Trail.HoldsFirst.empty
  rw [List.nil_append] at hholds
  have hmemory : ∀ k, s.failsAt k = false := fun k =>
    congrFun (failsAt_saveAll (s := {}) calls) k
  -- no pair is on record twice, so it is enough that the same pairs are
  have hpairs : (s.trail.records.map Record.pair).Perm
      ((calls.filter (·.hash ≠ "")).map Record.pair).dedup := by
    rw [List.perm_ext_iff_of_nodup hholds.nodup (List.nodup_dedup _)]
    intro p
    rw [hholds.mem_pairs_iff, List.mem_dedup]
  refine ⟨hresults, hholds.get?_eq, hpairs, fun r => ?_, List.mergeSort_perm _ _, ?_,
    fun hostname direction => ?_, fun later => ?_⟩
  · rw [Trail.get?_eq_some_iff hholds.nodup]
    simp
  · rw [← hpairs.length_eq, List.length_map]
    rfl
  · rcases save_cases hmemory "" hostname direction with ⟨-, hrefused⟩ | ⟨hhash, -⟩
    · exact hrefused
    · exact absurd rfl hhash
  · rw [saveAll_append]
    exact (holdsFirst_saveAll later hmemory hholds).2.1

end Storage

end AchCourier.Audit
