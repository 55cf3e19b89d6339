import AchCourier.Ingest.Courier
import AchCourier.Proofs.Ingest.AuditFirst

/-!
# Every failure counts once

Failures are collected at three levels: over the processors of a chain, over the files of a
directory, and over the directories of a run.  At each level the failures of the level below come in
as one or as a collection, and the count of the collection is the sum of their counts.  So in the
end the count is that of the single failures: one for each file that cannot be read, holds nothing
or is not recorded, and for a file that reaches the processors what each of them reports.

## Main definitions

* `Fate` — what becomes of a file, whatever the processors are.
* `Fate.Passed`, `Fate.weight` — that nothing failed, and the number of failures.
* `fateOf`, `fatesIn`, `fatesOf` — the fates of a file, of the files of a directory and of those
  that a run has staged.
* `Settles` — what was handled, and what came of it, given the fates of the files.

## Main results

* `Error.count_collect` — a collection of failures counts as much as these.
* `settles_attemptAll` — what holds of each step holds of all of them.
* `failures_add_up` — **no failure is swallowed, and none is counted twice.**
-/

namespace AchCourier.Ingest

open Local (Disk)

/-! ### Counting failures -/

namespace Error

theorem counts_eq (es : List Error) : counts es = total (es.map count) := by
  induction es with
  | nil => rfl
  | cons e es ih => rw [counts, ih, List.map_cons, total_cons]

/-- The count of a collection is the sum of the counts in it, however deep it is. -/
theorem count_several (es : List Error) : (several es).count = total (es.map count) := by
  rw [count, counts_eq]

/-- Failures count on their own, however they were collected. -/
example : (several [.sinkClosed, .several [.sinkClosed, .several []]]).count = 2 := rfl

theorem count_collect {es : List Error} {e : Error} (h : collect es = .error e) :
    e.count = total (es.map count) := by
  unfold collect at h
  split at h
  · cases h
  · obtain rfl := Except.error.inj h
    rfl
  · obtain rfl := Except.error.inj h
    exact count_several _

end Error

/-! ### Fates -/

/-- What becomes of a file before the processors have their say. -/
inductive Fate where
  /-- The file, or the directory in which files should be, cannot be read. -/
  | unreadable (path : String) (fault : Local.Fault)
  /-- The file holds nothing that can be used. -/
  | unusable (path : String)
  /-- The content of the file is not recorded. -/
  | offRecord (file : IncomingFile)
  /-- The file reaches the processors. -/
  | reached (file : IncomingFile)

namespace Fate

/-- The file that reaches the processors. -/
def reached? : Fate → Option IncomingFile
  | .reached file => some file
  | _ => none

/-- The number of saves that are tried. -/
def saves : Fate → ℕ
  | .unreadable .. | .unusable _ => 0
  | .offRecord _ | .reached _ => 1

/-- The file reaches the processors, and none of them fails. -/
def Passed (chain : List Processor) : Fate → Prop
  | .reached file => ∀ p ∈ chain, (p.handle file).failure = none
  | _ => False

/-- The number of failures: those of the processors that fail, or one if there is no file for
them. -/
def weight (chain : List Processor) : Fate → ℕ
  | .reached file => total (chain.filterMap fun p => (p.handle file).failure.map Error.count)
  | _ => 1

theorem weight_of_passed {chain : List Processor} {fate : Fate} (h : fate.Passed chain) :
    fate.weight chain = 0 := by
  cases fate with
  | reached file =>
    have hnone : (chain.filterMap fun p => (p.handle file).failure.map Error.count) = [] :=
      List.filterMap_eq_nil_iff.mpr fun p hp => by rw [h p hp, Option.map_none]
    rw [weight, hnone, total_nil]
  | unreadable | unusable | offRecord => exact h.elim

end Fate

/-- The fate of the file at a path, if `save` saves were tried before it. -/
def fateOf (disk : Disk) (hostname : String) (path : String) (failsAt : ℕ → Bool) (save : ℕ) :
    Fate :=
  match disk.read path with
  | .error fault => .unreadable path fault
  | .ok bytes =>
      match incomingOf hostname path bytes with
      | none => .unusable path
      | some file => if failsAt save then .offRecord file else .reached file

/-- The fates along a list, where each item has its fates once the saves of those before it were
tried. -/
def fatesAlong {α : Type} (fates : α → (ℕ → Bool) → ℕ → List Fate) (failsAt : ℕ → Bool) :
    ℕ → List α → List Fate
  | _, [] => []
  | save, a :: as =>
      let first := fates a failsAt save
      first ++ fatesAlong fates failsAt (save + total (first.map Fate.saves)) as

/-- The fates of the files with the given names in a directory. -/
def fatesIn (disk : Disk) (hostname : String) (dir : String) (names : List String)
    (failsAt : ℕ → Bool) (save : ℕ) : List Fate :=
  match disk.list dir with
  | .error fault => [.unreadable dir fault]
  | .ok _ =>
      fatesAlong (fun path failsAt save => [fateOf disk hostname path failsAt save]) failsAt save
        (names.map (Local.child dir))

/-- The fates of the files that a run has staged, category by category, given the names in the
directory of each. -/
def fatesOf (disk : Disk) (staged : Staged) (names : Category → List String) (failsAt : ℕ → Bool)
    (save : ℕ) : List Fate :=
  fatesAlong (fun c failsAt save =>
    if (staged.names c).isEmpty then []
    else fatesIn disk staged.hostname (staged.directory c) (names c) failsAt save) failsAt save
      Category.all

/-! ### What comes of it -/

variable {chain : List Processor} {d : Desk}

/-- Between two states of the desk, of the files with the given fates exactly those that reach the
processors were given to each processor of the chain, once and in order. -/
structure Hands (chain : List Processor) (fates : List Fate) (d d' : Desk) : Prop where
  handled : d'.journal.filterMap Act.handled? = d.journal.filterMap Act.handled? ++
    (fates.filterMap Fate.reached?).flatMap fun file => chain.map fun p => (p.name, file)
  saves : d'.audit.saves = d.audit.saves + total (fates.map Fate.saves)
  failsAt : d'.audit.failsAt = d.audit.failsAt

namespace Hands

theorem refl (chain : List Processor) (d : Desk) : Hands chain [] d d :=
  ⟨by simp, rfl, rfl⟩

theorem trans {fates more : List Fate} {d d' d'' : Desk} (h : Hands chain fates d d')
    (h' : Hands chain more d' d'') : Hands chain (fates ++ more) d d'' where
  handled := by
    rw [h'.handled, h.handled, List.filterMap_append, List.flatMap_append, List.append_assoc]
  saves := by rw [h'.saves, h.saves, List.map_append, total_append, Nat.add_assoc]
  failsAt := h'.failsAt.trans h.failsAt

end Hands

/-- Files with the given fates were handled, and the outcome is a success just when nothing has
failed, and else counts the failures. -/
structure Settles (chain : List Processor) (fates : List Fate) (d : Desk)
    (out : Desk × Except Error Unit) : Prop extends Hands chain fates d out.1 where
  ok_iff : out.2 = .ok () ↔ ∀ fate ∈ fates, fate.Passed chain
  count_eq : ∀ e, out.2 = .error e → e.count = total (fates.map (Fate.weight chain))

theorem settles_nil (chain : List Processor) (d : Desk) : Settles chain [] d (d, .ok ()) :=
  { Hands.refl chain d with ok_iff := by simp, count_eq := by simp }

/-- A file that does not reach the processors is one failure. -/
theorem Hands.settles_of_not_passed {fate : Fate} {d' : Desk} {e : Error}
    (h : Hands chain [fate] d d') (hpassed : ¬ fate.Passed chain)
    (hcount : e.count = fate.weight chain) : Settles chain [fate] d (d', .error e) :=
  { h with ok_iff := by simp [hpassed], count_eq := by simp [hcount] }

/-- A success weighs nothing. -/
theorem Settles.weight_eq_zero {fates : List Fate} {out : Desk × Except Error Unit}
    (h : Settles chain fates d out) (hok : out.2 = .ok ()) :
    total (fates.map (Fate.weight chain)) = 0 := by
  refine total_eq_zero_iff.mpr fun n hn => ?_
  obtain ⟨fate, hfate, rfl⟩ := List.mem_map.mp hn
  exact Fate.weight_of_passed (h.ok_iff.mp hok fate hfate)

section
variable {α : Type} {step : α → Desk → Desk × Except Error Unit}
  {fates : α → (ℕ → Bool) → ℕ → List Fate}
  (hstep : ∀ a d, Settles chain (fates a d.audit.failsAt d.audit.saves) d (step a d))
include hstep

/-- Before they are collected, the failures add up to the weights of the fates. -/
theorem hands_failuresOf (items : List α) (d : Desk) :
    Hands chain (fatesAlong fates d.audit.failsAt d.audit.saves items) d
        (failuresOf step items d).1 ∧
      ((failuresOf step items d).2 = [] ↔
        ∀ fate ∈ fatesAlong fates d.audit.failsAt d.audit.saves items, fate.Passed chain) ∧
      total ((failuresOf step items d).2.map Error.count) =
        total ((fatesAlong fates d.audit.failsAt d.audit.saves items).map (Fate.weight chain)) := by
  -- by induction on the items; each save that is tried moves the plan on for the next item
  induction items generalizing d with
  | nil => exact ⟨.refl chain d, by simp [fatesAlong], rfl⟩
  | cons a items ih =>
    have hfirst := hstep a d
    obtain ⟨hhands, hnone, htotal⟩ := ih (step a d).1
    rw [hfirst.saves, hfirst.failsAt] at hhands hnone htotal
    rw [failuresOf_cons, fatesAlong]
    refine ⟨hfirst.toHands.trans hhands, ?_, ?_⟩
    · rw [List.forall_mem_append, ← hfirst.ok_iff, ← hnone]
      cases (step a d).2 <;> simp
    · rw [List.map_append, total_append, ← htotal]
      cases hresult : (step a d).2 with
      | ok => rw [hfirst.weight_eq_zero hresult, Nat.zero_add]
      | error e => rw [List.map_cons, total_cons, hfirst.count_eq e hresult]

/-- **What holds of each step holds of all of them**: their fates come one after another, and their
failures add up. -/
theorem settles_attemptAll (items : List α) (d : Desk) :
    Settles chain (fatesAlong fates d.audit.failsAt d.audit.saves items) d
      (attemptAll step items d) := by
  obtain ⟨hhands, hnone, htotal⟩ := hands_failuresOf hstep items d
  exact { hhands with
    ok_iff := Error.collect_eq_ok_iff.trans hnone
    count_eq := fun e he => (Error.count_collect he).trans htotal }

end

/-! ### Files and directories -/

/-- The failures of a chain are those of its processors, in order. -/
theorem failuresOf_handleOne (chain : List Processor) (file : IncomingFile) (d : Desk) :
    (failuresOf (handleOne file) chain d).2 = chain.filterMap fun p => (p.handle file).failure := by
  induction chain generalizing d with
  | nil => rfl
  | cons p chain ih =>
    rw [failuresOf_cons, ih, List.filterMap_cons]
    dsimp only [handleOne, Outcome.result]
    cases (p.handle file).failure <;> rfl

theorem handleAll_ok_iff {file : IncomingFile} :
    (handleAll chain file d).2 = .ok () ↔ ∀ p ∈ chain, (p.handle file).failure = none := by
  show Error.collect _ = _ ↔ _
  rw [Error.collect_eq_ok_iff, failuresOf_handleOne, List.filterMap_eq_nil_iff]

theorem count_of_handleAll {file : IncomingFile} {e : Error}
    (h : (handleAll chain file d).2 = .error e) :
    e.count = total (chain.filterMap fun p => (p.handle file).failure.map Error.count) := by
  rw [Error.count_collect h, failuresOf_handleOne, List.map_filterMap]

/-- In a turn the file is given to each processor. -/
theorem filterMap_handled?_turn (chain : List Processor) (file : IncomingFile) :
    (turn chain file).filterMap Act.handled? = chain.map fun p => (p.name, file) := by
  rw [turn, List.filterMap_cons, Act.handled?]
  induction chain with
  | nil => rfl
  | cons p chain ih => simpa [Act.handled?] using ih

/-- In a row of turns each file is given to each processor. -/
theorem filterMap_handled?_turns (chain : List Processor) (files : List IncomingFile) :
    (files.flatMap (turn chain)).filterMap Act.handled? =
      files.flatMap fun file => chain.map fun p => (p.name, file) := by
  rw [List.filterMap_flatMap]
  exact List.flatMap_congr fun file _ => filterMap_handled?_turn chain file

/-- The file at a path has a save tried and reaches the processors as its fate says. -/
theorem onRecord_incomingAt (disk : Disk) (hostname path : String) (failsAt : ℕ → Bool)
    (save : ℕ) :
    onRecord failsAt save (incomingAt disk hostname path).toList =
        [fateOf disk hostname path failsAt save].filterMap Fate.reached? ∧
      (incomingAt disk hostname path).toList.length =
        total ([fateOf disk hostname path failsAt save].map Fate.saves) := by
  unfold incomingAt fateOf
  cases disk.read path with
  | error fault => exact ⟨rfl, rfl⟩
  | ok bytes =>
    dsimp only
    cases incomingOf hostname path bytes with
    | none => exact ⟨rfl, rfl⟩
    | some file =>
      cases hfails : failsAt save <;> simp [onRecord_singleton, hfails, Fate.reached?, Fate.saves]

/-- Bytes hold nothing, or a file that is recorded and then handed to the processors. -/
theorem processBytes_cases (saver : Audit.Saver) (chain : List Processor) (path : String)
    (bytes : Bytes) (d : Desk) :
    (incomingOf saver.hostname path bytes = none ∧
      ∃ cause, processBytes saver chain path bytes d = (d, .error (.parse path cause))) ∨
    ∃ file, incomingOf saver.hostname path bytes = some file ∧ file.hash ≠ "" ∧
      processBytes saver chain path bytes d =
        match recordContent saver file.hash d with
        | (d, .error e) => (d, .error e)
        | (d, .ok ()) => handleAll chain file d := by
  unfold incomingOf processBytes readIncoming
  cases hread : Ach.read bytes with
  | ok f => exact Or.inr ⟨_, rfl, incoming_hash_ne_empty _ _ _ _ _, rfl⟩
  | error e =>
    -- a text without batches is refused, and one with batches comes in with its faults
    cases hbatches : e.recovered.batches.isEmpty with
    | true => exact Or.inl ⟨by simp [hbatches], e, by simp [hbatches]⟩
    | false =>
      refine Or.inr ⟨incoming saver.hostname path bytes e.recovered e.faults, by simp [hbatches],
        incoming_hash_ne_empty _ _ _ _ _, ?_⟩
      simp only [hbatches]
      rfl

/-- That a content is not recorded is one failure. -/
theorem count_of_recordContent {saver : Audit.Saver} {hash : String} {d' : Desk} {e : Error}
    (h : recordContent saver hash d = (d', .error e)) : e.count = 1 := by
  unfold recordContent at h
  split at h
  · obtain rfl := Except.error.inj (Prod.mk.inj h).2
    rfl
  · cases (Prod.mk.inj h).2

/-- **What comes of a file is what its fate says.** -/
theorem settles_processFile (disk : Disk) (saver : Audit.Saver) (chain : List Processor)
    (path : String) (d : Desk) :
    Settles chain [fateOf disk saver.hostname path d.audit.failsAt d.audit.saves] d
      (processFile disk saver chain path d) := by
  have htakes := takes_processFile disk saver chain path d
  obtain ⟨hrecord, hlength⟩ := onRecord_incomingAt disk saver.hostname path d.audit.failsAt
    d.audit.saves
  have hhands : Hands chain [fateOf disk saver.hostname path d.audit.failsAt d.audit.saves] d
      (processFile disk saver chain path d).1 := by
    refine ⟨?_, by rw [htakes.saves, hlength], htakes.failsAt⟩
    rw [htakes.journal, List.filterMap_append, filterMap_handled?_turns, hrecord]
  -- each way to fail is one fate, in the order in which they are met
  unfold fateOf processFile at *
  cases hread : disk.read path with
  | error fault =>
    rw [hread] at hhands
    exact hhands.settles_of_not_passed id rfl
  | ok bytes =>
    rw [hread] at hhands
    dsimp only at hhands ⊢
    rcases processBytes_cases saver chain path bytes d with
      ⟨hnone, cause, heq⟩ | ⟨file, hsome, hhash, heq⟩
    · rw [hnone, heq] at hhands ⊢
      exact hhands.settles_of_not_passed id rfl
    · rw [hsome, heq] at hhands ⊢
      rcases recordContent_cases saver file.hash d with
        ⟨hfails | hfails, e, hrecord⟩ | ⟨-, hworks, trail, -, hrecord⟩
      · exact absurd hfails hhash
      · rw [hrecord] at hhands ⊢
        rw [hfails] at hhands ⊢
        exact hhands.settles_of_not_passed id (count_of_recordContent hrecord)
      · rw [hrecord] at hhands ⊢
        rw [hworks] at hhands ⊢
        exact { hhands with
          ok_iff := by simp [handleAll_ok_iff, Fate.Passed]
          count_eq := fun e he => by simp [count_of_handleAll he, Fate.weight] }

/-- **What comes of a directory is what the fates of its files say.** -/
theorem settles_processDirectory {disk : Disk} {dir : String} {names : List String}
    (hnames : NamesIn disk dir names) (saver : Audit.Saver) (chain : List Processor) (d : Desk) :
    Settles chain (fatesIn disk saver.hostname dir names d.audit.failsAt d.audit.saves) d
      (processDirectory disk saver chain dir d) := by
  rcases processDirectory_cases hnames saver chain with ⟨fault, hlist, -, hrun⟩ | ⟨_, hlist, hrun⟩
  · -- a directory that cannot be listed is one failure, and no save is tried
    have hhands : Hands chain [.unreadable dir fault] d d :=
      ⟨by simp [Fate.reached?], rfl, rfl⟩
    rw [hrun, fatesIn, hlist]
    exact hhands.settles_of_not_passed id rfl
  · rw [hrun, fatesIn, hlist]
    exact settles_attemptAll (settles_processFile disk saver chain) _ d

theorem settles_processCategory {disk : Disk} {staged : Staged} {names : Category → List String}
    (hnames : ∀ c, NamesIn disk (staged.directory c) (names c)) (chain : List Processor)
    (c : Category) (d : Desk) :
    Settles chain (if (staged.names c).isEmpty then [] else
        fatesIn disk staged.hostname (staged.directory c) (names c) d.audit.failsAt
          d.audit.saves) d
      (processCategory disk chain staged c d) := by
  unfold processCategory
  split
  · exact settles_nil chain d
  · exact settles_processDirectory (hnames c) ⟨staged.hostname⟩ chain d

/-- **No failure is swallowed, and none is counted twice.**
* A file that is handed to a chain is given to each processor once, in order; the outcome is a
  success just when no processor fails, and else counts what the processors that fail report.
* So it is with the file at a path, the files that lie in a directory and those in the directories
  of a run: those that reach the processors, and no others, are given to each processor once, in
  order; the outcome is a success just when all files reach the processors and none of these fails,
  and else counts what the processors report, and one for each file that does not reach them. -/
theorem failures_add_up {σ : Type} (disk : Disk) (saver : Audit.Saver) (chain : List Processor) :
    (∀ file d,
      (handleAll chain file d).1.journal =
        d.journal ++ chain.map (fun p => .handled p.name file) ∧
      ((handleAll chain file d).2 = .ok () ↔ ∀ p ∈ chain, (p.handle file).failure = none) ∧
      ∀ e, (handleAll chain file d).2 = .error e →
        e.count = total (chain.filterMap fun p => (p.handle file).failure.map Error.count)) ∧
    (∀ path d,
      Settles chain [fateOf disk saver.hostname path d.audit.failsAt d.audit.saves] d
        (processFile disk saver chain path d)) ∧
    (∀ dir, ∃ names, NamesIn disk dir names ∧ ∀ d,
      Settles chain (fatesIn disk saver.hostname dir names d.audit.failsAt d.audit.saves) d
        (processDirectory disk saver chain dir d)) ∧
    ∀ staged (courier : Courier σ), ∃ names : Category → List String,
      (∀ c, NamesIn courier.disk (staged.directory c) (names c)) ∧
      Settles chain (fatesOf courier.disk staged names courier.desk.audit.failsAt
          courier.desk.audit.saves) courier.desk
        ((processStaged chain staged courier).1.desk, (processStaged chain staged courier).2) := by
  refine ⟨fun file d => ⟨journal_handleAll chain file d, handleAll_ok_iff,
      fun e => count_of_handleAll⟩,
    settles_processFile disk saver chain, fun dir => ?_, fun staged courier => ?_⟩
  · obtain ⟨names, hnames⟩ := exists_namesIn disk dir
    exact ⟨names, hnames, settles_processDirectory hnames saver chain⟩
  · -- the directories of the categories lie side by side, each with names of its own
    choose names hnames using fun c => exists_namesIn courier.disk (staged.directory c)
    exact ⟨names, hnames,
      settles_attemptAll (settles_processCategory hnames chain) Category.all courier.desk⟩

end AchCourier.Ingest
