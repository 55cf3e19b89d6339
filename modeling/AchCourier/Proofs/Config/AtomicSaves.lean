import AchCourier.Proofs.Config.Saving
import AchCourier.Proofs.Local.KeptFiles

/-!
# Saves that fail

A save touches its target with its last step alone.  Whatever it does before goes to the temporary
file, which is never the target, and to directories.  So wherever a save fails or is stopped before
that step has taken effect, the target holds what it held, or is still missing; and once it has, the
target holds the text of the settings, and the temporary file is gone.

## Main definitions

* `preparation` — the steps before the last one.
* `Interruption.Early` — the last step has not taken effect.
* `Replaced` — the disk once it has.

## Main results

* `runSteps_append`, `runSteps_ne_ok`, `runSteps_of_notMem` — runs and their interruptions.
* `keepsFile_run`, `keepsFile_interrupt` — a step of the preparation keeps the target.
* `keepsFile_runSteps` — **a preparation keeps the target**, however far it comes.
* `replaced_save` — what a save leaves behind that succeeds.
* `save_keeps_or_replaces` — **a save that fails keeps the target, and one that does not replaces it.**
-/

namespace AchCourier.Config

open Local

variable {path : String} {content : Bytes} {d : Disk} {i : Interruption}

/-! ### Runs that are interrupted -/

/-- Steps behind others are run where the others have come to, if they have succeeded. -/
theorem runSteps_append (interruption : Option Interruption) (d : Disk) (first more : List Step) :
    runSteps path content interruption d (first ++ more) =
      match runSteps path content interruption d first with
      | (next, .error e) => (next, .error e)
      | (next, .ok ()) => runSteps path content interruption next more := by
  induction first generalizing d with
  | nil => rfl
  | cons step first ih =>
    rw [List.cons_append, runSteps, runSteps]
    cases interruption.filter (·.step = step) with
    | some i => rfl
    | none =>
      rcases step.run path content d with ⟨next, fault | _⟩
      · rfl
      · exact ih next

/-- A step that is interrupted is the last one. -/
theorem runSteps_interrupted {step : Step} (hstep : i.step = step) (todo : List Step) :
    runSteps path content (some i) d (step :: todo) =
      (step.interrupt path content i.progress d, .error i.failure) := by
  rw [runSteps, Option.filter_some_pos (by simpa using hstep)]

/-- A single step that is not interrupted. -/
theorem runSteps_singleton (path : String) (content : Bytes) (d : Disk) (step : Step) :
    runSteps path content none d [step] =
      ((step.run path content d).1, (step.run path content d).2.mapError .io) := by
  rw [runSteps, Option.filter_none]
  rcases step.run path content d with ⟨next, fault | _⟩ <;> rfl

/-- Steps of which one is interrupted do not succeed. -/
theorem runSteps_ne_ok {todo : List Step} (h : i.step ∈ todo) :
    (runSteps path content (some i) d todo).2 ≠ .ok () := by
  induction todo generalizing d with
  | nil => cases h
  | cons step todo ih =>
    -- the run ends at the interrupted step, or before it with a failure
    by_cases hstep : i.step = step
    · rw [runSteps_interrupted hstep]
      simp
    · rw [runSteps, Option.filter_some_neg (by simpa using hstep)]
      have hrest := (List.mem_cons.mp h).resolve_left hstep
      rcases step.run path content d with ⟨next, fault | _⟩
      · simp
      · exact ih hrest

/-- An interruption of another step does not matter. -/
theorem runSteps_of_notMem {todo : List Step} (h : i.step ∉ todo) :
    runSteps path content (some i) d todo = runSteps path content none d todo := by
  induction todo generalizing d with
  | nil => rfl
  | cons step todo ih =>
    obtain ⟨hstep, hrest⟩ := not_or.mp fun hmem => h (List.mem_cons.mpr hmem)
    rw [runSteps, runSteps, Option.filter_some_neg (by simpa using hstep), Option.filter_none]
    rcases step.run path content d with ⟨next, fault | _⟩
    · rfl
    · exact ih hrest

/-! ### The target during the preparation -/

/-- The steps of a save before the temporary file takes the place of the target. -/
def preparation : List Step :=
  [.makeDirectory, .serialize, .create, .write, .sync]

theorem steps_eq : steps = preparation ++ [.rename] := rfl

theorem mem_preparation_iff {step : Step} : step ∈ preparation ↔ step ≠ .rename := by
  cases step <;> decide

/-- Whatever is written to the temporary file, the target is kept. -/
theorem keepsFile_temporary (path : String) (content : Bytes) (d : Disk) :
    Disk.KeepsFile (placeOf path) d (d.write (temporaryPath path) content).1 :=
  Disk.keepsFile_write content placeOf_temporaryPath_ne

/-- A step of the preparation keeps the target. -/
theorem keepsFile_run (path : String) (content : Bytes) (d : Disk) {step : Step}
    (hstep : step ∈ preparation) :
    Disk.KeepsFile (placeOf path) d (step.run path content d).1 := by
  cases step with
  | makeDirectory => exact Disk.keepsFile_makeDirectories d _ _
  | serialize => exact Disk.KeepsFile.refl _ d
  | create => exact keepsFile_temporary path [] d
  | write => exact keepsFile_temporary path content d
  | sync => exact Disk.KeepsFile.refl _ d
  | rename => exact absurd rfl (mem_preparation_iff.mp hstep)

/-- A step of the preparation keeps the target also if it is interrupted. -/
theorem keepsFile_interrupt (path : String) (content : Bytes) (progress : ℕ) (d : Disk)
    {step : Step} (hstep : step ∈ preparation) :
    Disk.KeepsFile (placeOf path) d (step.interrupt path content progress d) := by
  have hundivided : Disk.KeepsFile (placeOf path) d
      (if progress = 0 then d else (step.run path content d).1) := by
    split
    · exact Disk.KeepsFile.refl _ d
    · exact keepsFile_run path content d hstep
  -- serializing and creating are done in full or not at all
  cases step with
  | makeDirectory => exact Disk.keepsFile_makeDirectories d _ _
  | serialize => exact hundivided
  | create => exact hundivided
  | write => exact keepsFile_temporary path _ d
  | sync => exact keepsFile_temporary path _ d
  | rename => exact absurd rfl (mem_preparation_iff.mp hstep)

/-- **A preparation keeps the target**, however far it comes. -/
theorem keepsFile_runSteps (path : String) (content : Bytes) (interruption : Option Interruption)
    (d : Disk) {todo : List Step} (htodo : ∀ step ∈ todo, step ∈ preparation) :
    Disk.KeepsFile (placeOf path) d (runSteps path content interruption d todo).1 := by
  -- by induction on the steps, each of which keeps the file, whole or interrupted
  induction todo generalizing d with
  | nil => exact Disk.KeepsFile.refl _ d
  | cons step todo ih =>
    obtain ⟨hstep, htodo⟩ := List.forall_mem_cons.mp htodo
    rw [runSteps]
    cases interruption.filter (·.step = step) with
    | some i => exact keepsFile_interrupt path content i.progress d hstep
    | none =>
      have hkept := keepsFile_run path content d hstep
      rcases hrun : step.run path content d with ⟨next, fault | _⟩
      · rw [hrun] at hkept
        exact hkept
      · rw [hrun] at hkept
        exact hkept.trans (ih next htodo)

/-! ### Saves -/

variable {s : Settings}

/-- The temporary file has not taken the place of the target when the save is interrupted. -/
def Interruption.Early (i : Interruption) : Prop :=
  i.step = .rename → i.progress = 0

/-- A save fails in its preparation, or ends as its last step does; and the target is kept until
then. -/
theorem save_cases (s : Settings) (path : String) (d : Disk)
    (interruption : Option Interruption) :
    (Disk.KeepsFile (placeOf path) d (save s path d interruption).1 ∧
        (save s path d interruption).2 ≠ .ok ()) ∨
      ∃ before, Disk.KeepsFile (placeOf path) d before ∧
        runSteps path (Utf8.encode s.text) interruption d preparation = (before, .ok ()) ∧
          save s path d interruption =
            runSteps path (Utf8.encode s.text) interruption before [.rename] := by
  have hkept := keepsFile_runSteps path (Utf8.encode s.text) interruption d
    (fun step (h : step ∈ preparation) => h)
  rw [save, steps_eq, runSteps_append]
  rcases hprepared : runSteps path (Utf8.encode s.text) interruption d preparation with
    ⟨before, e | _⟩
  · rw [hprepared] at hkept
    exact Or.inl ⟨hkept, by simp⟩
  · rw [hprepared] at hkept
    exact Or.inr ⟨before, hkept, rfl, rfl⟩

/-- A save that is interrupted early keeps the target. -/
theorem keepsFile_save_interrupted (s : Settings) (path : String) (d : Disk) (hi : i.Early) :
    Disk.KeepsFile (placeOf path) d (save s path d (some i)).1 := by
  rcases save_cases s path d (some i) with ⟨hkept, -⟩ | ⟨before, hkept, hprepared, hsave⟩
  · exact hkept
  · -- the preparation was not interrupted, so it was the last step, before it had any effect
    have hrename : i.step = .rename := by
      by_contra hne
      apply runSteps_ne_ok (mem_preparation_iff.mpr hne)
      rw [hprepared]
    have hleft : (save s path d (some i)).1 = before := by
      rw [hsave, runSteps_interrupted hrename, hi hrename]
      rfl
    rw [hleft]
    exact hkept

/-- A save that fails by itself keeps the target. -/
theorem keepsFile_save_failed (h : (save s path d).2 ≠ .ok ()) :
    Disk.KeepsFile (placeOf path) d (save s path d).1 := by
  rcases save_cases s path d none with ⟨hkept, -⟩ | ⟨before, hkept, -, hsave⟩
  · exact hkept
  · rw [runSteps_singleton] at hsave
    rw [hsave] at h ⊢
    rcases hrename : Step.rename.run path (Utf8.encode s.text) before with ⟨after, fault | _⟩
    · -- a file that is not moved leaves everything as it was
      obtain rfl := Disk.rename_eq_error hrename
      exact hkept
    · rw [hrename] at h
      exact absurd rfl h

/-- The last step of a save has taken effect: the target holds the text of the settings, and
nothing lies in the place of the temporary file. -/
structure Replaced (s : Settings) (path : String) (d : Disk) : Prop where
  target : d.read path = .ok (Utf8.encode s.text)
  temporary : d.node? (placeOf (temporaryPath path)) = none

/-- **What a save leaves behind that succeeds**, whatever was there. -/
theorem replaced_save (h : (save s path d).2 = .ok ()) : Replaced s path (save s path d).1 := by
  rcases hsave : save s path d with ⟨after, result⟩
  rw [hsave] at h
  obtain rfl : result = .ok () := h
  obtain ⟨made, created, written, -, -, hwrite, hrename⟩ := save_eq_ok_iff.mp hsave
  have hread := Disk.read_of_write hwrite
  have hwritable := Disk.writable_of_write hwrite
  refine ⟨Disk.read_of_rename hread hrename, ?_⟩
  rw [Disk.node?_rename hread hrename, if_neg (placeOf_temporaryPath_ne hwritable), if_pos rfl]

/-- A save that is interrupted once its last step has taken effect leaves what it would have left
otherwise. -/
theorem save_interrupted_late (s : Settings) (path : String) (d : Disk) (hi : ¬ i.Early) :
    (save s path d (some i)).1 = (save s path d).1 := by
  obtain ⟨hrename, hprogress⟩ := Classical.not_imp.mp hi
  have hprepared : i.step ∉ preparation := fun hmem => mem_preparation_iff.mp hmem hrename
  rw [save, save, steps_eq, runSteps_append, runSteps_append, runSteps_of_notMem hprepared]
  rcases runSteps path (Utf8.encode s.text) none d preparation with ⟨before, e | _⟩
  · rfl
  · dsimp only
    rw [runSteps_interrupted hrename, runSteps_singleton]
    exact if_neg hprogress

/-- **A save that fails keeps the target, and one that does not replaces it.**  A save that is
interrupted, or fails, before the temporary file has taken the place of the target does not succeed
and leaves the target alone.  Once that has happened, the target holds the text of the settings and
the temporary file is gone, also if the save does not come to its end any more. -/
theorem save_keeps_or_replaces (s : Settings) (path : String) (d : Disk) :
    (∀ i : Interruption, i.Early →
      (save s path d (some i)).2 ≠ .ok () ∧ Disk.Untouched path d (save s path d (some i)).1) ∧
    ((save s path d).2 ≠ .ok () → Disk.Untouched path d (save s path d).1) ∧
    ((save s path d).2 = .ok () → Replaced s path (save s path d).1) ∧
    ∀ i : Interruption, ¬ i.Early → (save s path d (some i)).1 = (save s path d).1 := by
  refine ⟨fun i hi => ⟨?_, ?_⟩, fun h => ?_, replaced_save, fun i hi => ?_⟩
  · exact runSteps_ne_ok (by cases i.step <;> decide)
  · exact (keepsFile_save_interrupted s path d hi).untouched
  · exact (keepsFile_save_failed h).untouched
  · exact save_interrupted_late s path d hi

/-- A disk with old settings, and with a temporary file that an earlier save has left behind. -/
def usedDisk : Disk :=
  let made := (Disk.makeDirectories {} "conf").1
  let old := (made.write "conf/agents.json" (Utf8.encode "old settings".toList)).1
  (old.write "conf/agents.json.tmp" (Utf8.encode "half of what was".toList)).1

/-- The medium is full when three bytes of the temporary file are written. -/
def fullMedium : Interruption where
  step := .write
  progress := 3
  failure := .io (.other "No space left on device (os error 28)")

theorem save_keeps_or_replaces_usedDisk :
    fullMedium.Early ∧
      (save {} "conf/agents.json" usedDisk (some fullMedium)).2 ≠ .ok () ∧
      Disk.Untouched "conf/agents.json" usedDisk
        (save {} "conf/agents.json" usedDisk (some fullMedium)).1 ∧
      usedDisk.read "conf/agents.json" = .ok (Utf8.encode "old settings".toList) ∧
      (save {} "conf/agents.json" usedDisk).2 = .ok () ∧
      Replaced {} "conf/agents.json" (save {} "conf/agents.json" usedDisk).1 := by
  obtain ⟨hinterrupted, -, hsaved, -⟩ := save_keeps_or_replaces {} "conf/agents.json" usedDisk
  have hearly : fullMedium.Early := fun h => absurd h (by decide)
  have hok : (save {} "conf/agents.json" usedDisk).2 = .ok () := by decide +kernel
  obtain ⟨hfailed, hkept⟩ := hinterrupted fullMedium hearly
  exact ⟨hearly, hfailed, hkept, by decide +kernel, hok, hsaved hok⟩

end AchCourier.Config
