import AchCourier.Proofs.Ingest.Failures
import AchCourier.Proofs.Ingest.Siblings

/-!
# Handling a directory again

A directory may be handled again at the same desk, as often as one likes.  After the first run its
contents are on record, and to save a content that is on record changes nothing, so the trail stays
as the first run has left it.  The events and the outcome of a run do not depend on what was done
at the desk before, so every run sends the same events and has the same outcome.

## Main definitions

* `afterRuns` — the desk after some runs.

## Main results

* `exists_sent_processDirectory` — what a run sends and what comes of it are the same at every desk.
* `Audit.Trail.save_of_get?` — a content that is on record is not recorded again.
* `trail_processDirectory_of_onRecord` — once its contents are on record, a directory adds nothing
  to the trail.
* `reruns_processDirectory` — **to handle a directory again is safe.**
-/

namespace AchCourier

/-- A content that is on record is not recorded again. -/
theorem Audit.Trail.save_of_get? {t t' : Audit.Trail} {hash hostname : String}
    {direction : Audit.Direction} (h : t.save hash hostname direction = .ok t')
    (hget : (t.get? hash hostname).isSome) : t' = t := by
  unfold save at h
  split at h
  · cases h
  · split at h
    · exact (Except.ok.inj h).symm
    · next hnone =>
      rw [hnone] at hget
      cases hget

namespace Ingest

open Local (Disk)
open Desk (Gathers)

variable {disk : Disk} {saver : Audit.Saver} {chain : List Processor} {dir : String} {d : Desk}

/-! ### The same at every desk -/

/-- **What a run sends and what comes of it are the same at every desk** at which no save fails, and
what it records has come in. -/
theorem exists_sent_processDirectory (disk : Disk) (saver : Audit.Saver) (chain : List Processor)
    (dir : String) :
    ∃ sent result, ∀ d : Desk, d.Works →
      (processDirectory disk saver chain dir d).1.events = d.events ++ sent ∧
      (processDirectory disk saver chain dir d).2 = result ∧
      ∀ r ∈ (processDirectory disk saver chain dir d).1.audit.trail.records,
        r ∈ d.audit.trail.records ∨ r.direction = .incoming := by
  obtain ⟨names, hnames⟩ := exists_namesIn disk dir
  rcases processDirectory_cases hnames saver chain with ⟨fault, -, -, hrun⟩ | ⟨_, -, hrun⟩
  · refine ⟨[], .error (.io dir fault.message), fun d _ => ?_⟩
    rw [hrun]
    exact ⟨(List.append_nil _).symm, rfl, fun r hr => Or.inl hr⟩
  · -- what each file sends and what comes of it is what it would be alone
    let paths := names.map (Local.child dir)
    let owns := paths.map fun path => (alone disk saver chain path).1
    refine ⟨owns.flatMap Desk.events,
      Error.collect (paths.filterMap fun path => failure? (alone disk saver chain path).2),
      fun d hd => ?_⟩
    obtain ⟨hgathers, hfailures⟩ := gathers_failuresOf disk saver chain paths hd
    rw [hrun]
    refine ⟨hgathers.events, congrArg Error.collect hfailures, fun r hr => ?_⟩
    rcases (hgathers.records r).mp hr with hr | ⟨⟨own, hown, hr⟩, -⟩
    · exact Or.inl hr
    · exact Or.inr (hgathers.incoming own hown r hr)

/-! ### Contents on record -/

/-- A file whose content is on record adds nothing to the trail. -/
theorem trail_processFile_of_onRecord {path : String}
    (h : ∀ file, incomingAt disk saver.hostname path = some file →
      (d.audit.trail.get? file.hash file.hostname).isSome) :
    (processFile disk saver chain path d).1.audit.trail = d.audit.trail := by
  unfold incomingAt at h
  unfold processFile
  cases hread : disk.read path with
  | error fault => rfl
  | ok bytes =>
    rw [hread] at h
    dsimp only at h ⊢
    rcases processBytes_cases saver chain path bytes d with
      ⟨-, cause, heq⟩ | ⟨file, hsome, -, heq⟩
    · rw [heq]
    · -- the pair is on record, so the save changes nothing
      have hget := h file hsome
      rw [(origin_of_incomingOf hsome).2] at hget
      rw [heq]
      rcases recordContent_cases saver file.hash d with
        ⟨-, e, hrecord⟩ | ⟨-, -, trail, hsave, hrecord⟩
      · rw [hrecord]
      · rw [hrecord]
        show (handleAll chain file _).1.audit.trail = _
        rw [audit_handleAll]
        exact Audit.Trail.save_of_get? hsave hget

section
variable {names : List String} (hnames : NamesIn disk dir names)
include hnames

/-- **Once its contents are on record, a directory adds nothing to the trail.** -/
theorem trail_processDirectory_of_onRecord
    (h : ∀ file ∈ incomingIn disk saver.hostname dir names,
      (d.audit.trail.get? file.hash file.hostname).isSome) :
    (processDirectory disk saver chain dir d).1.audit.trail = d.audit.trail := by
  rcases processDirectory_cases hnames saver chain with ⟨_, -, -, hrun⟩ | ⟨_, -, hrun⟩
  · rw [hrun]
  · rw [hrun]
    unfold incomingIn at h
    generalize names.map (Local.child dir) = paths at h
    -- file by file the trail stays the same, so the contents stay on record
    show (failuresOf (processFile disk saver chain) paths d).1.audit.trail = _
    clear hrun hnames
    induction paths generalizing d with
    | nil => rfl
    | cons path paths ih =>
      have hfirst : (processFile disk saver chain path d).1.audit.trail = d.audit.trail :=
        trail_processFile_of_onRecord fun file hfile =>
          h file (List.mem_filterMap.mpr ⟨path, List.mem_cons_self, hfile⟩)
      rw [failuresOf_cons]
      refine (ih fun file hfile => ?_).trans hfirst
      rw [hfirst]
      obtain ⟨other, hother, hat⟩ := List.mem_filterMap.mp hfile
      exact h file (List.mem_filterMap.mpr ⟨other, List.mem_cons_of_mem _ hother, hat⟩)

/-- A run puts the contents of the directory on record. -/
theorem onRecord_processDirectory (hd : d.Works) {file : IncomingFile}
    (hfile : file ∈ incomingIn disk saver.hostname dir names) :
    ((processDirectory disk saver chain dir d).1.audit.trail.get? file.hash
      file.hostname).isSome := by
  have htakes := takes_processDirectory hnames saver chain d
  rw [htakes.trail, onRecord_eq_self hd]
  exact Or.inr ⟨file, hfile, rfl, rfl⟩

theorem works_processDirectory (hd : d.Works) :
    (processDirectory disk saver chain dir d).1.Works := fun k => by
  rw [(takes_processDirectory hnames saver chain d).failsAt]
  exact hd k

end

/-! ### Runs -/

/-- The desk after a number of runs. -/
def afterRuns (disk : Disk) (saver : Audit.Saver) (chain : List Processor) (dir : String) :
    ℕ → Desk → Desk
  | 0, d => d
  | n + 1, d => (processDirectory disk saver chain dir (afterRuns disk saver chain dir n d)).1

/-- A run after others leaves the trail as the first one did. -/
theorem trail_afterRuns (hd : d.Works) (n : ℕ) :
    (afterRuns disk saver chain dir n d).Works ∧
      (afterRuns disk saver chain dir (n + 1) d).audit.trail =
        (processDirectory disk saver chain dir d).1.audit.trail := by
  obtain ⟨names, hnames⟩ := exists_namesIn disk dir
  induction n with
  | zero => exact ⟨hd, rfl⟩
  | succ n ih =>
    obtain ⟨hworks, htrail⟩ := ih
    refine ⟨works_processDirectory hnames hworks, ?_⟩
    rw [afterRuns, trail_processDirectory_of_onRecord hnames fun file hfile => ?_, htrail]
    -- the trail is still that of the first run, which has put the file on record
    rw [htrail]
    exact onRecord_processDirectory hnames hd hfile

/-- **To handle a directory again is safe.**  However often that is done, at a desk at which no save
fails, every run leaves the trail as the first one has left it, sends the same events in the same
order and has the same outcome; and what the first run has recorded has come in. -/
theorem reruns_processDirectory (hd : d.Works) (disk : Disk) (saver : Audit.Saver)
    (chain : List Processor) (dir : String) :
    let first := processDirectory disk saver chain dir d
    (∀ r ∈ first.1.audit.trail.records, r ∈ d.audit.trail.records ∨ r.direction = .incoming) ∧
    ∃ sent, ∀ n,
      let before := afterRuns disk saver chain dir n d
      let run := processDirectory disk saver chain dir before
      run.1.audit.trail = first.1.audit.trail ∧ run.1.events = before.events ++ sent ∧
        run.2 = first.2 := by
  obtain ⟨sent, result, hsame⟩ := exists_sent_processDirectory disk saver chain dir
  obtain ⟨-, hfirst, hincoming⟩ := hsame d hd
  refine ⟨hincoming, sent, fun n => ?_⟩
  obtain ⟨hworks, htrail⟩ := trail_afterRuns hd n
  obtain ⟨hevents, hresult, -⟩ := hsame _ hworks
  exact ⟨htrail, hevents, hresult.trans hfirst.symm⟩

/-- A file that a processor refuses is on record once after three runs, and is refused in the third
run as in the first. -/
theorem reruns_processDirectory_refused :
    let disk : Disk := ⟨⟨[(["in"], .directory),
      (["in", "a"], .file (Utf8.encode (Ach.lineOf ({} : Ach.BatchHeader).cells)))]⟩⟩
    let chain := [Processor.noting "log", Processor.refusing "gate" ["shut", "locked"]]
    let run := fun d => processDirectory disk ⟨"bank"⟩ chain "in" d
    (run (run (run {}).1).1).1.audit.trail.records.map (·.direction) = [.incoming] ∧
      (run (run (run {}).1).1).2 = (run {}).2 ∧
      (failure? (run {}).2).map Error.count = some 2 := by
  intro disk chain run
  have hworks : Desk.Works {} := fun _ => rfl
  obtain ⟨-, sent, hruns⟩ := reruns_processDirectory hworks disk ⟨"bank"⟩ chain "in"
  obtain ⟨htrail, -, hresult⟩ := hruns 2
  -- only the first run has to be evaluated
  have hfirst : (run {}).1.audit.trail.records.map (·.direction) = [.incoming] := by
    decide +kernel
  refine ⟨?_, hresult, by decide +kernel⟩
  rw [← hfirst]
  exact congrArg (fun trail => trail.records.map (·.direction)) htrail

end Ingest

end AchCourier
