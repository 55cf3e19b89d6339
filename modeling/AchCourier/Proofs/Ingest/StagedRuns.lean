import AchCourier.Proofs.Ingest.Confinement
import AchCourier.Proofs.Ingest.Deletions

/-!
# Runs clear up

A run stages what it can, and its directory is removed when it fails, and when everything is done.
So there is nothing left of it then, and nothing else below the staging directory has changed.
While the directory is there it holds what was fetched, and nothing else.  A run fails when
something cannot be read at the bank, and unless the disk hinders it in no other case.

## Main definitions

* `Ready` — what a run finds.
* `stageRun` — what a run has staged, before its directory is removed if it failed.

## Main results

* `run_eq_of_placeOf_eq` — the directory of a run is that of no other run.
* `Ready.confined`, `Ready.complete_download`, `Ready.outcome_download` — what a run stages.
* `Ready.removed_download`, `Ready.removed_ingest` — what is left of it.
* `staging_confined` — **what a run does to the disk.**
-/

namespace AchCourier.Ingest

open Local (Disk LeadsDown Storable child placeOf placeOf_child_eq)

section
variable {σ : Type} {route : Route σ} {staging time : String} {courier courier' : Courier σ}
  {staged : Staged}

theorem runs_stageAll (cs : List Category) :
    (stageAll route staged courier cs).1.runs = courier.runs := by
  induction cs generalizing staged courier with
  | nil => rfl
  | cons c cs ih =>
    rw [stageAll_cons]
    split
    · rfl
    · split
      · rfl
      · exact ih

/-- Handling files and deleting them at the bank is no business of the local disk. -/
theorem disk_processAndClean (route : Route σ) (chain : List Processor) (cleanup : Bool)
    (staged : Staged) (courier : Courier σ) :
    (processAndClean route chain cleanup staged courier).1.disk = courier.disk := by
  unfold processAndClean processStaged
  dsimp only
  split
  · next h => rw [← (Prod.mk.inj h).1]
  · next h =>
    split
    · -- deleting at the bank touches no local disk
      refine (attemptAll_rel (R := fun before after : Courier σ => after.disk = before.disk)
        (fun _ => rfl) (fun h h' => h'.trans h) (fun _ _ => rfl) _ _).trans ?_
      rw [← (Prod.mk.inj h).1]
    · rw [← (Prod.mk.inj h).1]

/-- What a run finds: the time that it puts into the name of its directory has no slash in it, the
staging directory is tidy, and its own directory is not there. -/
structure Ready (route : Route σ) (staging time : String) (courier : Courier σ) : Prop where
  named : '/' ∉ time.toList
  tidy : courier.disk.Tidy staging
  vacant : courier.disk.Vacant
    (placeOf (runDirectory staging route.agent.settings.id time courier.runs))

/-- What a run has staged, whatever comes of it, before its directory is removed if it failed. -/
def stageRun (route : Route σ) (staging time : String) (courier : Courier σ) :
    Courier σ × Except Error Staged :=
  stageAll route
    ⟨runDirectory staging route.agent.settings.id time courier.runs, route.agent.hostname,
      [], [], []⟩
    { courier with runs := courier.runs + 1 } Category.all

theorem download_cases (route : Route σ) (staging time : String) (courier : Courier σ) :
    (∃ after staged, stageRun route staging time courier = (after, .ok staged) ∧
        download route staging time courier = (after, .ok staged)) ∨
      ∃ after e, stageRun route staging time courier = (after, .error e) ∧
        download route staging time courier = (after.dropRun
          (runDirectory staging route.agent.settings.id time courier.runs), .error e) := by
  unfold download
  rcases h : stageRun route staging time courier with ⟨after, e | staged⟩
  · exact Or.inr ⟨after, e, rfl, by rw [stageRun] at h; simp only [h]⟩
  · exact Or.inl ⟨after, staged, rfl, by rw [stageRun] at h; simp only [h]⟩

/-- The directory of a run is that of no other run. -/
theorem run_eq_of_placeOf_eq {id id' time time' : String} {run run' : Nat}
    (htime : '/' ∉ time.toList) (htime' : '/' ∉ time'.toList)
    (h : placeOf (runDirectory staging id' time' run') =
      placeOf (runDirectory staging id time run)) : run' = run := by
  have hplaces : placeOf staging ++ [runName id' time' run'] =
      placeOf staging ++ [runName id time run] := by
    rw [← placeOf_child_eq staging (leadsDown_runName id' htime' run'),
      ← placeOf_child_eq staging (leadsDown_runName id htime run)]
    exact h
  exact run_eq_of_runName_eq (List.singleton_inj.mp (List.append_cancel_left hplaces))

namespace Ready

variable (h : Ready route staging time courier)
include h

theorem leadsDown : LeadsDown (runName route.agent.settings.id time courier.runs) :=
  leadsDown_runName _ h.named _

theorem confined_start :
    Confined courier.disk staging (runName route.agent.settings.id time courier.runs) []
      ({ courier with runs := courier.runs + 1 } : Courier σ).disk :=
  Confined.of_vacant h.tidy h.vacant

theorem confined :
    Confined courier.disk staging (runName route.agent.settings.id time courier.runs)
      (fetch route Category.all courier.link).1 (stageRun route staging time courier).1.disk :=
  confined_stageAll h.leadsDown rfl h.confined_start

omit h in
theorem runs_download : (download route staging time courier).1.runs = courier.runs + 1 := by
  have hstage : (stageRun route staging time courier).1.runs = courier.runs + 1 := runs_stageAll _
  rcases download_cases route staging time courier with
    ⟨after, staged, hafter, hrun⟩ | ⟨after, e, hafter, hrun⟩
  · rw [hafter] at hstage
    rwa [hrun]
  · rw [hafter] at hstage
    rwa [hrun]

omit h in
/-- A run that succeeds has read everything, and reports the plain names. -/
theorem names_download (hrun : download route staging time courier = (courier', .ok staged)) :
    stageRun route staging time courier = (courier', .ok staged) ∧
      (fetch route Category.all courier.link).2 = none ∧
      staged.root = runDirectory staging route.agent.settings.id time courier.runs ∧
      ∀ c files, (c, files) ∈ (fetch route Category.all courier.link).1 →
        staged.names c = plainNames files := by
  rcases download_cases route staging time courier with
    ⟨after, staged', hstage, hrun'⟩ | ⟨after, e, -, hrun'⟩
  · cases hrun'.symm.trans hrun
    obtain ⟨hread, hroot, hnames, -⟩ := names_stageAll (by decide) hstage
    exact ⟨hstage, hread, hroot, hnames⟩
  · cases hrun'.symm.trans hrun

/-- **A run that succeeds has staged everything**, if no two files of a category have one name. -/
theorem complete_download (hrun : download route staging time courier = (courier', .ok staged))
    (hdistinct : ∀ c files, (c, files) ∈ (fetch route Category.all courier.link).1 →
      (files.map (·.name)).Nodup) :
    Complete (fetch route Category.all courier.link).1
      (placeOf (runDirectory staging route.agent.settings.id time courier.runs))
      courier'.disk := by
  obtain ⟨hstage, -⟩ := names_download hrun
  have hnothing : ∀ {root p node}, ¬ Stored [] root p node := fun hstored => by
    cases hstored <;> contradiction
  exact complete_stageAll h.leadsDown rfl (by decide) h.confined_start
    (fun _ _ hstored => absurd hstored hnothing) (by simp) hdistinct hstage

/-- **Nothing is left of a run that failed.** -/
theorem removed_download {e : Error}
    (hrun : download route staging time courier = (courier', .error e)) :
    courier'.disk.Vacant
        (placeOf (runDirectory staging route.agent.settings.id time courier.runs)) ∧
      Disk.SameBut (placeOf staging)
        (placeOf (runDirectory staging route.agent.settings.id time courier.runs))
        courier.disk courier'.disk := by
  have hconfined := h.confined
  rcases download_cases route staging time courier with
    ⟨after, staged, -, hrun'⟩ | ⟨after, e', hstage, hrun'⟩
  · cases hrun'.symm.trans hrun
  · obtain ⟨rfl, -⟩ := Prod.mk.inj (hrun'.symm.trans hrun)
    rw [hstage] at hconfined
    exact hconfined.removed h.leadsDown

/-- **When everything is done, nothing is left of the directory of the run**, whatever came of
it. -/
theorem removed_ingest (chain : List Processor) (cleanup : Bool) :
    (ingest route chain staging time cleanup courier).1.disk.Vacant
        (placeOf (runDirectory staging route.agent.settings.id time courier.runs)) ∧
      Disk.SameBut (placeOf staging)
        (placeOf (runDirectory staging route.agent.settings.id time courier.runs))
        courier.disk (ingest route chain staging time cleanup courier).1.disk := by
  rcases hrun : download route staging time courier with ⟨after, e | staged⟩
  · have hingest : ingest route chain staging time cleanup courier = (after, .error e) := by
      rw [ingest, hrun]
    rw [hingest]
    exact h.removed_download hrun
  · obtain ⟨hstage, -, hroot, -⟩ := names_download hrun
    have hconfined := h.confined
    rw [hstage] at hconfined
    -- handling and cleaning up leave the staged files where they are
    have hingest : (ingest route chain staging time cleanup courier).1.disk =
        (removeStaging after.disk staged.root).1 := by
      rw [ingest, hrun, ← disk_processAndClean route chain cleanup staged after]
      rfl
    rw [hingest, hroot]
    exact hconfined.removed h.leadsDown

/-- **What comes of a run** that the disk does not hinder. -/
theorem outcome_download
    (hmake : (courier.disk.makeDirectories
      (runDirectory staging route.agent.settings.id time courier.runs)).2 = .ok ())
    (hstorable : ∀ c files, (c, files) ∈ (fetch route Category.all courier.link).1 →
      ∀ f ∈ files, isPlainName f.name = true → Storable f.name) :
    (∀ e, (fetch route Category.all courier.link).2 = some e →
        (download route staging time courier).2 = .error (.transfer e)) ∧
      ((fetch route Category.all courier.link).2 = none →
        ∃ staged, (download route staging time courier).2 = .ok staged) := by
  have hsame : (download route staging time courier).2 =
      (stageRun route staging time courier).2 := by
    rcases download_cases route staging time courier with
      ⟨after, staged, hstage, hrun⟩ | ⟨after, e, hstage, hrun⟩
    · rw [hrun, hstage]
    · rw [hrun, hstage]
  rw [hsame]
  exact outcome_stageAll h.leadsDown rfl h.confined_start hmake hstorable

end Ready

end

end AchCourier.Ingest
