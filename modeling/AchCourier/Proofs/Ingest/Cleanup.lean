import AchCourier.Proofs.Ingest.Deletions
import AchCourier.Proofs.Ingest.Failures
import AchCourier.Proofs.Remote.PlannedRemoval

/-!
# Clearing up at the bank

A staged file that cannot be deleted at the bank is no reason to leave the others there.  Clearing
up is a list of deletions, one for each staged name, and each is tried whatever became of the ones
before it: a deletion that fails costs the session, so the next one has to dial again, with failures
of its own.  The failures are counted one by one in the end.  No file is touched that is not among
the staged ones, and those whose deletion succeeded are gone.

## Main definitions

* `Attempts` — deletions were tried one after the other, and their failures were collected.

## Main results

* `attempts_cleanupRemote` — clearing up tries one deletion for each staged name.
* `cleanup_attempts_everything` — **every staged file is tried, and what was deleted is gone.**
-/

namespace AchCourier.Ingest

open Remote (Agent Episode Host Memory Scripted deleteTurns)

variable {σ : Type}

/-- A deletion was tried for each of the paths, in order, and the outcome is a success just when all
of them succeeded, and else counts those that failed. -/
structure Attempts (route : Route σ) (paths : List String) (courier : Courier σ)
    (episodes : List Episode) (out : Courier σ × Except Error Unit) : Prop where
  played : route.agent.play route.host (deleteTurns route.lookup paths) courier.link =
    (episodes, out.1.link)
  operations : episodes.map Episode.operation = paths.map .delete
  ok_iff : out.2 = .ok () ↔ ∀ e ∈ episodes, e.failure = none
  count_eq : ∀ e, out.2 = .error e → e.count = episodes.countP (·.failure.isSome)

theorem failuresOf_deleteRemote (route : Route σ) (paths : List String) (courier : Courier σ) :
    let played := route.agent.play route.host (deleteTurns route.lookup paths) courier.link
    failuresOf (deleteRemote route) paths courier =
      ({ courier with link := played.2 },
        played.1.filterMap fun e => e.failure.map .transfer) := by
  -- by induction on the paths, since each deletion is one turn of the agent
  induction paths generalizing courier with
  | nil => simp [deleteTurns, Agent.play]
  | cons path paths ih =>
    rw [failuresOf_cons, deleteRemote_eq, ih]
    simp only [deleteTurns, List.map_cons, Agent.play, List.filterMap_cons]
    cases (route.agent.episode route.host ⟨route.lookup, .delete path⟩ courier.link).1.failure <;>
      rfl

theorem operations_play (host : Host σ) (agent : Agent) (lookup : Net.Lookup) (paths : List String)
    (link : Remote.Link σ) :
    (agent.play host (deleteTurns lookup paths) link).1.map Episode.operation =
      paths.map .delete := by
  induction paths generalizing link with
  | nil => rfl
  | cons path paths ih => exact congrArg (Remote.Operation.delete path :: ·) (ih _)

/-- Failures of transfers count as many as there are. -/
theorem total_count_transfers (episodes : List Episode) :
    total ((episodes.filterMap fun e => e.failure.map Error.transfer).map Error.count) =
      episodes.countP (·.failure.isSome) := by
  induction episodes with
  | nil => rfl
  | cons e episodes ih =>
    cases hfailure : e.failure with
    | none => simpa [hfailure] using ih
    | some cause => simp [hfailure, ih, Error.count, Nat.add_comm]

/-- **Clearing up tries one deletion for each staged name**, category by category. -/
theorem attempts_cleanupRemote (route : Route σ) (staged : Staged) (courier : Courier σ) :
    ∃ episodes, Attempts route (remotePaths route.agent.settings.paths staged) courier episodes
      (cleanupRemote route staged courier) := by
  generalize hpaths : remotePaths route.agent.settings.paths staged = paths
  have hfailures := failuresOf_deleteRemote route paths courier
  have hcleanup : cleanupRemote route staged courier =
      ((failuresOf (deleteRemote route) paths courier).1,
        Error.collect (failuresOf (deleteRemote route) paths courier).2) := by
    rw [← hpaths]
    rfl
  rw [hfailures] at hcleanup
  rw [hcleanup]
  -- what failed is what the played turns tell
  refine ⟨(route.agent.play route.host (deleteTurns route.lookup paths) courier.link).1,
    rfl, operations_play .., ?_, fun e he => ?_⟩
  · rw [Error.collect_eq_ok_iff, List.filterMap_eq_nil_iff]
    simp only [Option.map_eq_none_iff]
  · rw [Error.count_collect he, total_count_transfers]

/-- **Every staged file is tried, and what was deleted is gone.**  Whatever is planned to fail on
the way, clearing up tries to delete each staged file once, category by category; it succeeds just
when every deletion did, and else its failure counts those that did not.  A file at the bank that is
at none of these paths is what it was.  A path whose deletion succeeded holds no file in the end,
unless the plan was to say of the file that there is none. -/
theorem cleanup_attempts_everything (lookup : Net.Lookup) (agent : Agent) (staged : Staged)
    (courier : Courier (Scripted Memory)) :
    let host := Scripted.host Memory.host
    let route : Route (Scripted Memory) := ⟨host, lookup, agent⟩
    let paths :=
      staged.inbound.map (Remote.join agent.settings.paths.inbound) ++
        staged.reconciliation.map (Remote.join agent.settings.paths.reconciliation) ++
        staged.returns.map (Remote.join agent.settings.paths.returns)
    let out := cleanupRemote route staged courier
    (∃ episodes, Attempts route paths courier episodes out) ∧
      (∀ key, key ∉ paths.map Memory.normalize →
        out.1.link.host.inner.files.get? key = courier.link.host.inner.files.get? key) ∧
      ∀ before path later, paths = before ++ path :: later →
        let mid := (agent.play host (deleteTurns lookup before) courier.link).2
        (agent.episode host ⟨lookup, .delete path⟩ mid).1.failure = none →
        out.1.link.host.inner.file? path = none ∨
          ∃ e, (mid.host.nextPlanned .removeFile).1 = some e ∧ e.isNotFound = true := by
  intro host route paths out
  have hpaths : remotePaths route.agent.settings.paths staged = paths := by
    simp [remotePaths, Category.all, Staged.names, Category.remotePath, paths, route]
  obtain ⟨episodes, hattempts⟩ := attempts_cleanupRemote route staged courier
  rw [hpaths] at hattempts
  -- only the turns change the link
  have hlink : out.1.link = (agent.play host (deleteTurns lookup paths) courier.link).2 :=
    (congrArg Prod.snd hattempts.played).symm
  refine ⟨⟨episodes, hattempts⟩, fun key hkey => ?_, fun before path later hsplit hok => ?_⟩
  · rw [hlink]
    exact Agent.play_deleteTurns_get? lookup agent courier.link hkey
  · rw [hlink, hsplit]
    exact Agent.play_deleteTurns_cleared lookup agent courier.link before later path hok

/-- A bank with two files, the first of which may not be removed. -/
def guardedBank : Scripted Memory :=
  let bank := (({} : Memory).addFile "out/a" []).addFile "out/b" []
  ({ inner := bank } : Scripted Memory).plan .removeFile
    [some (.operation .memory "remove" "out/a" "denied")]

/-- Both files were staged. -/
def stagedPair : Staged where
  root := "run"
  hostname := "bank"
  inbound := ["a", "b"]

/-- The file that may not be removed stays, and the other one is gone all the same. -/
theorem cleanup_attempts_everything_guarded :
    let courier : Courier (Scripted Memory) := { link := { host := guardedBank } }
    let out := cleanupRemote ⟨Scripted.host Memory.host, .offline, sampleRoute.agent⟩ stagedPair
      courier
    (∃ episodes, Attempts ⟨Scripted.host Memory.host, .offline, sampleRoute.agent⟩
        ["out/a", "out/b"] courier episodes out) ∧ out.2.isOk = false ∧
      (out.1.link.host.inner.file? "out/a").isSome = true ∧
      out.1.link.host.inner.file? "out/b" = none := by
  intro courier
  dsimp only
  obtain ⟨hattempts, -, hcleared⟩ :=
    cleanup_attempts_everything .offline sampleRoute.agent stagedPair courier
  refine ⟨hattempts, by decide +kernel, by decide +kernel, ?_⟩
  · rcases hcleared ["out/a"] "out/b" [] (by decide +kernel) (by decide +kernel) with
      hgone | ⟨e, hplanned, -⟩
    · exact hgone
    · -- the plan was for the first file only
      have hnone : ((sampleRoute.agent.play (Scripted.host Memory.host)
          (deleteTurns .offline ["out/a"]) courier.link).2.host.nextPlanned .removeFile).1 =
          none := by decide +kernel
      cases hnone.symm.trans hplanned

end AchCourier.Ingest
