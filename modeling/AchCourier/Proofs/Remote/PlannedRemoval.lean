import AchCourier.Proofs.Remote.History
import AchCourier.Proofs.Remote.Removal

/-!
# Removing files while failures are planned

Whatever fails on the way, a deletion takes the file at its path or leaves all files as they were.
It succeeds without the file being gone in one case only: the host was about to remove the file and
said instead, as planned, that there is none.  So behind a list of deletions no other file has
changed, and a file that was gone is gone.

## Main definitions

* `Removes` — what a deletion makes of the files of a host in memory.

## Main results

* `removes_delete` — a deletion takes the file at its path or leaves all files as they were.
* `play_deleteTurns_get?`, `play_deleteTurns_gone` — what a list of deletions makes of one file.
* `play_deleteTurns_cleared` — **a deletion that succeeds leaves no file, and none comes back.**
-/

namespace AchCourier.Remote

namespace Agent

/-! ### One deletion -/

variable {lookup : Net.Lookup} {agent : Agent} {path : String}
  {link after : Link (Scripted Memory)}

/-- The requests of a session use up no plan for removing files, and leave the files alone. -/
theorem spares_of_keepsHouse {r : Request} (h : KeepsHouse r) :
    (Scripted.host Memory.host).Spares (fun s => (s.inner.files, (s.nextPlanned .removeFile).1))
      r := by
  have hkind : RequestKind.removeFile ≠ r.kind := by
    rcases h with rfl | rfl | rfl <;> simp [Request.kind]
  intro s
  exact Prod.ext (Scripted.spares (Memory.spares_of_keepsHouse h).1 s)
    (Scripted.spares_nextPlanned Memory.host hkind s)

/-- The files are as they were, or one less.  They are as they were behind a success only if the
host was about to remove a file and said as planned that there is none. -/
def Removes (path : String) (link : Link (Scripted Memory)) (ok : Bool)
    (after : Link (Scripted Memory)) : Prop :=
  after.host.inner.files = link.host.inner.files.erase (Memory.normalize path) ∨
    after.host.inner.files = link.host.inner.files ∧ (ok = true →
      ∃ e, (link.host.nextPlanned .removeFile).1 = some e ∧ e.isNotFound = true)

/-- Behind a look that is answered the session holds, and what was found is what is there. -/
theorem ask_stat {out : Except Error (Option Entry)}
    (h : (ask (Scripted.host Memory.host) (.stat path)).run link = (out, after)) :
    after.host.inner = link.host.inner ∧
      (after.host.nextPlanned .removeFile).1 = (link.host.nextPlanned .removeFile).1 ∧
      ∀ found, out = .ok found → link.host.inner.isLive = true ∧
        found = link.host.inner.entry? (Memory.normalize path) := by
  obtain ⟨hout, rfl⟩ := Prod.mk.inj h
  have hplan : RequestKind.removeFile ≠ (Request.stat path).kind := by simp [Request.kind]
  have hcases := Scripted.answer_cases Memory.host (.stat path) link.host
  refine ⟨?_, Scripted.spares_nextPlanned Memory.host hplan link.host, fun found hfound => ?_⟩
  · -- a planned failure leaves the memory alone, and so does a look
    rcases hcases with ⟨-, -, hinner⟩ | ⟨-, hinner⟩
    · exact hinner
    · exact hinner.trans (Memory.answer_of_looks _ rfl)
  · rcases hcases with ⟨e, hfails, -⟩ | ⟨hanswer, -⟩
    · cases hfails.symm.trans (hout.trans hfound)
    · have hlooked := hanswer.symm.trans (hout.trans hfound)
      have hlive : link.host.inner.isLive = true := Memory.isLive_of_answer_stat hlooked
      refine ⟨hlive, Except.ok.inj (hlooked.symm.trans ?_)⟩
      exact congrArg Prod.fst (Memory.answer_of_isLive hlive rfl)

/-- As long as the session holds, removing a file removes it or fails as planned. -/
theorem ask_removeFile (hlive : link.host.inner.isLive = true) {out : Except Error Unit}
    (h : (ask (Scripted.host Memory.host) (.removeFile path)).run link = (out, after)) :
    after.host.inner.files = link.host.inner.files.erase (Memory.normalize path) ∧
        (∀ e, out = .error e → e.isNotFound = true) ∨
      after.host.inner.files = link.host.inner.files ∧
        ∃ e, (link.host.nextPlanned .removeFile).1 = some e ∧ out = .error e := by
  obtain ⟨rfl, rfl⟩ := Prod.mk.inj h
  -- a failure that is planned comes instead of the removal
  cases hplanned : (link.host.nextPlanned .removeFile).1 with
  | none =>
    obtain ⟨hanswer, hinner⟩ := Scripted.answer_of_not_planned Memory.host
      (r := .removeFile path) hplanned
    obtain ⟨herased, hfails⟩ := Memory.answer_removeFile_of_isLive hlive path
    refine Or.inl ⟨?_, fun e he => hfails e (hanswer.symm.trans he)⟩
    exact congrArg Memory.files (hinner.trans herased)
  | some e =>
    obtain ⟨hanswer, hinner⟩ := Scripted.answer_of_planned Memory.host
      (r := .removeFile path) hplanned
    exact Or.inr ⟨congrArg Memory.files hinner, e, rfl, hanswer⟩

/-- As long as the session holds, the file is gone, unless its removal fails as planned. -/
theorem removes_of_isLive (hlive : link.host.inner.isLive = true) {out : Except Error Unit}
    (h : (tryCatch (ask (Scripted.host Memory.host) (.removeFile path)) fun e =>
      if e.isNotFound then return () else throw e : Action (Scripted Memory) Unit).run link =
        (out, after)) :
    Removes path link out.isOk after := by
  rcases run_tryCatch_cases h with ⟨_, hremove, rfl⟩ | ⟨e, mid, hremove, hhandle⟩
  · rcases ask_removeFile hlive hremove with ⟨hfiles, -⟩ | ⟨-, e, -, hout⟩
    · exact Or.inl hfiles
    · cases hout
  · have hmid : after = mid := by
      split at hhandle
      · exact (run_pure_inj hhandle).2
      · exact (run_throw_inj hhandle).2
    rw [hmid]
    rcases ask_removeFile hlive hremove with ⟨hfiles, -⟩ | ⟨hfiles, planned, hplanned, hout⟩
    · exact Or.inl hfiles
    · obtain rfl := Except.error.inj hout
      refine Or.inr ⟨hfiles, fun hok => ⟨e, hplanned, ?_⟩⟩
      -- only a failure that says that there is none is taken for a success
      split at hhandle
      · assumption
      · rw [(run_throw_inj hhandle).1] at hok
        cases hok

/-- What is removed once there is a session. -/
theorem removes_removeFound {out : Except Error Unit}
    (h : (removeFound (Scripted.host Memory.host) path).run link = (out, after)) :
    Removes path link out.isOk after := by
  rcases run_bind_cases h with ⟨found, mid, hstat, hrest⟩ | ⟨e, hstat, rfl⟩
  · obtain ⟨hinner, hplan, hfound⟩ := ask_stat hstat
    obtain ⟨hlive, rfl⟩ := hfound found rfl
    split at hrest
    · rw [← hinner] at hlive
      have hremoves := removes_of_isLive hlive hrest
      rwa [Removes, hinner, hplan] at hremoves
    · next hnone =>
      -- there is no file to be removed
      have hcontains : link.host.inner.files.contains (Memory.normalize path) = false := by
        rw [Memory.entry_isSome, Bool.or_eq_true, not_or, Bool.not_eq_true] at hnone
        simpa using hnone.2
      obtain ⟨-, rfl⟩ := run_pure_inj hrest
      rw [Removes, hinner, Table.erase_of_not_contains hcontains]
      exact Or.inl rfl
  · exact Or.inr ⟨congrArg Memory.files (ask_stat hstat).1, fun hok => by cases hok⟩

/-- **A deletion takes the file at its path or leaves all files as they were**, whatever fails. -/
theorem removes_delete {out : Except Error Unit}
    (h : (agent.delete (Scripted.host Memory.host) lookup path).run link = (out, after)) :
    Removes path link out.isOk after := by
  rw [delete_eq] at h
  obtain ⟨mid, hdo, hhost, -⟩ := guarded_host (fun _ => spares_of_keepsHouse) h
  have hfiles : after.host.inner.files = mid.host.inner.files := congrArg Prod.fst hhost
  rw [Removes, hfiles]
  -- getting a session removes nothing and takes no plan for a removal
  rcases run_bind_cases hdo with ⟨_, opened, hacquire, hremove⟩ | ⟨e, hacquire, rfl⟩
  · obtain ⟨hopened, hplan⟩ := Prod.mk.inj (spares_acquire (fun _ => spares_of_keepsHouse) hacquire)
    have hremoves := removes_removeFound hremove
    rwa [Removes, hopened, hplan] at hremoves
  · have hopened := spares_acquire (fun _ => spares_of_keepsHouse) hacquire
    exact Or.inr ⟨congrArg Prod.fst hopened, fun hok => by cases hok⟩

/-! ### Lists of deletions -/

variable (lookup : Net.Lookup) (agent : Agent) (link : Link (Scripted Memory))

theorem removes_episode (path : String) :
    let played := agent.episode (Scripted.host Memory.host) ⟨lookup, .delete path⟩ link
    Removes path link played.1.failure.isNone played.2 := by
  rcases h : (agent.delete (Scripted.host Memory.host) lookup path).run link with ⟨out, after⟩
  have hremoves := removes_delete h
  have hepisode : agent.episode (Scripted.host Memory.host) ⟨lookup, .delete path⟩ link =
      (⟨.delete path, failureIn out, after.calls.drop link.calls.length⟩, after) := by
    simp only [episode, Operation.perform, h]
  rw [hepisode]
  cases out <;> exact hremoves

theorem play_deleteTurns_cons (path : String) (paths : List String) :
    (agent.play (Scripted.host Memory.host) (deleteTurns lookup (path :: paths)) link).2 =
      (agent.play (Scripted.host Memory.host) (deleteTurns lookup paths)
        (agent.episode (Scripted.host Memory.host) ⟨lookup, .delete path⟩ link).2).2 := rfl

/-- Deletions leave a file alone that is none of theirs. -/
theorem play_deleteTurns_get? {paths : List String} {key : String}
    (hkey : key ∉ paths.map Memory.normalize) :
    (agent.play (Scripted.host Memory.host) (deleteTurns lookup paths) link
      ).2.host.inner.files.get? key = link.host.inner.files.get? key := by
  induction paths generalizing link with
  | nil => rfl
  | cons path paths ih =>
    obtain ⟨hpath, hpaths⟩ := List.ne_and_not_mem_of_not_mem_cons hkey
    rw [play_deleteTurns_cons, ih _ hpaths]
    rcases removes_episode lookup agent link path with hfiles | ⟨hfiles, -⟩
    · rw [hfiles, Table.get?_erase, if_neg hpath]
    · rw [hfiles]

/-- No file comes back by deletions. -/
theorem play_deleteTurns_gone (paths : List String) {key : String}
    (hgone : link.host.inner.files.get? key = none) :
    (agent.play (Scripted.host Memory.host) (deleteTurns lookup paths) link
      ).2.host.inner.files.get? key = none := by
  induction paths generalizing link with
  | nil => exact hgone
  | cons path paths ih =>
    rw [play_deleteTurns_cons]
    refine ih _ ?_
    rcases removes_episode lookup agent link path with hfiles | ⟨hfiles, -⟩
    · rw [hfiles, Table.get?_erase, hgone, ite_self]
    · rw [hfiles, hgone]

/-- **A deletion that succeeds leaves no file, and none comes back**, unless the host says as
planned that there is none. -/
theorem play_deleteTurns_cleared (before later : List String) (path : String) :
    let host := Scripted.host Memory.host
    let mid := (agent.play host (deleteTurns lookup before) link).2
    (agent.episode host ⟨lookup, .delete path⟩ mid).1.failure = none →
    (agent.play host (deleteTurns lookup (before ++ path :: later)) link).2.host.inner.file? path =
        none ∨
      ∃ e, (mid.host.nextPlanned .removeFile).1 = some e ∧ e.isNotFound = true := by
  intro host mid hok
  have hplay : (agent.play host (deleteTurns lookup (before ++ path :: later)) link).2 =
      (agent.play host (deleteTurns lookup later)
        (agent.episode host ⟨lookup, .delete path⟩ mid).2).2 := by
    rw [deleteTurns, List.map_append, play_append]
    rfl
  -- what is gone stays gone, as the turns behind only delete
  rcases removes_episode lookup agent mid path with hfiles | ⟨-, hplanned⟩
  · refine Or.inl ?_
    rw [hplay]
    refine play_deleteTurns_gone lookup agent _ later ?_
    rw [hfiles, Table.get?_erase, if_pos rfl]
  · exact Or.inr (hplanned (by rw [hok]; rfl))

end Agent

end AchCourier.Remote
