import AchCourier.Proofs.Remote.HostStates

/-!
# Removing files

Deleting looks what is at a path before it removes the file there, and goes on as if all were well
when there is none.  Files are removed in this way, once and for all.  A directory is not: it is
found at the path, there is no file to remove, and so the deletion succeeds and the directory is
still there.

## Main definitions

* `Agent.removeFound` — what a deletion does once there is a session.

## Main results

* `removeFound_of_isLive` — what that makes of a host in memory.
* `delete_clears` — **a deletion that succeeds leaves no file, and does nothing a second time.**
-/

namespace AchCourier.Remote

/-! ### Hosts in memory -/

namespace Memory

variable {m : Memory}

/-- As long as the session holds, looking is answered and changes nothing. -/
theorem answer_of_isLive (hlive : m.isLive = true) {r : Request} (hr : r.looks = true) :
    m.answer r = ((m.answerLive r).1, m) := by
  cases r with
  | checkAlive | readDir | readFile | stat => simp only [answer, hlive, if_true, answerLive]
  | connect | createDir | writeFile | removeFile | close => cases hr

/-- Behind a path that was looked at, the session holds. -/
theorem isLive_of_answer_stat {path : String} {found : Option Entry}
    (h : (m.answer (.stat path)).1 = .ok found) : m.isLive = true := by
  simp only [answer] at h
  split at h
  · assumption
  · cases h

/-- As long as the session holds, the file is gone behind an attempt to remove it, which fails at
most because there was none. -/
theorem answer_removeFile_of_isLive (hlive : m.isLive = true) (path : String) :
    (m.answer (.removeFile path)).2 = { m with files := m.files.erase (normalize path) } ∧
      ∀ e, (m.answer (.removeFile path)).1 = .error e → e.isNotFound = true := by
  simp only [answer, hlive, if_true, answerLive]
  cases hcontains : m.files.contains (normalize path) with
  | true => exact ⟨rfl, fun e he => by cases he⟩
  | false =>
    rw [Table.erase_of_not_contains hcontains]
    refine ⟨rfl, fun e he => ?_⟩
    cases he
    rfl

/-- What is found at a path, is a directory or a file. -/
theorem entry_isSome (m : Memory) (path : String) :
    (m.entry? path).isSome = (m.isDirectory path || m.files.contains path) := by
  unfold entry?
  cases m.isDirectory path
  · cases m.files.contains path <;> rfl
  · rfl

end Memory

namespace Agent

/-! ### Sessions that hold -/

variable {lookup : Net.Lookup} {agent : Agent} {path : String} {link after : Link Memory}

/-- Behind a session that was got, the agent holds one. -/
theorem session_of_acquire {σ : Type} {host : Host σ} {link after : Link σ}
    (h : (agent.acquire host lookup).run link = (.ok (), after)) : after.session = true := by
  obtain ⟨new, s, hacquired, hleads⟩ := acquire_run h
  rw [hleads.session]
  generalize hout : (Except.ok () : Except Error Unit) = out at hacquired
  cases hacquired with
  | reused hsession => exact hsession
  | dialed => rfl
  | unreachable => cases hout
  | refused => cases hout

theorem ask_of_isLive (hlive : link.host.isLive = true) {r : Request} (hr : r.looks = true)
    {out : Except Error r.Reply} (h : (ask Memory.host r).run link = (out, after)) :
    out = (link.host.answerLive r).1 ∧ after.host = link.host := by
  obtain ⟨hanswer, hstays⟩ := Prod.ext_iff.mp (Memory.answer_of_isLive hlive hr)
  obtain ⟨rfl, rfl⟩ := Prod.mk.inj h
  exact ⟨hanswer, hstays⟩

theorem stillAlive_of_isLive (hsession : link.session = true) (hlive : link.host.isLive = true)
    {out : Except Error Bool} (h : (stillAlive Memory.host).run link = (out, after)) :
    out = .ok true ∧ after.host = link.host := by
  rw [stillAlive, run_bind, run_get] at h
  simp only [hsession, if_true] at h
  -- the check succeeds, so that its handler has nothing to do
  rcases run_tryCatch_cases h with ⟨_, hdo, rfl⟩ | ⟨e, mid, hdo, -⟩
  · rcases run_bind_cases hdo with ⟨_, mid, hchecked, htrue⟩ | ⟨e, hchecked, -⟩
    · obtain ⟨hout, rfl⟩ := run_pure_inj htrue
      exact ⟨hout, (ask_of_isLive hlive rfl hchecked).2⟩
    · cases (ask_of_isLive hlive rfl hchecked).1
  · rcases run_bind_cases hdo with ⟨_, _, -, htrue⟩ | ⟨e', hchecked, -⟩
    · cases (run_pure_inj htrue).1
    · cases (ask_of_isLive hlive rfl hchecked).1

/-- A session that still holds is taken as it is. -/
theorem acquire_of_isLive (hsession : link.session = true) (hlive : link.host.isLive = true)
    {out : Except Error Unit} (h : (agent.acquire Memory.host lookup).run link = (out, after)) :
    out = .ok () ∧ after.host = link.host := by
  rcases run_bind_cases h with ⟨alive, mid, halive, hrest⟩ | ⟨e, halive, -⟩
  · obtain ⟨hout, hhost⟩ := stillAlive_of_isLive hsession hlive halive
    obtain rfl := Except.ok.inj hout
    obtain ⟨rfl, rfl⟩ := run_pure_inj hrest
    exact ⟨rfl, hhost⟩
  · cases (stillAlive_of_isLive hsession hlive halive).1

/-! ### Deleting -/

/-- What a deletion does once there is a session. -/
def removeFound {σ : Type} (host : Host σ) (path : String) : Action σ Unit := do
  if (← ask host (.stat path)).isSome then
    tryCatch (ask host (.removeFile path)) fun e =>
      if e.isNotFound then return () else throw e

theorem delete_eq {σ : Type} (host : Host σ) (path : String) :
    agent.delete host lookup path =
      agent.guarded host (do agent.acquire host lookup; removeFound host path) := rfl

/-- Removing what was found leaves what the agent remembers alone. -/
theorem works_removeFound {σ : Type} {host : Host σ} :
    Works (fun _ => True) (removeFound host path) := by
  refine Works.bind (works_ask (by trivial)) fun found => ?_
  split
  · exact works_remove (by trivial)
  · exact works_pure _

/-- As long as the session holds, removing a file fails in no way that matters. -/
theorem removeFile_of_isLive (hlive : link.host.isLive = true) {out : Except Error Unit}
    (h : (tryCatch (ask Memory.host (.removeFile path)) fun e =>
      if e.isNotFound then return () else throw e : Action Memory Unit).run link = (out, after)) :
    out = .ok () ∧ after.host = { link.host with
      files := link.host.files.erase (Memory.normalize path) } := by
  obtain ⟨hremoved, hfails⟩ := Memory.answer_removeFile_of_isLive hlive path
  rcases run_tryCatch_cases h with ⟨_, hremove, rfl⟩ | ⟨e, mid, hremove, hhandle⟩
  · obtain ⟨-, rfl⟩ := Prod.mk.inj hremove
    exact ⟨rfl, hremoved⟩
  · obtain ⟨he, rfl⟩ := Prod.mk.inj hremove
    rw [if_pos (hfails e he)] at hhandle
    obtain ⟨rfl, rfl⟩ := run_pure_inj hhandle
    exact ⟨rfl, hremoved⟩

/-- As long as the session holds, the file at the path is gone then and nothing else is. -/
theorem removeFound_of_isLive (hlive : link.host.isLive = true) {out : Except Error Unit}
    (h : (removeFound Memory.host path).run link = (out, after)) :
    out = .ok () ∧ after.host = { link.host with
      files := link.host.files.erase (Memory.normalize path) } := by
  rcases run_bind_cases h with ⟨found, mid, hstat, hrest⟩ | ⟨e, hstat, -⟩
  · obtain ⟨hfound, hhost⟩ := ask_of_isLive hlive rfl hstat
    obtain rfl := Except.ok.inj hfound
    rw [← hhost] at hlive ⊢
    split at hrest
    · exact removeFile_of_isLive hlive hrest
    · next hnone =>
      -- there is no file to be removed
      have hcontains : mid.host.files.contains (Memory.normalize path) = false := by
        rw [← hhost, Memory.entry_isSome, Bool.or_eq_true, not_or, Bool.not_eq_true] at hnone
        simpa using hnone.2
      rw [Table.erase_of_not_contains hcontains]
      obtain ⟨rfl, rfl⟩ := run_pure_inj hrest
      exact ⟨rfl, rfl⟩
  · cases (ask_of_isLive hlive rfl hstat).1

/-- A deletion that succeeds was made on a session that holds, and the file is gone then. -/
theorem delete_run (h : (agent.delete Memory.host lookup path).run link = (.ok (), after)) :
    after.session = true ∧ after.host.isLive = true ∧
      after.host.directories = link.host.directories ∧
      after.host.files = link.host.files.erase (Memory.normalize path) := by
  rw [delete_eq] at h
  have hfiles : ∀ r, KeepsHouse r → Memory.host.Spares Memory.files r :=
    fun _ hr => (Memory.spares_of_keepsHouse hr).1
  have hdirectories : ∀ r, KeepsHouse r → Memory.host.Spares Memory.directories r :=
    fun _ hr => (Memory.spares_of_keepsHouse hr).2
  obtain ⟨mid, hdo, -, hok⟩ := guarded_host hfiles h
  obtain ⟨health, rfl⟩ := hok rfl
  rcases run_bind_cases hdo with ⟨_, opened, hacquire, hremove⟩ | ⟨e, -, hout⟩
  · -- what is at the path was looked at, so the session holds
    have hlive : opened.host.isLive = true := by
      rcases run_bind_cases hremove with ⟨found, _, hstat, -⟩ | ⟨e, -, hout⟩
      · exact Memory.isLive_of_answer_stat (Prod.mk.inj hstat).1
      · cases hout
    obtain ⟨-, hhost⟩ := removeFound_of_isLive hlive hremove
    obtain ⟨-, new, -, hleads⟩ := works_removeFound hremove
    have hsession : mid.session = true := hleads.session.trans (session_of_acquire hacquire)
    refine ⟨hsession, ?_, ?_, ?_⟩
    · rw [hhost]
      exact hlive
    · rw [hhost]
      exact spares_acquire hdirectories hacquire
    · rw [hhost, ← spares_acquire hfiles hacquire]
  · cases hout

/-- Where a session that holds is at hand, a deletion succeeds. -/
theorem delete_of_isLive (hsession : link.session = true) (hlive : link.host.isLive = true) :
    ∃ after, (agent.delete Memory.host lookup path).run link = (.ok (), after) ∧
      after.host = { link.host with
        files := link.host.files.erase (Memory.normalize path) } := by
  rcases hrun : (agent.delete Memory.host lookup path).run link with ⟨out, after⟩
  rw [delete_eq] at hrun
  obtain ⟨mid, hdo, -, hok⟩ :=
    guarded_host (fun _ hr => (Memory.spares_of_keepsHouse hr).1) hrun
  -- the session is live, so it is used as it is
  rcases run_bind_cases hdo with ⟨_, opened, hacquire, hremove⟩ | ⟨e, hacquire, -⟩
  · obtain ⟨-, hopened⟩ := acquire_of_isLive hsession hlive hacquire
    rw [← hopened] at hlive
    obtain ⟨rfl, hhost⟩ := removeFound_of_isLive hlive hremove
    obtain ⟨health, rfl⟩ := hok rfl
    rw [hopened] at hhost
    exact ⟨_, rfl, hhost⟩
  · cases (acquire_of_isLive hsession hlive hacquire).1

/-- **A deletion that succeeds leaves no file at its path, and does nothing a second time.**  What
is found there afterwards is the directory that was there before, if there was one.  All other
files, and all directories, are as they were. -/
theorem delete_clears (h : (agent.delete Memory.host lookup path).run link = (.ok (), after)) :
    (Memory.host.answer (.stat path) after.host).1 = .ok
        (if link.host.isDirectory (Memory.normalize path)
          then some ⟨(Memory.splitParent (Memory.normalize path)).2, true⟩ else none) ∧
      (∀ other, after.host.files.get? other =
        if other = Memory.normalize path then none else link.host.files.get? other) ∧
      after.host.directories = link.host.directories ∧
      ∀ again, ∃ later, (agent.delete Memory.host again path).run after = (.ok (), later) ∧
        later.host = after.host := by
  obtain ⟨hsession, hlive, hdirectories, hfiles⟩ := delete_run h
  -- the file is gone, while directories are never removed
  have hgone : after.host.files.contains (Memory.normalize path) = false := by
    rw [hfiles, Table.contains, Table.get?_erase, if_pos rfl]
    rfl
  have hsame : after.host.isDirectory (Memory.normalize path) =
      link.host.isDirectory (Memory.normalize path) := by
    rw [Memory.isDirectory, Memory.isDirectory, hdirectories]
  refine ⟨?_, fun other => ?_, hdirectories, fun again => ?_⟩
  · refine (congrArg Prod.fst (Memory.answer_of_isLive hlive rfl)).trans ?_
    simp only [Memory.answerLive]
    unfold Memory.entry?
    rw [hsame, hgone]
    simp
  · rw [hfiles, Table.get?_erase]
  · obtain ⟨later, hrun, hhost⟩ := delete_of_isLive hsession hlive
    rw [Table.erase_of_not_contains hgone] at hhost
    exact ⟨later, hrun, hhost⟩

/-- Deleting a directory succeeds, and the directory is still there. -/
theorem delete_clears_directory :
    let m := ({} : Memory).addDirectory "archive"
    let agent : Agent := {
      settings := { id := "bank" }, connector := { protocol := .memory, hostname := "bank" } }
    let (result, after) := (agent.delete Memory.host .offline "archive").run { host := m }
    result = .ok () ∧
      (Memory.host.answer (.stat "archive") after.host).1 = .ok (some ⟨"archive", true⟩) := by
  intro m agent
  have hok : ((agent.delete Memory.host .offline "archive").run { host := m }).1.isOk = true := by
    decide +kernel
  rcases hrun : (agent.delete Memory.host .offline "archive").run { host := m } with
    ⟨e | _, after⟩
  · rw [hrun] at hok
    cases hok
  have hdirectory : m.isDirectory (Memory.normalize "archive") = true := by decide +kernel
  have hname : (Memory.splitParent (Memory.normalize "archive")).2 = "archive" := by
    decide +kernel
  -- the deletion has worked, so the directory is what is found afterwards
  obtain ⟨hstat, -⟩ := delete_clears hrun
  rw [if_pos hdirectory, hname] at hstat
  exact ⟨rfl, hstat⟩

end Agent

end AchCourier.Remote
