import AchCourier.Proofs.Remote.HostStates
import AchCourier.Proofs.Remote.Paths

/-!
# Uploads

An upload makes several requests, and every one of them can fail.  Only the last one changes the
files of the host, and it is answered with a failure unless it has done so.  So the files are as
they were or have the whole content under one name more, and this name lies directly in the
outbound directory, whatever the name of the file that is uploaded.

## Main definitions

* `Scripted.files` — the files of a host in memory for which failures are planned.

## Main results

* `upload_files` — what an upload makes of the files.
* `upload_confined` — **uploads are confined to the outbound directory, and all or nothing.**
-/

namespace AchCourier.Remote

/-- The files of a host in memory for which failures are planned. -/
def Scripted.files (s : Scripted Memory) : Table String StoredFile :=
  s.inner.files

/-! ### Writing -/

namespace Memory

/-- A file is written whole, or there is no change of the files and a failure. -/
theorem answer_writeFile (m : Memory) (dir name : String) (content : Bytes) :
    ((m.answer (.writeFile dir name content)).1 = .ok () ∧
        (m.answer (.writeFile dir name content)).2.files =
          m.files.put (join (normalize dir) name) ⟨content, 0o600⟩) ∨
      ((∃ e, (m.answer (.writeFile dir name content)).1 = .error e) ∧
        (m.answer (.writeFile dir name content)).2.files = m.files) := by
  simp only [answer, answerLive]
  split
  · split
    · exact Or.inl ⟨rfl, rfl⟩
    · exact Or.inr ⟨⟨_, rfl⟩, rfl⟩
  · exact Or.inr ⟨⟨_, rfl⟩, rfl⟩

end Memory

namespace Scripted

/-- Only writing and removing changes the files, also if failures are planned. -/
theorem spares_files {r : Request} (hwrite : ∀ dir name content, r ≠ .writeFile dir name content)
    (hremove : ∀ path, r ≠ .removeFile path) :
    (Scripted.host Memory.host).Spares Scripted.files r :=
  Scripted.spares (Memory.spares_files hwrite hremove)

theorem spares_files_of_keepsHouse (r : Request) (h : Agent.KeepsHouse r) :
    (Scripted.host Memory.host).Spares Scripted.files r :=
  Scripted.spares (Memory.spares_of_keepsHouse h).1

/-- Also if failures are planned, a file is written whole or not at all. -/
theorem answer_writeFile (s : Scripted Memory) (dir name : String) (content : Bytes) :
    (((Scripted.host Memory.host).answer (.writeFile dir name content) s).1 = .ok () ∧
        ((Scripted.host Memory.host).answer (.writeFile dir name content) s).2.files =
          s.files.put (join (Memory.normalize dir) name) ⟨content, 0o600⟩) ∨
      ((∃ e, ((Scripted.host Memory.host).answer (.writeFile dir name content) s).1 = .error e) ∧
        ((Scripted.host Memory.host).answer (.writeFile dir name content) s).2.files =
          s.files) := by
  rcases answer_cases Memory.host (.writeFile dir name content) s with
    ⟨e, hanswer, hinner⟩ | ⟨hanswer, hinner⟩
  · exact Or.inr ⟨⟨e, hanswer⟩, congrArg Memory.files hinner⟩
  · rcases s.inner.answer_writeFile dir name content with ⟨hok, hfiles⟩ | ⟨⟨e, he⟩, hfiles⟩
    · exact Or.inl ⟨hanswer.trans hok, (congrArg Memory.files hinner).trans hfiles⟩
    · exact Or.inr ⟨⟨e, hanswer.trans he⟩, (congrArg Memory.files hinner).trans hfiles⟩

end Scripted

/-! ### Uploading -/

namespace Agent

variable {lookup : Net.Lookup} {agent : Agent} {payload : Payload}
  {link after : Link (Scripted Memory)} {out : Except Error Unit}

/-- An upload that is rejected asks nothing of its host. -/
theorem upload_of_isRejected {σ : Type} (host : Host σ) (lookup : Net.Lookup) (agent : Agent)
    (link : Link σ) (h : (Operation.upload payload).isRejected = true) :
    ∃ e, (agent.upload host lookup payload).run link = (.error e, link) := by
  unfold upload
  simp only [Operation.isRejected] at h
  split
  · exact ⟨_, rfl⟩
  · next content hread =>
    have hname : baseName payload.name = "" := by simpa [hread] using h
    rw [if_pos hname]
    exact ⟨_, rfl⟩

/-- An upload that succeeds stores the whole content, and one that fails changes no file. -/
theorem upload_files {content : Bytes} (hread : payload.read = .ok content)
    (hname : baseName payload.name ≠ "")
    (h : (agent.upload (Scripted.host Memory.host) lookup payload).run link = (out, after)) :
    (out = .ok () ∧ after.host.files = link.host.files.put
        (join (Memory.normalize agent.settings.paths.outbound) (baseName payload.name))
        ⟨content, 0o600⟩) ∨
      ((∃ e, out = .error e) ∧ after.host.files = link.host.files) := by
  simp only [upload, hread, if_neg hname] at h
  obtain ⟨mid, hdo, hend, -⟩ := guarded_host Scripted.spares_files_of_keepsHouse h
  rw [hend]
  -- getting a session and making the directory change no file, whether they succeed or not
  rcases run_bind_cases hdo with ⟨_, opened, hacquire, hwork⟩ | ⟨e, hacquire, rfl⟩
  · rw [← spares_acquire Scripted.spares_files_of_keepsHouse hacquire]
    have hprepares : Spares Scripted.files
        (agent.prepareOutbound (Scripted.host Memory.host)) :=
      spares_prepareOutbound (fun _ => Scripted.spares_files (by simp) (by simp))
        fun _ => Scripted.spares_files (by simp) (by simp)
    rcases run_bind_cases hwork with ⟨_, prepared, hprepare, hwrite⟩ | ⟨e, hprepare, rfl⟩
    · rw [← hprepares hprepare]
      obtain ⟨rfl, rfl⟩ := Prod.mk.inj hwrite
      exact prepared.host.answer_writeFile _ _ _
    · exact Or.inr ⟨⟨e, rfl⟩, hprepares hprepare⟩
  · exact Or.inr ⟨⟨e, rfl⟩, spares_acquire Scripted.spares_files_of_keepsHouse hacquire⟩

/-- **Uploads are confined to the outbound directory, and all or nothing.**  Whatever the name and
the content, the settings, the host and the failures that are planned for it:
* an upload that succeeds has stored the whole content for nobody else to read, under the last
  component of the name and directly in the outbound directory, and left all other files alone;
* this component is one that leads nowhere else;
* an upload that fails leaves all files alone;
* a name without a last component is refused and nothing is asked of the host. -/
theorem upload_confined (lookup : Net.Lookup) (agent : Agent) (payload : Payload)
    (link : Link (Scripted Memory)) :
    let dir := Memory.normalize agent.settings.paths.outbound
    let name := baseName payload.name
    let (result, after) := (agent.upload (Scripted.host Memory.host) lookup payload).run link
    (result = .ok () →
      (∃ content, payload.read = .ok content ∧ ∀ path, after.host.inner.files.get? path =
        if path = join dir name then some ⟨content, 0o600⟩
        else link.host.inner.files.get? path) ∧
      (name ≠ "" ∧ '/' ∉ name.toList ∧ '\\' ∉ name.toList ∧ name ≠ "." ∧ name ≠ "..") ∧
      Memory.splitParent (join dir name) = (dir, name)) ∧
    ((∃ e, result = .error e) → after.host.inner.files = link.host.inner.files) ∧
    (name = "" → (∃ e, result = .error e) ∧ after = link) := by
  intro dir name
  rcases hrun : (agent.upload (Scripted.host Memory.host) lookup payload).run link with
    ⟨result, after⟩
  dsimp only
  cases hrejected : (Operation.upload payload).isRejected with
  | true =>
    obtain ⟨e, hfails⟩ := upload_of_isRejected (Scripted.host Memory.host) lookup agent link
      hrejected
    obtain ⟨rfl, rfl⟩ := Prod.mk.inj (hrun.symm.trans hfails)
    exact ⟨fun hok => (by cases hok), fun _ => rfl, fun _ => ⟨⟨e, rfl⟩, rfl⟩⟩
  | false =>
    obtain ⟨content, hread, hname⟩ : ∃ content, payload.read = .ok content ∧ name ≠ "" := by
      rcases hread : payload.read with message | content
      · simp [Operation.isRejected, hread] at hrejected
      · exact ⟨content, rfl, by simpa [Operation.isRejected, hread] using hrejected⟩
    have hseparator : ∀ c ∈ name.toList, isSeparator c = false :=
      fun c hc => isSeparator_of_mem_baseName hc
    have hslash : '/' ∉ name.toList := fun hc => by cases hseparator _ hc
    have hbackslash : '\\' ∉ name.toList := fun hc => by cases hseparator _ hc
    -- the path falls apart again, since the name holds no slash
    have hsplit : Memory.splitParent (join dir name) = (dir, name) :=
      Memory.splitParent_join (Memory.normalize_ne_dot _) (Memory.getLast?_normalize_ne _) hslash
    refine ⟨fun hok => ⟨⟨content, hread, fun path => ?_⟩, ?_, hsplit⟩, fun herror => ?_,
      fun hempty => absurd hempty hname⟩
    · rcases upload_files hread hname hrun with ⟨-, hfiles⟩ | ⟨⟨e, rfl⟩, -⟩
      · exact (congrArg (·.get? path) hfiles).trans (Table.get?_put ..)
      · cases hok
    · exact ⟨hname, hslash, hbackslash, baseName_ne_dots _⟩
    · rcases upload_files hread hname hrun with ⟨rfl, -⟩ | ⟨-, hfiles⟩
      · obtain ⟨e, he⟩ := herror
        cases he
      · exact hfiles

/-- A name that leads elsewhere is stored in the outbound directory all the same. -/
theorem upload_confined_elsewhere :
    let link : Link (Scripted Memory) :=
      { host := { inner := ({} : Memory).addFile "outbound/old.ach" [0] } }
    let agent : Agent := {
      settings := { id := "bank", paths := { outbound := "./outbound/" } }
      connector := { protocol := .memory, hostname := "bank" } }
    let payload : Payload := ⟨"../other\\new.ach/", [1, 2], none⟩
    let (result, after) :=
      (agent.upload (Scripted.host Memory.host) .offline payload).run link
    result = .ok () ∧ after.host.inner.files.get? "outbound/new.ach" = some ⟨[1, 2], 0o600⟩ ∧
      after.host.inner.files.get? "outbound/old.ach" = some ⟨[0], 0o644⟩ ∧
      after.host.inner.files.get? "other/new.ach" = none := by
  intro link agent payload
  have hconfined := upload_confined .offline agent payload link
  have hok : ((agent.upload (Scripted.host Memory.host) .offline payload).run link).1 = .ok () :=
    by decide +kernel
  rcases hrun : (agent.upload (Scripted.host Memory.host) .offline payload).run link with
    ⟨result, after⟩
  rw [hrun] at hconfined hok
  -- the upload has worked, so its file is the only one that is new
  obtain ⟨⟨content, hread, hfiles⟩, -, -⟩ := hconfined.1 hok
  obtain rfl : content = [1, 2] := (Except.ok.inj hread).symm
  have hpath : join (Memory.normalize "./outbound/") (baseName payload.name) =
      "outbound/new.ach" := by decide +kernel
  rw [hpath] at hfiles
  refine ⟨hok, ?_, ?_, ?_⟩
  · rw [hfiles, if_pos rfl]
  · rw [hfiles, if_neg (by decide)]
    decide +kernel
  · rw [hfiles, if_neg (by decide)]
    decide +kernel

end Agent

end AchCourier.Remote
