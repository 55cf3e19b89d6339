import AchCourier.Proofs.Ingest.Handling
import AchCourier.Proofs.Ingest.Staging
import AchCourier.Proofs.Remote.History
import AchCourier.Remote.Memory

/-!
# What is deleted at the bank

A file that is deleted at the bank is gone for good, so the courier deletes nothing that it has not
brought in.  Deleting is the last stage of a run and is reached only when all stages before it came
out well; and then, stage by stage, every path that is deleted leads back to a file that the bank
gave out in this run, that was staged with the same bytes, read, recorded and taken by every
processor.

## Main definitions

* `Courier.Deletes` — what the agent was given to do between two states, and what it deleted.
* `Cleared` — all went well in a run, and the files are not wanted at the bank any more.
* `Secured` — what is known of a file before it is deleted.

## Main results

* `deletes_download`, `deletes_processStaged` — nothing is deleted while files are brought in.
* `deletes_cleanupRemote` — every staged file is deleted once.
* `secured_of_cleared` — every staged file of a cleared run is secured.
* `deletes_ingest` — **a run deletes what it has secured, or nothing.**
-/

namespace AchCourier.Ingest

open Local (EndsInName LeadsDown)

variable {σ : Type} {route : Route σ} {courier courier' : Courier σ} {staged : Staged}

/-! ### Deleting -/

/-- Between two states of the courier the agent has read directories and deleted files, one
operation after another.  The files that it was to delete have the given paths, in this order, and
no other path was removed at the bank. -/
structure Courier.Deletes (route : Route σ) (courier : Courier σ) (paths : List String)
    (courier' : Courier σ) : Prop where
  played : ∃ turns, (∀ turn ∈ turns, (∃ dir, turn = ⟨route.lookup, .readFiles dir⟩) ∨
      ∃ path, turn = ⟨route.lookup, .delete path⟩) ∧
    turns.filterMap (·.operation.deleted?) = paths ∧
    (route.agent.play route.host turns courier.link).2 = courier'.link
  calls : ∃ new, courier'.link.calls = courier.link.calls ++ new ∧
    ∀ c ∈ new, ∀ path, c.request = .removeFile path → path ∈ paths

namespace Courier.Deletes

/-- Nothing is deleted while the agent is left alone. -/
theorem of_eq (hlink : courier'.link = courier.link) : courier.Deletes route [] courier' :=
  ⟨⟨[], by simp, rfl, hlink.symm⟩, [], by rw [hlink, List.append_nil], by simp⟩

theorem refl (courier : Courier σ) : courier.Deletes route [] courier :=
  of_eq rfl

theorem trans {courier'' : Courier σ} {paths more : List String}
    (h : courier.Deletes route paths courier') (h' : courier'.Deletes route more courier'') :
    courier.Deletes route (paths ++ more) courier'' where
  played := by
    obtain ⟨turns, hturns, hpaths, hlink⟩ := h.played
    obtain ⟨last, hlast, hmore, hlink'⟩ := h'.played
    refine ⟨turns ++ last, List.forall_mem_append.mpr ⟨hturns, hlast⟩, ?_, ?_⟩
    · rw [List.filterMap_append, hpaths, hmore]
    · rw [Remote.Agent.play_append, hlink, hlink']
  calls := by
    obtain ⟨new, hcalls, hnew⟩ := h.calls
    obtain ⟨last, hcalls', hlast⟩ := h'.calls
    refine ⟨new ++ last, by rw [hcalls', hcalls, List.append_assoc], fun c hc path hpath => ?_⟩
    rcases List.mem_append.mp hc with hc | hc
    · exact List.mem_append_left _ (hnew c hc path hpath)
    · exact List.mem_append_right _ (hlast c hc path hpath)

end Courier.Deletes

theorem deletes_dropRun (courier : Courier σ) (root : String) :
    courier.Deletes route [] (courier.dropRun root) :=
  .of_eq rfl

/-- Nothing is deleted while a directory is read. -/
theorem deletes_readFiles {dir : String} {read : Except Remote.Error (List Remote.File)}
    (h : (route.agent.readFiles route.host route.lookup dir).run courier.link =
      (read, courier'.link)) : courier.Deletes route [] courier' where
  played := by
    refine ⟨[⟨route.lookup, .readFiles dir⟩], by simp, rfl, ?_⟩
    exact (Remote.Agent.episode_readFiles ..).trans (congrArg Prod.snd h)
  calls := by
    obtain ⟨new, hcalls, hnew⟩ := Remote.Agent.asks_readFiles _ h
    exact ⟨new, hcalls, fun c hc path hpath => absurd hpath (hnew c hc path)⟩

theorem deletes_stageCategory {c : Category} {out : Except Error Staged}
    (h : stageCategory route c staged courier = (courier', out)) :
    courier.Deletes route [] courier' := by
  unfold stageCategory at h
  dsimp only at h
  split at h
  · next hrun =>
    obtain ⟨rfl, -⟩ := Prod.mk.inj h
    exact deletes_readFiles hrun
  · next hrun =>
    -- whether the files can be saved or not, the bank was only read
    split at h
    · obtain ⟨rfl, -⟩ := Prod.mk.inj h
      exact deletes_readFiles hrun
    · obtain ⟨rfl, -⟩ := Prod.mk.inj h
      exact deletes_readFiles hrun

theorem deletes_stageAll {cs : List Category} {out : Except Error Staged}
    (h : stageAll route staged courier cs = (courier', out)) :
    courier.Deletes route [] courier' := by
  -- by induction on the categories, which are only read
  induction cs generalizing staged courier with
  | nil =>
    obtain ⟨rfl, -⟩ := Prod.mk.inj h
    exact .refl courier
  | cons c cs ih =>
    rw [stageAll] at h
    split at h
    · next hfirst =>
      obtain ⟨rfl, -⟩ := Prod.mk.inj h
      exact deletes_stageCategory hfirst
    · next hfirst => exact (deletes_stageCategory hfirst).trans (ih h)

/-- Nothing is deleted at the bank while files are staged. -/
theorem deletes_download {staging time : String} {out : Except Error Staged}
    (h : download route staging time courier = (courier', out)) :
    courier.Deletes route [] courier' := by
  have hstart : courier.Deletes route [] { courier with runs := courier.runs + 1 } := .of_eq rfl
  unfold download at h
  dsimp only at h
  split at h
  · next hstage =>
    obtain ⟨rfl, -⟩ := Prod.mk.inj h
    exact hstart.trans (deletes_stageAll hstage)
  · -- a run that fails is dropped from the disk, and the bank is left alone
    next hstage =>
    obtain ⟨rfl, -⟩ := Prod.mk.inj h
    exact (hstart.trans (deletes_stageAll hstage)).trans (deletes_dropRun _ _)

/-- Nothing is deleted at the bank while staged files are handled. -/
theorem deletes_processStaged {chain : List Processor} {out : Except Error Unit}
    (h : processStaged chain staged courier = (courier', out)) :
    courier.Deletes route [] courier' := by
  obtain ⟨rfl, -⟩ := Prod.mk.inj h
  exact .of_eq rfl

/-- A deletion is a turn of the agent, and its failure is that of a transfer. -/
theorem deleteRemote_eq (route : Route σ) (path : String) (courier : Courier σ) :
    let played := route.agent.episode route.host ⟨route.lookup, .delete path⟩ courier.link
    deleteRemote route path courier =
      ({ courier with link := played.2 },
        match played.1.failure with
        | none => .ok ()
        | some e => .error (.transfer e)) := by
  simp only [deleteRemote, Remote.Agent.episode, Remote.Operation.perform]
  rcases (route.agent.delete route.host route.lookup path).run courier.link with ⟨_ | _, after⟩ <;>
    rfl

theorem deletes_deleteRemote (route : Route σ) (path : String) (courier : Courier σ) :
    courier.Deletes route [path] (deleteRemote route path courier).1 where
  played := by
    refine ⟨[⟨route.lookup, .delete path⟩], by simp, rfl, ?_⟩
    rw [deleteRemote_eq]
    rfl
  calls := by
    have hasks : Remote.Agent.Asks (fun r => ∀ other, r = .removeFile other → other = path)
        (route.agent.delete route.host route.lookup path) := Remote.Agent.asks_delete path
    obtain ⟨new, hcalls, hnew⟩ := @hasks courier.link _ _ rfl
    exact ⟨new, hcalls, fun c hc other hother => List.mem_singleton.mpr (hnew c hc other hother)⟩

/-- **Every staged file is deleted once**, whatever becomes of the others. -/
theorem deletes_cleanupRemote (route : Route σ) (staged : Staged) (courier : Courier σ) :
    courier.Deletes route (remotePaths route.agent.settings.paths staged)
      (cleanupRemote route staged courier).1 := by
  -- each deletion comes behind the ones before it, whether those have failed or not
  have hall : ∀ (paths : List String) (courier : Courier σ),
      courier.Deletes route paths (failuresOf (deleteRemote route) paths courier).1 := by
    intro paths
    induction paths with
    | nil => exact .refl
    | cons path paths ih =>
      intro courier
      rw [failuresOf_cons]
      exact (deletes_deleteRemote route path courier).trans (ih _)
  exact hall _ courier

/-! ### Stage by stage -/

theorem grows_processCategory (disk : Local.Disk) (chain : List Processor) (staged : Staged)
    (c : Category) (d : Desk) : d.Grows (processCategory disk chain staged c d).1 := by
  unfold processCategory
  split
  · exact .refl d
  · exact grows_processDirectory _ _ _ _ d

/-- When staged files were handled without a failure, each of them was accepted. -/
theorem accounted_of_processStaged {chain : List Processor}
    (h : processStaged chain staged courier = (courier', .ok ())) {c : Category}
    {name : String} (hname : name ∈ staged.names c) (hleads : LeadsDown name)
    {bytes : Bytes}
    (hread : courier.disk.read (Local.child (staged.directory c) name) = .ok bytes) :
    ∃ file, Accounted chain staged.hostname (Local.child (staged.directory c) name) bytes file
      courier.desk courier'.desk := by
  obtain ⟨rfl, hresult⟩ := Prod.mk.inj h
  have hall : attemptAll (processCategory courier.disk chain staged) Category.all courier.desk =
      (_, .ok ()) := Prod.ext rfl hresult
  have hmem : c ∈ Category.all := by cases c <;> decide
  obtain ⟨t, u, hbefore, hone, hlater⟩ :=
    attemptAll_mem .refl .trans (grows_processCategory courier.disk chain staged) hall hmem
  -- a category with a staged name is not passed over
  unfold processCategory at hone
  rw [if_neg (by rw [List.isEmpty_iff]; exact List.ne_nil_of_mem hname)] at hone
  have hdir : EndsInName (staged.directory c) :=
    Local.endsInName_child (leadsDown_directoryName c).endsInName
  obtain ⟨file, haccounted⟩ := accounted_of_processDirectory hone hdir hleads hread
  exact ⟨file, haccounted.mono hbefore hlater⟩

/-- All went well in a run, and the files are not wanted at the bank any more. -/
structure Cleared (route : Route σ) (chain : List Processor) (staging time : String)
    (cleanup : Bool) (courier downloaded : Courier σ) (staged : Staged)
    (processed : Courier σ) : Prop where
  wanted : cleanup = true
  brought : download route staging time courier = (downloaded, .ok staged)
  handled : processStaged chain staged downloaded = (processed, .ok ())

/-- What is known of a file of the bank when it was staged in a run and handled. -/
structure Secured (route : Route σ) (chain : List Processor) (courier downloaded : Courier σ)
    (staged : Staged) (processed : Courier σ) (c : Category) (f : Remote.File)
    (file : IncomingFile) : Prop where
  /-- The bank has given out the file in this run. -/
  gave : ∃ new, downloaded.link.calls = courier.link.calls ++ new ∧
    route.host.Gave new (Remote.join (c.remotePath route.agent.settings.paths) f.name) f.content
  /-- It was staged with the bytes that the bank gave out. -/
  onDisk : downloaded.disk.read (Local.child (staged.directory c) f.name) = .ok f.content
  /-- It was read without a fault, or at least a batch was. -/
  parsed : (∃ g, Ach.read f.content = .ok g) ∨
    ∃ e, Ach.read f.content = .error e ∧ e.recovered.batches ≠ []
  /-- It was recorded for the host of the agent, and taken by every processor. -/
  accounted : Accounted chain route.agent.hostname (Local.child (staged.directory c) f.name)
    f.content file downloaded.desk processed.desk

/-- **Every staged file of a cleared run is secured.**  If the bank has listed a name twice, it is
the later of the two files. -/
theorem secured_of_cleared {chain : List Processor} {staging time : String} {cleanup : Bool}
    {downloaded processed : Courier σ}
    (h : Cleared route chain staging time cleanup courier downloaded staged processed) :
    ∃ fetched, Fetched route courier.link fetched downloaded.link ∧
      ∀ c, ∀ name ∈ staged.names c, ∃ files f file, (c, files) ∈ fetched ∧ Latest f files ∧
        f.name = name ∧ Secured route chain courier downloaded staged processed c f file := by
  obtain ⟨-, hhost, fetched, hholding⟩ := holding_of_download h.brought
  refine ⟨fetched, hholding.read, fun c name hname => ?_⟩
  obtain ⟨hleads, files, f, hmem, hlatest, rfl, hread⟩ := hholding.kept c name hname
  obtain ⟨file, haccounted⟩ := accounted_of_processStaged h.handled hname hleads hread
  obtain ⟨new, hcalls, hgave⟩ := hholding.read.gave
  rw [hhost] at haccounted
  exact ⟨files, f, file, hmem, hlatest, rfl, ⟨new, hcalls, hgave c files hmem f hlatest.mem⟩,
    hread, batches_of_readIncoming haccounted.read, haccounted⟩

/-- **A run deletes what it has secured, or nothing.**  Either the files are not wanted at the bank
any more and everything went well: then the agent was to delete nothing before, it is to delete each
staged file once, in order, and each was given out by the bank in this run, staged with its bytes,
read, recorded and taken by every processor.  Or the agent has read directories and deletes nothing
at all. -/
theorem deletes_ingest (route : Route σ) (chain : List Processor) (staging time : String)
    (cleanup : Bool) (courier : Courier σ) :
    let after := (ingest route chain staging time cleanup courier).1
    (∃ downloaded staged processed,
      Cleared route chain staging time cleanup courier downloaded staged processed ∧
      courier.Deletes route [] processed ∧
      processed.Deletes route (remotePaths route.agent.settings.paths staged) after ∧
      ∃ fetched, Fetched route courier.link fetched downloaded.link ∧
        ∀ c, ∀ name ∈ staged.names c, ∃ files f file, (c, files) ∈ fetched ∧ Latest f files ∧
          f.name = name ∧ Secured route chain courier downloaded staged processed c f file) ∨
    (∀ downloaded staged processed,
        ¬ Cleared route chain staging time cleanup courier downloaded staged processed) ∧
      courier.Deletes route [] after := by
  unfold ingest
  split
  · -- something could not be staged
    next downloaded e hfailed =>
    refine Or.inr ⟨fun _ _ _ hcleared => ?_, deletes_download hfailed⟩
    cases hfailed.symm.trans hcleared.brought
  · next downloaded staged hbrought =>
    have hdownload := deletes_download hbrought
    unfold processAndClean
    dsimp only
    split
    · -- something could not be handled
      next processed e hfailed =>
      refine Or.inr ⟨fun downloaded' staged' processed' hcleared => ?_,
        (hdownload.trans (deletes_processStaged hfailed)).trans (deletes_dropRun _ _)⟩
      obtain ⟨rfl, hstaged⟩ := Prod.mk.inj (hbrought.symm.trans hcleared.brought)
      obtain rfl := Except.ok.inj hstaged
      cases hfailed.symm.trans hcleared.handled
    · next processed hhandled =>
      have hprocess := hdownload.trans (deletes_processStaged hhandled)
      split
      · next hwanted =>
        have hcleared : Cleared route chain staging time cleanup courier downloaded staged
            processed := ⟨hwanted, hbrought, hhandled⟩
        have hclean := (deletes_cleanupRemote route staged processed).trans
          (deletes_dropRun _ staged.root)
        rw [List.append_nil] at hclean
        exact Or.inl ⟨downloaded, staged, processed, hcleared, hprocess, hclean,
          secured_of_cleared hcleared⟩
      · next hwanted =>
        refine Or.inr ⟨fun _ _ _ hcleared => hwanted hcleared.wanted, ?_⟩
        exact hprocess.trans (deletes_dropRun _ _)

/-- A bank with three directories and one file, which holds a batch header and nothing else. -/
def sampleBank : Remote.Memory :=
  let empty := (({} : Remote.Memory).addDirectory "reports").addDirectory "returned"
  empty.addFile "out/day.ach" (Utf8.encode (Ach.lineOf ({} : Ach.BatchHeader).cells))

/-- The way to the bank. -/
def sampleRoute : Route Remote.Memory where
  host := Remote.Memory.host
  lookup := .offline
  agent := {
    settings := { id := "bank", paths := {
      inbound := "out", reconciliation := "reports", returns := "returned" } }
    connector := { protocol := .memory, hostname := "bank" } }

/-- One batch is enough: the file is brought in and deleted, in spite of its faults. -/
theorem deletes_ingest_sample :
    let courier : Courier Remote.Memory := { link := { host := sampleBank } }
    let chain := [Processor.noting "log"]
    let after := (ingest sampleRoute chain "staging" "now" true courier).1
    ∃ downloaded staged processed,
      Cleared sampleRoute chain "staging" "now" true courier downloaded staged processed ∧
        remotePaths sampleRoute.agent.settings.paths staged = ["out/day.ach"] ∧
        processed.Deletes sampleRoute ["out/day.ach"] after ∧
        after.link.host.file? "out/day.ach" = none := by
  intro courier chain after
  rcases deletes_ingest sampleRoute chain "staging" "now" true courier with
    ⟨downloaded, staged, processed, hcleared, -, hafter, -⟩ | ⟨-, hnone⟩
  · have hstaged : (match (download sampleRoute "staging" "now" courier).2 with
        | .ok staged => remotePaths sampleRoute.agent.settings.paths staged
        | .error _ => []) = ["out/day.ach"] := by decide +kernel
    rw [hcleared.brought] at hstaged
    have hpaths : remotePaths sampleRoute.agent.settings.paths staged = ["out/day.ach"] := hstaged
    rw [hpaths] at hafter
    exact ⟨downloaded, staged, processed, hcleared, hpaths, hafter, by decide +kernel⟩
  · -- the bank was asked to remove a file, so this is not the other case
    have hasked : ⟨.removeFile "out/day.ach", none⟩ ∈ after.link.calls := by decide +kernel
    obtain ⟨new, hnew, hspared⟩ := hnone.calls
    have hall : after.link.calls = new := hnew
    rw [hall] at hasked
    cases hspared _ hasked _ rfl

end AchCourier.Ingest
