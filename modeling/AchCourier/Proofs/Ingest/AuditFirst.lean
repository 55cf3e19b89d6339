import AchCourier.Proofs.Digest.Fingerprint
import AchCourier.Proofs.Ingest.Handling

/-!
# Audit first

At its turn a file is read, its hash is saved in the audit trail, and only then is it handed to the
processors.  So what is done with the files of a directory is known beforehand, act by act: it
follows from which of them hold something, and from the saves at which the medium of the trail
works.  What the processors make of the files has no part in it.

## Main definitions

* `incomingOf`, `incomingAt`, `incomingIn` — what bytes, the file at a path and the files in a
  directory hold for the processors.
* `onRecord` — the files whose saves succeed when files are saved one after another.
* `turn` — what is done with such a file.
* `Desk.Takes` — files were taken, one after another, between two states of the desk.

## Main results

* `takes_processFile`, `takes_processDirectory` — the desk takes what is there for it, and nothing
  else.
* `recorded_mem_of_turns` — in a row of turns a file is recorded before it is handled.
* `auditFirst_processDirectory` — **the audit comes first and is complete.**
-/

namespace AchCourier.Ingest

open Local (Disk)

/-! ### What there is to handle -/

/-- A file with the given faults as it comes to the processors.  A file without an identity goes by
the digest of its bytes. -/
def incoming (hostname path : String) (bytes : Bytes) (f : Ach.File) (faults : List Ach.Fault) :
    IncomingFile :=
  ⟨Local.fileName path, path, hostname, f.identity?.getD (Digest.fingerprint bytes), f.identify,
    faults⟩

/-- What bytes hold for the processors: the file they are read as, or what was recovered of it as
long as that has a batch. -/
def incomingOf (hostname path : String) (bytes : Bytes) : Option IncomingFile :=
  match Ach.read bytes with
  | .ok f => some (incoming hostname path bytes f [])
  | .error e =>
      if e.recovered.batches.isEmpty then none
      else some (incoming hostname path bytes e.recovered e.faults)

/-- What the file at a path holds for the processors, if it can be read. -/
def incomingAt (disk : Disk) (hostname path : String) : Option IncomingFile :=
  match disk.read path with
  | .ok bytes => incomingOf hostname path bytes
  | .error _ => none

/-- What the files with the given names in a directory hold for the processors. -/
def incomingIn (disk : Disk) (hostname dir : String) (names : List String) : List IncomingFile :=
  (names.map (Local.child dir)).filterMap (incomingAt disk hostname)

theorem incoming_hash_ne_empty (hostname path : String) (bytes : Bytes) (f : Ach.File)
    (faults : List Ach.Fault) : (incoming hostname path bytes f faults).hash ≠ "" := by
  dsimp only [incoming, Ach.File.identity?]
  split
  · exact Digest.fingerprint_ne_empty _
  · exact Digest.fingerprint_ne_empty _

theorem origin_of_incomingOf {hostname path : String} {bytes : Bytes} {file : IncomingFile}
    (h : incomingOf hostname path bytes = some file) :
    file.path = path ∧ file.hostname = hostname := by
  unfold incomingOf at h
  split at h
  · obtain rfl := Option.some.inj h
    exact ⟨rfl, rfl⟩
  · split at h
    · cases h
    · obtain rfl := Option.some.inj h
      exact ⟨rfl, rfl⟩

/-- What the files in a directory hold is what each of them holds at its path. -/
theorem incomingAt_of_mem_incomingIn {disk : Disk} {hostname dir : String} {names : List String}
    {file : IncomingFile} (h : file ∈ incomingIn disk hostname dir names) :
    incomingAt disk hostname file.path = some file ∧ file.hostname = hostname := by
  obtain ⟨path, -, hfile⟩ := List.mem_filterMap.mp h
  have horigin : file.path = path ∧ file.hostname = hostname := by
    unfold incomingAt at hfile
    split at hfile
    · exact origin_of_incomingOf hfile
    · cases hfile
  obtain ⟨rfl, hhost⟩ := horigin
  exact ⟨hfile, hhost⟩

/-! ### Turns -/

/-- The files whose saves succeed when files are saved one after another, on a medium that fails at
the saves with the given numbers, from a save on. -/
def onRecord (failsAt : ℕ → Bool) (save : ℕ) (files : List IncomingFile) : List IncomingFile :=
  ((files.zipIdx save).filter fun turn => !failsAt turn.2).map (·.1)

/-- What is done with a file whose save succeeds. -/
def turn (chain : List Processor) (file : IncomingFile) : List Act :=
  .recorded file.hash file.hostname :: chain.map fun p => .handled p.name file

section
variable {failsAt : ℕ → Bool} {save : ℕ} {files : List IncomingFile} {file : IncomingFile}

theorem onRecord_append (failsAt : ℕ → Bool) (save : ℕ) (files more : List IncomingFile) :
    onRecord failsAt save (files ++ more) =
      onRecord failsAt save files ++ onRecord failsAt (save + files.length) more := by
  simp [onRecord, List.zipIdx_append]

theorem onRecord_singleton (failsAt : ℕ → Bool) (save : ℕ) (file : IncomingFile) :
    onRecord failsAt save [file] = if failsAt save then [] else [file] := by
  cases h : failsAt save <;> simp [onRecord, h]

theorem mem_onRecord_iff :
    file ∈ onRecord failsAt save files ↔
      ∃ k, files[k]? = some file ∧ failsAt (save + k) = false := by
  simp only [onRecord, List.mem_map, List.mem_filter, Bool.not_eq_true', Prod.exists,
    List.mk_mem_zipIdx_iff_le_and_getElem?_sub]
  constructor
  · rintro ⟨_, n, ⟨⟨hle, hget⟩, hworks⟩, rfl⟩
    exact ⟨n - save, hget, by rwa [Nat.add_sub_cancel' hle]⟩
  · rintro ⟨k, hget, hworks⟩
    exact ⟨file, save + k, ⟨⟨Nat.le_add_right _ _, by rwa [Nat.add_sub_cancel_left]⟩, hworks⟩, rfl⟩

/-- A medium that fails at the second save keeps only the second file off the record. -/
example (a b c : IncomingFile) : onRecord (· = 1) 0 [a, b, c] = [a, c] := rfl

/-- On a medium that never fails all files get on record. -/
theorem onRecord_eq_self (h : ∀ k, failsAt k = false) : onRecord failsAt save files = files := by
  simp [onRecord, h]

end

/-- The hash and the host of an act that records. -/
def Act.recorded? : Act → Option (String × String)
  | .recorded hash hostname => some (hash, hostname)
  | .handled .. => none

variable {chain : List Processor} {files : List IncomingFile}

/-- In a row of turns a content is recorded for each file, whatever the chain is. -/
theorem filterMap_recorded?_turns (chain : List Processor) (files : List IncomingFile) :
    (files.flatMap (turn chain)).filterMap Act.recorded? =
      files.map fun f => (f.hash, f.hostname) := by
  have hone : ∀ file, (turn chain file).filterMap Act.recorded? = [(file.hash, file.hostname)] := by
    intro file
    simp [turn, Act.recorded?, List.filterMap_map, Function.comp_def]
  induction files with
  | nil => rfl
  | cons file files ih => simp [hone, ih]

theorem mem_of_handled_mem_turns {processor : String} {file : IncomingFile}
    (h : .handled processor file ∈ files.flatMap (turn chain)) : file ∈ files := by
  obtain ⟨f, hf, hact⟩ := List.mem_flatMap.mp h
  rcases List.mem_cons.mp hact with hact | hact
  · cases hact
  · obtain ⟨p, -, heq⟩ := List.mem_map.mp hact
    exact (Act.handled.inj heq).2 ▸ hf

theorem recorded_mem_turns_iff {hash hostname : String} :
    .recorded hash hostname ∈ files.flatMap (turn chain) ↔
      ∃ f ∈ files, f.hash = hash ∧ f.hostname = hostname := by
  simp [turn, List.mem_flatMap, eq_comm]

/-- **In a row of turns a file is recorded before it is handled.** -/
theorem recorded_mem_of_turns {before later : List Act} {processor : String} {file : IncomingFile}
    (h : files.flatMap (turn chain) = before ++ .handled processor file :: later) :
    .recorded file.hash file.hostname ∈ before := by
  induction files generalizing before with
  | nil => simp at h
  | cons first files ih =>
    rw [List.flatMap_cons] at h
    rcases List.append_eq_append_iff.mp h with ⟨more, rfl, hrest⟩ | ⟨more, hturn, hrest⟩
    · exact List.mem_append_right _ (ih hrest)
    -- the act is one of the first turn, unless that ends right before it
    · cases more with
      | nil =>
        have hnil : .recorded file.hash file.hostname ∈ ([] : List Act) := ih hrest.symm
        cases hnil
      | cons act more =>
        obtain ⟨rfl, -⟩ := List.cons.inj hrest
        cases before with
        | nil => cases (List.cons.inj hturn).1
        | cons opening before =>
          obtain ⟨rfl, hchain⟩ := List.cons.inj hturn
          have hmem : Act.handled processor file ∈ chain.map fun p => .handled p.name first := by
            rw [hchain]
            exact List.mem_append_right _ List.mem_cons_self
          obtain ⟨p, -, heq⟩ := List.mem_map.mp hmem
          rw [(Act.handled.inj heq).2]
          exact List.mem_cons_self

/-! ### The desk, turn by turn -/

/-- Between two states of the desk a save was tried for each of the files, in order, and those that
got on record were handed to every processor of a chain; no other content was saved and no other
file was handled. -/
structure Desk.Takes (chain : List Processor) (files : List IncomingFile) (d d' : Desk) : Prop where
  journal : d'.journal =
    d.journal ++ (onRecord d.audit.failsAt d.audit.saves files).flatMap (turn chain)
  trail : ∀ hash hostname, (d'.audit.trail.get? hash hostname).isSome ↔
    (d.audit.trail.get? hash hostname).isSome ∨
      ∃ f ∈ onRecord d.audit.failsAt d.audit.saves files, f.hash = hash ∧ f.hostname = hostname
  saves : d'.audit.saves = d.audit.saves + files.length
  failsAt : d'.audit.failsAt = d.audit.failsAt

namespace Desk.Takes

theorem refl (d : Desk) : d.Takes chain [] d :=
  ⟨by simp [onRecord], by simp [onRecord], rfl, rfl⟩

theorem trans {more : List IncomingFile} {d d' d'' : Desk} (h : d.Takes chain files d')
    (h' : d'.Takes chain more d'') : d.Takes chain (files ++ more) d'' where
  journal := by
    rw [h'.journal, h.journal, h.saves, h.failsAt, onRecord_append, List.flatMap_append,
      List.append_assoc]
  trail := fun hash hostname => by
    rw [h'.trail, h.trail, h.saves, h.failsAt, onRecord_append]
    simp only [List.mem_append, or_and_right, exists_or, or_assoc]
  saves := by rw [h'.saves, h.saves, List.length_append, Nat.add_assoc]
  failsAt := by rw [h'.failsAt, h.failsAt]

end Desk.Takes

variable {saver : Audit.Saver} {d d' : Desk}

theorem journal_handleAll (chain : List Processor) (file : IncomingFile) (d : Desk) :
    (handleAll chain file d).1.journal = d.journal ++ chain.map fun p => .handled p.name file := by
  change (failuresOf (handleOne file) chain d).1.journal = _
  induction chain generalizing d with
  | nil => simp
  | cons p chain ih =>
    rw [failuresOf_cons, ih]
    simp [handleOne, Desk.note, Desk.send]

theorem audit_handleAll (chain : List Processor) (file : IncomingFile) (d : Desk) :
    (handleAll chain file d).1.audit = d.audit :=
  attemptAll_rel (R := fun d d' : Desk => d'.audit = d.audit) (fun _ => rfl)
    (fun {_ _ _} h h' => h'.trans h) (fun _ _ => rfl) chain d

/-- A file whose save fails is not handled. -/
theorem takes_of_recordContent_error {file : IncomingFile} {e : Error} (hne : file.hash ≠ "")
    (h : recordContent saver file.hash d = (d', .error e)) : d.Takes chain [file] d' := by
  rcases recordContent_cases saver file.hash d with
    ⟨hfails | hfails, _, heq⟩ | ⟨-, -, _, -, heq⟩
  · exact absurd hfails hne
  · obtain ⟨rfl, -⟩ := Prod.mk.inj (heq.symm.trans h)
    constructor <;> simp [onRecord_singleton, hfails]
  · cases heq.symm.trans h

/-- A file whose save succeeds is handed to every processor. -/
theorem takes_of_recordContent_ok {file : IncomingFile} (hhost : file.hostname = saver.hostname)
    (h : recordContent saver file.hash d = (d', .ok ())) :
    d.Takes chain [file] (handleAll chain file d').1 := by
  rcases recordContent_cases saver file.hash d with
    ⟨-, _, heq⟩ | ⟨-, hworks, trail, hsave, heq⟩
  · cases heq.symm.trans h
  · -- the save has worked, so the file is on record before it is handled
    obtain ⟨rfl, -⟩ := Prod.mk.inj (heq.symm.trans h)
    refine ⟨?_, fun hash hostname => ?_, ?_, ?_⟩
    · rw [journal_handleAll, onRecord_singleton, hworks]
      simp [turn, Desk.note, hhost]
    · rw [audit_handleAll, onRecord_singleton, hworks]
      simpa [Desk.note, hhost] using isSome_get?_save_iff hsave hash hostname
    · rw [audit_handleAll]
      rfl
    · rw [audit_handleAll]
      rfl

/-- Bytes that were read are saved and handled, whatever faults they have. -/
theorem takes_processBytes_of_readIncoming {path : String} {bytes : Bytes} {f : Ach.File}
    {faults : List Ach.Fault} (h : readIncoming path bytes = .ok (f.identify, faults))
    (chain : List Processor) (d : Desk) :
    d.Takes chain [incoming saver.hostname path bytes f faults]
      (processBytes saver chain path bytes d).1 := by
  have hne := incoming_hash_ne_empty saver.hostname path bytes f faults
  unfold processBytes
  rw [h]
  dsimp only
  split
  · next hrecord => exact takes_of_recordContent_error hne hrecord
  · next hrecord => exact takes_of_recordContent_ok rfl hrecord

theorem takes_processBytes (saver : Audit.Saver) (chain : List Processor) (path : String)
    (bytes : Bytes) (d : Desk) :
    d.Takes chain (incomingOf saver.hostname path bytes).toList
      (processBytes saver chain path bytes d).1 := by
  unfold incomingOf
  -- what was read in full or recovered in part comes in, and nothing else
  split
  · next f hread =>
    exact takes_processBytes_of_readIncoming (by rw [readIncoming, hread]) chain d
  · next e hread =>
    split
    · next hnone =>
      unfold processBytes readIncoming
      rw [hread]
      simpa [hnone] using Desk.Takes.refl d
    · next hsome =>
      exact takes_processBytes_of_readIncoming (by simp [readIncoming, hread, hsome]) chain d

/-- **The desk takes what the file at a path holds**, if it holds something. -/
theorem takes_processFile (disk : Disk) (saver : Audit.Saver) (chain : List Processor)
    (path : String) (d : Desk) :
    d.Takes chain (incomingAt disk saver.hostname path).toList
      (processFile disk saver chain path d).1 := by
  unfold processFile incomingAt
  cases disk.read path with
  | error fault => exact .refl d
  | ok bytes => exact takes_processBytes saver chain path bytes d

/-- **The desk takes what the files of a directory hold**, file by file. -/
theorem takes_processDirectory {disk : Disk} {dir : String} {names : List String}
    (hnames : NamesIn disk dir names) (saver : Audit.Saver) (chain : List Processor) (d : Desk) :
    d.Takes chain (incomingIn disk saver.hostname dir names)
      (processDirectory disk saver chain dir d).1 := by
  -- path by path, what each one takes is put behind what was taken before
  have hall : ∀ (paths : List String) (d : Desk),
      d.Takes chain (paths.flatMap fun path => (incomingAt disk saver.hostname path).toList)
        (failuresOf (processFile disk saver chain) paths d).1 := by
    intro paths
    induction paths with
    | nil => exact .refl
    | cons path paths ih =>
      intro d
      rw [failuresOf_cons, List.flatMap_cons]
      exact (takes_processFile disk saver chain path d).trans (ih _)
  rcases processDirectory_cases hnames saver chain with ⟨_, -, rfl, hrun⟩ | ⟨_, -, hrun⟩
  · rw [hrun]
    exact .refl d
  · rw [hrun, incomingIn, List.filterMap_eq_flatMap_toList]
    exact hall _ d

/-- **The audit comes first and is complete.**  When a directory is handled, by whatever processors
and with whatever saves failing,
* its files are those that lie one step down from it, and they are handled in byte order of their
  names;
* a processor is given a file only after the file's hash was recorded for the host;
* what is done is the turns of the files whose saves succeed, and a save is tried for each file
  that holds something, in order, and for no other;
* so a file that is handled holds something, and its save has not failed;
* on record is what was there before and what was recorded now;
* when no save fails, the hashes of all files that hold something are recorded. -/
theorem auditFirst_processDirectory (disk : Disk) (saver : Audit.Saver) (chain : List Processor)
    (dir : String) (d : Desk) :
    ∃ names, NamesIn disk dir names ∧
    let files := incomingIn disk saver.hostname dir names
    let d' := (processDirectory disk saver chain dir d).1
    ∃ acts, d'.journal = d.journal ++ acts ∧
      (∀ before processor file later, acts = before ++ .handled processor file :: later →
        .recorded file.hash saver.hostname ∈ before) ∧
      acts = (onRecord d.audit.failsAt d.audit.saves files).flatMap (turn chain) ∧
      d'.audit.saves = d.audit.saves + files.length ∧
      (∀ processor file, .handled processor file ∈ acts →
        incomingAt disk saver.hostname file.path = some file ∧
          ∃ k, files[k]? = some file ∧ d.audit.failsAt (d.audit.saves + k) = false) ∧
      (∀ hash hostname, (d'.audit.trail.get? hash hostname).isSome ↔
        (d.audit.trail.get? hash hostname).isSome ∨ .recorded hash hostname ∈ acts) ∧
      ((∀ k, d.audit.failsAt k = false) →
        acts.filterMap Act.recorded? = files.map fun file => (file.hash, saver.hostname)) := by
  obtain ⟨names, hnames⟩ := exists_namesIn disk dir
  refine ⟨names, hnames, ?_⟩
  intro files d'
  have htakes : d.Takes chain files d' := takes_processDirectory hnames saver chain d
  have hfrom : ∀ file ∈ files,
      incomingAt disk saver.hostname file.path = some file ∧ file.hostname = saver.hostname :=
    fun file hfile => incomingAt_of_mem_incomingIn hfile
  -- what is on record is one of the files, at a save that worked
  have hkept : ∀ {file}, file ∈ onRecord d.audit.failsAt d.audit.saves files →
      file ∈ files ∧ ∃ k, files[k]? = some file ∧ d.audit.failsAt (d.audit.saves + k) = false := by
    intro file hfile
    obtain ⟨k, hget, hworks⟩ := mem_onRecord_iff.mp hfile
    exact ⟨List.mem_of_getElem? hget, k, hget, hworks⟩
  refine ⟨_, htakes.journal, fun before processor file later hacts => ?_, rfl, htakes.saves,
    fun processor file hacts => ?_, fun hash hostname => ?_, fun hworks => ?_⟩
  · have hfile := mem_of_handled_mem_turns (hacts ▸ List.mem_append_right before List.mem_cons_self)
    rw [← (hfrom file (hkept hfile).1).2]
    exact recorded_mem_of_turns hacts
  · obtain ⟨hfile, hsave⟩ := hkept (mem_of_handled_mem_turns hacts)
    exact ⟨(hfrom file hfile).1, hsave⟩
  · rw [htakes.trail, recorded_mem_turns_iff]
  · rw [onRecord_eq_self hworks, filterMap_recorded?_turns]
    exact List.map_congr_left fun file hfile => by rw [(hfrom file hfile).2]

/-- The file with a batch is recorded, by the digest of its bytes as its header is missing, though a
processor refuses it; the file with nothing in it is not, and neither is the one further down. -/
theorem auditFirst_processDirectory_mixedDisk :
    let batch := Utf8.encode (Ach.lineOf ({} : Ach.BatchHeader).cells)
    let chain := [Processor.noting "log", Processor.refusing "gate" ["shut"]]
    let d' := (processDirectory (mixedDisk batch) ⟨"bank"⟩ chain "in" {}).1
    d'.journal.filterMap Act.recorded? = [(Digest.fingerprint batch, "bank")] := by
  intro batch chain d'
  obtain ⟨names, hnames, acts, hjournal, -, -, -, -, -, hall⟩ :=
    auditFirst_processDirectory (mixedDisk batch) ⟨"bank"⟩ chain "in" {}
  -- there is only one list of the names in the directory
  rw [hnames.unique (namesIn_mixedDisk batch)] at hall
  have hrecorded := hall fun _ => rfl
  have hfiles : (incomingIn (mixedDisk batch) "bank" "in" ["a", "b"]).map
      (fun file => (file.hash, "bank")) = [(Digest.fingerprint batch, "bank")] := by
    decide +kernel
  rw [← hfiles, ← hrecorded]
  exact congrArg (List.filterMap Act.recorded?) hjournal

end AchCourier.Ingest
