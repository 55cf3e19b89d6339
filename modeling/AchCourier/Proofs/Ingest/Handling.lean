import AchCourier.Proofs.Ingest.DirectoryFiles

/-!
# What it takes to be handled

When all independent steps come out well together, every single one did.  A directory that was
handled without a failure is such a case, twice over: each of its files was read, recorded and
handed to the processors, and each processor took it.  The journal and the audit trail only grow
meanwhile, so what is said of one file at its turn still holds at the end.

## Main definitions

* `Desk.Grows`, `Desk.Done` — one desk is a later state of another, and what was done between them.
* `Accepted` — a file was recorded and taken by a chain of processors.
* `Accounted` — the file at a path was read and accepted.

## Main results

* `attemptAll_mem` — every step of a success is a success.
* `accounted_of_processFile`, `accounted_of_processDirectory` — **what was handled without a
  failure was accepted.**
-/

namespace AchCourier.Ingest

open Local (Disk Node EndsInName LeadsDown)

/-! ### Independent steps -/

theorem Error.collect_eq_ok_iff {es : List Error} : Error.collect es = .ok () ↔ es = [] := by
  constructor
  · intro h
    unfold Error.collect at h
    split at h
    · rfl
    · cases h
    · cases h
  · rintro rfl
    rfl

section
variable {α σ : Type} {step : α → σ → σ × Except Error Unit} {R : σ → σ → Prop}

theorem failuresOf_cons (a : α) (as : List α) (s : σ) :
    failuresOf step (a :: as) s =
      ((failuresOf step as (step a s).1).1,
        match (step a s).2 with
        | .ok () => (failuresOf step as (step a s).1).2
        | .error e => e :: (failuresOf step as (step a s).1).2) := by
  rw [failuresOf]
  rcases step a s with ⟨t, e | _⟩ <;> rfl

/-- What relates the states around every step relates those around all of them. -/
theorem failuresOf_rel (hrefl : ∀ s, R s s) (htrans : ∀ {s t u}, R s t → R t u → R s u)
    (hstep : ∀ a s, R s (step a s).1) (items : List α) (s : σ) :
    R s (failuresOf step items s).1 := by
  induction items generalizing s with
  | nil => exact hrefl s
  | cons a as ih =>
    rw [failuresOf_cons]
    exact htrans (hstep a s) (ih _)

theorem attemptAll_rel (hrefl : ∀ s, R s s) (htrans : ∀ {s t u}, R s t → R t u → R s u)
    (hstep : ∀ a s, R s (step a s).1) (items : List α) (s : σ) :
    R s (attemptAll step items s).1 :=
  failuresOf_rel hrefl htrans hstep items s

/-- **Every step of a success is a success**, and what relates the states around a step relates the
beginning to the state before it and the state behind it to the end. -/
theorem attemptAll_mem (hrefl : ∀ s, R s s) (htrans : ∀ {s t u}, R s t → R t u → R s u)
    (hstep : ∀ a s, R s (step a s).1) {items : List α} {s s' : σ}
    (h : attemptAll step items s = (s', .ok ())) {a : α} (ha : a ∈ items) :
    ∃ t u, R s t ∧ step a t = (u, .ok ()) ∧ R u s' := by
  obtain ⟨rfl, hcollect⟩ := Prod.mk.inj h
  -- failures are collected to the end, so a success means that there were none
  have hnone := Error.collect_eq_ok_iff.mp hcollect
  clear h hcollect
  induction items generalizing s with
  | nil => cases ha
  | cons b items ih =>
    rw [failuresOf_cons] at hnone ⊢
    dsimp only at hnone ⊢
    cases hb : (step b s).2 with
    | error e =>
      rw [hb] at hnone
      cases hnone
    | ok _ =>
      rw [hb] at hnone
      rcases List.mem_cons.mp ha with rfl | ha
      · exact ⟨s, _, hrefl s, Prod.ext rfl hb, failuresOf_rel hrefl htrans hstep items _⟩
      · obtain ⟨t, u, ht, hat, hu⟩ := ih ha hnone
        exact ⟨t, u, htrans (hstep b s) ht, hat, hu⟩

end

/-! ### Growing desks -/

namespace Desk

/-- The desk is a later state of another: nothing was taken out of the journal or the trail. -/
structure Grows (d d' : Desk) : Prop where
  journal : d.journal <+: d'.journal
  kept : ∀ {hash hostname : String}, (d.audit.trail.get? hash hostname).isSome →
    (d'.audit.trail.get? hash hostname).isSome

theorem Grows.refl (d : Desk) : Grows d d :=
  ⟨List.prefix_rfl, id⟩

theorem Grows.trans {d d' d'' : Desk} (h : Grows d d') (h' : Grows d' d'') : Grows d d'' :=
  ⟨h.journal.trans h'.journal, fun hkept => h'.kept (h.kept hkept)⟩

/-- The act was done between two states of the desk. -/
def Done (d : Desk) (act : Act) (d' : Desk) : Prop :=
  ∃ before later, d'.journal = d.journal ++ before ++ act :: later

theorem Done.mono {d₀ d d' d₁ : Desk} {act : Act} (h : Done d act d') (hbefore : Grows d₀ d)
    (hlater : Grows d' d₁) : Done d₀ act d₁ := by
  obtain ⟨before, later, hjournal⟩ := h
  obtain ⟨first, hfirst⟩ := hbefore.journal
  obtain ⟨last, hlast⟩ := hlater.journal
  refine ⟨first ++ before, later ++ last, ?_⟩
  rw [← hlast, hjournal, ← hfirst]
  simp

theorem grows_note (d : Desk) (act : Act) : Grows d (d.note act) :=
  ⟨List.prefix_append _ _, id⟩

theorem done_note (d : Desk) (act : Act) : Done d act (d.note act) :=
  ⟨[], [], by simp [note]⟩

theorem grows_send (d : Desk) (events : List Event) : Grows d (d.send events) :=
  ⟨List.prefix_rfl, id⟩

end Desk

/-! ### The trail -/

/-- A save adds one content to the trail. -/
theorem isSome_get?_save_iff {t t' : Audit.Trail} {hash hostname : String}
    {direction : Audit.Direction} (h : t.save hash hostname direction = .ok t')
    (hash' hostname' : String) :
    (t'.get? hash' hostname').isSome ↔
      (t.get? hash' hostname').isSome ∨ hash = hash' ∧ hostname = hostname' := by
  unfold Audit.Trail.save at h
  split at h
  · cases h
  · -- a pair that is on record is left alone, and another one is added
    split at h
    · next r hr =>
      obtain rfl := Except.ok.inj h
      refine ⟨Or.inl, ?_⟩
      rintro (hsome | ⟨rfl, rfl⟩)
      · exact hsome
      · rw [hr]
        rfl
    · obtain rfl := Except.ok.inj h
      simp [Audit.Trail.get?, List.find?_append, List.find?_singleton]

/-! ### Files -/

variable {chain : List Processor} {saver : Audit.Saver} {path : String} {d d' : Desk}

theorem grows_handleOne (file : IncomingFile) (p : Processor) (d : Desk) :
    d.Grows (handleOne file p d).1 :=
  (d.grows_note _).trans (Desk.grows_send _ _)

theorem grows_handleAll (chain : List Processor) (file : IncomingFile) (d : Desk) :
    d.Grows (handleAll chain file d).1 :=
  attemptAll_rel .refl .trans (grows_handleOne file) chain d

/-- A file that a chain has taken was taken by each of its processors. -/
theorem done_of_handleAll {file : IncomingFile} (h : handleAll chain file d = (d', .ok ()))
    {p : Processor} (hp : p ∈ chain) :
    (p.handle file).result = .ok () ∧ d.Done (.handled p.name file) d' := by
  obtain ⟨t, u, hbefore, hone, hlater⟩ := attemptAll_mem .refl .trans (grows_handleOne file) h hp
  obtain ⟨rfl, hresult⟩ := Prod.mk.inj hone
  exact ⟨hresult, (t.done_note _).mono hbefore ((Desk.grows_send _ _).trans hlater)⟩

/-- A content is recorded unless it has no hash or the medium fails. -/
theorem recordContent_cases (saver : Audit.Saver) (hash : String) (d : Desk) :
    ((hash = "" ∨ d.audit.failsAt d.audit.saves = true) ∧ ∃ e, recordContent saver hash d =
      ({ d with audit := { d.audit with saves := d.audit.saves + 1 } }, .error e)) ∨
    (hash ≠ "" ∧ d.audit.failsAt d.audit.saves = false ∧ ∃ trail,
      d.audit.trail.save hash saver.hostname .incoming = .ok trail ∧
      recordContent saver hash d =
        (({ d with audit := { d.audit with saves := d.audit.saves + 1, trail } }).note
          (.recorded hash saver.hostname), .ok ())) := by
  unfold recordContent Audit.Saver.save Audit.Storage.save
  cases hfails : d.audit.failsAt d.audit.saves with
  | true => exact Or.inl ⟨Or.inr rfl, _, rfl⟩
  | false =>
    by_cases hhash : hash = ""
    · exact Or.inl ⟨Or.inl hhash, .audit .missingHash, by simp [Audit.Trail.save, hhash]⟩
    · -- with a hash the save works, whether the pair is on record or not
      obtain ⟨trail, htrail⟩ : ∃ trail,
          d.audit.trail.save hash saver.hostname .incoming = .ok trail := by
        unfold Audit.Trail.save
        rw [if_neg hhash]
        split
        · exact ⟨_, rfl⟩
        · exact ⟨_, rfl⟩
      exact Or.inr ⟨hhash, rfl, trail, htrail, by simp [htrail]⟩

theorem grows_recordContent (saver : Audit.Saver) (hash : String) (d : Desk) :
    d.Grows (recordContent saver hash d).1 := by
  rcases recordContent_cases saver hash d with ⟨-, _, heq⟩ | ⟨-, -, trail, hsave, heq⟩
  · rw [heq]
    exact ⟨List.prefix_rfl, id⟩
  · rw [heq]
    exact ⟨List.prefix_append _ _, fun hkept => (isSome_get?_save_iff hsave _ _).mpr (.inl hkept)⟩

/-- A content that was recorded is on record. -/
theorem done_of_recordContent {hash : String} (h : recordContent saver hash d = (d', .ok ())) :
    (d'.audit.trail.get? hash saver.hostname).isSome ∧
      d.Done (.recorded hash saver.hostname) d' := by
  rcases recordContent_cases saver hash d with ⟨-, _, heq⟩ | ⟨-, -, trail, hsave, heq⟩
  · cases heq.symm.trans h
  · obtain ⟨rfl, -⟩ := Prod.mk.inj (heq.symm.trans h)
    exact ⟨(isSome_get?_save_iff hsave _ _).mpr (.inr ⟨rfl, rfl⟩), [], [], by simp [Desk.note]⟩

/-- Between two states of the desk the file was recorded in the audit trail, handed to every
processor of a chain, and refused by none. -/
structure Accepted (chain : List Processor) (file : IncomingFile) (d d' : Desk) : Prop where
  onRecord : (d'.audit.trail.get? file.hash file.hostname).isSome
  recorded : d.Done (.recorded file.hash file.hostname) d'
  handled : ∀ p ∈ chain, d.Done (.handled p.name file) d'
  taken : ∀ p ∈ chain, (p.handle file).result = .ok ()

theorem Accepted.mono {file : IncomingFile} {d₀ d₁ : Desk} (h : Accepted chain file d d')
    (hbefore : d₀.Grows d) (hlater : d'.Grows d₁) : Accepted chain file d₀ d₁ where
  onRecord := hlater.kept h.onRecord
  recorded := h.recorded.mono hbefore hlater
  handled := fun p hp => (h.handled p hp).mono hbefore hlater
  taken := h.taken

/-- Between two states of the desk the bytes of the file at a path were read as an incoming file
from a host, and that was accepted. -/
structure Accounted (chain : List Processor) (hostname path : String) (bytes : Bytes)
    (file : IncomingFile) (d d' : Desk) : Prop where
  atPath : file.path = path
  fromHost : file.hostname = hostname
  identified : file.hash = file.file.id.getD (Digest.fingerprint bytes)
  read : readIncoming path bytes = .ok (file.file, file.faults)
  accepted : Accepted chain file d d'

/-- Bytes are read without a fault, or at least a batch is. -/
theorem batches_of_readIncoming {bytes : Bytes} {result : Ach.File × List Ach.Fault}
    (h : readIncoming path bytes = .ok result) :
    (∃ f, Ach.read bytes = .ok f) ∨
      ∃ e, Ach.read bytes = .error e ∧ e.recovered.batches ≠ [] := by
  unfold readIncoming at h
  split at h
  · next f hread => exact Or.inl ⟨f, hread⟩
  · next e hread =>
    split at h
    · cases h
    · next hbatches => exact Or.inr ⟨e, hread, by simpa using hbatches⟩

theorem grows_processBytes (saver : Audit.Saver) (chain : List Processor) (path : String)
    (bytes : Bytes) (d : Desk) : d.Grows (processBytes saver chain path bytes d).1 := by
  unfold processBytes
  split
  · exact .refl d
  · next file faults _ =>
    have hrecord := grows_recordContent saver (file.id.getD (Digest.fingerprint bytes)) d
    dsimp only
    split
    · next h =>
      rw [h] at hrecord
      exact hrecord
    · next h =>
      rw [h] at hrecord
      exact hrecord.trans (grows_handleAll chain _ _)

theorem accounted_of_processBytes {bytes : Bytes}
    (h : processBytes saver chain path bytes d = (d', .ok ())) :
    ∃ file, Accounted chain saver.hostname path bytes file d d' := by
  unfold processBytes at h
  split at h
  · cases h
  · next file faults hread =>
    dsimp only at h
    split at h
    · cases h
    · next mid hrecord =>
      obtain ⟨honRecord, hrecorded⟩ := done_of_recordContent hrecord
      -- the content is recorded first, and handed to the processors then
      have hbefore : d.Grows mid := by
        rw [← (Prod.mk.inj hrecord).1]
        exact grows_recordContent saver _ d
      have hlater : mid.Grows d' := by
        rw [← (Prod.mk.inj h).1]
        exact grows_handleAll chain _ mid
      exact ⟨_, rfl, rfl, rfl, hread, hlater.kept honRecord, hrecorded.mono (.refl d) hlater,
        fun p hp => (done_of_handleAll h hp).2.mono hbefore (.refl d'),
        fun p hp => (done_of_handleAll h hp).1⟩

theorem Accounted.mono {hostname : String} {bytes : Bytes} {file : IncomingFile} {d₀ d₁ : Desk}
    (h : Accounted chain hostname path bytes file d d') (hbefore : d₀.Grows d)
    (hlater : d'.Grows d₁) : Accounted chain hostname path bytes file d₀ d₁ :=
  { h with accepted := h.accepted.mono hbefore hlater }

theorem grows_processFile (disk : Disk) (saver : Audit.Saver) (chain : List Processor)
    (path : String) (d : Desk) : d.Grows (processFile disk saver chain path d).1 := by
  unfold processFile
  split
  · exact .refl d
  · exact grows_processBytes saver chain path _ d

/-- **A file that was handled without a failure was accepted**, with the bytes on the disk. -/
theorem accounted_of_processFile {disk : Disk}
    (h : processFile disk saver chain path d = (d', .ok ())) :
    ∃ bytes file, disk.read path = .ok bytes ∧
      Accounted chain saver.hostname path bytes file d d' := by
  unfold processFile at h
  split at h
  · cases h
  · next bytes hread =>
    obtain ⟨file, haccounted⟩ := accounted_of_processBytes h
    exact ⟨bytes, file, hread, haccounted⟩

/-! ### Directories -/

theorem grows_processDirectory (disk : Disk) (saver : Audit.Saver) (chain : List Processor)
    (dir : String) (d : Desk) : d.Grows (processDirectory disk saver chain dir d).1 := by
  unfold processDirectory
  split
  · exact .refl d
  · exact attemptAll_rel .refl .trans (grows_processFile disk saver chain) _ d

/-- **Every file of a directory that was handled without a failure was accepted.** -/
theorem accounted_of_processDirectory {disk : Disk} {dir name : String} {bytes : Bytes}
    (h : processDirectory disk saver chain dir d = (d', .ok ())) (hdir : EndsInName dir)
    (hname : LeadsDown name) (hread : disk.read (Local.child dir name) = .ok bytes) :
    ∃ file, Accounted chain saver.hostname (Local.child dir name) bytes file d d' := by
  unfold processDirectory at h
  split at h
  · cases h
  · next contents hlist =>
    have hmem : Local.child dir name ∈ (fileNames contents).map (Local.child dir) :=
      List.mem_map_of_mem (mem_fileNames (Disk.mem_list hdir hname hread hlist))
    -- without a failure each file was handled, this one among them
    obtain ⟨t, u, hbefore, hone, hlater⟩ :=
      attemptAll_mem .refl .trans (grows_processFile disk saver chain) h hmem
    obtain ⟨bytes', file, hread', haccounted⟩ := accounted_of_processFile hone
    rw [hread] at hread'
    obtain rfl := Except.ok.inj hread'
    exact ⟨file, haccounted.mono hbefore hlater⟩

end AchCourier.Ingest
