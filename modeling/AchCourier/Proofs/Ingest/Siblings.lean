import AchCourier.Proofs.Ingest.Handling

/-!
# Files do not affect each other

The files of a directory are handled at one desk, with one audit trail, one journal and one list of
failures.  All the same each file is handled as if it were alone: what is done with it and what
comes of it are the same at every desk, and the desk puts together what was done with each.  Only
the trail, which knows a content once, does not grow by what it has already.

## Main definitions

* `failure?` — the failure of an outcome.
* `Desk.Joins` — a desk with what was done at an empty one added.
* `Desk.Indifferent` — a step that does the same at every desk.
* `Desk.Gathers` — a desk with what was done at several empty ones added.
* `alone` — what is done with a file when there is nothing else.

## Main results

* `failuresOf_sim` — steps that have the same outcome at related states have so in a row.
* `indifferent_processFile` — **a file is handled at every desk as at an empty one.**
* `siblings_processDirectory` — **a directory is handled as each of its files alone.**
-/

namespace AchCourier.Ingest

open Local (Disk Node)

/-! ### Independent steps at related states -/

section
variable {α σ : Type} {step : α → σ → σ × Except Error Unit} {R : σ → σ → Prop}

/-- Steps that keep states related and have the same outcome at both do so in a row. -/
theorem failuresOf_sim
    (hstep : ∀ a {s t}, R s t → R (step a s).1 (step a t).1 ∧ (step a s).2 = (step a t).2)
    (items : List α) {s t : σ} (h : R s t) :
    R (failuresOf step items s).1 (failuresOf step items t).1 ∧
      (failuresOf step items s).2 = (failuresOf step items t).2 := by
  induction items generalizing s t with
  | nil => exact ⟨h, rfl⟩
  | cons a items ih =>
    obtain ⟨hmid, hresult⟩ := hstep a h
    obtain ⟨hend, hfailures⟩ := ih hmid
    rw [failuresOf_cons, failuresOf_cons, hresult, hfailures]
    exact ⟨hend, rfl⟩

theorem attemptAll_sim
    (hstep : ∀ a {s t}, R s t → R (step a s).1 (step a t).1 ∧ (step a s).2 = (step a t).2)
    (items : List α) {s t : σ} (h : R s t) :
    R (attemptAll step items s).1 (attemptAll step items t).1 ∧
      (attemptAll step items s).2 = (attemptAll step items t).2 :=
  let ⟨hend, hfailures⟩ := failuresOf_sim hstep items h
  ⟨hend, congrArg Error.collect hfailures⟩

end

/-- The failure of an outcome, if it is one. -/
def failure? : Except Error Unit → Option Error
  | .ok () => none
  | .error e => some e

theorem failure?_eq_none_iff {result : Except Error Unit} :
    failure? result = none ↔ result = .ok () := by
  rcases result with e | _ <;> simp [failure?]

/-! ### Trails -/

/-- A trail knows a pair of hash and host name just when one of its records is of that pair. -/
theorem get?_eq_none_iff {t : Audit.Trail} {hash hostname : String} :
    t.get? hash hostname = none ↔
      ∀ r ∈ t.records, ¬ (r.hash = hash ∧ r.hostname = hostname) := by
  simp [Audit.Trail.get?]

/-- A save adds a record of a pair that the trail does not know. -/
theorem mem_records_save_iff {t t' : Audit.Trail} {hash hostname : String}
    {direction : Audit.Direction} (h : t.save hash hostname direction = .ok t')
    (r : Audit.Record) :
    r ∈ t'.records ↔
      r ∈ t.records ∨ r = ⟨hash, hostname, direction⟩ ∧ t.get? hash hostname = none := by
  unfold Audit.Trail.save at h
  split at h
  · cases h
  · split at h
    · next hget =>
      obtain rfl := Except.ok.inj h
      simp [hget]
    · next hget =>
      obtain rfl := Except.ok.inj h
      simp [hget]

/-! ### Desks put together -/

namespace Desk

/-- No save at the desk fails, as in a trail in memory. -/
def Works (d : Desk) : Prop :=
  ∀ k, d.audit.failsAt k = false

/-- The desk `d` is `base` with what was done at `own` added. -/
structure Joins (base own d : Desk) : Prop where
  events : d.events = base.events ++ own.events
  journal : d.journal = base.journal ++ own.journal
  records : ∀ r, r ∈ d.audit.trail.records ↔ r ∈ base.audit.trail.records ∨
    r ∈ own.audit.trail.records ∧ base.audit.trail.get? r.hash r.hostname = none
  incoming : ∀ r ∈ own.audit.trail.records, r.direction = .incoming
  works : d.Works
  ownWorks : own.Works

/-- Between `d` and `d'` is what was done at each of the desks `owns`, in this order. -/
structure Gathers (owns : List Desk) (d d' : Desk) : Prop where
  events : d'.events = d.events ++ owns.flatMap Desk.events
  journal : d'.journal = d.journal ++ owns.flatMap Desk.journal
  records : ∀ r, r ∈ d'.audit.trail.records ↔ r ∈ d.audit.trail.records ∨
    (∃ own ∈ owns, r ∈ own.audit.trail.records) ∧
      d.audit.trail.get? r.hash r.hostname = none
  incoming : ∀ own ∈ owns, ∀ r ∈ own.audit.trail.records, r.direction = .incoming

namespace Joins

variable {base own d : Desk}

theorem refl (h : base.Works) : Joins base {} base where
  events := (List.append_nil _).symm
  journal := (List.append_nil _).symm
  records := by simp
  incoming := by simp
  works := h
  ownWorks := fun _ => rfl

theorem note (h : Joins base own d) (act : Act) : Joins base (own.note act) (d.note act) :=
  { h with journal := by simp [Desk.note, h.journal] }

theorem send (h : Joins base own d) (events : List Event) :
    Joins base (own.send events) (d.send events) :=
  { h with events := by simp [Desk.send, h.events] }

theorem get?_eq_none (h : Joins base own d) (hash hostname : String) :
    d.audit.trail.get? hash hostname = none ↔
      base.audit.trail.get? hash hostname = none ∧ own.audit.trail.get? hash hostname = none := by
  simp only [get?_eq_none_iff, h.records]
  constructor
  · intro hd
    -- a record of the files is at the desk unless the base has its pair
    have hbase : ∀ r ∈ base.audit.trail.records, ¬ (r.hash = hash ∧ r.hostname = hostname) :=
      fun r hr => hd r (Or.inl hr)
    refine ⟨hbase, fun r hr hkey => hd r (Or.inr ⟨hr, fun r' hr' hkey' => ?_⟩) hkey⟩
    exact hbase r' hr' ⟨hkey'.1.trans hkey.1, hkey'.2.trans hkey.2⟩
  · rintro ⟨hbase, hown⟩ r (hr | ⟨hr, -⟩)
    · exact hbase r hr
    · exact hown r hr

/-- A content that is saved at both desks is added to what was added. -/
theorem saved (h : Joins base own d) {hash hostname : String} {trail trail' : Audit.Trail}
    (hsave : own.audit.trail.save hash hostname .incoming = .ok trail)
    (hsave' : d.audit.trail.save hash hostname .incoming = .ok trail') (n n' : ℕ) :
    Joins base { own with audit := { own.audit with saves := n, trail } }
      { d with audit := { d.audit with saves := n', trail := trail' } } where
  events := h.events
  journal := h.journal
  works := h.works
  ownWorks := h.ownWorks
  records := fun r => by
    dsimp only
    rw [mem_records_save_iff hsave, mem_records_save_iff hsave', h.records, h.get?_eq_none]
    -- a pair is new for the desk when it is new for the base and for the files
    constructor
    · rintro ((hr | ⟨hr, hbase⟩) | ⟨rfl, hbase, hown⟩)
      · exact Or.inl hr
      · exact Or.inr ⟨Or.inl hr, hbase⟩
      · exact Or.inr ⟨Or.inr ⟨rfl, hown⟩, hbase⟩
    · rintro (hr | ⟨hr | ⟨rfl, hown⟩, hbase⟩)
      · exact Or.inl (Or.inl hr)
      · exact Or.inl (Or.inr ⟨hr, hbase⟩)
      · exact Or.inr ⟨rfl, hbase, hown⟩
  incoming := fun r hr => by
    rcases (mem_records_save_iff hsave r).mp hr with hr | ⟨rfl, -⟩
    · exact h.incoming r hr
    · rfl

end Joins

/-- The step does the same at every desk, whatever was done there before. -/
def Indifferent (step : Desk → Desk × Except Error Unit) : Prop :=
  ∀ ⦃base own d : Desk⦄, Joins base own d →
    Joins base (step own).1 (step d).1 ∧ (step own).2 = (step d).2

/-- A step and another one behind its success. -/
theorem Indifferent.andThen {first second : Desk → Desk × Except Error Unit}
    (hfirst : Indifferent first) (hsecond : Indifferent second) :
    Indifferent fun d =>
      match first d with
      | (d, .error e) => (d, .error e)
      | (d, .ok ()) => second d := by
  intro base own d h
  obtain ⟨hmid, hresult⟩ := hfirst h
  dsimp only
  -- both desks come to the same end, so only two of the four cases are left
  rcases hown : first own with ⟨own', e | _⟩ <;> rcases hd : first d with ⟨d', e' | _⟩ <;>
    rw [hown, hd] at hmid hresult
  · cases hresult
    exact ⟨hmid, rfl⟩
  · cases hresult
  · cases hresult
  · exact hsecond hmid

end Desk

open Desk (Joins Gathers Indifferent)

/-! ### Files -/

theorem indifferent_handleOne (file : IncomingFile) (p : Processor) :
    Indifferent (handleOne file p) :=
  fun _ _ _ h => ⟨(h.note _).send _, rfl⟩

theorem indifferent_handleAll (chain : List Processor) (file : IncomingFile) :
    Indifferent (handleAll chain file) :=
  fun _ _ _ h => attemptAll_sim (fun p _ _ h => indifferent_handleOne file p h) chain h

/-- Whether the trail knows a content or not, recording it has the same outcome. -/
theorem indifferent_recordContent (saver : Audit.Saver) (hash : String) :
    Indifferent (recordContent saver hash) := by
  intro base own d h
  by_cases hhash : hash = ""
  · -- without a hash nothing is recorded at either desk
    simp only [recordContent, Audit.Saver.save, Audit.Storage.save, h.works _, h.ownWorks _,
      Audit.Trail.save, hhash, if_true, Bool.false_eq_true, if_false]
    exact ⟨{ h with }, trivial⟩
  rcases recordContent_cases saver hash own with
    ⟨hfails | hfails, _⟩ | ⟨-, -, trail, hsave, heq⟩
  · exact absurd hfails hhash
  · cases (h.ownWorks _).symm.trans hfails
  rcases recordContent_cases saver hash d with
    ⟨hfails | hfails, _⟩ | ⟨-, -, trail', hsave', heq'⟩
  · exact absurd hfails hhash
  · cases (h.works _).symm.trans hfails
  rw [heq, heq']
  exact ⟨(h.saved hsave hsave' _ _).note _, rfl⟩

theorem indifferent_processBytes (saver : Audit.Saver) (chain : List Processor) (path : String)
    (bytes : Bytes) : Indifferent (processBytes saver chain path bytes) := by
  unfold processBytes
  split
  · exact fun _ _ _ h => ⟨h, rfl⟩
  · exact (indifferent_recordContent saver _).andThen (indifferent_handleAll chain _)

/-- **A file is handled at every desk as at an empty one.** -/
theorem indifferent_processFile (disk : Disk) (saver : Audit.Saver) (chain : List Processor)
    (path : String) : Indifferent (processFile disk saver chain path) := by
  unfold processFile
  split
  · exact fun _ _ _ h => ⟨h, rfl⟩
  · exact indifferent_processBytes saver chain path _

/-! ### Directories -/

/-- What is done with the file at a path when there is nothing else. -/
def alone (disk : Disk) (saver : Audit.Saver) (chain : List Processor) (path : String) :
    Desk × Except Error Unit :=
  processFile disk saver chain path {}

namespace Desk.Gathers

variable {own : Desk} {owns : List Desk} {d mid d' : Desk}

theorem nil (d : Desk) : Gathers [] d d :=
  ⟨by simp, by simp, by simp, by simp⟩

/-- What was done at the first desk comes before what was done at the others. -/
theorem cons (h : Joins d own mid) (h' : Gathers owns mid d') : Gathers (own :: owns) d d' where
  events := by rw [h'.events, h.events, List.flatMap_cons, List.append_assoc]
  journal := by rw [h'.journal, h.journal, List.flatMap_cons, List.append_assoc]
  incoming := List.forall_mem_cons.mpr ⟨h.incoming, h'.incoming⟩
  records := fun r => by
    rw [h'.records, h.records, h.get?_eq_none]
    constructor
    · rintro ((hr | ⟨hr, hnone⟩) | ⟨⟨o, ho, hr⟩, hnone, -⟩)
      · exact Or.inl hr
      · exact Or.inr ⟨⟨own, List.mem_cons_self, hr⟩, hnone⟩
      · exact Or.inr ⟨⟨o, List.mem_cons_of_mem _ ho, hr⟩, hnone⟩
    · rintro (hr | ⟨⟨o, ho, hr⟩, hnone⟩)
      · exact Or.inl (Or.inl hr)
      · rcases List.mem_cons.mp ho with rfl | ho
        · exact Or.inl (Or.inr ⟨hr, hnone⟩)
        · cases hown : own.audit.trail.get? r.hash r.hostname with
          | none => exact Or.inr ⟨⟨o, ho, hr⟩, hnone, rfl⟩
          | some r' =>
            -- the first desk has recorded the same content from the same host
            have hmem : r' ∈ own.audit.trail.records := List.mem_of_find?_eq_some hown
            have hkey : r'.hash = r.hash ∧ r'.hostname = r.hostname := by
              simpa using List.find?_some hown
            have heq : r' = r := by
              have hdirection := (h.incoming r' hmem).trans (h'.incoming o ho r hr).symm
              cases r
              cases r'
              simp_all
            exact Or.inl (Or.inr ⟨heq ▸ hmem, hnone⟩)

end Desk.Gathers

/-- **Files that are handled one after another are handled as each of them alone.** -/
theorem gathers_failuresOf (disk : Disk) (saver : Audit.Saver) (chain : List Processor)
    (paths : List String) {d : Desk} (h : d.Works) :
    Gathers (paths.map fun path => (alone disk saver chain path).1) d
        (failuresOf (processFile disk saver chain) paths d).1 ∧
      (failuresOf (processFile disk saver chain) paths d).2 =
        paths.filterMap fun path => failure? (alone disk saver chain path).2 := by
  induction paths generalizing d with
  | nil => exact ⟨.nil d, rfl⟩
  | cons path paths ih =>
    obtain ⟨hjoins, hresult⟩ := indifferent_processFile disk saver chain path (Joins.refl h)
    obtain ⟨hgathers, hfailures⟩ := ih hjoins.works
    rw [failuresOf_cons, hfailures, List.map_cons, List.filterMap_cons, alone, hresult]
    refine ⟨.cons hjoins hgathers, ?_⟩
    rcases (processFile disk saver chain path d).2 with e | _ <;> rfl

/-- **One bad file never affects its siblings.**  The files directly inside a directory are handled
in byte order of their names, whatever the order in which the disk lists them:
* every file of the listing is handled once; on a disk with one entry for each place these are the
  files one step down from the directory, each once;
* the events that are sent, and the acts that tell which file was given to which processor, are
  those of each file alone, one file after another;
* the trail gains the records that each file alone would give it, those of contents that it knows
  already left out;
* the outcome is a success if that of each file alone is one, and otherwise collects the failures
  of the files that fail alone, in order. -/
theorem siblings_processDirectory {disk : Disk} {dir : String} {contents : List (String × Node)}
    {d : Desk} (hlist : disk.list dir = .ok contents) (hd : d.Works) (saver : Audit.Saver)
    (chain : List Processor) :
    let names := fileNames contents
    let each := names.map fun name => alone disk saver chain (Local.child dir name)
    let (d', result) := processDirectory disk saver chain dir d
    names.Perm ((contents.filter fun c => c.2 ≠ .directory).map (·.1)) ∧
      names.Pairwise (fun a b => Utf8.ofString a ≤ Utf8.ofString b) ∧
      (disk.nodes.keys.Nodup → names.Nodup ∧ ∀ name, name ∈ names ↔
        ∃ bytes, disk.node? (Local.placeOf dir ++ [name]) = some (.file bytes)) ∧
      d'.events = d.events ++ each.flatMap (·.1.events) ∧
      d'.journal = d.journal ++ each.flatMap (·.1.journal) ∧
      (∀ r, r ∈ d'.audit.trail.records ↔ r ∈ d.audit.trail.records ∨
        (∃ own ∈ each, r ∈ own.1.audit.trail.records) ∧
          d.audit.trail.get? r.hash r.hostname = none) ∧
      (result = .ok () ↔ ∀ own ∈ each, own.2 = .ok ()) ∧
      result = Error.collect (each.filterMap fun own => failure? own.2) := by
  intro names each
  obtain ⟨hgathers, hfailures⟩ :=
    gathers_failuresOf disk saver chain (names.map (Local.child dir)) hd
  have hprocess : processDirectory disk saver chain dir d =
      attemptAll (processFile disk saver chain) (names.map (Local.child dir)) d := by
    simp only [processDirectory, hlist, names]
  rw [hprocess]
  -- file by file, what comes of it is what would come of it alone
  have hresult : (failuresOf (processFile disk saver chain) (names.map (Local.child dir)) d).2 =
      each.filterMap fun own => failure? own.2 := by
    rw [hfailures, List.filterMap_map, List.filterMap_map]
    rfl
  rw [List.map_map] at hgathers
  have hflat : ∀ {β : Type} (f : Desk → List β),
      (names.map ((fun path => (alone disk saver chain path).1) ∘ Local.child dir)).flatMap f =
        each.flatMap fun own => f own.1 := by
    intro β f
    rw [List.flatMap_map, List.flatMap_map]
    rfl
  refine ⟨fileNames_perm contents, pairwise_fileNames contents,
    fun hdisk => fileNames_of_list hdisk hlist, ?_, ?_, fun r => ?_, ?_, ?_⟩
  · exact hgathers.events.trans (congrArg _ (hflat _))
  · exact hgathers.journal.trans (congrArg _ (hflat _))
  · refine (hgathers.records r).trans ?_
    simp [each]
  · show Error.collect _ = _ ↔ _
    rw [Error.collect_eq_ok_iff, hresult, List.filterMap_eq_nil_iff]
    simp only [failure?_eq_none_iff]
  · show Error.collect _ = _
    rw [hresult]

/-- The bad file comes first and is reported, and its sibling is handled as if it were alone. -/
theorem siblings_processDirectory_mixedDisk :
    let disk := mixedDisk (Utf8.encode (Ach.lineOf ({} : Ach.BatchHeader).cells))
    let chain := [Processor.noting "log"]
    let each := alone disk ⟨"bank"⟩ chain
    let (d', result) := processDirectory disk ⟨"bank"⟩ chain "in" {}
    disk.nodes.keys.Nodup ∧ d'.journal = (each "in/b").1.journal ∧
      (each "in/b").1.journal.length = 2 ∧ result = (each "in/a").2 ∧ result ≠ .ok () := by
  intro disk chain each
  have hlist : disk.list "in" = .ok [("b", .file (Utf8.encode
      (Ach.lineOf ({} : Ach.BatchHeader).cells))), ("more", .directory), ("a", .file [])] := rfl
  have hsiblings := siblings_processDirectory hlist (d := {}) (fun _ => rfl) ⟨"bank"⟩ chain
  rcases hrun : processDirectory disk ⟨"bank"⟩ chain "in" {} with ⟨d', result⟩
  rw [hrun] at hsiblings
  obtain ⟨-, -, -, -, hjournal, -, -, hresult⟩ := hsiblings
  rw [(namesIn_fileNames hlist).unique (namesIn_mixedDisk _)] at hjournal hresult
  have hgood : (each "in/b").2 = .ok () := failure?_eq_none_iff.mp (by decide +kernel)
  have hempty : (each "in/a").1.journal = [] := by decide +kernel
  obtain ⟨e, hbad⟩ : ∃ e, failure? (each "in/a").2 = some e :=
    Option.isSome_iff_exists.mp (by decide +kernel)
  have hfails : (each "in/a").2 = .error e := by
    rcases hown : (each "in/a").2 with e' | _ <;> rw [hown] at hbad <;> cases hbad
    rfl
  have hpaths : ["a", "b"].map (fun name => alone disk ⟨"bank"⟩ chain (Local.child "in" name)) =
      [each "in/a", each "in/b"] := rfl
  rw [hpaths] at hjournal hresult
  refine ⟨by decide, ?_, by decide +kernel, ?_⟩
  · simpa [hempty] using hjournal
  · simp [hgood, hfails, failure?, Error.collect] at hresult
    simp [hfails, hresult]

end AchCourier.Ingest
