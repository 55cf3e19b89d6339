import AchCourier.Ingest.Courier
import AchCourier.Proofs.Local.Disk
import AchCourier.Proofs.Remote.Requests

/-!
# What is staged

Every name that a run has staged belongs to a file that the bank gave out in that run, and the file
on the local disk holds the bytes that came with the name last.  The three categories have
directories of their own, so none of them disturbs another.

## Main definitions

* `Latest` — the last file of its name in a list.
* `Fetched` — files of categories, read one category after the other.
* `Holding` — what a run has fetched, and where it lies.

## Main results

* `leadsDown_of_isPlainName` — plain names lead one step down.
* `read_of_writeEach`, `read_writeEach_of_notMem` — what a directory holds once files were written.
* `holding_stageCategory` — one more category is staged.
* `holding_of_download` — **what a run has staged is what it has fetched.**
-/

namespace AchCourier.Ingest

open Local (Disk EndsInName LeadsDown placeOf endsInName_child placeOf_child)

/-! ### Names -/

/-- A plain name leads one step down. -/
theorem leadsDown_of_isPlainName {name : String} (h : isPlainName name = true) :
    LeadsDown name := by
  unfold isPlainName at h
  simp only [ne_eq, Bool.and_eq_true, decide_eq_true_eq] at h
  obtain ⟨hempty, hbase⟩ := h
  unfold Remote.baseName at hbase
  dsimp only at hbase
  split at hbase
  · exact absurd hbase.symm hempty
  · next hdots =>
    rw [not_or, hbase] at hdots
    refine ⟨hempty, hdots.1, hdots.2, fun hslash => ?_⟩
    -- the base name stops at the last separator, so it holds none
    rw [← hbase, String.toList_ofList, List.mem_reverse] at hslash
    have hsep := List.all_eq_true.mp List.all_takeWhile _ hslash
    simp [Remote.isSeparator] at hsep

theorem leadsDown_directoryName (c : Category) : LeadsDown c.directoryName := by
  cases c <;> exact ⟨by decide, by decide, by decide, by decide⟩

theorem directoryName_injective {c c' : Category} (h : c.directoryName = c'.directoryName) :
    c = c' := by
  cases c <;> cases c' <;> first | rfl | exact absurd h (by decide)

/-- The directory of a run ends in a number. -/
theorem endsInName_runDirectory (staging id time : String) (run : Nat) :
    EndsInName (runDirectory staging id time run) := by
  apply endsInName_child
  have hne : Nat.toDigits 10 run ≠ [] := Nat.toDigits_ne_nil
  have hdigit := Nat.isDigit_of_mem_toDigits (by decide) (by decide) (List.getLast_mem hne)
  refine ⟨(Nat.toDigits 10 run).getLast hne, ?_, fun hslash => ?_⟩
  · simp [Nat.toList_repr, List.getLast?_cons, List.getLast?_eq_some_getLast hne]
  · rw [hslash] at hdigit
    cases hdigit

section
variable {staged : Staged} (hroot : EndsInName staged.root)
include hroot

theorem placeOf_directory (c : Category) :
    placeOf (staged.directory c) = placeOf staged.root ++ [c.directoryName] :=
  placeOf_child hroot (leadsDown_directoryName c)

/-- Files of different categories lie at different places. -/
theorem placeOf_ne_of_category {c c' : Category} (hne : c ≠ c') {name name' : String}
    (hname : LeadsDown name) :
    placeOf (Local.child (staged.directory c) name) ≠ placeOf (staged.directory c') ++ [name'] := by
  have hdir : EndsInName (staged.directory c) :=
    endsInName_child (leadsDown_directoryName c).endsInName
  rw [placeOf_child hdir hname, placeOf_directory hroot, placeOf_directory hroot]
  intro heq
  have hdirs := List.append_inj_left' heq rfl
  have hnames := List.append_inj_right' hdirs rfl
  exact hne (directoryName_injective (List.singleton_inj.mp hnames))

end

/-! ### Writing -/

/-- The file is the last one of its name in the list. -/
def Latest (f : Remote.File) (files : List Remote.File) : Prop :=
  ∃ before later, files = before ++ f :: later ∧ ∀ g ∈ later, g.name ≠ f.name

theorem Latest.mem {f : Remote.File} {files : List Remote.File} (h : Latest f files) :
    f ∈ files := by
  obtain ⟨before, later, rfl, -⟩ := h
  simp

theorem Latest.cons {f : Remote.File} {files : List Remote.File} (h : Latest f files)
    (g : Remote.File) : Latest f (g :: files) := by
  obtain ⟨before, later, rfl, hlater⟩ := h
  exact ⟨g :: before, later, rfl, hlater⟩

section
variable {disk disk' : Disk} {dir : String} {files : List Remote.File} {written : List String}

theorem writeEach_nil (h : writeEach disk dir [] = (disk', .ok written)) :
    disk' = disk ∧ written = [] :=
  ⟨(Prod.mk.inj h).1.symm, (Except.ok.inj (Prod.mk.inj h).2).symm⟩

/-- The first file is written and then the others, or it is skipped. -/
theorem writeEach_cons {file : Remote.File}
    (h : writeEach disk dir (file :: files) = (disk', .ok written)) :
    (isPlainName file.name = true ∧ ∃ mid rest,
        disk.write (Local.child dir file.name) file.content = (mid, .ok ()) ∧
        writeEach mid dir files = (disk', .ok rest) ∧ written = file.name :: rest) ∨
      (isPlainName file.name = false ∧ writeEach disk dir files = (disk', .ok written)) := by
  rw [writeEach] at h
  split at h
  · next hplain =>
    dsimp only at h
    split at h
    · cases h
    · next mid hwrite =>
      obtain ⟨rfl, hwritten⟩ := Prod.mk.inj h
      cases hrest : (writeEach mid dir files).2 with
      | error e =>
        rw [hrest] at hwritten
        cases hwritten
      | ok rest =>
        rw [hrest] at hwritten
        obtain rfl := Except.ok.inj hwritten
        exact Or.inl ⟨hplain, mid, rest, hwrite, Prod.ext rfl hrest, rfl⟩
  · next hplain => exact Or.inr ⟨by simpa using hplain, h⟩

theorem mem_written_iff (h : writeEach disk dir files = (disk', .ok written)) (name : String) :
    name ∈ written ↔ isPlainName name = true ∧ ∃ f ∈ files, f.name = name := by
  -- by induction on the files; those without a plain name are passed over
  induction files generalizing disk written with
  | nil =>
    obtain ⟨-, rfl⟩ := writeEach_nil h
    simp
  | cons file files ih =>
    rcases writeEach_cons h with ⟨hplain, mid, rest, -, hrest, rfl⟩ | ⟨hplain, hrest⟩
    · rw [List.mem_cons, ih hrest]
      constructor
      · rintro (rfl | ⟨hname, f, hf, rfl⟩)
        · exact ⟨hplain, file, List.mem_cons_self, rfl⟩
        · exact ⟨hname, f, List.mem_cons_of_mem _ hf, rfl⟩
      · rintro ⟨hname, f, hf, rfl⟩
        rcases List.mem_cons.mp hf with rfl | hf
        · exact Or.inl rfl
        · exact Or.inr ⟨hname, f, hf, rfl⟩
    · rw [ih hrest]
      constructor
      · rintro ⟨hname, f, hf, rfl⟩
        exact ⟨hname, f, List.mem_cons_of_mem _ hf, rfl⟩
      · rintro ⟨hname, f, hf, rfl⟩
        rcases List.mem_cons.mp hf with rfl | hf
        · rw [hplain] at hname
          cases hname
        · exact ⟨hname, f, hf, rfl⟩

theorem leadsDown_of_mem_written (h : writeEach disk dir files = (disk', .ok written))
    {name : String} (hname : name ∈ written) : LeadsDown name :=
  leadsDown_of_isPlainName ((mem_written_iff h name).mp hname).1

/-- What lies elsewhere is not written over. -/
theorem read_writeEach_of_notMem (hdir : EndsInName dir)
    (h : writeEach disk dir files = (disk', .ok written)) {other : String} {bytes : Bytes}
    (hother : ∀ name ∈ written, placeOf other ≠ placeOf dir ++ [name])
    (hread : disk.read other = .ok bytes) : disk'.read other = .ok bytes := by
  -- by induction on the files, none of which is written to the other place
  induction files generalizing disk written with
  | nil =>
    obtain ⟨rfl, -⟩ := writeEach_nil h
    exact hread
  | cons file files ih =>
    rcases writeEach_cons h with ⟨hplain, mid, rest, hwrite, hrest, rfl⟩ | ⟨-, hrest⟩
    · have hne : placeOf other ≠ placeOf (Local.child dir file.name) := by
        rw [placeOf_child hdir (leadsDown_of_isPlainName hplain)]
        exact hother _ List.mem_cons_self
      refine ih hrest (fun name hname => hother name (List.mem_cons_of_mem _ hname)) ?_
      exact Disk.read_write_of_ne hwrite hne hread
    · exact ih hrest hother hread

/-- **A name that was written holds the bytes that came with it last.** -/
theorem read_of_writeEach (hdir : EndsInName dir)
    (h : writeEach disk dir files = (disk', .ok written)) {name : String} (hname : name ∈ written) :
    ∃ f, Latest f files ∧ f.name = name ∧
      disk'.read (Local.child dir name) = .ok f.content := by
  induction files generalizing disk written with
  | nil =>
    obtain ⟨-, rfl⟩ := writeEach_nil h
    cases hname
  | cons file files ih =>
    rcases writeEach_cons h with ⟨hplain, mid, rest, hwrite, hrest, rfl⟩ | ⟨-, hrest⟩
    · by_cases hlater : name ∈ rest
      · obtain ⟨f, hf, hfname, hread⟩ := ih hrest hlater
        exact ⟨f, hf.cons file, hfname, hread⟩
      · -- no file behind this one has its name, so nothing is written over it
        obtain rfl := (List.mem_cons.mp hname).resolve_right hlater
        have hleads := leadsDown_of_isPlainName hplain
        refine ⟨file, ⟨[], files, rfl, fun g hg hgname => hlater ?_⟩, rfl, ?_⟩
        · exact (mem_written_iff hrest file.name).mpr ⟨hplain, g, hg, hgname⟩
        · refine read_writeEach_of_notMem hdir hrest (fun other hother heq => ?_)
            (Disk.read_of_write hwrite)
          rw [placeOf_child hdir hleads] at heq
          have hsame := List.singleton_inj.mp (List.append_inj_right' heq rfl)
          exact hlater (hsame ▸ hother)
    · obtain ⟨f, hf, hfname, hread⟩ := ih hrest hname
      exact ⟨f, hf.cons file, hfname, hread⟩

theorem saveAll_eq_ok (h : saveAll disk dir files = (disk', .ok written)) :
    writeEach (disk.makeDirectories dir).1 dir files = (disk', .ok written) := by
  unfold saveAll at h
  split at h
  · cases h
  · next mid hmake =>
    rw [hmake]
    exact h

end

/-! ### Categories -/

variable {σ : Type} {route : Route σ} {courier courier' : Courier σ} {staged staged' : Staged}

/-- Files of categories that were read from the bank, one category after the other. -/
inductive Fetched (route : Route σ) (start : Remote.Link σ) :
    List (Category × List Remote.File) → Remote.Link σ → Prop where
  /-- Nothing was read yet. -/
  | none : Fetched route start [] start
  /-- The files of one more category were read. -/
  | more {fetched : List (Category × List Remote.File)} {c : Category}
      {files : List Remote.File} {mid after : Remote.Link σ} :
      Fetched route start fetched mid →
      (route.agent.readFiles route.host route.lookup
        (c.remotePath route.agent.settings.paths)).run mid = (.ok files, after) →
      Fetched route start (fetched ++ [(c, files)]) after

/-- The files that were fetched are files that the bank gave out. -/
theorem Fetched.gave {start link : Remote.Link σ} {fetched : List (Category × List Remote.File)}
    (h : Fetched route start fetched link) :
    ∃ new, link.calls = start.calls ++ new ∧ ∀ c files, (c, files) ∈ fetched → ∀ f ∈ files,
      route.host.Gave new (Remote.join (c.remotePath route.agent.settings.paths) f.name)
        f.content := by
  -- by induction on the categories, whose calls follow each other
  induction h with
  | none => exact ⟨[], by simp, by simp⟩
  | more _ hread ih =>
    obtain ⟨first, hfirst, hearlier⟩ := ih
    obtain ⟨last, hlast, -, hgave⟩ := Remote.Agent.gave_readFiles hread
    refine ⟨first ++ last, by rw [hlast, hfirst, List.append_assoc], ?_⟩
    intro c files hmem f hf
    rcases List.mem_append.mp hmem with hmem | hmem
    · exact (hearlier c files hmem f hf).append_right last
    · obtain ⟨rfl, rfl⟩ := Prod.mk.inj (List.mem_singleton.mp hmem)
      exact (hgave f hf).append_left first

/-- A category was staged: its files were read, and saved in their directory. -/
theorem stageCategory_eq_ok {c : Category}
    (h : stageCategory route c staged courier = (courier', .ok staged')) :
    ∃ files link disk written,
      (route.agent.readFiles route.host route.lookup
        (c.remotePath route.agent.settings.paths)).run courier.link = (.ok files, link) ∧
      saveAll courier.disk (staged.directory c) files = (disk, .ok written) ∧
      courier' = { courier with link, disk } ∧ staged' = staged.withNames written c := by
  unfold stageCategory at h
  dsimp only at h
  split at h
  · cases h
  · next files link hread =>
    split at h
    · cases h
    · next disk written hsave =>
      obtain ⟨rfl, hstaged⟩ := Prod.mk.inj h
      obtain rfl := Except.ok.inj hstaged
      exact ⟨files, link, disk, written, hread, hsave, rfl, rfl⟩

@[simp] theorem Staged.root_withNames (staged : Staged) (written : List String) (c : Category) :
    (staged.withNames written c).root = staged.root := by
  cases c <;> rfl

@[simp] theorem Staged.hostname_withNames (staged : Staged) (written : List String)
    (c : Category) : (staged.withNames written c).hostname = staged.hostname := by
  cases c <;> rfl

@[simp] theorem Staged.directory_withNames (staged : Staged) (written : List String)
    (c c' : Category) : (staged.withNames written c).directory c' = staged.directory c' := by
  unfold Staged.directory
  rw [Staged.root_withNames]

theorem Staged.names_withNames (staged : Staged) (written : List String) (c c' : Category) :
    (staged.withNames written c).names c' = if c' = c then written else staged.names c' := by
  cases c <;> cases c' <;> rfl

/-- What a run has fetched so far, and that every name that it has staged is a plain one and holds
the bytes that came with it last. -/
structure Holding (route : Route σ) (start : Remote.Link σ)
    (fetched : List (Category × List Remote.File)) (staged : Staged) (courier : Courier σ) :
    Prop where
  read : Fetched route start fetched courier.link
  kept : ∀ c, ∀ name ∈ staged.names c, LeadsDown name ∧ ∃ files f, (c, files) ∈ fetched ∧
    Latest f files ∧ f.name = name ∧
      courier.disk.read (Local.child (staged.directory c) name) = .ok f.content

/-- **One more category is staged**, and what is staged of the others stays. -/
theorem holding_stageCategory {start : Remote.Link σ} {c : Category}
    {fetched : List (Category × List Remote.File)} (hroot : EndsInName staged.root)
    (hholding : Holding route start fetched staged courier)
    (h : stageCategory route c staged courier = (courier', .ok staged')) :
    ∃ files, Holding route start (fetched ++ [(c, files)]) staged' courier' := by
  obtain ⟨files, link, disk, written, hread, hsave, rfl, rfl⟩ := stageCategory_eq_ok h
  have hwrite := saveAll_eq_ok hsave
  have hdir : EndsInName (staged.directory c) :=
    endsInName_child (leadsDown_directoryName c).endsInName
  refine ⟨files, hholding.read.more hread, fun c' name hname => ?_⟩
  rw [Staged.names_withNames] at hname
  rw [Staged.directory_withNames]
  split at hname
  · -- the names of this category were all written just now
    next hsame =>
    subst hsame
    obtain ⟨f, hf, hfname, hheld⟩ := read_of_writeEach hdir hwrite hname
    exact ⟨leadsDown_of_mem_written hwrite hname, files, f, by simp, hf, hfname, hheld⟩
  · -- those of the others lie elsewhere
    next hother =>
    obtain ⟨hleads, files', f, hmem, hf, hfname, hheld⟩ := hholding.kept c' name hname
    refine ⟨hleads, files', f, List.mem_append_left _ hmem, hf, hfname, ?_⟩
    refine read_writeEach_of_notMem hdir hwrite (fun name' _ => ?_)
      (Disk.read_makeDirectories hheld)
    exact placeOf_ne_of_category hroot hother hleads

/-- What stays of a staging while its names change. -/
theorem holding_stageAll {start : Remote.Link σ} {cs : List Category}
    {fetched : List (Category × List Remote.File)} (hroot : EndsInName staged.root)
    (hholding : Holding route start fetched staged courier)
    (h : stageAll route staged courier cs = (courier', .ok staged')) :
    staged'.root = staged.root ∧ staged'.hostname = staged.hostname ∧
      ∃ fetched', Holding route start fetched' staged' courier' := by
  -- by induction on the categories: each keeps the root and what was staged before
  induction cs generalizing fetched staged courier with
  | nil =>
    obtain ⟨rfl, hstaged⟩ := Prod.mk.inj h
    obtain rfl := Except.ok.inj hstaged
    exact ⟨rfl, rfl, fetched, hholding⟩
  | cons c cs ih =>
    rw [stageAll] at h
    split at h
    · cases h
    · next courier₁ staged₁ hcategory =>
      obtain ⟨files, hholding₁⟩ := holding_stageCategory hroot hholding hcategory
      obtain ⟨_, _, _, written, -, -, -, rfl⟩ := stageCategory_eq_ok hcategory
      have hroot₁ : EndsInName (staged.withNames written c).root := by
        rw [Staged.root_withNames]
        exact hroot
      obtain ⟨hsame, hhost, hrest⟩ := ih hroot₁ hholding₁ h
      exact ⟨by simpa using hsame, by simpa using hhost, hrest⟩

/-- **What a run has staged is what it has fetched.** -/
theorem holding_of_download {staging time : String}
    (h : download route staging time courier = (courier', .ok staged)) :
    EndsInName staged.root ∧ staged.hostname = route.agent.hostname ∧
      ∃ fetched, Holding route courier.link fetched staged courier' := by
  unfold download at h
  dsimp only at h
  split at h
  · next courier₁ staged₁ hstage =>
    obtain ⟨rfl, hstaged⟩ := Prod.mk.inj h
    obtain rfl := Except.ok.inj hstaged
    let root := runDirectory staging route.agent.settings.id time courier.runs
    let empty : Staged := ⟨root, route.agent.hostname, [], [], []⟩
    have hroot : EndsInName empty.root := endsInName_runDirectory _ _ _ _
    -- at the start nothing is fetched and nothing is staged
    have hnone : Holding route courier.link [] empty { courier with runs := courier.runs + 1 } :=
      ⟨.none, fun c name hname => by cases c <;> cases hname⟩
    obtain ⟨hsame, hhost, hholding⟩ := holding_stageAll hroot hnone hstage
    exact ⟨hsame ▸ hroot, hhost, hholding⟩
  · cases h

end AchCourier.Ingest
