import AchCourier.Proofs.Ingest.Handling
import AchCourier.Proofs.Ingest.Staging
import AchCourier.Proofs.Local.Subtrees
import Mathlib.Data.List.Nodup

/-!
# Staging is confined

A run makes one directory right below the staging directory.  What it makes below the staging
directory lies in there: the directories of the categories, and in them the files with plain names,
each with the bytes that came with it.  This holds at every step of a staging, and so however far a
staging gets.

## Main definitions

* `fetch` — what the bank gives out, category by category, until something cannot be read.
* `plainNames` — the names under which files are staged.
* `Stored` — what lies in the directory of a run.
* `Complete` — a disk that holds everything that was fetched.
* `Confined` — a disk on which a run has made nothing outside of its directory.

## Main results

* `leadsDown_runName`, `run_eq_of_runName_eq` — the directory of a run lies right below the staging
  directory, and belongs to no other run.
* `Confined.makeDirectories`, `Confined.write` — the steps of a staging stay confined.
* `confined_stageAll` — **staging makes nothing outside of the directory of the run.**
* `complete_stageAll` — after a staging that succeeds everything is there that was fetched.
* `outcome_stageAll` — what comes of a staging that the disk does not hinder.
* `Confined.removed` — nothing is left of a directory that was removed.
-/

namespace AchCourier.Ingest

open Local (Disk EndsInName LeadsDown Node Place Storable child endsInName_child placeOf
  placeOf_child placeOf_child_eq)
open Remote (File Link)

/-! ### The directory of a run -/

theorem slash_notMem_safeName (id : String) : '/' ∉ (safeName id).toList := by
  unfold safeName
  dsimp only
  split
  · decide
  · -- a character that is kept is no slash, and every other one becomes an underscore
    rw [String.toList_ofList, List.mem_map]
    rintro ⟨c, -, hc⟩
    split at hc
    · next hsafe =>
      subst hc
      revert hsafe
      decide
    · cases hc

/-- The name of the directory of a run. -/
def runName (id time : String) (run : Nat) : String :=
  safeName id ++ "-" ++ time ++ "-" ++ run.repr

theorem toList_runName (id time : String) (run : Nat) :
    (runName id time run).toList =
      (safeName id ++ "-" ++ time).toList ++ '-' :: Nat.toDigits 10 run := by
  simp [runName, Nat.toList_repr]

theorem isDigit_of_mem_toDigits {run : Nat} {c : Char} (h : c ∈ Nat.toDigits 10 run) :
    c.isDigit = true :=
  Nat.isDigit_of_mem_toDigits (by decide) (by decide) h

/-- **The directory of a run lies right below the staging directory**, whatever the id of the
agent. -/
theorem leadsDown_runName (id : String) {time : String} (htime : '/' ∉ time.toList) (run : Nat) :
    LeadsDown (runName id time run) := by
  -- the dash in it rules out the names that lead elsewhere
  have hdash : '-' ∈ (runName id time run).toList := by simp [toList_runName]
  refine ⟨?_, ?_, ?_, ?_⟩
  · intro h
    rw [h] at hdash
    cases hdash
  · intro h
    rw [h] at hdash
    revert hdash
    decide
  · intro h
    rw [h] at hdash
    revert hdash
    decide
  · intro hslash
    rw [toList_runName] at hslash
    simp only [String.toList_append, List.mem_append, List.mem_cons] at hslash
    rcases hslash with ((hid | hdash') | htime') | hdash' | hrun
    · exact slash_notMem_safeName id hid
    · revert hdash'
      decide
    · exact htime htime'
    · cases hdash'
    · have hdigit := isDigit_of_mem_toDigits hrun
      revert hdigit
      decide

/-- **The directory of a run belongs to no other run**: its name ends in the number of the run. -/
theorem run_eq_of_runName_eq {id id' time time' : String} {run run' : Nat}
    (h : runName id time run = runName id' time' run') : run = run' := by
  have hsplit : ∀ (id time : String) (run : Nat), (runName id time run).toList.splitOn '-' =
      (safeName id ++ "-" ++ time).toList.splitOn '-' ++ [Nat.toDigits 10 run] := by
    intro id time run
    -- the number of the run is what stands behind the last dash
    have hdash : '-' ∉ Nat.toDigits 10 run := fun hmem => by
      have hdigit := isDigit_of_mem_toDigits hmem
      revert hdigit
      decide
    rw [toList_runName, List.splitOn_append_cons_self, List.splitOn_eq_singleton hdash]
  have hdigits : Nat.toDigits 10 run = Nat.toDigits 10 run' := by
    have hall := hsplit id time run
    rw [h, hsplit id' time' run'] at hall
    exact (List.singleton_inj.mp (List.append_inj_right' hall rfl)).symm
  calc
    run = Nat.ofDigitChars 10 (Nat.toDigits 10 run) 0 :=
      (Nat.ofDigitChars_toDigits (by decide) (by decide)).symm
    _ = Nat.ofDigitChars 10 (Nat.toDigits 10 run') 0 := by rw [hdigits]
    _ = run' := Nat.ofDigitChars_toDigits (by decide) (by decide)

/-! ### What is read at the bank -/

section
variable {σ : Type}

/-- The files of the given categories, read one category after the other until one cannot be read,
and why that one could not. -/
def fetch (route : Route σ) :
    List Category → Link σ → List (Category × List File) × Option Remote.Error
  | [], _ => ([], none)
  | c :: cs, link =>
      match (route.agent.readFiles route.host route.lookup
          (c.remotePath route.agent.settings.paths)).run link with
      | (.error e, _) => ([], some e)
      | (.ok files, link) =>
          let (more, failure) := fetch route cs link
          ((c, files) :: more, failure)

/-- The files of one category are read and saved, and then those of the others. -/
theorem stageAll_cons (route : Route σ) (staged : Staged) (courier : Courier σ) (c : Category)
    (cs : List Category) :
    stageAll route staged courier (c :: cs) =
      match (route.agent.readFiles route.host route.lookup
          (c.remotePath route.agent.settings.paths)).run courier.link with
      | (.error e, link) => ({ courier with link }, .error (.transfer e))
      | (.ok files, link) =>
          match saveAll courier.disk (staged.directory c) files with
          | (disk, .error e) => ({ courier with link, disk }, .error (.io e.path e.fault.message))
          | (disk, .ok names) =>
              stageAll route (staged.withNames names c) { courier with link, disk } cs := by
  rw [stageAll, stageCategory]
  rcases (route.agent.readFiles route.host route.lookup
      (c.remotePath route.agent.settings.paths)).run courier.link with ⟨e | files, link⟩
  · rfl
  · dsimp only
    rcases saveAll courier.disk (staged.directory c) files with ⟨disk, e | names⟩
    · rfl
    · rfl

theorem fetch_cons_of_ok {route : Route σ} {c : Category} {files : List File}
    {link after : Link σ} (cs : List Category)
    (h : (route.agent.readFiles route.host route.lookup
      (c.remotePath route.agent.settings.paths)).run link = (.ok files, after)) :
    fetch route (c :: cs) link =
      ((c, files) :: (fetch route cs after).1, (fetch route cs after).2) := by
  rw [fetch, h]

/-- If all was read, there are files for each category. -/
theorem categories_fetch {route : Route σ} {cs : List Category} {link : Link σ}
    (h : (fetch route cs link).2 = none) : (fetch route cs link).1.map (·.1) = cs := by
  induction cs generalizing link with
  | nil => rfl
  | cons c cs ih =>
    rw [fetch] at h ⊢
    split at h
    · cases h
    · exact congrArg (c :: ·) (ih h)

end

/-- The plain ones among the names of files. -/
def plainNames (files : List File) : List String :=
  (files.map (·.name)).filter isPlainName

theorem plainNames_cons_of_plain {f : File} (files : List File)
    (h : isPlainName f.name = true) : plainNames (f :: files) = f.name :: plainNames files := by
  rw [plainNames, List.map_cons, List.filter_cons_of_pos h, plainNames]

theorem plainNames_cons_of_not_plain {f : File} (files : List File)
    (h : ¬ isPlainName f.name = true) : plainNames (f :: files) = plainNames files := by
  rw [plainNames, List.map_cons, List.filter_cons_of_neg h, plainNames]

/-- What lies at the places in the directory of a run: the directory itself, one for each category,
and the files with plain names with their bytes. -/
inductive Stored (fetched : List (Category × List File)) (root : Place) : Place → Node → Prop where
  /-- The directory of the run. -/
  | root {c : Category} {files : List File} : (c, files) ∈ fetched →
      Stored fetched root root .directory
  /-- The directory of a category. -/
  | category {c : Category} {files : List File} : (c, files) ∈ fetched →
      Stored fetched root (root ++ [c.directoryName]) .directory
  /-- A file of a category. -/
  | file {c : Category} {files : List File} {f : File} : (c, files) ∈ fetched → f ∈ files →
      isPlainName f.name = true →
      Stored fetched root (root ++ [c.directoryName, f.name]) (.file f.content)

namespace Stored

variable {fetched : List (Category × List File)} {root p : Place} {node : Node}

theorem mono {more : List (Category × List File)} (h : Stored fetched root p node)
    (hsub : fetched ⊆ more) : Stored more root p node := by
  cases h with
  | root hc => exact .root (hsub hc)
  | category hc => exact .category (hsub hc)
  | file hc hf hplain => exact .file (hsub hc) hf hplain

/-- What lies in the directory of a run is a directory, or a file in the directory of a category. -/
theorem directory_or_two_below (h : Stored fetched root p node) :
    node = .directory ∧ p.length < root.length + 2 ∨
      (∃ content, node = .file content) ∧ p.length = root.length + 2 := by
  cases h with
  | root => exact Or.inl ⟨rfl, by simp⟩
  | category => exact Or.inl ⟨rfl, by simp⟩
  | file => exact Or.inr ⟨⟨_, rfl⟩, by simp⟩

/-- A file of a category was fetched with it. -/
theorem category_of_two_below {c : Category} {n : String}
    (h : Stored fetched root (root ++ [c.directoryName, n]) node) :
    ∃ files, (c, files) ∈ fetched := by
  generalize hp : root ++ [c.directoryName, n] = p at h
  cases h with
  | root => simp at hp
  | category => simp at hp
  | file hc =>
    have hnames := (List.cons.inj (List.append_cancel_left hp)).1
    exact ⟨_, directoryName_injective hnames ▸ hc⟩

end Stored

theorem storable_directoryName (c : Category) : Storable c.directoryName := by
  cases c <;> exact ⟨by decide, by decide⟩

/-- Everything that was fetched is there. -/
def Complete (fetched : List (Category × List File)) (root : Place) (disk : Disk) : Prop :=
  ∀ ⦃p node⦄, Stored fetched root p node → disk.node? p = some node

/-! ### Writing files of a category -/

theorem written_eq_plainNames {disk disk' : Disk} {dir : String} {files : List File}
    {written : List String} (h : writeEach disk dir files = (disk', .ok written)) :
    written = plainNames files := by
  induction files generalizing disk written with
  | nil => exact (writeEach_nil h).2
  | cons f files ih =>
    rcases writeEach_cons h with ⟨hplain, mid, rest, -, hrest, rfl⟩ | ⟨hplain, hrest⟩
    · rw [ih hrest, plainNames_cons_of_plain files hplain]
    · rw [ih hrest, plainNames_cons_of_not_plain files (by simp [hplain])]

theorem keepsDirectories_writeEach (disk : Disk) (dir : String) (files : List File) :
    Disk.KeepsDirectories disk (writeEach disk dir files).1 := by
  -- by induction on the files, whether writing one works or not
  induction files generalizing disk with
  | nil => exact .refl disk
  | cons f files ih =>
    have hkeeps := Disk.keepsDirectories_write_fst disk (child dir f.name) f.content
    rw [writeEach]
    split
    · dsimp only
      split
      · next hwrite =>
        rw [hwrite] at hkeeps
        exact hkeeps
      · next hwrite =>
        rw [hwrite] at hkeeps
        exact hkeeps.trans (ih _)
    · exact ih disk

/-- Only what lies directly in the directory is written over. -/
theorem node?_writeEach_cases {dir : String} (hdir : EndsInName dir) (disk : Disk)
    (files : List File) (p : Place) :
    (writeEach disk dir files).1.node? p = disk.node? p ∨
      ∃ f ∈ files, p = placeOf dir ++ [f.name] := by
  induction files generalizing disk with
  | nil => exact Or.inl rfl
  | cons f files ih =>
    -- behind the first file nothing but the names of the others is touched
    have hrest : ∀ mid : Disk, (writeEach mid dir files).1.node? p = mid.node? p ∨
        ∃ g ∈ f :: files, p = placeOf dir ++ [g.name] := by
      intro mid
      rcases ih mid with hsame | ⟨g, hg, hp⟩
      · exact Or.inl hsame
      · exact Or.inr ⟨g, List.mem_cons_of_mem _ hg, hp⟩
    rw [writeEach]
    split
    · next hplain =>
      have hfirst : (disk.write (child dir f.name) f.content).1.node? p = disk.node? p ∨
          ∃ g ∈ f :: files, p = placeOf dir ++ [g.name] := by
        rcases Disk.node?_write_cases disk (child dir f.name) f.content p with hsame | ⟨hp, -⟩
        · exact Or.inl hsame
        · rw [placeOf_child hdir (leadsDown_of_isPlainName hplain)] at hp
          exact Or.inr ⟨f, List.mem_cons_self, hp⟩
      dsimp only
      split
      · next hwrite =>
        rw [hwrite] at hfirst
        exact hfirst
      · next mid hwrite =>
        rw [hwrite] at hfirst
        exact hfirst.elim (fun hsame => (hrest mid).imp_left fun h => h.trans hsame) Or.inr
    · exact hrest disk

/-! ### Confinement -/

/-- On the disk a run has made nothing outside of its directory, and nothing inside that was not
fetched: it began with the disk `start`, and its directory is called `name`. -/
structure Confined (start : Disk) (staging name : String) (fetched : List (Category × List File))
    (disk : Disk) : Prop where
  tidy : disk.Tidy staging
  outside : Disk.SameBut (placeOf staging) (placeOf (child staging name)) start disk
  inside : ∀ ⦃p⦄, placeOf (child staging name) <+: p → ∀ ⦃node⦄, disk.node? p = some node →
    Stored fetched (placeOf (child staging name)) p node
  /-- The directory of the run is not there yet, or it is found. -/
  found : disk.Vacant (placeOf (child staging name)) ∨
    disk.follow (child staging name) = .ok (placeOf (child staging name)) ∧
      disk.node? (placeOf (child staging name)) = some .directory

theorem removeStaging_fst (disk : Disk) (root : String) :
    (removeStaging disk root).1 = (disk.removeTree root).1 := by
  unfold removeStaging
  split
  · next h => rw [h]
  · rfl

section
variable {start disk disk' : Disk} {staging name : String} {c : Category} {files : List File}
  {fetched : List (Category × List File)} (hname : LeadsDown name)
include hname

/-- The directory of a run and what is in it lies below the staging directory. -/
theorem below_of_prefix {p : Place} (h : placeOf (child staging name) <+: p) :
    placeOf staging <+: p ∧ p ≠ placeOf staging := by
  rw [placeOf_child_eq staging hname] at h
  refine ⟨(List.prefix_append _ _).trans h, ?_⟩
  rintro rfl
  have hlength := h.length_le
  rw [List.length_append, List.length_singleton] at hlength
  omega

/-- The directories and files of a category. -/
theorem placeOf_category (c : Category) :
    placeOf (child (child staging name) c.directoryName) =
      placeOf (child staging name) ++ [c.directoryName] :=
  placeOf_child (endsInName_child hname.endsInName) (leadsDown_directoryName c)

theorem placeOf_file (c : Category) {n : String} (hn : LeadsDown n) :
    placeOf (child (child (child staging name) c.directoryName) n) =
      placeOf (child staging name) ++ [c.directoryName, n] := by
  rw [placeOf_child (endsInName_child (leadsDown_directoryName c).endsInName) hn,
    placeOf_category hname, List.append_assoc, List.singleton_append]

omit hname in
theorem Confined.of_vacant (htidy : start.Tidy staging)
    (hvacant : start.Vacant (placeOf (child staging name))) :
    Confined start staging name [] start where
  tidy := htidy
  outside := .refl _ _ _
  inside := fun p hp node hnode => by rw [hvacant p hp] at hnode; cases hnode
  found := Or.inl hvacant

omit hname in
theorem Confined.mono {more : List (Category × List File)}
    (h : Confined start staging name fetched disk) (hsub : fetched ⊆ more) :
    Confined start staging name more disk :=
  { h with inside := fun _ hp _ hnode => (h.inside hp hnode).mono hsub }

omit hname in
/-- If anything is there of the directory of the run, the directory itself is found. -/
theorem Confined.found_of_node? (h : Confined start staging name fetched disk) {p : Place}
    {node : Node} (hp : placeOf (child staging name) <+: p) (hnode : disk.node? p = some node) :
    disk.follow (child staging name) = .ok (placeOf (child staging name)) ∧
      disk.node? (placeOf (child staging name)) = some .directory := by
  refine h.found.resolve_left fun hvacant => ?_
  rw [hvacant p hp] at hnode
  cases hnode

/-- Making the directory of a category. -/
theorem Confined.makeDirectories (h : Confined start staging name fetched disk)
    (hc : (c, files) ∈ fetched) :
    Confined start staging name fetched
      (disk.makeDirectories (child (child staging name) c.directoryName)).1 := by
  have hkeeps := Disk.keepsDirectories_makeDirectories disk
    (child (child staging name) c.directoryName)
  have hsub := leadsDown_directoryName c
  refine ⟨hkeeps.tidy h.tidy, ?_, ?_, ?_⟩
  · refine h.outside.trans fun p hbelow hne hout => ?_
    refine (Disk.node?_makeDirectories_child h.tidy hname hsub hbelow hne).resolve_right ?_
    -- what was made is the directory of the run or the one of the category, both inside
    rintro ⟨-, rfl | rfl⟩
    · exact hout List.prefix_rfl
    · exact hout (List.prefix_append _ _)
  · intro p hp node hnode
    obtain ⟨hbelow, hne⟩ := below_of_prefix hname hp
    -- a directory that is new has one of the two names
    rcases Disk.node?_makeDirectories_child h.tidy hname hsub hbelow hne with
      hsame | ⟨hmade, rfl | rfl⟩
    · exact h.inside hp (hsame ▸ hnode)
    · obtain rfl := Option.some.inj (hmade.symm.trans hnode)
      exact .root hc
    · obtain rfl := Option.some.inj (hmade.symm.trans hnode)
      exact .category hc
  · rcases Disk.makeDirectories_child_cases h.tidy hname hsub rfl with hfound | hsame
    · exact Or.inr hfound
    · refine h.found.imp (fun hvacant p hp => ?_) fun ⟨hfollow, hnode⟩ =>
        ⟨hkeeps.follow hfollow, hkeeps _ hnode⟩
      obtain ⟨hbelow, hne⟩ := below_of_prefix hname hp
      rw [hsame p hbelow hne]
      exact hvacant p hp

/-- Writing a file of a category. -/
theorem Confined.write (h : Confined start staging name fetched disk) (hc : (c, files) ∈ fetched)
    {f : File} (hf : f ∈ files) (hplain : isPlainName f.name = true) :
    Confined start staging name fetched (disk.write
      (child (child (child staging name) c.directoryName) f.name) f.content).1 := by
  have hkeeps := Disk.keepsDirectories_write_fst disk
    (child (child (child staging name) c.directoryName) f.name) f.content
  have hleads := leadsDown_of_isPlainName hplain
  have hplace : placeOf (child (child (child staging name) c.directoryName) f.name) =
      placeOf (child staging name) ++ [c.directoryName, f.name] := placeOf_file hname c hleads
  have hcases := fun p => Disk.node?_write_cases disk
    (child (child (child staging name) c.directoryName) f.name) f.content p
  refine ⟨hkeeps.tidy h.tidy, ?_, ?_, ?_⟩
  · refine h.outside.trans fun p hbelow hne hout => (hcases p).resolve_right ?_
    rintro ⟨rfl, -⟩
    rw [hplace] at hout
    exact hout (List.prefix_append _ _)
  · intro p hp node hnode
    rcases hcases p with hsame | ⟨rfl, hwritten⟩
    · exact h.inside hp (hsame ▸ hnode)
    · obtain rfl := Option.some.inj (hwritten.symm.trans hnode)
      rw [hplace]
      exact .file hc hf hplain
  · rcases hwrite : disk.write
        (child (child (child staging name) c.directoryName) f.name) f.content with ⟨after, result⟩
    rw [hwrite] at hkeeps
    cases result with
    | error fault =>
      rw [Disk.write_eq_error hwrite]
      exact h.found
    | ok =>
      -- a file is only written into a directory, so the directory of the run is there
      have hdir : EndsInName (child (child staging name) c.directoryName) :=
        endsInName_child (leadsDown_directoryName c).endsInName
      obtain ⟨-, hthere⟩ := Disk.follow_child hdir hleads (Disk.write_eq_ok hwrite).1
      rw [placeOf_category hname] at hthere
      obtain ⟨hfollow, hnode⟩ := h.found_of_node? (List.prefix_append _ _) hthere
      exact Or.inr ⟨hkeeps.follow hfollow, hkeeps _ hnode⟩

/-- Writing files of a category. -/
theorem Confined.writeEach (h : Confined start staging name fetched disk)
    (hc : (c, files) ∈ fetched) {part : List File} (hsub : part ⊆ files) :
    Confined start staging name fetched
      (writeEach disk (child (child staging name) c.directoryName) part).1 := by
  -- by induction on the files, since each of those that are written is one that was fetched
  induction part generalizing disk with
  | nil => exact h
  | cons f part ih =>
    obtain ⟨hf, hrest⟩ := List.cons_subset.mp hsub
    rw [Ingest.writeEach]
    split
    · next hplain =>
      have hwritten := h.write hname hc hf hplain
      dsimp only
      split
      · next hwrite =>
        rw [hwrite] at hwritten
        exact hwritten
      · next hwrite =>
        rw [hwrite] at hwritten
        exact ih hwritten hrest
    · exact ih h hrest

/-- Staging the files of a category. -/
theorem Confined.saveAll (h : Confined start staging name fetched disk)
    (hc : (c, files) ∈ fetched) :
    Confined start staging name fetched
      (saveAll disk (child (child staging name) c.directoryName) files).1 := by
  have hmade := h.makeDirectories hname hc
  unfold Ingest.saveAll
  split
  · next hmake =>
    rw [hmake] at hmade
    exact hmade
  · next hmake =>
    rw [hmake] at hmade
    exact hmade.writeEach hname hc (List.Subset.refl _)

/-- **Nothing is left of a directory that was removed**, and nothing else is touched. -/
theorem Confined.removed (h : Confined start staging name fetched disk) :
    (removeStaging disk (child staging name)).1.Vacant (placeOf (child staging name)) ∧
      Disk.SameBut (placeOf staging) (placeOf (child staging name)) start
        (removeStaging disk (child staging name)).1 := by
  rw [removeStaging_fst]
  have hcases := Disk.node?_removeTree_cases disk (child staging name)
  refine ⟨?_, h.outside.trans fun p _ _ hout => (hcases p).resolve_right fun hin => hout hin.1⟩
  -- nothing of the run was ever there, or its directory is and goes with all that it holds
  rcases h.found with hvacant | ⟨hfollow, hnode⟩
  · intro p hp
    rcases hcases p with hsame | ⟨-, hnone⟩
    · rw [hsame]
      exact hvacant p hp
    · exact hnone
  · refine Disk.vacant_removeTree hfollow hnode ?_
    rw [placeOf_child_eq staging hname]
    simp

/-! ### Staging all categories -/

variable {σ : Type} {route : Route σ} {courier courier' : Courier σ} {staged staged' : Staged}
  {cs : List Category}

/-- **Staging makes nothing outside of the directory of the run**, whatever comes of it. -/
theorem confined_stageAll (hroot : staged.root = child staging name)
    (h : Confined start staging name fetched courier.disk) :
    Confined start staging name (fetched ++ (fetch route cs courier.link).1)
      (stageAll route staged courier cs).1.disk := by
  -- by induction on the categories: what is fetched grows by one of them in each step
  induction cs generalizing staged courier fetched with
  | nil => simpa [stageAll, fetch] using h
  | cons c cs ih =>
    rw [stageAll_cons, fetch]
    split
    · simpa using h
    · next files link hread =>
      have hsaved := (h.mono (List.subset_append_left fetched [(c, files)])).saveAll hname
        (List.mem_append_right _ List.mem_cons_self)
      rw [Staged.directory, hroot]
      have hall : fetched ++ (c, files) :: (fetch route cs link).1 =
          fetched ++ [(c, files)] ++ (fetch route cs link).1 := by simp
      rw [hall]
      split
      · next hsave =>
        rw [hsave] at hsaved
        exact hsaved.mono (List.subset_append_left _ _)
      · next disk written hsave =>
        rw [hsave] at hsaved
        exact @ih _ { courier with link, disk } _ (by rw [Staged.root_withNames, hroot]) hsaved

omit hname in
/-- A staging succeeds only if everything could be read, and its names are the plain ones. -/
theorem names_stageAll (hcs : cs.Nodup)
    (h : stageAll route staged courier cs = (courier', .ok staged')) :
    (fetch route cs courier.link).2 = none ∧ staged'.root = staged.root ∧
      (∀ c files, (c, files) ∈ (fetch route cs courier.link).1 →
        staged'.names c = plainNames files) ∧
      ∀ c ∉ cs, staged'.names c = staged.names c := by
  induction cs generalizing staged courier with
  | nil =>
    obtain ⟨-, hstaged⟩ := Prod.mk.inj h
    obtain rfl := Except.ok.inj hstaged
    exact ⟨rfl, rfl, by simp [fetch], fun _ _ => rfl⟩
  | cons c cs ih =>
    obtain ⟨hc, hcs'⟩ := List.nodup_cons.mp hcs
    rw [stageAll_cons] at h
    split at h
    · cases h
    · next files link hread =>
      rw [fetch_cons_of_ok cs hread]
      split at h
      · cases h
      · next disk written hsave =>
        obtain ⟨hall, hroot, hnames, hother⟩ := ih hcs' h
        have hwritten : written = plainNames files :=
          written_eq_plainNames (saveAll_eq_ok hsave)
        refine ⟨hall, by rw [hroot, Staged.root_withNames], fun c' files' hmem => ?_,
          fun c' hc' => ?_⟩
        · -- a category is staged once, so its names are not overwritten later on
          rcases List.mem_cons.mp hmem with heq | hmem
          · obtain ⟨rfl, rfl⟩ := Prod.mk.inj heq
            rw [hother _ hc, Staged.names_withNames, if_pos rfl, hwritten]
          · exact hnames c' files' hmem
        · obtain ⟨hne, hnotin⟩ := not_or.mp fun hmem => hc' (List.mem_cons.mpr hmem)
          rw [hother c' hnotin, Staged.names_withNames, if_neg hne]

omit hname in
/-- Once files are staged, the directory that they are in is there. -/
theorem node?_of_saveAll {dir : String} (hdir : dir ≠ "") {written : List String}
    (hsave : saveAll disk dir files = (disk', .ok written)) :
    disk'.node? (placeOf dir) = some .directory := by
  have hwrite := saveAll_eq_ok hsave
  unfold saveAll at hsave
  split at hsave
  · cases hsave
  · next mid hmake =>
    obtain ⟨-, hmade⟩ := Disk.follow_of_makeDirectories hdir hmake
    have hkeeps := keepsDirectories_writeEach mid dir files _ hmade
    rw [hmake] at hwrite
    rwa [hwrite] at hkeeps

/-- Files of one category are not written over those of others. -/
theorem Stored.kept {written : List String} {p : Place} {node : Node}
    (h : Stored fetched (placeOf (child staging name)) p node) (hnode : disk.node? p = some node)
    (hnew : ∀ files', (c, files') ∉ fetched)
    (hsave : saveAll disk (child (child staging name) c.directoryName) files =
      (disk', .ok written)) : disk'.node? p = some node := by
  have hdir : EndsInName (child (child staging name) c.directoryName) :=
    endsInName_child (leadsDown_directoryName c).endsInName
  have hcases := node?_writeEach_cases hdir
    (disk.makeDirectories (child (child staging name) c.directoryName)).1 files p
  rw [saveAll_eq_ok hsave] at hcases
  -- a new file lies below its own category, so it cannot be one that was stored before
  rcases hcases with hsame | ⟨f, -, rfl⟩
  · exact hsame.trans (Disk.node?_makeDirectories hnode)
  · rw [placeOf_category hname, List.append_assoc, List.singleton_append] at h
    obtain ⟨files', hmem⟩ := h.category_of_two_below
    exact absurd hmem (hnew files')

/-- Once the files of a category have been staged as well, everything is there that was. -/
theorem Complete.saveAll {written : List String}
    (h : Complete fetched (placeOf (child staging name)) disk)
    (hconfined : Confined start staging name fetched disk)
    (hsave : saveAll disk (child (child staging name) c.directoryName) files =
      (disk', .ok written))
    (hnew : ∀ files', (c, files') ∉ fetched) (hdistinct : (files.map (·.name)).Nodup) :
    Complete (fetched ++ [(c, files)]) (placeOf (child staging name)) disk' := by
  have hdir : EndsInName (child (child staging name) c.directoryName) :=
    endsInName_child (leadsDown_directoryName c).endsInName
  have hthere := node?_of_saveAll hdir.ne_empty hsave
  rw [placeOf_category hname] at hthere
  have hafter := (hconfined.mono (List.subset_append_left fetched [(c, files)])).saveAll hname
    (List.mem_append_right _ List.mem_cons_self)
  rw [hsave] at hafter
  have hwrite := saveAll_eq_ok hsave
  -- what is to be stored was stored before, or belongs to this category
  intro p node hstored
  cases hstored with
  | root => exact (hafter.found_of_node? (List.prefix_append _ _) hthere).2
  | category hc =>
    rcases List.mem_append.mp hc with hc | hc
    · exact Stored.kept hname (.category hc) (h (.category hc)) hnew hsave
    · obtain ⟨rfl, -⟩ := Prod.mk.inj (List.mem_singleton.mp hc)
      exact hthere
  | file hc hf hplain =>
    rcases List.mem_append.mp hc with hc | hc
    · exact Stored.kept hname (.file hc hf hplain) (h (.file hc hf hplain)) hnew hsave
    · obtain ⟨rfl, rfl⟩ := Prod.mk.inj (List.mem_singleton.mp hc)
      obtain ⟨f', hf', hsame, hread⟩ := read_of_writeEach hdir hwrite
        ((mem_written_iff hwrite _).mpr ⟨hplain, _, hf, rfl⟩)
      obtain rfl := List.inj_on_of_nodup_map hdistinct hf'.mem hf hsame
      rw [← placeOf_file hname _ (leadsDown_of_isPlainName hplain)]
      exact (Disk.read_eq_ok_iff.mp hread).2

/-- **After a staging that succeeds everything is there that was fetched.** -/
theorem complete_stageAll (hroot : staged.root = child staging name) (hcs : cs.Nodup)
    (hconfined : Confined start staging name fetched courier.disk)
    (hcomplete : Complete fetched (placeOf (child staging name)) courier.disk)
    (hnew : ∀ c ∈ cs, ∀ files, (c, files) ∉ fetched)
    (hdistinct : ∀ c files, (c, files) ∈ (fetch route cs courier.link).1 →
      (files.map (·.name)).Nodup)
    (h : stageAll route staged courier cs = (courier', .ok staged')) :
    Complete (fetched ++ (fetch route cs courier.link).1) (placeOf (child staging name))
      courier'.disk := by
  -- by induction on the categories; none of those behind was fetched before
  induction cs generalizing staged courier fetched with
  | nil =>
    obtain ⟨rfl, -⟩ := Prod.mk.inj h
    simpa [fetch] using hcomplete
  | cons c cs ih =>
    obtain ⟨hc, hcs'⟩ := List.nodup_cons.mp hcs
    rw [stageAll_cons] at h
    split at h
    · cases h
    · next files link hread =>
      rw [fetch_cons_of_ok cs hread] at hdistinct ⊢
      split at h
      · cases h
      · next disk written hsave =>
        rw [Staged.directory, hroot] at hsave
        have hsaved := hcomplete.saveAll hname hconfined hsave (hnew c List.mem_cons_self)
          (hdistinct c files List.mem_cons_self)
        have hafter := (hconfined.mono (List.subset_append_left fetched [(c, files)])).saveAll hname
          (List.mem_append_right _ List.mem_cons_self)
        rw [hsave] at hafter
        have hrest := @ih _ { courier with link, disk } _
          (by rw [Staged.root_withNames, hroot]) hcs' hafter hsaved (fun c' hc' files' hmem => ?_)
          (fun c' files' hmem => hdistinct c' files' (List.mem_cons_of_mem _ hmem)) h
        · simpa using hrest
        · -- a category does not come twice
          rcases List.mem_append.mp hmem with hmem | hmem
          · exact hnew c' (List.mem_cons_of_mem _ hc') files' hmem
          · exact hc ((Prod.mk.inj (List.mem_singleton.mp hmem)).1 ▸ hc')

/-- Where the files of a category go, there stands no directory. -/
theorem Confined.not_directory (h : Confined start staging name fetched disk) (c : Category)
    (n : String) :
    disk.node? (placeOf (child (child staging name) c.directoryName) ++ [n]) ≠
      some .directory := by
  intro hdirectory
  rw [placeOf_category hname, List.append_assoc] at hdirectory
  have hstored := h.inside (List.prefix_append _ _) hdirectory
  rcases hstored.directory_or_two_below with ⟨-, hlength⟩ | ⟨⟨_, hfile⟩, -⟩
  · simp at hlength
  · cases hfile

omit hname in
/-- Where the directory of a category goes, there stands no file. -/
theorem Confined.not_file (h : Confined start staging name fetched disk) (c : Category)
    (content : Bytes) :
    disk.node? (placeOf (child staging name) ++ [c.directoryName]) ≠ some (.file content) := by
  intro hfile
  have hstored := h.inside (List.prefix_append _ _) hfile
  rcases hstored.directory_or_two_below with ⟨hdirectory, -⟩ | ⟨-, hlength⟩
  · cases hdirectory
  · simp at hlength

/-- Where names are short enough, files are written. -/
theorem Confined.writeEach_ok (h : Confined start staging name fetched disk)
    (hc : (c, files) ∈ fetched) {part : List File} (hsub : part ⊆ files)
    (hstorable : ∀ f ∈ part, isPlainName f.name = true → Storable f.name)
    (hfollow : disk.follow (child (child staging name) c.directoryName) =
      .ok (placeOf (child (child staging name) c.directoryName)))
    (hnode : disk.node? (placeOf (child (child staging name) c.directoryName)) =
      some .directory) :
    (Ingest.writeEach disk (child (child staging name) c.directoryName) part).2 =
      .ok (plainNames part) := by
  have hdir : EndsInName (child (child staging name) c.directoryName) :=
    endsInName_child (leadsDown_directoryName c).endsInName
  -- by induction on the files; the directory is kept, so every plain name can be written
  induction part generalizing disk with
  | nil => rfl
  | cons f part ih =>
    obtain ⟨hf, hrest⟩ := List.cons_subset.mp hsub
    obtain ⟨hshort, hshorts⟩ := List.forall_mem_cons.mp hstorable
    rw [Ingest.writeEach]
    split
    · next hplain =>
      have hleads := leadsDown_of_isPlainName hplain
      have hwritten := Disk.write_child_ok hdir hleads (hshort hplain) hfollow hnode
        (h.not_directory hname c f.name) f.content
      have hafter := h.write hname hc hf hplain
      have hkeeps := Disk.keepsDirectories_write_fst disk
        (child (child (child staging name) c.directoryName) f.name) f.content
      dsimp only
      split
      · next hwrite =>
        rw [hwrite] at hwritten
        cases hwritten
      · next mid hwrite =>
        rw [hwrite] at hafter hkeeps
        have hothers := ih hafter hrest hshorts (hkeeps.follow hfollow) (hkeeps _ hnode)
        rw [hothers, plainNames_cons_of_plain part hplain]
        rfl
    · next hplain =>
      rw [ih h hrest hshorts hfollow hnode, plainNames_cons_of_not_plain part hplain]

/-- Where the directory of the run can be made and names are short enough, a category is staged. -/
theorem Confined.saveAll_ok (h : Confined start staging name fetched disk)
    (hc : (c, files) ∈ fetched) (hmake : (disk.makeDirectories (child staging name)).2 = .ok ())
    (hstorable : ∀ f ∈ files, isPlainName f.name = true → Storable f.name) :
    (Ingest.saveAll disk (child (child staging name) c.directoryName) files).2 =
        .ok (plainNames files) ∧
      ((Ingest.saveAll disk (child (child staging name) c.directoryName) files).1.makeDirectories
        (child staging name)).2 = .ok () := by
  have hroot : EndsInName (child staging name) := endsInName_child hname.endsInName
  have hsub := leadsDown_directoryName c
  have hmade := Disk.makeDirectories_child_ok hroot hsub (storable_directoryName c) hmake
    (h.not_file c)
  have hmid := h.makeDirectories hname hc
  have hafter := h.saveAll hname hc
  unfold Ingest.saveAll at hafter ⊢
  split
  · next hfails =>
    rw [hfails] at hmade
    cases hmade
  · next mid hmakes =>
    rw [hmakes] at hmid hafter
    obtain ⟨hfollow, hnode⟩ :=
      Disk.follow_of_makeDirectories (endsInName_child hsub.endsInName).ne_empty hmakes
    refine ⟨hmid.writeEach_ok hname hc (List.Subset.refl _) hstorable hfollow hnode, ?_⟩
    -- the directory of the run is there, so it can be made again
    have hkept := keepsDirectories_writeEach mid
      (child (child staging name) c.directoryName) files _ hnode
    rw [placeOf_category hname] at hkept
    obtain ⟨hfound, hthere⟩ := hafter.found_of_node? (List.prefix_append _ _) hkept
    rw [Disk.makeDirectories_of_follow hfound hthere]

/-- **What comes of a staging** that the disk does not hinder: it succeeds if everything can be
read, and fails with the reason if not. -/
theorem outcome_stageAll (hroot : staged.root = child staging name)
    (h : Confined start staging name fetched courier.disk)
    (hmake : (courier.disk.makeDirectories (child staging name)).2 = .ok ())
    (hstorable : ∀ c files, (c, files) ∈ (fetch route cs courier.link).1 →
      ∀ f ∈ files, isPlainName f.name = true → Storable f.name) :
    (∀ e, (fetch route cs courier.link).2 = some e →
        (stageAll route staged courier cs).2 = .error (.transfer e)) ∧
      ((fetch route cs courier.link).2 = none →
        ∃ staged', (stageAll route staged courier cs).2 = .ok staged') := by
  -- by induction on the categories: with room on the disk only the bank can fail
  induction cs generalizing staged courier fetched with
  | nil => exact ⟨by simp [fetch], fun _ => ⟨staged, rfl⟩⟩
  | cons c cs ih =>
    rw [stageAll_cons]
    split
    · next e link hread =>
      rw [fetch, hread]
      exact ⟨fun e' he' => by rw [Option.some.inj he'], by simp⟩
    · next files link hread =>
      rw [fetch_cons_of_ok cs hread] at hstorable ⊢
      have hmem : (c, files) ∈ fetched ++ [(c, files)] := by simp
      have hmore := h.mono (List.subset_append_left fetched [(c, files)])
      have hsaved := hmore.saveAll hname hmem
      obtain ⟨hnames, hmake'⟩ := hmore.saveAll_ok hname hmem hmake
        (hstorable c files List.mem_cons_self)
      rw [Staged.directory, hroot]
      split
      · next hfails =>
        rw [hfails] at hnames
        cases hnames
      · next disk written hsave =>
        rw [hsave] at hsaved hmake'
        exact @ih _ { courier with link, disk } _ (by rw [Staged.root_withNames, hroot])
          hsaved hmake' fun c' files' hmem' => hstorable c' files' (List.mem_cons_of_mem _ hmem')

end

end AchCourier.Ingest
