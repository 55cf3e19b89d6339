import AchCourier.Ingest.Desk
import AchCourier.Proofs.Local.Disk
import AchCourier.Proofs.Text.ByteOrder
import Mathlib.Data.List.Permutation

/-!
# The files in a directory

Which files are handled when a directory is, and in which order, is settled by the disk: they are
the files that lie one step down from the directory, in byte order of their names.  What lies in
directories further down has no part in it, and neither has the order in which the disk lists what
it holds.

## Main definitions

* `NamesIn` — the names of the files in a directory, in order.

## Main results

* `fileNames_perm`, `pairwise_fileNames`, `fileNames_of_list` — the names that the desk goes by.
* `NamesIn.unique`, `exists_namesIn` — a directory has its names, and no others.
* `processDirectory_cases` — **a directory is handled file by file, by these names.**
-/

namespace AchCourier.Ingest

open Local (Disk Node)

/-! ### The names that the desk goes by -/

/-- Every file is named once. -/
theorem fileNames_perm (contents : List (String × Node)) :
    (fileNames contents).Perm ((contents.filter fun c => c.2 ≠ .directory).map (·.1)) :=
  List.mergeSort_perm _ _

/-- The names are in byte order. -/
theorem pairwise_fileNames (contents : List (String × Node)) :
    (fileNames contents).Pairwise fun a b => Utf8.ofString a ≤ Utf8.ofString b := by
  refine (List.pairwise_mergeSort (fun a b c hab hbc => ?_) (fun a b => ?_) _).imp fun h => ?_
  · simp only [decide_eq_true_eq] at hab hbc ⊢
    exact String.le_trans hab hbc
  · simpa using String.le_total a b
  · exact Utf8.ofString_le_ofString_iff.mpr (of_decide_eq_true h)

/-- On a disk with one entry for each place the names of a directory are those of the files that
lie one step down from it, and none is named twice. -/
theorem fileNames_of_list {disk : Disk} {dir : String} {contents : List (String × Node)}
    (hdisk : disk.nodes.keys.Nodup) (hlist : disk.list dir = .ok contents) :
    (fileNames contents).Nodup ∧ ∀ name, name ∈ fileNames contents ↔
      ∃ bytes, disk.node? (Local.placeOf dir ++ [name]) = some (.file bytes) := by
  obtain rfl : contents = disk.inside (Local.placeOf dir) := Disk.eq_inside_of_list hlist
  constructor
  · -- the names are those of nodes at places of their own
    rw [(fileNames_perm _).nodup_iff]
    exact (Disk.nodup_inside hdisk _).sublist (List.filter_sublist.map _)
  · intro name
    rw [(fileNames_perm _).mem_iff, List.mem_map]
    constructor
    · rintro ⟨⟨name, node⟩, hmem, rfl⟩
      obtain ⟨hmem, hnode⟩ := List.mem_filter.mp hmem
      rw [Disk.mem_inside_iff hdisk] at hmem
      cases node with
      | directory => simp at hnode
      | file bytes => exact ⟨bytes, hmem⟩
    · rintro ⟨bytes, hnode⟩
      exact ⟨(name, .file bytes), List.mem_filter.mpr ⟨Disk.mem_inside hnode, by simp⟩, rfl⟩

theorem mem_fileNames {contents : List (String × Node)} {name : String} {bytes : Bytes}
    (h : (name, .file bytes) ∈ contents) : name ∈ fileNames contents := by
  unfold fileNames
  rw [List.mem_mergeSort, List.mem_map]
  exact ⟨_, List.mem_filter.mpr ⟨h, by simp⟩, rfl⟩

/-! ### The names in a directory -/

/-- The names of the files directly inside the directory at a path, in byte order. -/
structure NamesIn (disk : Disk) (dir : String) (names : List String) : Prop where
  /-- Each file of the listing is named, and no directory is. -/
  listed : ∀ contents, disk.list dir = .ok contents →
    names.Perm ((contents.filter fun c => c.2 ≠ .directory).map (·.1))
  /-- On a disk with one entry for each place these are the files that lie one step down from the
  directory, each once. -/
  placed : disk.nodes.keys.Nodup → ∀ place, disk.follow dir = .ok place →
    disk.node? place = some .directory →
    names.Nodup ∧ ∀ name, name ∈ names ↔ ∃ bytes, disk.node? (place ++ [name]) = some (.file bytes)
  /-- What cannot be listed has no files. -/
  unlisted : ∀ fault, disk.list dir = .error fault → names = []
  ordered : names.Pairwise fun a b => Utf8.ofString a ≤ Utf8.ofString b

/-- The desk goes by the names in the directory. -/
theorem namesIn_fileNames {disk : Disk} {dir : String} {contents : List (String × Node)}
    (hlist : disk.list dir = .ok contents) : NamesIn disk dir (fileNames contents) where
  listed := by
    intro other hother
    obtain rfl := Except.ok.inj (hlist.symm.trans hother)
    exact fileNames_perm contents
  placed := by
    intro hdisk place hfollow _
    obtain rfl := Disk.eq_placeOf_of_follow hfollow
    exact fileNames_of_list hdisk hlist
  unlisted := fun fault hfault => by cases hlist.symm.trans hfault
  ordered := pairwise_fileNames contents

/-- **A directory has its names, and no others.** -/
theorem NamesIn.unique {disk : Disk} {dir : String} {names names' : List String}
    (h : NamesIn disk dir names) (h' : NamesIn disk dir names') : names = names' := by
  cases hlist : disk.list dir with
  | error fault => rw [h.unlisted fault hlist, h'.unlisted fault hlist]
  | ok contents =>
    refine List.Perm.eq_of_pairwise (fun a b _ _ hab hba => ?_) h.ordered h'.ordered
      ((h.listed contents hlist).trans (h'.listed contents hlist).symm)
    -- names with the same bytes are the same
    rw [Utf8.ofString_le_ofString_iff] at hab hba
    exact String.le_antisymm hab hba

theorem exists_namesIn (disk : Disk) (dir : String) : ∃ names, NamesIn disk dir names := by
  cases hlist : disk.list dir with
  | ok contents => exact ⟨_, namesIn_fileNames hlist⟩
  | error fault =>
    refine ⟨[], fun contents hcontents => ?_, fun _ place hfollow hnode => ?_, fun _ _ => rfl, .nil⟩
    · cases hlist.symm.trans hcontents
    · -- a path that leads to a directory can be listed
      simp [Disk.list, hfollow, hnode] at hlist

/-- A disk with a directory that holds a file with one batch, a file with nothing in it, and a
directory with a file of its own. -/
def mixedDisk (batch : Bytes) : Disk :=
  ⟨⟨[(["in"], .directory), (["in", "b"], .file batch), (["in", "more"], .directory),
    (["in", "a"], .file []), (["in", "more", "c"], .file batch)]⟩⟩

/-- The file that comes first by name need not come first on the disk, and what lies further down is
not named. -/
theorem namesIn_mixedDisk (batch : Bytes) : NamesIn (mixedDisk batch) "in" ["a", "b"] := by
  have hlist : (mixedDisk batch).list "in" =
      .ok [("b", .file batch), ("more", .directory), ("a", .file [])] := rfl
  have hnames : fileNames [("b", .file batch), ("more", .directory), ("a", .file [])] =
      ["a", "b"] := by cbv
  exact hnames ▸ namesIn_fileNames hlist

/-- **A directory is handled file by file, by the names in it**, unless it cannot be listed. -/
theorem processDirectory_cases {disk : Disk} {dir : String} {names : List String}
    (h : NamesIn disk dir names) (saver : Audit.Saver) (chain : List Processor) :
    (∃ fault, disk.list dir = .error fault ∧ names = [] ∧
      ∀ d, processDirectory disk saver chain dir d = (d, .error (.io dir fault.message))) ∨
    ∃ contents, disk.list dir = .ok contents ∧
      ∀ d, processDirectory disk saver chain dir d =
        attemptAll (processFile disk saver chain) (names.map (Local.child dir)) d := by
  cases hlist : disk.list dir with
  | error fault =>
    exact Or.inl ⟨fault, rfl, h.unlisted fault hlist, fun d => by rw [processDirectory, hlist]⟩
  | ok contents =>
    rw [h.unique (namesIn_fileNames hlist)]
    exact Or.inr ⟨contents, rfl, fun d => by rw [processDirectory, hlist]⟩

end AchCourier.Ingest
