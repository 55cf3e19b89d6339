import AchCourier.Proofs.Local.Renaming
import Mathlib.Data.List.Induction

/-!
# Files that are kept

A step that does not write a file leaves it where it is, with what it holds, and takes no directory
from the way that leads to it.  So the file is read as before; and where there was none to read,
there is none afterwards, unless the path leads back over a directory that is new.

## Main definitions

* `Disk.KeepsFile` — at a place, two disks have the same file or none, and no directory is gone.
* `Disk.Grounded` — whatever lies on the disk lies in a directory.
* `Disk.Untouched` — the file at a path is on one disk what it is on another.

## Main results

* `Disk.keepsFile_write`, `Disk.keepsFile_makeDirectories` — steps that keep a file.
* `Disk.KeepsFile.untouched` — **a file that is kept is the file that was read before**.
-/

namespace AchCourier.Local.Disk

variable {d d' d'' : Disk} {place : Place}

/-! ### Steps that keep a file -/

/-- At the place lies the same file on both disks, or none on either of them; and every directory
stays. -/
structure KeepsFile (place : Place) (d d' : Disk) : Prop where
  directories : KeepsDirectories d d'
  file : ∀ content, d'.node? place = some (.file content) ↔ d.node? place = some (.file content)

theorem KeepsFile.refl (place : Place) (d : Disk) : KeepsFile place d d :=
  ⟨KeepsDirectories.refl d, fun _ => Iff.rfl⟩

theorem KeepsFile.trans (h : KeepsFile place d d') (h' : KeepsFile place d' d'') :
    KeepsFile place d d'' :=
  ⟨h.directories.trans h'.directories, fun content => (h'.file content).trans (h.file content)⟩

/-- Writing a file keeps the files at all other places, and this one too if it fails. -/
theorem keepsFile_write {path : String} (content : Bytes)
    (h : d.Writable path → placeOf path ≠ place) : KeepsFile place d (d.write path content).1 := by
  rcases hwrite : d.write path content with ⟨after, fault | _⟩
  · rw [write_eq_error hwrite]
    exact KeepsFile.refl place d
  · refine ⟨keepsDirectories_write hwrite, fun bytes => ?_⟩
    rw [node?_write hwrite, if_neg (h (writable_of_write hwrite)).symm]

/-- Making directories keeps every file. -/
theorem keepsFile_makeDirectories (d : Disk) (path : String) (place : Place) :
    KeepsFile place d (d.makeDirectories path).1 := by
  refine ⟨keepsDirectories_makeDirectories d path, fun content => ⟨fun h => ?_, fun h => ?_⟩⟩
  · by_cases hzero : '\x00' ∈ path.toList
    · rwa [makeDirectories_of_zero hzero] at h
    · rw [makeDirectories_eq hzero] at h
      rcases node?_makeFrom_cases d [] (names path) place with hsame | ⟨-, hmade, -⟩
      · rwa [hsame] at h
      · -- what was made is no file
        cases hmade.symm.trans h
  · exact node?_makeDirectories h

/-! ### Reading a file that is kept -/

/-- Whatever lies on the disk lies in a directory. -/
def Grounded (d : Disk) : Prop :=
  ∀ place name node, d.node? (place ++ [name]) = some node → d.node? place = some .directory

/-- Everything above what lies on such a disk is a directory. -/
theorem Grounded.above (h : d.Grounded) {node : Node} (hnode : d.node? place = some node)
    (p : Place) (hp : p <+: place) (hne : p ≠ place) : d.node? p = some .directory := by
  obtain ⟨below, rfl⟩ := hp
  -- by induction on the names below, from the last one upwards
  induction below using List.reverseRecOn generalizing node with
  | nil => exact absurd (List.append_nil p).symm hne
  | append_singleton below name ih =>
    rw [← List.append_assoc] at hnode
    have hdirectory := h _ _ _ hnode
    by_cases hp : p = p ++ below
    · rw [hp]
      exact hdirectory
    · exact ih hdirectory hp

/-- A path that does not lead back is followed to a file on every disk with the directories above
the file. -/
theorem followFrom_of_above {start : Place} {ns : List String} (hup : ".." ∉ ns)
    (h : d'.followFrom start ns = .ok place) (hfile : d'.node? place ≠ some .directory)
    (habove : ∀ p, p <+: place → p ≠ place → d.node? p = some .directory) :
    d.followFrom start ns = .ok place := by
  induction ns generalizing start with
  | nil => exact h
  | cons name rest ih =>
    obtain ⟨hname, hrest⟩ := not_or.mp fun hmem => hup (List.mem_cons.mpr hmem)
    have hprefix : start <+: place := eq_walk_of_followFrom h ▸ prefix_walk hup
    rw [followFrom] at h
    split at h
    · cases h
    · cases h
    · next hnode =>
      -- the way goes on from here, so this directory is above the file
      have hnode' : d.node? start = some .directory := by
        refine habove start hprefix ?_
        rintro rfl
        exact hfile hnode
      rw [followFrom, hnode']
      dsimp only
      by_cases hblank : name = "" ∨ name = "."
      · rw [if_pos hblank] at h ⊢
        exact ih hrest h
      · rw [if_neg hblank, if_neg (Ne.symm hname)] at h ⊢
        split at h
        · cases h
        · next hshort =>
          rw [if_neg hshort]
          exact ih hrest h

/-- The file at the path is on the disk `d'` what it is on `d`. -/
structure Untouched (path : String) (d d' : Disk) : Prop where
  /-- The same file lies at the place of the path, or still none. -/
  file : ∀ content, d'.node? (placeOf path) = some (.file content) ↔
    d.node? (placeOf path) = some (.file content)
  /-- What could be read at the path is read there. -/
  read : ∀ content, d.read path = .ok content → d'.read path = .ok content
  /-- Where there was nothing to read, there is nothing; but a path that could not be followed may
  lead back over a new directory to a file that was there. -/
  absent : (∃ place, d.follow path = .ok place) ∨ d.Grounded ∧ ".." ∉ names path →
    ∀ content, d'.read path = .ok content → d.read path = .ok content

/-- **A file that is kept is the file that was read before.** -/
theorem KeepsFile.untouched {path : String} (h : KeepsFile (placeOf path) d d') :
    Untouched path d d' where
  file := h.file
  read content hread := by
    obtain ⟨hfollow, hnode⟩ := read_eq_ok_iff.mp hread
    exact read_eq_ok_iff.mpr ⟨h.directories.follow hfollow, (h.file content).mpr hnode⟩
  absent hway content hread := by
    obtain ⟨hfollow, hnode⟩ := read_eq_ok_iff.mp hread
    have hkept := (h.file content).mp hnode
    -- the path could be followed before, or its way lies above the file that is kept
    rcases hway with ⟨place, hplace⟩ | ⟨hgrounded, hup⟩
    · obtain rfl := eq_placeOf_of_follow hplace
      exact read_eq_ok_iff.mpr ⟨hplace, hkept⟩
    · obtain ⟨hzero, hempty, hfrom⟩ := follow_eq_ok_iff.mp hfollow
      have hfile : d'.node? (placeOf path) ≠ some .directory := by
        rw [hnode]
        exact nofun
      have hfrom' := followFrom_of_above hup hfrom hfile (hgrounded.above hkept)
      exact read_eq_ok_iff.mpr ⟨follow_eq_ok_iff.mpr ⟨hzero, hempty, hfrom'⟩, hkept⟩

end AchCourier.Local.Disk
