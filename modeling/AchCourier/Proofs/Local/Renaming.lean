import AchCourier.Proofs.Local.Subtrees

/-!
# Files that are written and moved

A file can be written at a path when the path leads somewhere and not to a directory; nothing else
matters, least of all what is written or what was there.  A file that is moved leaves its place,
and what it holds lies at the other place afterwards, whatever was there.

## Main definitions

* `Disk.Writable` — a file can be written at the path.

## Main results

* `Disk.Writable.exists_write`, `Disk.Writable.of_write` — writing where a file can be written, and
  where a file can be written afterwards.
* `Disk.rename_eq_ok_iff`, `Disk.read_of_rename` — when a file is moved, and where it is found.
-/

namespace AchCourier.Local.Disk

variable {d d' : Disk}

/-! ### Writing -/

/-- A file can be written at the path. -/
structure Writable (d : Disk) (path : String) : Prop where
  follow : d.follow path = .ok (placeOf path)
  free : d.node? (placeOf path) ≠ some .directory

/-- A file is written over whatever file is there. -/
theorem Writable.exists_write {path : String} (h : d.Writable path) (content : Bytes) :
    ∃ d', d.write path content = (d', .ok ()) := by
  refine ⟨d.put (placeOf path) (.file content), ?_⟩
  unfold Disk.write
  rw [h.follow]
  dsimp only
  split
  · next hdirectory => exact absurd hdirectory h.free
  · rfl

theorem writable_of_write {path : String} {content : Bytes}
    (h : d.write path content = (d', .ok ())) : d.Writable path :=
  ⟨(write_eq_ok h).1, (write_eq_ok h).2.1⟩

theorem Writable.place_ne_root {path : String} (h : d.Writable path) : placeOf path ≠ [] := by
  intro hroot
  exact h.free (by rw [hroot]; rfl)

/-- Where a file can be written, it can still be written once another one was. -/
theorem Writable.of_write {path other : String} {content : Bytes} {result : Except Fault Unit}
    (h : d.Writable path) (hwrite : d.write other content = (d', result)) : d'.Writable path := by
  obtain rfl : (d.write other content).1 = d' := by rw [hwrite]
  refine ⟨(keepsDirectories_write_fst d other content).follow h.follow, ?_⟩
  rcases node?_write_cases d other content (placeOf path) with hsame | ⟨-, hfile⟩
  · rw [hsame]
    exact h.free
  · rw [hfile]
    exact nofun

/-- Where a file can be written once another one was, it could be written before. -/
theorem Writable.before_write {path other : String} {content : Bytes}
    (h : d'.Writable path) (hwrite : d.write other content = (d', .ok ())) : d.Writable path := by
  have hnode := node?_write hwrite
  -- writing a file makes no directory
  have hkeeps : KeepsDirectories d' d := by
    intro place hplace
    rw [hnode] at hplace
    split at hplace
    · cases hplace
    · exact hplace
  exact ⟨hkeeps.follow h.follow, fun hdirectory =>
    h.free (keepsDirectories_write hwrite _ hdirectory)⟩

/-! ### Moving -/

theorem node?_clear {place : Place} (hplace : place ≠ []) (p : Place) :
    (d.clear place).node? p = if p = place then none else d.node? p := by
  unfold node? clear
  rw [Table.get?_erase]
  by_cases hp : p = []
  · rw [if_pos hp, if_neg fun h => hplace (h.symm.trans hp), if_pos hp]
  · rw [if_neg hp, if_neg hp]

/-- A file is moved to a path where it could be written. -/
theorem landing_eq_ok_iff {path : String} {place : Place} :
    d.landing path = .ok place ↔ place = placeOf path ∧ d.Writable path := by
  unfold landing
  dsimp only
  split
  · next hslash =>
    -- a path with a slash behind it leads to a directory, if it leads anywhere
    refine iff_of_false nofun fun ⟨_, hwritable⟩ => hwritable.free ?_
    exact directory_of_follow_last hslash.2 (Or.inl rfl) hwritable.follow
  · split
    · next hfollow =>
      refine iff_of_false nofun fun ⟨_, hwritable⟩ => ?_
      cases hfollow.symm.trans hwritable.follow
    · next there hfollow =>
      obtain rfl := eq_placeOf_of_follow hfollow
      split
      · next hdirectory =>
        exact iff_of_false nofun fun ⟨_, hwritable⟩ => hwritable.free hdirectory
      · next hfree =>
        exact ⟨fun h => ⟨(Except.ok.inj h).symm, hfollow, hfree⟩, fun h => by rw [h.1]⟩

/-- **A file is moved when it can be read and when a file can be written where it is moved to.** -/
theorem rename_eq_ok_iff {source target : String} :
    d.rename source target = (d', .ok ()) ↔
      ∃ content, d.read source = .ok content ∧ d.Writable target ∧
        d' = (d.clear (placeOf source)).put (placeOf target) (.file content) := by
  constructor
  · intro h
    unfold rename at h
    split at h
    · cases h
    · next here hsource =>
      obtain rfl := eq_placeOf_of_follow hsource
      split at h
      · cases h
      · cases h
      · cases h
      · next content there hnode htarget =>
        obtain ⟨rfl, hwritable⟩ := landing_eq_ok_iff.mp htarget
        exact ⟨content, read_eq_ok_iff.mpr ⟨hsource, hnode⟩, hwritable, (Prod.mk.inj h).1.symm⟩
  · rintro ⟨content, hread, hwritable, rfl⟩
    obtain ⟨hfollow, hnode⟩ := read_eq_ok_iff.mp hread
    unfold rename
    rw [hfollow]
    dsimp only
    rw [hnode, landing_eq_ok_iff.mpr ⟨rfl, hwritable⟩]

/-- A file that is not moved stays where it is, and so does everything else. -/
theorem rename_eq_error {source target : String} {fault : Fault}
    (h : d.rename source target = (d', .error fault)) : d' = d := by
  unfold rename at h
  split at h
  · exact (Prod.mk.inj h).1.symm
  · split at h
    · exact (Prod.mk.inj h).1.symm
    · exact (Prod.mk.inj h).1.symm
    · exact (Prod.mk.inj h).1.symm
    · cases (Prod.mk.inj h).2

/-- What lies where once a file was moved. -/
theorem node?_rename {source target : String} {content : Bytes}
    (hread : d.read source = .ok content) (h : d.rename source target = (d', .ok ())) (p : Place) :
    d'.node? p =
      if p = placeOf target then some (.file content)
      else if p = placeOf source then none else d.node? p := by
  obtain ⟨content', hread', hwritable, rfl⟩ := rename_eq_ok_iff.mp h
  obtain rfl := Except.ok.inj (hread.symm.trans hread')
  have hroot : placeOf source ≠ [] := by
    intro hroot
    have hnode := (read_eq_ok_iff.mp hread).2
    rw [hroot] at hnode
    cases hnode
  rw [node?_put hwritable.place_ne_root, node?_clear hroot]

/-- Neither of the two places of a file that is moved is a directory. -/
theorem keepsDirectories_rename {source target : String}
    (h : d.rename source target = (d', .ok ())) : KeepsDirectories d d' := by
  obtain ⟨content, hread, hwritable, -⟩ := rename_eq_ok_iff.mp h
  intro place hplace
  -- neither of the two places holds a directory
  have htarget : place ≠ placeOf target := by
    rintro rfl
    exact hwritable.free hplace
  have hsource : place ≠ placeOf source := by
    rintro rfl
    cases hplace.symm.trans (read_eq_ok_iff.mp hread).2
  rw [node?_rename hread h, if_neg htarget, if_neg hsource]
  exact hplace

/-- **What was moved is found where it was moved to.** -/
theorem read_of_rename {source target : String} {content : Bytes}
    (hread : d.read source = .ok content) (h : d.rename source target = (d', .ok ())) :
    d'.read target = .ok content := by
  obtain ⟨-, -, hwritable, -⟩ := rename_eq_ok_iff.mp h
  refine read_eq_ok_iff.mpr ⟨(keepsDirectories_rename h).follow hwritable.follow, ?_⟩
  rw [node?_rename hread h, if_pos rfl]

end AchCourier.Local.Disk
