import AchCourier.Proofs.Text.Trim
import AchCourier.Remote.Memory

/-!
# Names inside a directory

The last component of a name is a name inside a single directory: it has no separator in it and
does not point to a directory.  So a path that is made of a directory and of such a name lies
directly in this directory, however the directory is spelled.

## Main results

* `isSeparator_of_mem_baseName`, `baseName_ne_dots` — what the last component of a name is not.
* `Memory.normalize_ne_dot`, `Memory.getLast?_normalize_ne` — a normalized path neither is the
  working directory by its other name nor ends in a slash.
* `Memory.splitParent_join` — **a name without slashes lies directly in its directory.**
-/

namespace AchCourier.Remote

/-! ### The last component of a name -/

/-- The last component of a name has no separators. -/
theorem isSeparator_of_mem_baseName {name : String} {c : Char} (h : c ∈ (baseName name).toList) :
    isSeparator c = false := by
  rw [baseName] at h
  split at h
  · cases h
  · rw [String.toList_ofList, List.mem_reverse] at h
    simpa using List.mem_takeWhile_imp h

/-- The last component of a name does not point to a directory. -/
theorem baseName_ne_dots (name : String) : baseName name ≠ "." ∧ baseName name ≠ ".." := by
  rw [baseName]
  split
  · decide
  · next h => exact not_or.mp h

namespace Memory

/-! ### Normalized paths -/

theorem normalize_ne_dot (path : String) : normalize path ≠ "." := by
  rw [normalize]
  split
  · decide
  · next h =>
    intro hdot
    rw [← String.toList_inj, String.toList_ofList] at hdot
    exact h hdot

theorem getLast?_normalize_ne (path : String) : (normalize path).toList.getLast? ≠ some '/' := by
  rw [normalize]
  split
  · decide
  · rw [String.toList_ofList]
    intro hlast
    -- what is left after the slashes at the end are gone does not end in one
    cases Text.last_dropEndWhile hlast

/-- The directory of a path is all before its last slash. -/
theorem splitParent_eq {path : String} {before name : List Char}
    (hpath : path.toList = before ++ name) (hname : '/' ∉ name)
    (hbefore : before = [] ∨ ∃ dir, before = dir ++ ['/']) :
    splitParent path = (String.ofList before.dropLast, String.ofList name) := by
  -- the last part ends at the last slash, and the name holds none
  have hall : ∀ c ∈ name.reverse, decide (c ≠ '/') = true := by
    intro c hc
    have hne : c ≠ '/' := by rintro rfl; exact hname (List.mem_reverse.mp hc)
    exact decide_eq_true hne
  have htake : path.toList.reverse.takeWhile (fun c => decide (c ≠ '/')) = name.reverse := by
    rw [hpath, List.reverse_append, List.takeWhile_append_of_pos hall]
    rcases hbefore with rfl | ⟨dir, rfl⟩
    · simp
    · simp
  have hlength : path.length - name.length = before.length := by
    rw [← String.length_toList, hpath, List.length_append, Nat.add_sub_cancel]
  rw [splitParent, htake, List.reverse_reverse, hlength, hpath, List.take_left]

/-- A name without slashes lies directly in its directory. -/
theorem splitParent_join {dir name : String} (hdot : dir ≠ ".")
    (hlast : dir.toList.getLast? ≠ some '/') (hname : '/' ∉ name.toList) :
    splitParent (join dir name) = (dir, name) := by
  by_cases hdir : dir = ""
  · have hjoin : (join dir name).toList = [] ++ name.toList := by simp [join, hdir]
    rw [splitParent_eq hjoin hname (Or.inl rfl), hdir]
    simp
  · have hjoin : (join dir name).toList = (dir.toList ++ ['/']) ++ name.toList := by
      simp [join, hdir, hdot, hlast]
    rw [splitParent_eq hjoin hname (Or.inr ⟨_, rfl⟩)]
    simp

end Memory

end AchCourier.Remote
