import AchCourier.Config.Store
import AchCourier.Proofs.Local.Renaming
import AchCourier.Proofs.Text.Trim

/-!
# Where settings are saved

The path of a settings file goes through its directory to the name of the file, and perhaps to names
behind it that lead nowhere.  The temporary file lies beside it, under a name of its own, and the
directory is found wherever the path of the file leads somewhere.  A path that ends in no name leads
to a directory at best: there is no other file beside it, and none can be written there.

## Main definitions

* `PathForm` — what a path and the path of its temporary file are made of.

## Main results

* `pathForm` — the form of every path.
* `placeOf_temporaryPath_ne` — **where a temporary file can be written, it is not the target.**
* `makeDirectories_directoryOf` — the directory of a file that is found is there.
* `makeDirectories_directoryOf_child`, `temporaryPath_child` — the same for a file inside a directory.
-/

namespace AchCourier.Config

open Local

/-! ### Names of temporary files -/

/-- A name without its extension is the name, or a point and an extension without points follow. -/
theorem stem_cases (name : List Char) :
    stem name = name ∨ ∃ extension, '.' ∉ extension ∧ name = stem name ++ '.' :: extension := by
  -- the name falls apart behind its last point
  have hname : name = (name.reverse.dropWhile (· ≠ '.')).reverse ++
      (name.reverse.takeWhile (· ≠ '.')).reverse := by
    rw [← List.reverse_append, List.takeWhile_append_dropWhile, List.reverse_reverse]
  unfold stem
  split
  · exact Or.inl rfl
  · exact Or.inl rfl
  · next c rest hnot hrest =>
    refine Or.inr ⟨(name.reverse.takeWhile (· ≠ '.')).reverse, fun hmem => ?_, ?_⟩
    · simpa using List.mem_takeWhile_imp (List.mem_reverse.mp hmem)
    · have hpoint := List.head?_dropWhile_not (· ≠ '.') name.reverse
      rw [hrest] at hpoint hname
      obtain rfl : c = '.' := by simpa using hpoint
      simpa using hname

theorem mem_of_mem_stem {name : List Char} {c : Char} (h : c ∈ stem name) : c ∈ name := by
  rcases stem_cases name with hstem | ⟨extension, -, hname⟩
  · rwa [hstem] at h
  · rw [hname]
    exact List.mem_append_left _ h

/-- **No file has the name of the temporary file beside it**: the last extension of a name holds no
point, and that of the temporary file is put behind everything else. -/
theorem temporaryName_ne (name : List Char) : temporaryName name ≠ name := by
  intro heq
  rw [temporaryName] at heq
  rcases stem_cases name with hstem | ⟨extension, hpoint, hname⟩
  · rw [hstem] at heq
    exact absurd (List.append_right_eq_self.mp heq) (by decide)
  · have hend := List.append_cancel_left (heq.trans hname)
    obtain rfl := (List.cons.inj hend).2
    exact hpoint (by decide)

/-- The name of a temporary file leads one step down, as the name of the file does. -/
theorem leadsDown_temporaryName {name : List Char} (h : '/' ∉ name) :
    LeadsDown (String.ofList (temporaryName name)) := by
  -- with nine characters at least, the name is none of the special ones
  have hlong : 9 ≤ (String.ofList (temporaryName name)).toList.length := by
    simp [temporaryName]
  refine ⟨fun heq => ?_, fun heq => ?_, fun heq => ?_, fun hslash => ?_⟩
  · rw [heq] at hlong
    exact absurd hlong (by decide)
  · rw [heq] at hlong
    exact absurd hlong (by decide)
  · rw [heq] at hlong
    exact absurd hlong (by decide)
  · rw [String.toList_ofList, temporaryName] at hslash
    rcases List.mem_append.mp hslash with hstem | htmp
    · exact h (mem_of_mem_stem hstem)
    · exact absurd htmp (by decide)

/-! ### The form of a path -/

/-- What is trimmed from names leads nowhere. -/
theorem exists_trimNames_append (ns : List String) :
    ∃ blanks, ns = trimNames ns ++ blanks ∧ ∀ n ∈ blanks, n = "" ∨ n = "." := by
  refine ⟨ns.rtakeWhile fun n => n = "" ∨ n = ".", ?_, fun n hn => ?_⟩
  · rw [trimNames, Text.dropEndWhile_eq_rdropWhile, List.rdropWhile_append_rtakeWhile]
  · simpa using List.mem_rtakeWhile_imp hn

/-- A name that leads somewhere is not trimmed. -/
theorem trimNames_concat {name : String} (hname : ¬ (name = "" ∨ name = "."))
    (ns : List String) : trimNames (ns ++ [name]) = ns ++ [name] := by
  rw [trimNames, Text.dropEndWhile_append_cons (by simpa using hname)]
  rfl

/-- The last name leads nowhere, or is the last one that is left. -/
theorem last_trimNames {ns : List String} {last : String} (h : ns.getLast? = some last) :
    (last = "" ∨ last = ".") ∨ (trimNames ns).getLast? = some last := by
  by_cases hblank : last = "" ∨ last = "."
  · exact Or.inl hblank
  · obtain ⟨front, rfl⟩ := List.getLast?_eq_some_iff.mp h
    rw [trimNames_concat hblank]
    exact Or.inr h

/-- All names in the path of a file inside a directory are left. -/
theorem trimNames_child {dir name : String} (hdir : EndsInName dir) (hname : LeadsDown name) :
    trimNames (names (child dir name)) = names dir ++ [name] := by
  rw [names_child hdir hname, trimNames_concat (not_or.mpr ⟨hname.ne_empty, hname.ne_here⟩)]

/-- The temporary file has the names of the file, but for the last of them. -/
theorem temporaryPath_eq {path name : String} {front : List String}
    (h : trimNames (names path) = front ++ [name]) (hup : name ≠ "..") :
    temporaryPath path = joined (front ++ [String.ofList (temporaryName name.toList)]) := by
  simp only [temporaryPath, h, List.getLast?_concat, if_neg hup, List.dropLast_concat]

/-- What a path and the path of its temporary file are made of. -/
inductive PathForm (path : String) : Prop where
  /-- The path leads to a name, in a directory where the temporary file has a name, too. -/
  | named {front blanks : List String} {name : String} (hname : LeadsDown name)
      (hpath : names path = front ++ [name] ++ blanks) (hblanks : ∀ n ∈ blanks, n = "" ∨ n = ".")
      (htemporary : temporaryPath path =
        joined (front ++ [String.ofList (temporaryName name.toList)])) : PathForm path
  /-- The path ends in no name, and nothing lies beside it. -/
  | unnamed {last : String} (hlast : (names path).getLast? = some last)
      (hend : last = "" ∨ last = "." ∨ last = "..") (htemporary : temporaryPath path = path) :
      PathForm path

/-- **Every path has such a form.** -/
theorem pathForm (path : String) : PathForm path := by
  obtain ⟨blanks, hpath, hblanks⟩ := exists_trimNames_append (names path)
  obtain ⟨last, hlast⟩ : ∃ last, (names path).getLast? = some last :=
    ⟨_, List.getLast?_eq_some_getLast (names_ne_nil path)⟩
  have hcases := last_trimNames hlast
  -- the last name that is neither empty nor a point decides
  cases hname : (trimNames (names path)).getLast? with
  | none =>
    rw [hname] at hcases
    have hblank := hcases.resolve_right (by simp)
    exact .unnamed hlast (or_assoc.mp (Or.inl hblank)) (by simp only [temporaryPath, hname])
  | some name =>
    by_cases hup : name = ".."
    · rw [hup] at hname
      have hend : last = "" ∨ last = "." ∨ last = ".." :=
        or_assoc.mp (hcases.imp_right fun h => (Option.some.inj (hname.symm.trans h)).symm)
      exact .unnamed hlast hend (by simp only [temporaryPath, hname, if_pos])
    · have hdown := Text.last_dropEndWhile hname
      rw [decide_eq_false_iff_not, not_or] at hdown
      obtain ⟨front, hfront⟩ := List.getLast?_eq_some_iff.mp hname
      have hmem : name ∈ names path := by
        rw [hpath, hfront]
        simp
      exact .named ⟨hdown.1, hdown.2, hup, slash_notMem_of_mem_names hmem⟩
        (hpath.trans (by rw [hfront])) hblanks
        (temporaryPath_eq hfront hup)

theorem walk_blanks {place : Place} {blanks : List String}
    (h : ∀ n ∈ blanks, n = "" ∨ n = ".") : walk place blanks = place := by
  induction blanks with
  | nil => rfl
  | cons name blanks ih =>
    obtain ⟨hname, hblanks⟩ := List.forall_mem_cons.mp h
    rw [walk, if_pos hname, ih hblanks]

/-- **Where a temporary file can be written, it is not the target.** -/
theorem placeOf_temporaryPath_ne {d : Disk} {path : String}
    (h : d.Writable (temporaryPath path)) : placeOf (temporaryPath path) ≠ placeOf path := by
  cases pathForm path with
  | @named front blanks name hname hpath hblanks htemporary =>
    have htemp := leadsDown_temporaryName hname.slash_notMem
    have hslash : ∀ n ∈ front ++ [String.ofList (temporaryName name.toList)], '/' ∉ n.toList := by
      intro n hn
      rcases List.mem_append.mp hn with hfront | hlast
      · have hmem : n ∈ names path := by
          rw [hpath]
          exact List.mem_append_left _ (List.mem_append_left _ hfront)
        exact slash_notMem_of_mem_names hmem
      · rw [List.mem_singleton.mp hlast]
        exact htemp.slash_notMem
    intro hplace
    rw [htemporary, placeOf, placeOf, names_joined (by simp) hslash, hpath, walk_append, walk_append,
      walk_append, walk_blanks hblanks, walk_single htemp, walk_single hname] at hplace
    have hsame := List.singleton_inj.mp (List.append_cancel_left hplace)
    exact temporaryName_ne name.toList (by simpa using congrArg String.toList hsame)
  | unnamed hlast hend htemporary =>
    -- the path leads to a directory, where no file can be written
    rw [htemporary] at h
    exact absurd (Disk.directory_of_follow_last hlast hend h.follow) h.free

/-- Without an extension, with several, with that of a temporary file, hidden, with a slash behind
it, and without a name. -/
example :
    ["agents", "agents.tar.gz", "agents.json.tmp", "conf/.agents", "conf/agents.json/", "conf/.."].map
        temporaryPath =
      ["agents.json.tmp", "agents.tar.json.tmp", "agents.json.json.tmp", "conf/.agents.json.tmp",
        "conf/agents.json.tmp", "conf/.."] := by
  decide +kernel

/-! ### The directory of a file -/

/-- The names of the directory of a file are the first ones in the path of the file. -/
theorem exists_directoryOf_eq (path : String) :
    ∃ front back, names path = front ++ back ∧ back ≠ [] ∧ directoryOf path = joined front := by
  obtain ⟨blanks, hpath, -⟩ := exists_trimNames_append (names path)
  obtain ⟨inner, hinner, -⟩ := exists_trimNames_append (trimNames (names path)).dropLast
  -- the directory ends before the last name, so something is left behind it
  rcases List.eq_nil_or_concat' (trimNames (names path)) with hnil | ⟨front, name, hconcat⟩
  · refine ⟨[], names path, rfl, names_ne_nil path, ?_⟩
    rw [directoryOf, hnil]
    rfl
  · rw [hconcat, List.dropLast_concat] at hinner
    refine ⟨trimNames front, inner ++ [name] ++ blanks, ?_, by simp, ?_⟩
    · rw [hpath, hconcat]
      conv_lhs => rw [hinner]
      simp
    · rw [directoryOf, hconcat, List.dropLast_concat]

theorem zero_notMem_joined {path : String} {front back : List String}
    (hpath : names path = front ++ back) (h : '\x00' ∉ path.toList) :
    '\x00' ∉ (joined front).toList := by
  intro hmem
  obtain ⟨n, hn, hzero⟩ := (mem_joined (by decide)).mp hmem
  rw [← joined_names path, hpath] at h
  exact h ((mem_joined (by decide)).mpr ⟨n, List.mem_append_left _ hn, hzero⟩)

/-- What is made along the first names of a path, when they are a path of their own. -/
theorem makeDirectories_joined {d : Disk} {path : String} {front back : List String}
    (hpath : names path = front ++ back) (hzero : '\x00' ∉ path.toList) :
    d.makeDirectories (joined front) = d.makeFrom [] front := by
  rw [Disk.makeDirectories_eq (zero_notMem_joined hpath hzero)]
  cases front with
  | nil => rfl
  | cons n front =>
    rw [names_joined (List.cons_ne_nil n front) fun m hm => ?_]
    exact slash_notMem_of_mem_names (hpath ▸ List.mem_append_left back hm)

/-- Where the path of a file leads somewhere, the directory of the file is there. -/
theorem makeDirectories_directoryOf {d : Disk} {path : String} {place : Place}
    (h : d.follow path = .ok place) : d.makeDirectories (directoryOf path) = (d, .ok ()) := by
  obtain ⟨hzero, -, hfrom⟩ := Disk.follow_eq_ok_iff.mp h
  obtain ⟨front, back, hpath, hback, hdir⟩ := exists_directoryOf_eq path
  rw [hdir, makeDirectories_joined hpath hzero]
  rw [hpath, Disk.followFrom_append] at hfrom
  cases hfirst : d.followFrom [] front with
  | error fault =>
    rw [hfirst] at hfrom
    cases hfrom
  | ok mid =>
    rw [hfirst] at hfrom
    refine Disk.makeFrom_of_followFrom hfirst ?_
    -- a name follows, so the names of the directory lead to a directory
    obtain ⟨next, rest, rfl⟩ := List.exists_cons_of_ne_nil hback
    dsimp only at hfrom
    rw [Disk.followFrom] at hfrom
    split at hfrom
    · cases hfrom
    · cases hfrom
    · assumption

/-! ### Files inside a directory -/

section
variable {dir name : String} (hdir : EndsInName dir) (hname : LeadsDown name)
include hdir hname

/-- When a directory can be made, it is made for the files inside. -/
theorem makeDirectories_directoryOf_child {d d' : Disk}
    (h : d.makeDirectories dir = (d', .ok ())) :
    d.makeDirectories (directoryOf (child dir name)) = (d', .ok ()) := by
  have hzero : '\x00' ∉ dir.toList := fun hmem => by
    rw [Disk.makeDirectories_of_zero hmem] at h
    cases h
  obtain ⟨blanks, hnames, hblanks⟩ := exists_trimNames_append (names dir)
  rw [directoryOf, trimNames_child hdir hname, List.dropLast_concat,
    makeDirectories_joined hnames hzero]
  rw [Disk.makeDirectories_eq hzero, hnames] at h
  -- the names dropped at the end are empty or points, and make nothing
  obtain ⟨mid, hfirst, hrest⟩ := Disk.makeFrom_append_eq_ok h
  rw [Disk.makeFrom_blanks hblanks] at hrest
  rw [hfirst, (Prod.mk.inj hrest).1]

theorem temporaryPath_child : temporaryPath (child dir name) =
    child dir (String.ofList (temporaryName name.toList)) := by
  have htemp := leadsDown_temporaryName hname.slash_notMem
  rw [temporaryPath_eq (trimNames_child hdir hname) hname.ne_up, ← names_child hdir htemp, joined_names]

end

end AchCourier.Config
