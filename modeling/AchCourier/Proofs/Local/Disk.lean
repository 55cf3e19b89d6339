import AchCourier.Local.Disk

/-!
# Paths and files on the disk

A path leads to one place or to none, and which place that could be is told by its names alone.
So two paths with different places never meet, however the disk changes; and as long as the
directories of a disk stay, a path that leads somewhere leads there still.  From this follows what
a change of the disk does to the files that it is not about: nothing.

## Main definitions

* `walk`, `placeOf` — the place that names lead to, on whatever disk.
* `LeadsDown`, `EndsInName` — names that lead one step down, and paths that do not end in a slash.
* `Disk.KeepsDirectories` — the directories of one disk are directories of another.

## Main results

* `joined_names`, `names_joined` — a path and its names.
* `Disk.directory_above_followFrom`, `Disk.directory_of_follow_last` — where there are directories
  when a path leads somewhere.
* `Disk.follow_child` — a path below a directory leads one step down from it.
* `Disk.read_of_write`, `Disk.read_write_of_ne` — what a file holds once a file was written.
* `Disk.node?_makeDirectories` — making directories leaves everything where it is.
* `Disk.mem_list` — a file that can be read is listed.
* `Disk.mem_inside_iff` — what is listed inside a place is what lies one step down from it.
-/

namespace AchCourier.Local

/-! ### Names -/

/-- The name leads one step down. -/
structure LeadsDown (name : String) : Prop where
  ne_empty : name ≠ ""
  ne_here : name ≠ "."
  ne_up : name ≠ ".."
  slash_notMem : '/' ∉ name.toList

/-- The path ends in a character that is no slash. -/
def EndsInName (path : String) : Prop :=
  ∃ c, path.toList.getLast? = some c ∧ c ≠ '/'

theorem EndsInName.ne_empty {path : String} (h : EndsInName path) : path ≠ "" := by
  rintro rfl
  obtain ⟨c, hc, -⟩ := h
  cases hc

theorem child_eq {dir : String} (hdir : EndsInName dir) (name : String) :
    child dir name = dir ++ "/" ++ name := by
  obtain ⟨c, hc, hne⟩ := id hdir
  have hlast : dir.toList.getLast? ≠ some '/' := by
    rw [hc]
    simpa using hne
  unfold child
  rw [if_neg (by simp [hdir.ne_empty, hlast])]

/-- The path of a name inside a directory ends as the name does. -/
theorem endsInName_child {dir name : String} (hname : EndsInName name) :
    EndsInName (child dir name) := by
  obtain ⟨c, hc, hne⟩ := hname
  refine ⟨c, ?_, hne⟩
  unfold child
  split
  · simp [hc]
  · simp [List.getLast?_cons, hc]

theorem LeadsDown.endsInName {name : String} (h : LeadsDown name) : EndsInName name := by
  have hne : name.toList ≠ [] := fun hnil => h.ne_empty (String.toList_eq_nil_iff.mp hnil)
  refine ⟨name.toList.getLast hne, List.getLast?_eq_some_getLast hne, fun hslash => ?_⟩
  exact h.slash_notMem (hslash ▸ List.getLast_mem hne)

theorem names_child {dir name : String} (hdir : EndsInName dir) (hname : LeadsDown name) :
    names (child dir name) = names dir ++ [name] := by
  have hchars : (child dir name).toList = dir.toList ++ '/' :: name.toList := by
    rw [child_eq hdir]
    simp
  unfold names Text.split
  rw [hchars, List.splitOn_append_cons_self, List.splitOn_eq_singleton hname.slash_notMem]
  simp

/-! ### Paths of names -/

theorem names_ne_nil (path : String) : names path ≠ [] := by
  rw [names, Text.split, Ne, List.map_eq_nil_iff]
  exact List.splitOn_ne_nil _ _

/-- The names of a path make it up. -/
theorem joined_names (path : String) : joined (names path) = path := by
  have hchars : (names path).map String.toList = path.toList.splitOn '/' := by
    simp [names, Text.split]
  rw [joined, hchars, List.intercalate_splitOn, String.ofList_toList]

/-- Names without slashes are the names of the path that they make up. -/
theorem names_joined {ns : List String} (hne : ns ≠ []) (h : ∀ n ∈ ns, '/' ∉ n.toList) :
    names (joined ns) = ns := by
  have hchars : ∀ cs ∈ ns.map String.toList, '/' ∉ cs := by simpa using h
  rw [names, Text.split, joined, String.toList_ofList,
    List.splitOn_intercalate '/' hchars (by simpa using hne)]
  simp

/-- A name in a path holds no slash. -/
theorem slash_notMem_of_mem_names {path n : String} (h : n ∈ names path) : '/' ∉ n.toList := by
  obtain ⟨cs, hcs, rfl⟩ := List.mem_map.mp h
  rw [String.toList_ofList]
  exact Text.notMem_of_mem_splitOn hcs

/-- The characters of a path, but for its slashes, are those of its names. -/
theorem mem_joined {ns : List String} {c : Char} (hc : c ≠ '/') :
    c ∈ (joined ns).toList ↔ ∃ n ∈ ns, c ∈ n.toList := by
  rw [joined, String.toList_ofList]
  induction ns with
  | nil => simp
  | cons n ns ih =>
    cases ns with
    | nil => simp
    | cons m ns =>
      rw [List.map_cons, List.map_cons, List.intercalate_cons_cons, ← List.map_cons,
        List.mem_append, List.mem_append, ih, List.mem_singleton]
      simp [hc]

/-! ### Places -/

/-- The place that names lead to from a place, on a disk where they lead somewhere. -/
def walk (place : Place) : List String → Place
  | [] => place
  | name :: rest =>
      if name = "" ∨ name = "." then walk place rest
      else if name = ".." then walk place.dropLast rest
      else walk (place ++ [name]) rest

/-- The place that a path leads to, on a disk where it leads somewhere. -/
def placeOf (path : String) : Place :=
  walk [] (names path)

theorem walk_append (place : Place) (first more : List String) :
    walk place (first ++ more) = walk (walk place first) more := by
  induction first generalizing place with
  | nil => rfl
  | cons name rest ih =>
    rw [List.cons_append, walk, walk]
    split
    · exact ih _
    · split
      · exact ih _
      · exact ih _

theorem walk_single {place : Place} {name : String} (h : LeadsDown name) :
    walk place [name] = place ++ [name] := by
  rw [walk, if_neg (by simp [h.ne_empty, h.ne_here]), if_neg h.ne_up, walk]

theorem placeOf_child {dir name : String} (hdir : EndsInName dir) (hname : LeadsDown name) :
    placeOf (child dir name) = placeOf dir ++ [name] := by
  unfold placeOf
  rw [names_child hdir hname, walk_append, walk_single hname]

namespace Disk

variable {d d' : Disk}

/-! ### Following -/

theorem followFrom_append (place : Place) (first more : List String) :
    d.followFrom place (first ++ more) =
      match d.followFrom place first with
      | .error e => .error e
      | .ok mid => d.followFrom mid more := by
  fun_induction followFrom d place first with
  | case1 => rfl
  | case2 place name rest hnode => simp [followFrom, hnode]
  | case3 place name rest content hnode => simp [followFrom, hnode]
  | case4 place name rest hnode hname ih => simpa [followFrom, hnode, hname] using ih
  | case5 place rest hnode hname ih => simpa [followFrom, hnode] using ih
  | case6 place name rest hnode hname hup hlong => simp [followFrom, hnode, hname, hup, hlong]
  | case7 place name rest hnode hname hup hlong ih =>
    simpa [followFrom, hnode, hname, hup, hlong] using ih

/-- A path that leads somewhere leads to its place. -/
theorem eq_walk_of_followFrom {start place : Place} {ns : List String}
    (h : d.followFrom start ns = .ok place) : place = walk start ns := by
  -- by the cases of following: the end, a name to pass over, up, and down
  fun_induction followFrom d start ns with
  | case1 start => exact (Except.ok.inj h).symm
  | case2 => cases h
  | case3 => cases h
  | case4 start name rest hnode hname ih =>
    rw [walk, if_pos hname]
    exact ih h
  | case5 start rest hnode hname ih =>
    rw [walk, if_neg hname, if_pos rfl]
    exact ih h
  | case6 => cases h
  | case7 start name rest hnode hname hup hlong ih =>
    rw [walk, if_neg hname, if_neg hup]
    exact ih h

theorem follow_eq_ok_iff {path : String} {place : Place} :
    d.follow path = .ok place ↔
      '\x00' ∉ path.toList ∧ path ≠ "" ∧ d.followFrom [] (names path) = .ok place := by
  unfold follow
  split
  · simp_all
  · split
    · simp_all
    · simp_all

theorem eq_placeOf_of_follow {path : String} {place : Place} (h : d.follow path = .ok place) :
    place = placeOf path :=
  eq_walk_of_followFrom (follow_eq_ok_iff.mp h).2.2

/-- A step down starts in a directory. -/
theorem followFrom_single {start place : Place} {name : String}
    (h : d.followFrom start [name] = .ok place) : d.node? start = some .directory := by
  rw [followFrom] at h
  split at h
  · cases h
  · cases h
  · assumption

/-- **A path below a directory leads one step down from it.** -/
theorem follow_child {dir name : String} {place : Place} (hdir : EndsInName dir)
    (hname : LeadsDown name) (h : d.follow (child dir name) = .ok place) :
    d.follow dir = .ok (placeOf dir) ∧ d.node? (placeOf dir) = some .directory := by
  obtain ⟨hzero, -, hfollow⟩ := follow_eq_ok_iff.mp h
  -- the path is followed to the directory first
  rw [names_child hdir hname, followFrom_append] at hfollow
  cases hfirst : d.followFrom [] (names dir) with
  | error e =>
    rw [hfirst] at hfollow
    cases hfollow
  | ok mid =>
    rw [hfirst] at hfollow
    obtain rfl : mid = placeOf dir := eq_walk_of_followFrom hfirst
    have hzero' : '\x00' ∉ dir.toList := by
      rw [child_eq hdir] at hzero
      simp at hzero
      exact hzero.1
    exact ⟨follow_eq_ok_iff.mpr ⟨hzero', hdir.ne_empty, hfirst⟩, followFrom_single hfollow⟩

/-- **Everything above a place that is found is a directory.** -/
theorem directory_above_followFrom {start place : Place} {ns : List String}
    (hstart : ∀ p, p <+: start → p ≠ start → d.node? p = some .directory)
    (h : d.followFrom start ns = .ok place) :
    ∀ p, p <+: place → p ≠ place → d.node? p = some .directory := by
  fun_induction followFrom d start ns with
  | case1 =>
    obtain rfl := Except.ok.inj h
    exact hstart
  | case2 => cases h
  | case3 => cases h
  | case4 start name rest hnode hname ih => exact ih hstart h
  | case5 start rest hnode hname ih =>
    -- what is above the parent is above the place itself
    refine ih (fun p hp hne => ?_) h
    refine hstart p (hp.trans (List.dropLast_prefix start)) fun heq => hne ?_
    rw [heq] at hp ⊢
    exact hp.eq_of_length_le (List.dropLast_prefix start).length_le
  | case6 => cases h
  | case7 start name rest hnode hname hup hlong ih =>
    -- the name was looked up in a directory
    refine ih (fun p hp hne => ?_) h
    rcases List.prefix_concat_iff.mp hp with rfl | hp
    · exact absurd rfl hne
    · by_cases hp' : p = start
      · rw [hp']
        exact hnode
      · exact hstart p hp hp'

/-- A path whose last name does not lead down leads to a directory. -/
theorem directory_of_follow_last {path n : String} {place : Place}
    (hlast : (names path).getLast? = some n) (hn : n = "" ∨ n = "." ∨ n = "..")
    (h : d.follow path = .ok place) : d.node? place = some .directory := by
  have hfrom := (follow_eq_ok_iff.mp h).2.2
  obtain ⟨front, hfront⟩ := List.getLast?_eq_some_iff.mp hlast
  rw [hfront, followFrom_append] at hfrom
  cases hmid : d.followFrom [] front with
  | error e =>
    rw [hmid] at hfrom
    cases hfrom
  | ok mid =>
    rw [hmid] at hfrom
    dsimp only at hfrom
    have hnode := followFrom_single hfrom
    have hplace := eq_walk_of_followFrom hfrom
    -- a blank or a point leads nowhere else, and two points lead to the parent
    rcases or_assoc.mpr hn with hblank | rfl
    · rw [walk, if_pos hblank] at hplace
      rw [hplace]
      exact hnode
    · rw [walk, if_neg (by decide), if_pos rfl, walk] at hplace
      rw [hplace]
      by_cases hroot : mid.dropLast = mid
      · rw [hroot]
        exact hnode
      · have habove := directory_above_followFrom (fun p hp hne =>
          absurd (List.prefix_nil.mp hp) hne) hmid
        exact habove _ (List.dropLast_prefix mid) hroot

/-! ### Disks with more on them -/

/-- Every directory of one disk is a directory of another. -/
def KeepsDirectories (d d' : Disk) : Prop :=
  ∀ place, d.node? place = some .directory → d'.node? place = some .directory

theorem KeepsDirectories.refl (d : Disk) : KeepsDirectories d d :=
  fun _ h => h

theorem KeepsDirectories.trans {d'' : Disk} (h : KeepsDirectories d d')
    (h' : KeepsDirectories d' d'') : KeepsDirectories d d'' :=
  fun place hplace => h' place (h place hplace)

theorem KeepsDirectories.followFrom (hkeeps : KeepsDirectories d d') {start place : Place}
    {ns : List String} (h : d.followFrom start ns = .ok place) :
    d'.followFrom start ns = .ok place := by
  -- only directories on the way are looked at, and they are kept
  fun_induction Disk.followFrom d start ns with
  | case1 start => exact h
  | case2 => cases h
  | case3 => cases h
  | case4 start name rest hnode hname ih =>
    rw [Disk.followFrom, hkeeps _ hnode]
    simpa [hname] using ih h
  | case5 start rest hnode hname ih =>
    rw [Disk.followFrom, hkeeps _ hnode]
    simpa using ih h
  | case6 => cases h
  | case7 start name rest hnode hname hup hlong ih =>
    rw [Disk.followFrom, hkeeps _ hnode]
    simpa [hname, hup, hlong] using ih h

theorem KeepsDirectories.follow (hkeeps : KeepsDirectories d d') {path : String} {place : Place}
    (h : d.follow path = .ok place) : d'.follow path = .ok place := by
  obtain ⟨hzero, hempty, hfollow⟩ := follow_eq_ok_iff.mp h
  exact follow_eq_ok_iff.mpr ⟨hzero, hempty, hkeeps.followFrom hfollow⟩

theorem node?_put {place : Place} (hplace : place ≠ []) (node : Node) (p : Place) :
    (d.put place node).node? p = if p = place then some node else d.node? p := by
  unfold node? put
  rw [Table.get?_put]
  by_cases hp : p = []
  · rw [if_pos hp, if_neg (fun h => hplace (h.symm.trans hp)), if_pos hp]
  · rw [if_neg hp, if_neg hp]

/-! ### Reading and writing -/

theorem read_eq_ok_iff {path : String} {content : Bytes} :
    d.read path = .ok content ↔
      d.follow path = .ok (placeOf path) ∧ d.node? (placeOf path) = some (.file content) := by
  unfold read
  cases hfollow : d.follow path with
  | error e => simp
  | ok place =>
    obtain rfl := eq_placeOf_of_follow hfollow
    dsimp only
    split
    · next hnode => simp [hnode]
    · next hnode => simp [hnode]
    · next bytes hnode => simp [hnode]

/-- A file is written where its path leads, and never over a directory. -/
theorem write_eq_ok {path : String} {content : Bytes} (h : d.write path content = (d', .ok ())) :
    d.follow path = .ok (placeOf path) ∧ d.node? (placeOf path) ≠ some .directory ∧
      d' = d.put (placeOf path) (.file content) := by
  unfold write at h
  cases hfollow : d.follow path with
  | error e => simp [hfollow] at h
  | ok place =>
    obtain rfl := eq_placeOf_of_follow hfollow
    rw [hfollow] at h
    dsimp only at h
    split at h
    · cases h
    · next hnode =>
      exact ⟨rfl, hnode, (Prod.mk.inj h).1.symm⟩

theorem node?_write {path : String} {content : Bytes} (h : d.write path content = (d', .ok ()))
    (place : Place) :
    d'.node? place = if place = placeOf path then some (.file content) else d.node? place := by
  obtain ⟨-, hnode, rfl⟩ := write_eq_ok h
  have hroot : placeOf path ≠ [] := by
    intro hnil
    rw [hnil] at hnode
    exact hnode rfl
  exact node?_put hroot _ _

theorem keepsDirectories_write {path : String} {content : Bytes}
    (h : d.write path content = (d', .ok ())) : KeepsDirectories d d' := by
  intro place hplace
  rw [node?_write h, if_neg]
  · exact hplace
  · rintro rfl
    exact (write_eq_ok h).2.1 hplace

/-- A file that was written holds what was written. -/
theorem read_of_write {path : String} {content : Bytes}
    (h : d.write path content = (d', .ok ())) : d'.read path = .ok content := by
  refine read_eq_ok_iff.mpr ⟨(keepsDirectories_write h).follow (write_eq_ok h).1, ?_⟩
  rw [node?_write h, if_pos rfl]

/-- A file at another place holds what it held. -/
theorem read_write_of_ne {path other : String} {content bytes : Bytes}
    (h : d.write path content = (d', .ok ())) (hne : placeOf other ≠ placeOf path)
    (hother : d.read other = .ok bytes) : d'.read other = .ok bytes := by
  obtain ⟨hfollow, hnode⟩ := read_eq_ok_iff.mp hother
  refine read_eq_ok_iff.mpr ⟨(keepsDirectories_write h).follow hfollow, ?_⟩
  rw [node?_write h, if_neg hne]
  exact hnode

/-! ### Making directories -/

theorem node?_makeFrom {start place : Place} {ns : List String} {node : Node}
    (h : d.node? place = some node) : (d.makeFrom start ns).1.node? place = some node := by
  fun_induction makeFrom d start ns with
  | case1 => exact h
  | case2 d start name rest hname ih => exact ih h
  | case3 d start rest hname ih => exact ih h
  | case4 => exact h
  | case5 d start name rest hname hup hlong next hnode ih => exact ih h
  | case6 => exact h
  | case7 d start name rest hname hup hlong next hnode ih =>
    apply ih
    -- a directory is only made where there is nothing
    rw [node?_put (by simp [next]), if_neg]
    · exact h
    · rintro rfl
      rw [hnode] at h
      cases h

/-- Making directories leaves everything where it is. -/
theorem node?_makeDirectories {path : String} {place : Place} {node : Node}
    (h : d.node? place = some node) : (d.makeDirectories path).1.node? place = some node := by
  unfold makeDirectories
  split
  · exact h
  · exact node?_makeFrom h

theorem keepsDirectories_makeDirectories (d : Disk) (path : String) :
    KeepsDirectories d (d.makeDirectories path).1 :=
  fun _ h => node?_makeDirectories h

theorem read_makeDirectories {path other : String} {bytes : Bytes}
    (h : d.read other = .ok bytes) : (d.makeDirectories path).1.read other = .ok bytes := by
  obtain ⟨hfollow, hnode⟩ := read_eq_ok_iff.mp h
  exact read_eq_ok_iff.mpr
    ⟨(keepsDirectories_makeDirectories d path).follow hfollow, node?_makeDirectories hnode⟩

/-! ### Listing -/

theorem mem_inside {place : Place} {name : String} {node : Node}
    (h : d.node? (place ++ [name]) = some node) : (name, node) ∈ d.inside place := by
  rw [node?, if_neg (by simp)] at h
  obtain ⟨entry, hfind, rfl⟩ := Option.map_eq_some_iff.mp h
  have hkey := List.find?_some hfind
  refine List.mem_filterMap.mpr ⟨entry, List.mem_of_find?_eq_some hfind, ?_⟩
  obtain ⟨key, node⟩ := entry
  obtain rfl : key = place ++ [name] := by simpa using hkey
  simp

/-- A name is inside a place when an entry for the place one step down says so. -/
theorem eq_of_inside {place key : Place} {node : Node} {listed : String × Node}
    (h : (match key.getLast? with
      | some name => if key.dropLast = place then some (name, node) else none
      | none => none) = some listed) : key = place ++ [listed.1] ∧ node = listed.2 := by
  split at h
  · next name hlast =>
    obtain ⟨front, rfl⟩ := List.getLast?_eq_some_iff.mp hlast
    rw [List.dropLast_concat] at h
    split at h
    · next hplace =>
      cases h
      exact ⟨by rw [hplace], rfl⟩
    · cases h
  · cases h

/-- On a disk with one entry for each place, what is listed inside a place lies there. -/
theorem mem_inside_iff (hd : d.nodes.keys.Nodup) {place : Place} {name : String} {node : Node} :
    (name, node) ∈ d.inside place ↔ d.node? (place ++ [name]) = some node := by
  refine ⟨fun h => ?_, mem_inside⟩
  obtain ⟨⟨key, node'⟩, hentry, hlisted⟩ := List.mem_filterMap.mp h
  obtain ⟨rfl, rfl⟩ := eq_of_inside hlisted
  rw [node?, if_neg (by simp), Table.get?_of_mem hd hentry]

/-- On a disk with one entry for each place no name is listed twice. -/
theorem nodup_inside (hd : d.nodes.keys.Nodup) (place : Place) :
    ((d.inside place).map (·.1)).Nodup := by
  rw [List.Nodup, List.pairwise_map, inside, List.pairwise_filterMap]
  refine (List.pairwise_map.mp hd).imp fun hne listed hlisted listed' hlisted' heq => hne ?_
  rw [(eq_of_inside hlisted).1, (eq_of_inside hlisted').1, heq]

/-- What is listed of a directory is what lies inside its place. -/
theorem eq_inside_of_list {dir : String} {contents : List (String × Node)}
    (h : d.list dir = .ok contents) : contents = d.inside (placeOf dir) := by
  unfold list at h
  split at h
  · cases h
  · next place hfollow =>
    obtain rfl := eq_placeOf_of_follow hfollow
    split at h
    · cases h
    · cases h
    · exact (Except.ok.inj h).symm

/-- A file that can be read is listed in its directory. -/
theorem mem_list {dir name : String} {bytes : Bytes} {contents : List (String × Node)}
    (hdir : EndsInName dir) (hname : LeadsDown name)
    (hread : d.read (child dir name) = .ok bytes) (hlist : d.list dir = .ok contents) :
    (name, .file bytes) ∈ contents := by
  obtain ⟨hfollow, hnode⟩ := read_eq_ok_iff.mp hread
  obtain ⟨hfollowDir, hnodeDir⟩ := follow_child hdir hname hfollow
  unfold list at hlist
  rw [hfollowDir] at hlist
  dsimp only at hlist
  rw [hnodeDir] at hlist
  obtain rfl := Except.ok.inj hlist
  rw [placeOf_child hdir hname] at hnode
  exact mem_inside hnode

end Disk

end AchCourier.Local
