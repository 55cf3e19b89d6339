import AchCourier.Proofs.Local.Disk

/-!
# What lies below a place

A step on the disk changes what lies at a few places that its path tells.  Writing a file changes
the place of the file; making a directory changes places on the way to it, where there was nothing;
and removing a tree leaves nothing at its place and below it.  So what a step may change below a
directory is known from the names behind the path of the directory.

## Main definitions

* `Storable` — a name that a disk can hold.
* `OnWay` — a place on the way that names lead.
* `Disk.Vacant` — nothing lies at a place or below it.
* `Disk.SameBut` — below one place, two disks differ at most at another place and below that.
* `Disk.Tidy` — a directory that is there, or to which a path leads straight down.

## Main results

* `placeOf_child_eq` — the place of a name inside any directory.
* `Disk.node?_write_cases`, `Disk.node?_makeFrom_cases`, `Disk.node?_removeTree_cases` — what a
  step changes.
* `Disk.node?_makeDirectories_child` — **making a directory two steps below another makes nothing
  else below that.**
* `Disk.follow_of_makeDirectories` — a directory that was made is found.
* `Disk.vacant_removeTree` — nothing is left of a tree that was removed.
* `Disk.makeDirectories_child_ok`, `Disk.write_child_ok` — when a step succeeds.
-/

namespace AchCourier.Local

/-- A disk can hold the name. -/
structure Storable (name : String) : Prop where
  short : name.utf8ByteSize ≤ Disk.longestName
  zero_notMem : '\x00' ∉ name.toList

/-! ### Names inside a directory -/

theorem zero_notMem_child {dir name : String} (hdir : EndsInName dir) :
    '\x00' ∉ (child dir name).toList ↔ '\x00' ∉ dir.toList ∧ '\x00' ∉ name.toList := by
  rw [child_eq hdir]
  simp

/-- The names in the path of a directory, but for an empty one behind a slash at the end, come
first in the path of a name inside it. -/
theorem names_child_cases (dir : String) {name : String} (hname : LeadsDown name) :
    ∃ front, (names dir = front ∨ names dir = front ++ [""]) ∧
      names (child dir name) = front ++ [name] := by
  have hsingle : Text.split '/' name = [name] := by
    rw [Text.split, List.splitOn_eq_singleton hname.slash_notMem]
    simp
  unfold child
  split
  · next hends =>
    rcases hends with rfl | hlast
    · exact ⟨[], Or.inr rfl, by rw [names, String.empty_append, hsingle]; rfl⟩
    · -- the slash at the end stands where a new one would
      obtain ⟨front, hfront⟩ := List.getLast?_eq_some_iff.mp hlast
      refine ⟨(front.splitOn '/').map String.ofList, Or.inr ?_, ?_⟩
      · rw [names, Text.split, hfront, List.splitOn_append_cons_self]
        simp
      · rw [names, Text.split, String.toList_append, hfront, List.append_assoc,
          List.singleton_append, List.splitOn_append_cons_self,
          List.splitOn_eq_singleton hname.slash_notMem]
        simp
  · refine ⟨names dir, Or.inl rfl, ?_⟩
    have hchars : (dir ++ "/" ++ name).toList = dir.toList ++ '/' :: name.toList := by simp
    rw [names, names, Text.split, Text.split, hchars, List.splitOn_append_cons_self,
      List.splitOn_eq_singleton hname.slash_notMem]
    simp

theorem walk_empty (place : Place) : walk place [""] = place := by simp [walk]

/-- An empty name behind the others leads nowhere. -/
theorem walk_of_cases {start : Place} {ns front : List String}
    (h : ns = front ∨ ns = front ++ [""]) : walk start ns = walk start front := by
  rcases h with rfl | rfl
  · rfl
  · rw [walk_append, walk_empty]

/-- **A name inside a directory lies one step down**, however the path of the directory ends. -/
theorem placeOf_child_eq (dir : String) {name : String} (hname : LeadsDown name) :
    placeOf (child dir name) = placeOf dir ++ [name] := by
  obtain ⟨front, hdir, hchild⟩ := names_child_cases dir hname
  rw [placeOf, placeOf, hchild, walk_append, walk_single hname, walk_of_cases hdir]

theorem walk_of_leadsDown {place : Place} {ns : List String} (h : ∀ n ∈ ns, LeadsDown n) :
    walk place ns = place ++ ns := by
  induction ns generalizing place with
  | nil => simp [walk]
  | cons name ns ih =>
    obtain ⟨hname, hns⟩ := List.forall_mem_cons.mp h
    rw [← List.singleton_append, walk_append, walk_single hname, ih hns, List.append_assoc]

/-- A path that does not lead back only leads further. -/
theorem prefix_walk {place : Place} {ns : List String} (h : ".." ∉ ns) :
    place <+: walk place ns := by
  induction ns generalizing place with
  | nil => exact List.prefix_rfl
  | cons name ns ih =>
    obtain ⟨hname, hns⟩ := not_or.mp fun hmem => h (List.mem_cons.mpr hmem)
    rw [walk, if_neg (Ne.symm hname)]
    split
    · exact ih hns
    · exact (List.prefix_append _ _).trans (ih hns)

/-- The place lies on the way from `start` along the names. -/
def OnWay (start : Place) (ns : List String) (p : Place) : Prop :=
  ∃ front, front <+: ns ∧ p = walk start front

theorem OnWay.start (place : Place) (ns : List String) : OnWay place ns place :=
  ⟨[], List.nil_prefix, rfl⟩

theorem OnWay.cons {start next p : Place} {name : String} {rest : List String}
    (h : OnWay next rest p) (hstep : ∀ front, walk start (name :: front) = walk next front) :
    OnWay start (name :: rest) p := by
  obtain ⟨front, hfront, rfl⟩ := h
  exact ⟨name :: front, List.cons_prefix_cons.mpr ⟨rfl, hfront⟩, (hstep front).symm⟩

theorem OnWay.blank {start p : Place} {name : String} {rest : List String}
    (hname : name = "" ∨ name = ".") (h : OnWay start rest p) : OnWay start (name :: rest) p :=
  h.cons fun front => by rw [walk, if_pos hname]

theorem OnWay.up {start p : Place} {rest : List String} (h : OnWay start.dropLast rest p) :
    OnWay start (".." :: rest) p :=
  h.cons fun front => by rw [walk, if_neg (by decide), if_pos rfl]

theorem OnWay.down {start p : Place} {name : String} {rest : List String}
    (hname : ¬ (name = "" ∨ name = ".")) (hup : name ≠ "..") (h : OnWay (start ++ [name]) rest p) :
    OnWay start (name :: rest) p :=
  h.cons fun front => by rw [walk, if_neg hname, if_neg hup]

/-- A place on the way along names and others behind them lies on the way along the first ones, or
behind where these lead. -/
theorem OnWay.append {start p : Place} {first more : List String}
    (h : OnWay start (first ++ more) p) :
    OnWay start first p ∨ OnWay (walk start first) more p := by
  obtain ⟨front, hfront, rfl⟩ := h
  rcases List.prefix_or_prefix_of_prefix hfront (List.prefix_append first more) with
    hshort | ⟨behind, rfl⟩
  · exact Or.inl ⟨front, hshort, rfl⟩
  · exact Or.inr ⟨behind, (List.prefix_append_right_inj _).mp hfront, walk_append _ _ _⟩

namespace Disk

variable {d d' d'' : Disk}

/-! ### Parts of a disk -/

/-- There is nothing at the place or below it. -/
def Vacant (d : Disk) (place : Place) : Prop :=
  ∀ p, place <+: p → d.node? p = none

/-- Below the place `dir` the disks differ at most at the place `hole` and below it. -/
def SameBut (dir hole : Place) (d d' : Disk) : Prop :=
  ∀ p, dir <+: p → p ≠ dir → ¬ hole <+: p → d'.node? p = d.node? p

theorem SameBut.refl (dir hole : Place) (d : Disk) : SameBut dir hole d d :=
  fun _ _ _ _ => rfl

theorem SameBut.trans {dir hole : Place} (h : SameBut dir hole d d')
    (h' : SameBut dir hole d' d'') : SameBut dir hole d d'' :=
  fun p hdir hne hhole => (h' p hdir hne hhole).trans (h p hdir hne hhole)

/-- The directory is there, or the path does not lead back on its way to it. -/
def Tidy (d : Disk) (dir : String) : Prop :=
  (∃ contents, d.list dir = .ok contents) ∨ ".." ∉ names dir

theorem follow_of_list {dir : String} {contents : List (String × Node)}
    (h : d.list dir = .ok contents) :
    d.follow dir = .ok (placeOf dir) ∧ d.node? (placeOf dir) = some .directory := by
  unfold list at h
  split at h
  · cases h
  · next place hfollow =>
    obtain rfl := eq_placeOf_of_follow hfollow
    split at h
    · cases h
    · cases h
    · next hnode => exact ⟨hfollow, hnode⟩

theorem KeepsDirectories.tidy {dir : String} (hkeeps : KeepsDirectories d d') (h : d.Tidy dir) :
    d'.Tidy dir := by
  rcases h with ⟨contents, hlist⟩ | hstraight
  · obtain ⟨hfollow, hnode⟩ := follow_of_list hlist
    refine Or.inl ⟨d'.inside (placeOf dir), ?_⟩
    rw [list, hkeeps.follow hfollow]
    dsimp only
    rw [hkeeps _ hnode]
  · exact Or.inr hstraight

/-! ### What a step changes -/

/-- A write that fails leaves the disk as it was. -/
theorem write_eq_error {path : String} {content : Bytes} {fault : Fault}
    (h : d.write path content = (d', .error fault)) : d' = d := by
  unfold write at h
  split at h
  · exact (Prod.mk.inj h).1.symm
  · split at h
    · exact (Prod.mk.inj h).1.symm
    · cases (Prod.mk.inj h).2

/-- Writing a file changes at most what lies at its place. -/
theorem node?_write_cases (d : Disk) (path : String) (content : Bytes) (p : Place) :
    (d.write path content).1.node? p = d.node? p ∨
      p = placeOf path ∧ (d.write path content).1.node? p = some (.file content) := by
  rcases h : d.write path content with ⟨after, result⟩
  cases result with
  | ok =>
    rw [node?_write h]
    by_cases hp : p = placeOf path
    · exact Or.inr ⟨hp, if_pos hp⟩
    · exact Or.inl (if_neg hp)
  | error fault => exact Or.inl (by rw [write_eq_error h])

theorem keepsDirectories_write_fst (d : Disk) (path : String) (content : Bytes) :
    KeepsDirectories d (d.write path content).1 := by
  intro place hplace
  rcases h : d.write path content with ⟨after, result⟩
  cases result with
  | ok => exact keepsDirectories_write h place hplace
  | error fault =>
    rw [write_eq_error h]
    exact hplace

theorem node?_of_makeFrom {start place : Place} {ns : List String} {node : Node}
    {result : Except Fault Unit} (h : d.makeFrom start ns = (d', result))
    (hnode : d.node? place = some node) : d'.node? place = some node := by
  have hkept : (d.makeFrom start ns).1.node? place = some node := node?_makeFrom hnode
  rwa [h] at hkept

/-- Making directories changes at most what lies on the way, where there was nothing. -/
theorem node?_makeFrom_cases (d : Disk) (start : Place) (ns : List String) (p : Place) :
    (d.makeFrom start ns).1.node? p = d.node? p ∨
      d.node? p = none ∧ (d.makeFrom start ns).1.node? p = some .directory ∧
        OnWay start ns p := by
  -- by the cases of making directories, of which only the last one makes something
  fun_induction makeFrom d start ns with
  | case1 => exact Or.inl rfl
  | case2 d start name rest hname ih =>
    exact ih.imp_right (And.imp_right (And.imp_right (OnWay.blank hname)))
  | case3 d start rest hname ih => exact ih.imp_right (And.imp_right (And.imp_right OnWay.up))
  | case4 => exact Or.inl rfl
  | case5 d start name rest hname hup hlong next hnode ih =>
    exact ih.imp_right (And.imp_right (And.imp_right (OnWay.down hname hup)))
  | case6 => exact Or.inl rfl
  | case7 d start name rest hname hup hlong next hnode ih =>
    have hput : ∀ place, (d.put next .directory).node? place =
        if place = next then some .directory else d.node? place :=
      node?_put (by simp [next]) .directory
    by_cases hp : p = next
    · subst hp
      have hmade : ((d.put next .directory).makeFrom next rest).1.node? next = some .directory :=
        node?_makeFrom (by rw [hput, if_pos rfl])
      exact Or.inr ⟨hnode, hmade, (OnWay.start next rest).down hname hup⟩
    · rw [hput, if_neg hp] at ih
      exact ih.imp_right (And.imp_right (And.imp_right (OnWay.down hname hup)))

/-- Removing a tree changes at most what lies at its place and below it. -/
theorem node?_removeTree_cases (d : Disk) (path : String) (p : Place) :
    (d.removeTree path).1.node? p = d.node? p ∨
      placeOf path <+: p ∧ (d.removeTree path).1.node? p = none := by
  unfold removeTree
  split
  · exact Or.inl rfl
  · next place hfollow =>
    obtain rfl := eq_placeOf_of_follow hfollow
    split
    · exact Or.inl rfl
    · unfold node?
      by_cases hroot : p = []
      · simp [hroot]
      · rw [if_neg hroot, if_neg hroot, Table.get?_restrict]
        by_cases hbelow : placeOf path <+: p
        · exact Or.inr ⟨hbelow, by simp [List.isPrefixOf_iff_prefix.mpr hbelow]⟩
        · exact Or.inl (by simp [hbelow])

/-- **Nothing is left of a tree that was removed.** -/
theorem vacant_removeTree {path : String} {node : Node}
    (hfollow : d.follow path = .ok (placeOf path)) (hnode : d.node? (placeOf path) = some node)
    (hroot : placeOf path ≠ []) :
    (d.removeTree path).1.Vacant (placeOf path) := by
  intro p hbelow
  have hp : p ≠ [] := fun hp => hroot (List.prefix_nil.mp (hp ▸ hbelow))
  unfold removeTree
  rw [hfollow]
  dsimp only
  rw [hnode]
  unfold node?
  rw [if_neg hp, Table.get?_restrict]
  simp [List.isPrefixOf_iff_prefix.mpr hbelow]

/-! ### Making directories on the way -/

/-- The names behind others are taken where the others have led. -/
theorem makeFrom_append {start : Place} {first : List String} (more : List String)
    (h : d.makeFrom start first = (d', .ok ())) :
    d.makeFrom start (first ++ more) = d'.makeFrom (walk start first) more := by
  -- the first names end where they lead, and the others are made from there
  fun_induction makeFrom d start first with
  | case1 => rw [← (Prod.mk.inj h).1]; rfl
  | case2 d start name rest hname ih =>
    rw [List.cons_append, makeFrom, if_pos hname, ih h, walk, if_pos hname]
  | case3 d start rest hname ih =>
    rw [List.cons_append, makeFrom, if_neg hname, if_pos rfl, ih h, walk, if_neg hname, if_pos rfl]
  | case4 => cases (Prod.mk.inj h).2
  | case5 d start name rest hname hup hlong next hnode ih =>
    rw [List.cons_append, makeFrom, if_neg hname, if_neg hup, if_neg hlong, walk, if_neg hname,
      if_neg hup, ← ih h]
    simp only [next] at hnode
    simp only [hnode, next]
  | case6 => cases (Prod.mk.inj h).2
  | case7 d start name rest hname hup hlong next hnode ih =>
    rw [List.cons_append, makeFrom, if_neg hname, if_neg hup, if_neg hlong, walk, if_neg hname,
      if_neg hup, ← ih h]
    simp only [next] at hnode
    simp only [hnode, next]

/-- Names behind others that cannot be made are not reached. -/
theorem makeFrom_append_of_error {start : Place} {first : List String} {fault : Fault}
    (more : List String) (h : d.makeFrom start first = (d', .error fault)) :
    ∃ fault', d.makeFrom start (first ++ more) = (d', .error fault') := by
  -- the fault comes before the names behind are looked at
  fun_induction makeFrom d start first with
  | case1 => cases (Prod.mk.inj h).2
  | case2 d start name rest hname ih =>
    rw [List.cons_append, makeFrom, if_pos hname]
    exact ih h
  | case3 d start rest hname ih =>
    rw [List.cons_append, makeFrom, if_neg hname, if_pos rfl]
    exact ih h
  | case4 d start name rest hname hup hlong =>
    rw [List.cons_append, makeFrom, if_neg hname, if_neg hup, if_pos hlong]
    exact ⟨_, Prod.ext (Prod.mk.inj h).1 rfl⟩
  | case5 d start name rest hname hup hlong next hnode ih =>
    rw [List.cons_append, makeFrom, if_neg hname, if_neg hup, if_neg hlong]
    simp only [next] at hnode
    simp only [hnode]
    exact ih h
  | case6 d start name rest hname hup hlong next content hnode =>
    rw [List.cons_append, makeFrom, if_neg hname, if_neg hup, if_neg hlong]
    simp only [next] at hnode
    simp only [hnode]
    exact ⟨_, Prod.ext (Prod.mk.inj h).1 rfl⟩
  | case7 d start name rest hname hup hlong next hnode ih =>
    rw [List.cons_append, makeFrom, if_neg hname, if_neg hup, if_neg hlong]
    simp only [next] at hnode
    simp only [hnode]
    exact ih h

/-- What is made along names is made along the first of them and then along the others. -/
theorem makeFrom_append_eq_ok {start : Place} {first more : List String}
    (h : d.makeFrom start (first ++ more) = (d', .ok ())) :
    ∃ mid, d.makeFrom start first = (mid, .ok ()) ∧
      mid.makeFrom (walk start first) more = (d', .ok ()) := by
  rcases hfirst : d.makeFrom start first with ⟨mid, fault | _⟩
  · obtain ⟨fault', herror⟩ := makeFrom_append_of_error more hfirst
    cases h.symm.trans herror
  · exact ⟨mid, rfl, (makeFrom_append more hfirst).symm.trans h⟩

/-- Nothing is made for names that lead nowhere. -/
theorem makeFrom_blanks {start : Place} {blanks : List String}
    (h : ∀ n ∈ blanks, n = "" ∨ n = ".") : d.makeFrom start blanks = (d, .ok ()) := by
  induction blanks with
  | nil => rfl
  | cons name blanks ih =>
    obtain ⟨hname, hblanks⟩ := List.forall_mem_cons.mp h
    rw [makeFrom, if_pos hname, ih hblanks]

/-- What has been made is found. -/
theorem followFrom_of_makeFrom {start : Place} {ns : List String}
    (hstart : ∀ p, p <+: start → d.node? p = some .directory)
    (h : d.makeFrom start ns = (d', .ok ())) :
    d'.followFrom start ns = .ok (walk start ns) ∧ d'.node? (walk start ns) = some .directory := by
  -- the names are followed on the disk at the end, where the directories at the start still are
  have hkept := node?_of_makeFrom h (hstart start List.prefix_rfl)
  fun_induction makeFrom d start ns with
  | case1 => exact ⟨rfl, hkept⟩
  | case2 d start name rest hname ih =>
    rw [followFrom, hkept, walk, if_pos hname, if_pos hname]
    exact ih hstart h hkept
  | case3 d start rest hname ih =>
    have hup : ∀ p, p <+: start.dropLast → d.node? p = some .directory := fun p hp =>
      hstart p (hp.trans (List.dropLast_prefix start))
    rw [followFrom, hkept, walk, if_neg hname, if_neg hname, if_pos rfl, if_pos rfl]
    exact ih hup h (node?_of_makeFrom h (hup _ List.prefix_rfl))
  | case4 => cases (Prod.mk.inj h).2
  | case5 d start name rest hname hup hlong next hnode ih =>
    have hnext : ∀ p, p <+: next → d.node? p = some .directory := by
      intro p hp
      rcases List.prefix_concat_iff.mp hp with rfl | hp
      · exact hnode
      · exact hstart p hp
    rw [followFrom, hkept, walk]
    simp only [if_neg hname, if_neg hup, if_neg hlong]
    exact ih hnext h (node?_of_makeFrom h hnode)
  | case6 => cases (Prod.mk.inj h).2
  | case7 d start name rest hname hup hlong next hnode ih =>
    have hput : ∀ place, (d.put next .directory).node? place =
        if place = next then some .directory else d.node? place :=
      node?_put (by simp [next]) .directory
    have hnext : ∀ p, p <+: next → (d.put next .directory).node? p = some .directory := by
      intro p hp
      rw [hput]
      split
      · rfl
      · next hne => exact hstart p ((List.prefix_concat_iff.mp hp).resolve_left hne)
    rw [followFrom, hkept, walk]
    simp only [if_neg hname, if_neg hup, if_neg hlong]
    exact ih hnext h (node?_of_makeFrom h (hnext _ List.prefix_rfl))

/-- A path that leads into a directory starts in one. -/
theorem node?_start_of_followFrom {start place : Place} {ns : List String}
    (h : d.followFrom start ns = .ok place) (hplace : d.node? place = some .directory) :
    d.node? start = some .directory := by
  cases ns with
  | nil =>
    obtain rfl := Except.ok.inj h
    exact hplace
  | cons name rest =>
    rw [followFrom] at h
    split at h
    · cases h
    · cases h
    · assumption

/-- Where everything is there, nothing is made. -/
theorem makeFrom_of_followFrom {start place : Place} {ns : List String}
    (h : d.followFrom start ns = .ok place) (hplace : d.node? place = some .directory) :
    d.makeFrom start ns = (d, .ok ()) := by
  -- every name on the way leads to a directory, so none is made
  fun_induction followFrom d start ns with
  | case1 => rfl
  | case2 => cases h
  | case3 => cases h
  | case4 start name rest hnode hname ih => rw [makeFrom, if_pos hname, ih h]
  | case5 start rest hnode hname ih => rw [makeFrom, if_neg hname, if_pos rfl, ih h]
  | case6 => cases h
  | case7 start name rest hnode hname hup hlong ih =>
    rw [makeFrom, if_neg hname, if_neg hup, if_neg hlong]
    simp only [node?_start_of_followFrom h hplace]
    exact ih h

/-- A single step that fails leaves the disk as it was. -/
theorem makeFrom_single_of_error {start : Place} {name : String} {fault : Fault}
    (hname : LeadsDown name) (h : d.makeFrom start [name] = (d', .error fault)) : d' = d := by
  rw [makeFrom, if_neg (by simp [hname.ne_empty, hname.ne_here]), if_neg hname.ne_up] at h
  split at h
  · exact (Prod.mk.inj h).1.symm
  · dsimp only at h
    split at h
    · cases (Prod.mk.inj h).2
    · exact (Prod.mk.inj h).1.symm
    · cases (Prod.mk.inj h).2

theorem makeDirectories_of_zero {path : String} (h : '\x00' ∈ path.toList) :
    d.makeDirectories path = (d, .error .zeroInName) := by
  unfold makeDirectories
  rw [if_pos (by simpa using h)]

theorem makeDirectories_eq {path : String} (h : '\x00' ∉ path.toList) :
    d.makeDirectories path = d.makeFrom [] (names path) := by
  unfold makeDirectories
  rw [if_neg (by simpa using h)]

/-- **A directory that was made is found.** -/
theorem follow_of_makeDirectories {path : String} (hpath : path ≠ "")
    (h : d.makeDirectories path = (d', .ok ())) :
    d'.follow path = .ok (placeOf path) ∧ d'.node? (placeOf path) = some .directory := by
  by_cases hzero : '\x00' ∈ path.toList
  · rw [makeDirectories_of_zero hzero] at h
    cases (Prod.mk.inj h).2
  · rw [makeDirectories_eq hzero] at h
    have hroot : ∀ p, p <+: [] → d.node? p = some .directory := fun p hp => by
      rw [List.prefix_nil.mp hp]
      rfl
    obtain ⟨hfollow, hnode⟩ := followFrom_of_makeFrom hroot h
    exact ⟨follow_eq_ok_iff.mpr ⟨hzero, hpath, hfollow⟩, hnode⟩

/-- A directory that is there is not made again. -/
theorem makeDirectories_of_follow {path : String} (hfollow : d.follow path = .ok (placeOf path))
    (hnode : d.node? (placeOf path) = some .directory) : d.makeDirectories path = (d, .ok ()) := by
  obtain ⟨hzero, -, hfrom⟩ := follow_eq_ok_iff.mp hfollow
  rw [makeDirectories_eq hzero]
  exact makeFrom_of_followFrom hfrom hnode

/-- A directory that is found is found without an empty name at the end of its path. -/
theorem followFrom_front {dir : String} {front : List String}
    (hdir : names dir = front ∨ names dir = front ++ [""])
    (h : d.follow dir = .ok (placeOf dir)) : d.followFrom [] front = .ok (placeOf dir) := by
  have hall := (follow_eq_ok_iff.mp h).2.2
  rcases hdir with hnames | hnames
  · rwa [hnames] at hall
  · -- the empty name behind a slash leads nowhere else
    have hplace : placeOf dir = walk [] front := walk_of_cases (Or.inr hnames)
    rw [hnames, followFrom_append] at hall
    cases hfirst : d.followFrom [] front with
    | error fault =>
      rw [hfirst] at hall
      cases hall
    | ok mid => rw [eq_walk_of_followFrom hfirst, hplace]

/-- Of what is made along the way to a directory and on from there, only what lies on from there
lies below the directory.  Here `front` are the names in the path of the directory. -/
theorem node?_makeFrom_below {dir : String} {front more : List String} (htidy : d.Tidy dir)
    (hdir : names dir = front ∨ names dir = front ++ [""]) (hmore : ∀ n ∈ more, LeadsDown n)
    {p : Place} (hbelow : placeOf dir <+: p) (hne : p ≠ placeOf dir) :
    (d.makeFrom [] (front ++ more)).1.node? p = d.node? p ∨
      d.node? p = none ∧ (d.makeFrom [] (front ++ more)).1.node? p = some .directory ∧
        ∃ down, down <+: more ∧ p = placeOf dir ++ down := by
  have hplace : walk [] front = placeOf dir := (walk_of_cases hdir).symm
  have hdown : OnWay (placeOf dir) more p → ∃ down, down <+: more ∧ p = placeOf dir ++ down := by
    rintro ⟨down, hdown, rfl⟩
    exact ⟨down, hdown, walk_of_leadsDown fun n hn => hmore n (hdown.subset hn)⟩
  rcases htidy with ⟨contents, hlist⟩ | hstraight
  · -- the directory is there, so nothing is made before its names have been followed
    obtain ⟨hfollow, hnode⟩ := follow_of_list hlist
    have hthere := makeFrom_of_followFrom (followFrom_front hdir hfollow) hnode
    rw [makeFrom_append more hthere, hplace]
    exact (node?_makeFrom_cases d (placeOf dir) more p).imp_right fun ⟨hnone, hmade, hway⟩ =>
      ⟨hnone, hmade, hdown hway⟩
  · refine (node?_makeFrom_cases d [] (front ++ more) p).imp_right fun ⟨hnone, hmade, hway⟩ =>
      ⟨hnone, hmade, ?_⟩
    rcases hway.append with ⟨first, ⟨rest, hrest⟩, rfl⟩ | hbehind
    · -- the way to the directory does not touch what lies below it
      have hup : ".." ∉ rest := by
        intro hmem
        have hin : ".." ∈ front := hrest ▸ List.mem_append_right _ hmem
        rcases hdir with hdir | hdir <;> rw [hdir] at hstraight <;> simp [hin] at hstraight
      have habove : walk [] first <+: placeOf dir := by
        rw [← hplace, ← hrest, walk_append]
        exact prefix_walk hup
      have hlength := Nat.le_antisymm habove.length_le hbelow.length_le
      exact absurd (habove.eq_of_length hlength) hne
    · rw [hplace] at hbehind
      exact hdown hbehind

/-- The names on the way to a directory make nothing below it. -/
theorem node?_makeFrom_front {dir : String} {front : List String} (htidy : d.Tidy dir)
    (hdir : names dir = front ∨ names dir = front ++ [""]) {p : Place}
    (hbelow : placeOf dir <+: p) (hne : p ≠ placeOf dir) :
    (d.makeFrom [] front).1.node? p = d.node? p := by
  have hcases := node?_makeFrom_below htidy hdir (List.forall_mem_nil LeadsDown) hbelow hne
  rw [List.append_nil] at hcases
  rcases hcases with hsame | ⟨-, -, down, hdown, hp⟩
  · exact hsame
  · rw [List.prefix_nil.mp hdown, List.append_nil] at hp
    exact absurd hp hne

theorem names_child_child (dir : String) {name sub : String} (hname : LeadsDown name)
    (hsub : LeadsDown sub) :
    names (child (child dir name) sub) = names (child dir name) ++ [sub] :=
  names_child (endsInName_child hname.endsInName) hsub

section
variable {dir name sub : String} (htidy : d.Tidy dir) (hname : LeadsDown name)

include htidy hname

/-- **Making a directory two steps below another makes nothing else below that.** -/
theorem node?_makeDirectories_child (hsub : LeadsDown sub) {p : Place} (hbelow : placeOf dir <+: p)
    (hne : p ≠ placeOf dir) :
    (d.makeDirectories (child (child dir name) sub)).1.node? p = d.node? p ∨
      (d.makeDirectories (child (child dir name) sub)).1.node? p = some .directory ∧
        (p = placeOf (child dir name) ∨ p = placeOf (child dir name) ++ [sub]) := by
  obtain ⟨front, hdir, hchild⟩ := names_child_cases dir hname
  by_cases hzero : '\x00' ∈ (child (child dir name) sub).toList
  · rw [makeDirectories_of_zero hzero]
    exact Or.inl rfl
  rw [makeDirectories_eq hzero, names_child_child dir hname hsub, hchild, List.append_assoc]
  have hmore : ∀ n ∈ [name] ++ [sub], LeadsDown n := by simp [hname, hsub]
  refine (node?_makeFrom_below htidy hdir hmore hbelow hne).imp_right
    fun ⟨_, hmade, down, hdown, hp⟩ => ⟨hmade, ?_⟩
  rw [placeOf_child_eq dir hname, hp]
  -- below the directory the way goes on by one of the names or by both
  rcases List.prefix_cons_iff.mp hdown with rfl | ⟨rest, rfl, hrest⟩
  · exact absurd (by simpa using hp) hne
  · rcases List.prefix_cons_iff.mp hrest with rfl | ⟨last, rfl, hlast⟩
    · exact Or.inl rfl
    · rw [List.prefix_nil.mp hlast]
      exact Or.inr (by simp)

/-- Where a directory cannot be made, nothing is made below the one it should be in. -/
theorem node?_makeDirectories_of_error {fault : Fault}
    (h : d.makeDirectories (child dir name) = (d', .error fault)) {p : Place}
    (hbelow : placeOf dir <+: p) (hne : p ≠ placeOf dir) : d'.node? p = d.node? p := by
  obtain ⟨front, hdir, hchild⟩ := names_child_cases dir hname
  by_cases hzero : '\x00' ∈ (child dir name).toList
  · rw [makeDirectories_of_zero hzero] at h
    rw [(Prod.mk.inj h).1]
  rw [makeDirectories_eq hzero, hchild] at h
  have hsame := node?_makeFrom_front htidy hdir hbelow hne
  rcases hfirst : d.makeFrom [] front with ⟨mid, result⟩
  rw [hfirst] at hsame
  cases result with
  | error fault' =>
    obtain ⟨_, hmid⟩ := makeFrom_append_of_error [name] hfirst
    obtain rfl : d' = mid := (Prod.mk.inj (h.symm.trans hmid)).1
    exact hsame
  | ok =>
    -- only the last step can have failed, and it left the disk as it was
    rw [makeFrom_append [name] hfirst] at h
    rw [makeFrom_single_of_error hname h]
    exact hsame

/-- Once a directory below another was to be made, that one is found, or nothing has changed. -/
theorem makeDirectories_child_cases (hsub : LeadsDown sub)
    (h : (d.makeDirectories (child (child dir name) sub)).1 = d') :
    (d'.follow (child dir name) = .ok (placeOf (child dir name)) ∧
        d'.node? (placeOf (child dir name)) = some .directory) ∨
      ∀ p, placeOf dir <+: p → p ≠ placeOf dir → d'.node? p = d.node? p := by
  by_cases hzero : '\x00' ∈ (child (child dir name) sub).toList
  · rw [makeDirectories_of_zero hzero] at h
    exact Or.inr fun p _ _ => by rw [← h]
  have hends : EndsInName (child dir name) := endsInName_child hname.endsInName
  have hzero' := ((zero_notMem_child hends).mp hzero).1
  rw [makeDirectories_eq hzero, names_child_child dir hname hsub] at h
  rcases hfirst : d.makeDirectories (child dir name) with ⟨mid, result⟩
  have hfrom := hfirst
  rw [makeDirectories_eq hzero'] at hfrom
  -- where the first of the two cannot be made, nothing below the directory has changed
  cases result with
  | error fault =>
    obtain ⟨_, hmid⟩ := makeFrom_append_of_error [sub] hfrom
    rw [hmid] at h
    subst h
    exact Or.inr fun p hbelow hne =>
      node?_makeDirectories_of_error htidy hname hfirst hbelow hne
  | ok =>
    obtain ⟨hfollow, hnode⟩ := follow_of_makeDirectories hends.ne_empty hfirst
    rw [makeFrom_append [sub] hfrom] at h
    have hkeeps : KeepsDirectories mid d' := fun p hp => h ▸ node?_makeFrom hp
    exact Or.inl ⟨hkeeps.follow hfollow, hkeeps _ hnode⟩

end

/-! ### Steps that succeed -/

/-- A directory can be made inside one that can, unless a file stands there. -/
theorem makeDirectories_child_ok {dir sub : String} (hdir : EndsInName dir) (hsub : LeadsDown sub)
    (hstorable : Storable sub) (h : (d.makeDirectories dir).2 = .ok ())
    (hfree : ∀ content, d.node? (placeOf dir ++ [sub]) ≠ some (.file content)) :
    (d.makeDirectories (child dir sub)).2 = .ok () := by
  have hzero : '\x00' ∉ dir.toList := fun hmem => by
    rw [makeDirectories_of_zero hmem] at h
    cases h
  rw [makeDirectories_eq ((zero_notMem_child hdir).mpr ⟨hzero, hstorable.zero_notMem⟩),
    names_child hdir hsub]
  rw [makeDirectories_eq hzero] at h
  have hfrom : d.makeFrom [] (names dir) = ((d.makeFrom [] (names dir)).1, .ok ()) :=
    Prod.ext rfl h
  rw [makeFrom_append [sub] hfrom]
  have hcases := node?_makeFrom_cases d [] (names dir) (placeOf dir ++ [sub])
  generalize (d.makeFrom [] (names dir)).1 = mid at hcases
  rw [show walk [] (names dir) = placeOf dir from rfl, makeFrom,
    if_neg (by simp [hsub.ne_empty, hsub.ne_here]), if_neg hsub.ne_up,
    if_neg (Nat.not_lt.mpr hstorable.short)]
  dsimp only
  split
  · rfl
  · next content hnode =>
    -- what was made on the way is no file
    rcases hcases with hsame | ⟨-, hmade, -⟩
    · exact absurd (hsame.symm.trans hnode) (hfree content)
    · cases hmade.symm.trans hnode
  · rfl

/-- A file can be written into a directory, unless a directory stands there. -/
theorem write_child_ok {dir name : String} (hdir : EndsInName dir) (hname : LeadsDown name)
    (hstorable : Storable name) (hfollow : d.follow dir = .ok (placeOf dir))
    (hnode : d.node? (placeOf dir) = some .directory)
    (hfree : d.node? (placeOf dir ++ [name]) ≠ some .directory) (content : Bytes) :
    (d.write (child dir name) content).2 = .ok () := by
  obtain ⟨hzero, -, hfrom⟩ := follow_eq_ok_iff.mp hfollow
  -- the name is short and plain, so it leads one step down
  have hchild : d.follow (child dir name) = .ok (placeOf dir ++ [name]) := by
    refine follow_eq_ok_iff.mpr ⟨(zero_notMem_child hdir).mpr ⟨hzero, hstorable.zero_notMem⟩,
      (endsInName_child hname.endsInName).ne_empty, ?_⟩
    rw [names_child hdir hname, followFrom_append, hfrom]
    dsimp only
    rw [followFrom, hnode]
    dsimp only
    rw [if_neg (by simp [hname.ne_empty, hname.ne_here]), if_neg hname.ne_up,
      if_neg (Nat.not_lt.mpr hstorable.short), followFrom]
  unfold write
  rw [hchild]
  dsimp only
  split
  · next hdirectory => exact absurd hdirectory hfree
  · rfl

end Disk

end AchCourier.Local
