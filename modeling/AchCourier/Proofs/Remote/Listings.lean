import AchCourier.Proofs.Remote.ConnectionState
import AchCourier.Proofs.Remote.HostStates

/-!
# Listings

Reading a directory makes one request for the list of its entries and one for each entry that is no
directory, in the order of the list.  It fails exactly if one of these requests does, and it changes
nothing of what the host has.  So what it returns is all that the directory holds at that time,
whatever failures are planned, and it is the same as long as nobody changes the host.

## Main definitions

* `Memory.stored` — what a host in memory has.
* `Memory.listing` — the files directly inside a directory.
* `Agent.Reports` — an action fails exactly if one of its calls does.
* `Agent.listFiles` — what reading a directory does once there is a session.

## Main results

* `mem_entries_file_iff` — the files among the entries of a directory lie directly in it.
* `reports_readEach` — no failure of a request is passed over.
* `listing_of_listFiles` — the files that are read, and the calls that this takes.
* `readFiles_run` — what reading a directory does, with the session that it takes.
* `readFiles_exact` — **listings are exact, and all or nothing.**
-/

namespace AchCourier.Remote

variable {σ τ α β : Type}

/-! ### What a host has -/

namespace Memory

/-- What a host in memory has: its directories and its files. -/
def stored (m : Memory) : List String × Table String StoredFile :=
  (m.directories, m.files)

/-- The files that are shown as entries of a directory, each with its content; nothing if one of
them is not found at its path. -/
def filesOf (m : Memory) (dir : String) (entries : List Entry) : Option (List File) :=
  (entries.filter (!·.isDirectory)).mapM fun entry =>
    (m.file? (join dir entry.name)).map fun f => ⟨entry.name, f.content⟩

/-- The files directly inside a directory; nothing if there is no such directory. -/
def listing (m : Memory) (dir : String) : Option (List File) :=
  if m.isDirectory (normalize dir) then m.filesOf dir (m.entries (normalize dir)) else none

theorem listing_congr {m m' : Memory} (h : m.stored = m'.stored) (dir : String) :
    m.listing dir = m'.listing dir := by
  obtain ⟨directories, files⟩ := m
  obtain ⟨directories', files'⟩ := m'
  obtain ⟨rfl, rfl⟩ := Prod.mk.inj h
  rfl

theorem filesOf_congr {m m' : Memory} (h : m.stored = m'.stored) (dir : String)
    (entries : List Entry) : m.filesOf dir entries = m'.filesOf dir entries := by
  obtain ⟨directories, files⟩ := m
  obtain ⟨directories', files'⟩ := m'
  obtain ⟨rfl, rfl⟩ := Prod.mk.inj h
  rfl

theorem filesOf_cons_directory (m : Memory) (dir : String) {entry : Entry}
    (h : entry.isDirectory = true) (entries : List Entry) :
    m.filesOf dir (entry :: entries) = m.filesOf dir entries := by
  simp [filesOf, h]

theorem filesOf_cons_file_iff {m : Memory} {dir : String} {entry : Entry}
    (h : ¬ entry.isDirectory = true) {entries : List Entry} {files : List File} :
    m.filesOf dir (entry :: entries) = some files ↔
      ∃ f rest, m.file? (join dir entry.name) = some f ∧ m.filesOf dir entries = some rest ∧
        files = ⟨entry.name, f.content⟩ :: rest := by
  have hkept : (entry :: entries).filter (!·.isDirectory) =
      entry :: entries.filter (!·.isDirectory) := by
    simp [h]
  rw [filesOf, filesOf, hkept, List.mapM_cons]
  simp only [Option.bind_eq_bind, Option.bind_eq_some_iff, Option.map_eq_some_iff, pure,
    Option.some.injEq]
  constructor
  · rintro ⟨_, ⟨f, hf, rfl⟩, rest, hrest, rfl⟩
    exact ⟨f, rest, hf, hrest, rfl⟩
  · rintro ⟨f, rest, hf, hrest, rfl⟩
    exact ⟨_, ⟨f, hf, rfl⟩, rest, hrest, rfl⟩

/-- The files have the names of the entries that are no directories, in their order. -/
theorem map_name_filesOf {m : Memory} {dir : String} {entries : List Entry}
    {files : List File} (h : m.filesOf dir entries = some files) :
    files.map File.name = (entries.filter (!·.isDirectory)).map Entry.name := by
  -- by induction on the entries, of which the directories are passed over
  induction entries generalizing files with
  | nil =>
    obtain rfl := Option.some.inj h
    rfl
  | cons entry entries ih =>
    by_cases hentry : entry.isDirectory = true
    · rw [filesOf_cons_directory m dir hentry] at h
      rw [ih h, List.filter_cons_of_neg (by simpa using hentry)]
    · obtain ⟨f, rest, -, hrest, rfl⟩ := (filesOf_cons_file_iff hentry).mp h
      rw [List.filter_cons_of_pos (by simpa using hentry), List.map_cons, List.map_cons, ih hrest]

/-- The files among the entries of a directory lie directly in it. -/
theorem mem_entries_file_iff {m : Memory} {dir name : String} :
    ⟨name, false⟩ ∈ m.entries dir ↔ ∃ path ∈ m.files.keys, splitParent path = (dir, name) := by
  simp only [entries, namesIn, List.mem_append, List.mem_map, List.mem_mergeSort, List.mem_filter,
    Entry.mk.injEq, decide_eq_true_eq]
  constructor
  · rintro (⟨_, -, -, ⟨⟩⟩ | ⟨_, ⟨path, ⟨hmem, hdir⟩, rfl⟩, rfl, -⟩)
    exact ⟨path, hmem, Prod.ext hdir rfl⟩
  · rintro ⟨path, hmem, hsplit⟩
    obtain ⟨hdir, hname⟩ := Prod.ext_iff.mp hsplit
    exact Or.inr ⟨name, ⟨path, ⟨hmem, hdir⟩, hname⟩, rfl, trivial⟩

/-- A file that is listed lies directly in the directory. -/
theorem exists_key_of_mem_listing {m : Memory} {dir : String} {files : List File}
    (h : m.listing dir = some files) {f : File} (hf : f ∈ files) :
    ∃ path ∈ m.files.keys, splitParent path = (normalize dir, f.name) := by
  rw [listing, Option.ite_none_right_eq_some] at h
  have hname : f.name ∈ ((m.entries (normalize dir)).filter (!·.isDirectory)).map Entry.name := by
    rw [← map_name_filesOf h.2]
    exact List.mem_map_of_mem hf
  obtain ⟨⟨name, isDirectory⟩, hentry, rfl⟩ := List.mem_map.mp hname
  obtain ⟨hmem, hfile⟩ := List.mem_filter.mp hentry
  obtain rfl : isDirectory = false := by simpa using hfile
  exact mem_entries_file_iff.mp hmem

end Memory

/-! ### Answers -/

namespace Scripted

/-- What a host in memory has for which failures are planned. -/
def stored (s : Scripted Memory) : List String × Table String StoredFile :=
  s.inner.stored

/-- Looking, and opening, checking and closing a session, changes nothing that is stored. -/
theorem spares_stored {r : Request} (h : r.looks = true ∨ Agent.KeepsHouse r) :
    (Scripted.host Memory.host).Spares Scripted.stored r := by
  have hinner : Memory.host.Spares Memory.stored r := by
    rcases h with hlooks | hhouse
    · intro m
      exact congrArg Memory.stored (m.answer_of_looks hlooks)
    · obtain ⟨hfiles, hdirectories⟩ := Memory.spares_of_keepsHouse hhouse
      intro m
      exact Prod.ext (hdirectories m) (hfiles m)
  exact Scripted.spares hinner

variable {s : Scripted Memory}

/-- A directory that is listed is one, and its entries are all listed. -/
theorem eq_of_answer_readDir {dir : String} {entries : List Entry}
    (h : ((Scripted.host Memory.host).answer (.readDir dir) s).1 = .ok entries) :
    s.inner.isDirectory (Memory.normalize dir) = true ∧
      entries = s.inner.entries (Memory.normalize dir) := by
  -- an answer without a failure was not planned, so it is the memory's own
  rcases answer_cases Memory.host (.readDir dir) s with ⟨e, hanswer, -⟩ | ⟨hanswer, -⟩
  · rw [h] at hanswer
    cases hanswer
  · rw [h] at hanswer
    simp only [Memory.host, Memory.answer] at hanswer
    split at hanswer
    · simp only [Memory.answerLive] at hanswer
      split at hanswer
      · next hdirectory => exact ⟨hdirectory, Except.ok.inj hanswer⟩
      · cases hanswer
    · cases hanswer

/-- A file that is read is there, and all of it is read. -/
theorem eq_of_answer_readFile {path : String} {content : Bytes}
    (h : ((Scripted.host Memory.host).answer (.readFile path) s).1 = .ok content) :
    ∃ f, s.inner.file? path = some f ∧ content = f.content := by
  rcases answer_cases Memory.host (.readFile path) s with ⟨e, hanswer, -⟩ | ⟨hanswer, -⟩
  · rw [h] at hanswer
    cases hanswer
  · rw [h] at hanswer
    simp only [Memory.host, Memory.answer] at hanswer
    split at hanswer
    · simp only [Memory.answerLive] at hanswer
      split at hanswer
      · next f hf => exact ⟨f, hf, Except.ok.inj hanswer⟩
      · cases hanswer
    · cases hanswer

end Scripted

/-! ### Failures -/

namespace Agent

variable {host : Host σ} {lookup : Net.Lookup} {agent : Agent} {dir : String}

/-- The action fails exactly if one of its calls does, and in the same way. -/
def Reports (x : Action σ α) : Prop :=
  ∀ ⦃link out after⦄, x.run link = (out, after) →
    ∃ new, after.calls = link.calls ++ new ∧
      ∀ e, out = .error e ↔ ∃ c ∈ new, c.failure = some e

theorem reports_pure (a : α) : Reports (pure a : Action σ α) := by
  intro link out after h
  obtain ⟨rfl, rfl⟩ := run_pure_inj h
  exact ⟨[], by simp, by simp⟩

theorem reports_ask (r : Request) : Reports (ask host r) := by
  intro link out after h
  refine ⟨_, (ask_run h).calls, fun e => ?_⟩
  cases out with
  | ok a => simp [failureIn]
  | error e' => simp [failureIn]

theorem Reports.bind {x : Action σ α} {f : α → Action σ β} (hx : Reports x)
    (hf : ∀ a, Reports (f a)) : Reports (x >>= f) := by
  intro link out after h
  rcases run_bind_cases h with ⟨a, mid, hfirst, hsecond⟩ | ⟨e, hfirst, rfl⟩
  · obtain ⟨new, hcalls, hnew⟩ := hx hfirst
    obtain ⟨more, hcalls', hmore⟩ := hf a hsecond
    refine ⟨new ++ more, by rw [hcalls', hcalls, List.append_assoc], fun e => ?_⟩
    -- the first action succeeded, so that none of its calls failed
    have hnone : ¬ ∃ c ∈ new, c.failure = some e := by
      rw [← hnew e]
      intro hout
      cases hout
    rw [hmore e]
    constructor
    · rintro ⟨c, hc, hfailure⟩
      exact ⟨c, List.mem_append_right new hc, hfailure⟩
    · rintro ⟨c, hc, hfailure⟩
      rcases List.mem_append.mp hc with hc | hc
      · exact absurd ⟨c, hc, hfailure⟩ hnone
      · exact ⟨c, hc, hfailure⟩
  · obtain ⟨new, hcalls, hnew⟩ := hx hfirst
    refine ⟨new, hcalls, fun e' => ?_⟩
    rw [← hnew e', Except.error.injEq, Except.error.injEq]

/-- **No failure of a request is passed over.** -/
theorem reports_readEach (entries : List Entry) : Reports (readEach host dir entries) := by
  induction entries with
  | nil => exact reports_pure _
  | cons entry entries ih =>
    rw [readEach]
    split
    · exact ih
    · exact (reports_ask _).bind fun content => ih.bind fun files => reports_pure _

/-- What reading a directory does once there is a session. -/
def listFiles (host : Host σ) (dir : String) : Action σ (List File) := do
  readEach host dir (← ask host (.readDir dir))

theorem readFiles_eq (host : Host σ) (dir : String) :
    agent.readFiles host lookup dir =
      agent.guarded host (do agent.acquire host lookup; listFiles host dir) := rfl

theorem reports_listFiles : Reports (listFiles host dir) :=
  (reports_ask _).bind reports_readEach

/-- A session that cannot be got is one for which a call failed, or the host is not allowed. -/
theorem Acquired.failure {s t : Standing} {new : List Call} {e : Error}
    (h : Acquired s new (.error e) t) :
    (∃ c ∈ new, c.failure.isSome = true) ∨ (s.session = false ∧ s.hostAllowed = false) := by
  -- a session that was refused has a dial that failed, or a host that was never allowed
  generalize hout : (Except.error e : Except Error Unit) = out at h
  cases h with
  | reused => cases hout
  | dialed => cases hout
  | unreachable hleft hnew =>
    obtain ⟨hne, hfailed⟩ := hnew.failure_of_mem rfl
    obtain ⟨c, hc⟩ := List.exists_mem_of_ne_nil _ hne
    exact Or.inl ⟨c, List.mem_append_right _ hc, hfailed c hc⟩
  | refused e' hleft hallowed =>
    generalize hheld : s.session = held at hleft
    cases hleft with
    | absent => exact Or.inr ⟨rfl, hallowed⟩
    | stale e'' failure => exact Or.inl ⟨_, List.mem_cons_self, rfl⟩

/-! ### Reading a directory -/

/-- What is read stays as it is. -/
theorem spares_readEach {part : σ → τ} (hread : ∀ path, host.Spares part (.readFile path))
    (entries : List Entry) : Spares part (readEach host dir entries) := by
  induction entries with
  | nil => exact spares_pure _
  | cons entry entries ih =>
    rw [readEach]
    split
    · exact ih
    · exact (spares_ask (hread _)).bind fun content => ih.bind fun files => spares_pure _

section
variable {link after : Link (Scripted Memory)}

/-- **Files that are read are those of the entries**, and each of them takes one call. -/
theorem filesOf_of_readEach {entries : List Entry} {files : List File}
    (h : (readEach (Scripted.host Memory.host) dir entries).run link = (.ok files, after)) :
    link.host.inner.filesOf dir entries = some files ∧
      after.calls = link.calls ++ files.map fun f => ⟨.readFile (join dir f.name), none⟩ := by
  induction entries generalizing link files with
  | nil =>
    obtain ⟨hfiles, rfl⟩ := run_pure_inj h
    obtain rfl := Except.ok.inj hfiles
    exact ⟨rfl, by simp⟩
  | cons entry entries ih =>
    rw [readEach] at h
    split at h
    · next hdirectory =>
      rw [Memory.filesOf_cons_directory _ dir hdirectory]
      exact ih h
    · next hfile =>
      rcases run_bind_cases h with ⟨content, mid, hask, hrest⟩ | ⟨e, -, hout⟩
      · rcases run_bind_cases hrest with ⟨others, last, hothers, hdone⟩ | ⟨e, -, hout⟩
        · obtain ⟨hfiles, rfl⟩ := run_pure_inj hdone
          obtain rfl := Except.ok.inj hfiles
          obtain ⟨f, hf, rfl⟩ := Scripted.eq_of_answer_readFile (Prod.mk.inj hask).1
          obtain ⟨hread, hcalls⟩ := ih hothers
          -- reading the first file changes nothing for the others
          have hsame : mid.host.inner.stored = link.host.inner.stored :=
            spares_ask (Scripted.spares_stored (Or.inl rfl)) hask
          rw [Memory.filesOf_congr hsame] at hread
          refine ⟨(Memory.filesOf_cons_file_iff hfile).mpr ⟨f, others, hf, hread, rfl⟩, ?_⟩
          rw [hcalls, (ask_run hask).calls, List.append_assoc]
          rfl
        · cases hout
      · cases hout

/-- What is listed is what is stored, and the calls that this takes. -/
theorem listing_of_listFiles {files : List File}
    (h : (listFiles (Scripted.host Memory.host) dir).run link = (.ok files, after)) :
    link.host.inner.listing dir = some files ∧
      after.calls = link.calls ++ ⟨.readDir dir, none⟩ ::
        files.map fun f => ⟨.readFile (join dir f.name), none⟩ := by
  rcases run_bind_cases h with ⟨entries, listed, hlist, heach⟩ | ⟨_, -, hout⟩
  · obtain ⟨hdirectory, rfl⟩ := Scripted.eq_of_answer_readDir (Prod.mk.inj hlist).1
    obtain ⟨hfiles, hcalls⟩ := filesOf_of_readEach heach
    -- listing the directory has not changed what is stored
    have hlisted : listed.host.inner.stored = link.host.inner.stored :=
      spares_ask (Scripted.spares_stored (Or.inl rfl)) hlist
    refine ⟨?_, ?_⟩
    · rw [Memory.listing, if_pos hdirectory, ← Memory.filesOf_congr hlisted, hfiles]
    · rw [hcalls, (ask_run hlist).calls, List.append_assoc]
      rfl
  · cases hout

/-- Reading a directory changes nothing that is stored. -/
theorem spares_readFiles :
    Spares Scripted.stored (agent.readFiles (Scripted.host Memory.host) lookup dir) := by
  have hhouse : ∀ r, KeepsHouse r → (Scripted.host Memory.host).Spares Scripted.stored r :=
    fun r hr => Scripted.spares_stored (Or.inr hr)
  -- the files are listed and read, and neither changes what is stored
  have hlist : Spares Scripted.stored (listFiles (Scripted.host Memory.host) dir) :=
    Spares.bind (spares_ask (Scripted.spares_stored (Or.inl rfl))) fun entries =>
      spares_readEach (fun _ => Scripted.spares_stored (Or.inl rfl)) entries
  intro link out after h
  rw [readFiles_eq] at h
  obtain ⟨mid, hdo, hend, -⟩ := guarded_host hhouse h
  rw [hend]
  exact Spares.bind (spares_acquire hhouse) (fun _ => hlist) hdo

/-- What reading a directory does: it gets a session, makes its requests, and gives the session up
if one of them fails. -/
theorem readFiles_run {out : Except Error (List File)}
    (h : (agent.readFiles (Scripted.host Memory.host) lookup dir).run link = (out, after)) :
    ∃ first work last, after.calls = link.calls ++ (first ++ work ++ last) ∧
      (∀ c ∈ first ++ last, KeepsHouse c.request) ∧
      (∀ files, out = .ok files → link.host.inner.listing dir = some files ∧
        work = ⟨.readDir dir, none⟩ ::
          files.map fun f => ⟨.readFile (join dir f.name), none⟩) ∧
      (∀ c ∈ work, ∀ e, c.failure = some e → out = .error e) ∧
      (∀ e, out = .error e → (∃ c ∈ first ++ work, c.failure.isSome = true) ∨
        (link.session = false ∧ link.hostAllowed = false)) := by
  rw [readFiles_eq] at h
  obtain ⟨mid, last, hdo, hcalls, hlast⟩ := guarded_calls h
  rcases run_bind_cases hdo with ⟨_, opened, hacquire, hlist⟩ | ⟨e, hacquire, rfl⟩
  · obtain ⟨first, s, hacquired, hfirst⟩ := acquire_run hacquire
    obtain ⟨work, hworkCalls, hfails⟩ := reports_listFiles hlist
    refine ⟨first, work, last, ?_, ?_, ?_, ?_, ?_⟩
    · rw [hcalls, hworkCalls, hfirst.calls]
      simp only [List.append_assoc]
    · intro c hc
      exact (List.mem_append.mp hc).elim (hacquired.keepsHouse c) (hlast c)
    · rintro files rfl
      obtain ⟨hlisting, hlistCalls⟩ := listing_of_listFiles hlist
      have hopened : opened.host.inner.stored = link.host.inner.stored :=
        spares_acquire (fun r hr => Scripted.spares_stored (Or.inr hr)) hacquire
      rw [Memory.listing_congr hopened] at hlisting
      exact ⟨hlisting, List.append_cancel_left (hworkCalls.symm.trans hlistCalls)⟩
    · intro c hc e hfailure
      exact (hfails e).mpr ⟨c, hc, hfailure⟩
    · intro e hout
      obtain ⟨c, hc, hfailure⟩ := (hfails e).mp hout
      exact Or.inl ⟨c, List.mem_append_right first hc, by rw [hfailure]; rfl⟩
  · -- without a session nothing is asked of the directory
    obtain ⟨first, s, hacquired, hfirst⟩ := acquire_run hacquire
    refine ⟨first, [], last, ?_, ?_, ?_, ?_, ?_⟩
    · rw [hcalls, hfirst.calls, List.append_nil, List.append_assoc]
    · intro c hc
      exact (List.mem_append.mp hc).elim (hacquired.keepsHouse c) (hlast c)
    · intro files hout
      cases hout
    · intro c hc
      cases hc
    · intro _ _
      rw [List.append_nil]
      exact hacquired.failure

/-- **Listings are exact, and all or nothing.**  Whatever the directory, the host, the failures that
are planned for it and what the agent remembers:
* the files that are returned are the entries of the directory that are no directories, in the order
  of its list, each with the whole content that is found at its path, and all of them lie directly
  in the directory;
* apart from getting a session and giving it up, this takes one request for the list and then one
  for each file;
* if one of these requests fails, then so does the operation, and in the same way;
* the operation fails only if one of its calls does, or if the host is still to be checked;
* nothing that is stored is changed;
* as long as nobody changes what is stored, the operation on a host that was checked returns the
  same files again, unless one of its calls fails. -/
theorem readFiles_exact (lookup : Net.Lookup) (agent : Agent) (dir : String)
    (link : Link (Scripted Memory)) :
    let host := Scripted.host Memory.host
    let (result, after) := (agent.readFiles host lookup dir).run link
    (∃ first work last, after.calls = link.calls ++ (first ++ work ++ last) ∧
      (∀ c ∈ first ++ last, KeepsHouse c.request) ∧
      (∀ files, result = .ok files →
        link.host.inner.listing dir = some files ∧
        (∀ f ∈ files, ∃ path ∈ link.host.inner.files.keys,
          Memory.splitParent path = (Memory.normalize dir, f.name)) ∧
        work = ⟨.readDir dir, none⟩ ::
          files.map fun f => ⟨.readFile (join dir f.name), none⟩) ∧
      (∀ c ∈ work, ∀ e, c.failure = some e → result = .error e) ∧
      ∀ e, result = .error e → (∃ c ∈ first ++ work, c.failure.isSome = true) ∨
        (link.session = false ∧ link.hostAllowed = false)) ∧
    (after.host.inner.directories = link.host.inner.directories ∧
      after.host.inner.files = link.host.inner.files) ∧
    ∀ files, result = .ok files → ∀ (lookup' : Net.Lookup) (again : Link (Scripted Memory)),
      again.host.inner.directories = link.host.inner.directories →
      again.host.inner.files = link.host.inner.files →
      (again.session = true ∨ again.hostAllowed = true) →
      let (result', after') := (agent.readFiles host lookup' dir).run again
      result' = .ok files ∨ ∃ e new, result' = .error e ∧ after'.calls = again.calls ++ new ∧
        ∃ c ∈ new, c.failure.isSome = true := by
  intro host
  rcases hrun : (agent.readFiles host lookup dir).run link with ⟨result, after⟩
  dsimp only
  obtain ⟨first, work, last, hcalls, hhouse, hread, hfails, hblames⟩ := readFiles_run hrun
  refine ⟨⟨first, work, last, hcalls, hhouse, ?_, hfails, hblames⟩, ?_, ?_⟩
  · intro files hout
    obtain ⟨hlisting, hwork⟩ := hread files hout
    exact ⟨hlisting, fun f hf => Memory.exists_key_of_mem_listing hlisting hf, hwork⟩
  · exact Prod.mk.inj (spares_readFiles hrun)
  · intro files hout lookup' again hdirectories hfiles hready
    rcases hagain : (agent.readFiles host lookup' dir).run again with ⟨result', after'⟩
    dsimp only
    obtain ⟨first', work', last', hcalls', -, hread', -, hblames'⟩ := readFiles_run hagain
    cases result' with
    | ok files' =>
      -- both listings are the one of what is stored
      have hsame : again.host.inner.listing dir = link.host.inner.listing dir :=
        Memory.listing_congr (Prod.ext hdirectories hfiles) dir
      rw [(hread files hout).1, (hread' files' rfl).1] at hsame
      exact Or.inl (congrArg Except.ok (Option.some.inj hsame))
    | error e =>
      refine Or.inr ⟨e, _, rfl, hcalls', ?_⟩
      rcases hblames' e rfl with ⟨c, hc, hfailure⟩ | ⟨hsession, hallowed⟩
      · exact ⟨c, List.mem_append_left last' hc, hfailure⟩
      · rw [hsession, hallowed] at hready
        rcases hready with hready | hready <;> cases hready

end

/-- Only one of the two files is read, because the other one lies in a directory of the directory.
The second time the read fails as planned, and so does the operation; the third time it returns the
same file. -/
theorem readFiles_exact_nested :
    let m := (({} : Memory).addFile "inbound/old/a.ach" [0]).addFile "inbound/a.ach" [1, 2]
    let reset : Error := .connection .memory "connection reset"
    let link : Link (Scripted Memory) :=
      { host := Scripted.plan { inner := m } .readFile [none, some reset] }
    let agent : Agent := {
      settings := { id := "bank" }, connector := { protocol := .memory, hostname := "bank" } }
    let read := agent.readFiles (Scripted.host Memory.host) .offline "inbound"
    let (result, after) := read.run link
    let (result', later) := read.run after
    result = .ok [⟨"a.ach", [1, 2]⟩] ∧ m.listing "inbound" = some [⟨"a.ach", [1, 2]⟩] ∧
      result' = .error reset ∧ later.host.inner.files = m.files ∧
      (read.run later).1 = .ok [⟨"a.ach", [1, 2]⟩] := by
  intro m reset link agent read
  have hfirst : (read.run link).1.toOption = some [⟨"a.ach", [1, 2]⟩] := by decide +kernel
  have hsecond : failureIn (read.run (read.run link).2).1 = some reset := by decide +kernel
  have hthird : (read.run (read.run (read.run link).2).2).1.isOk = true := by decide +kernel
  have hallowed : (read.run (read.run link).2).2.hostAllowed = true := by decide +kernel
  have hstored : link.host.inner = m := rfl
  clear_value link m
  rcases hrun : read.run link with ⟨_ | files, after⟩
  · rw [hrun] at hfirst
    cases hfirst
  obtain rfl : files = [⟨"a.ach", [1, 2]⟩] := by
    rw [hrun] at hfirst
    exact Option.some.inj hfirst
  rw [hrun] at hsecond hthird hallowed
  dsimp only
  rcases hrun' : read.run after with ⟨e | _, later⟩
  · rw [hrun'] at hsecond hthird hallowed
    obtain rfl : e = reset := Option.some.inj hsecond
    have hlink := readFiles_exact .offline agent "inbound" link
    have hafter := readFiles_exact .offline agent "inbound" after
    dsimp only at hlink hafter
    rw [hrun] at hlink
    rw [hrun'] at hafter
    dsimp only at hlink hafter
    obtain ⟨⟨_, _, _, -, -, hread, -⟩, ⟨hdirectories, hfiles⟩, hrepeat⟩ := hlink
    obtain ⟨-, ⟨hdirectories', hfiles'⟩, -⟩ := hafter
    refine ⟨rfl, hstored ▸ (hread _ rfl).1, rfl, (hfiles'.trans hfiles).trans ?_, ?_⟩
    · rw [hstored]
    · -- the third time nothing fails, so that the files are those of the first time
      have hagain := hrepeat _ rfl .offline later (hdirectories'.trans hdirectories)
        (hfiles'.trans hfiles) (Or.inr hallowed)
      rcases hrun'' : read.run later with ⟨e | files, last⟩
      · rw [hrun''] at hthird
        cases hthird
      · rw [hrun''] at hagain
        rcases hagain with hsame | ⟨e, new, herror, -⟩
        · exact hsame
        · cases herror
  · rw [hrun'] at hsecond
    cases hsecond

end Agent

end AchCourier.Remote
