import AchCourier.Proofs.Config.Codec
import AchCourier.Proofs.Config.Targets
import AchCourier.Proofs.Json.Pretty
import AchCourier.Proofs.Local.Renaming
import AchCourier.Proofs.Text.Utf8

/-!
# Settings that are saved are loaded

Saving writes the indented text of the JSON form of settings to a temporary file, which then takes
the place of the target.  Whether this succeeds depends on the disk and the path alone, never on the
settings or on what the target held; and once it has succeeded, the target holds a text that spells
these settings.  So loading finds them again, or the first thing that is wrong with them.

## Main definitions

* `Verdict` — what loading answers for settings.
* `Savable` — settings can be saved at a path.

## Main results

* `verdict_ofText` — the text of settings is read as these settings.
* `save_eq_ok_iff` — what a save does when it succeeds.
* `savable_iff`, `savable_child` — when settings can be saved.
* `load_save` — **settings that are saved are loaded, or what is wrong with them is found.**
-/

namespace AchCourier.Config

open Local

/-! ### What loading answers -/

/-- What loading answers when the file holds the text of the settings `s`: the settings, or the
first thing that is wrong with them. -/
inductive Verdict (s : Settings) : Except StoreError Settings → Prop where
  /-- The version is understood, and all agents are valid. -/
  | accepted (hversion : s.version ≤ currentVersion)
      (hagents : ∀ a ∈ s.agents, a.validate = .ok ()) : Verdict s (.ok s)
  /-- The version is later than the one that is understood. -/
  | tooNew (hversion : currentVersion < s.version) : Verdict s (.error (.versionTooNew s.version))
  /-- The version is understood, and `a` is the first agent that is not valid. -/
  | refused {before after : List Agent} {a : Agent} {e : Invalid}
      (hversion : s.version ≤ currentVersion) (hagents : s.agents = before ++ a :: after)
      (hbefore : ∀ b ∈ before, b.validate = .ok ()) (ha : a.validate = .error e) :
      Verdict s (.error (.invalid e))

/-- Either all agents are valid, or the first one that is not is reported. -/
theorem validateAll_cases (agents : List Agent) :
    (∀ a ∈ agents, a.validate = .ok ()) ∧ validateAll agents = .ok () ∨
      ∃ before a after e, agents = before ++ a :: after ∧
        (∀ b ∈ before, b.validate = .ok ()) ∧ a.validate = .error e ∧
          validateAll agents = .error e := by
  induction agents with
  | nil => exact Or.inl ⟨List.forall_mem_nil _, rfl⟩
  | cons a agents ih =>
    -- the first agent that is refused decides
    cases ha : a.validate with
    | error e =>
      refine Or.inr ⟨[], a, agents, e, rfl, List.forall_mem_nil _, ha, ?_⟩
      rw [validateAll, ha]
    | ok =>
      have hrest : validateAll (a :: agents) = validateAll agents := by rw [validateAll, ha]
      rw [hrest]
      rcases ih with ⟨hall, hok⟩ | ⟨before, b, after, e, rfl, hbefore, hb, herror⟩
      · exact Or.inl ⟨List.forall_mem_cons.mpr ⟨ha, hall⟩, hok⟩
      · exact Or.inr ⟨a :: before, b, after, e, rfl, List.forall_mem_cons.mpr ⟨ha, hbefore⟩, hb,
          herror⟩

/-- **The text of settings is read as these settings**, and what is wrong with them is found. -/
theorem verdict_ofText (s : Settings) : Verdict s (ofText (String.ofList s.text)) := by
  have hread : (Json.parse (String.ofList s.text)).bind Settings.ofJson? = some s := by
    rw [Settings.text, Json.parse_pretty s.plain_toJson, s.asRead_toJson, Option.bind_some,
      s.ofJson?_toJson]
  rw [ofText, hread]
  dsimp only
  by_cases hversion : currentVersion < s.version
  · rw [Settings.validate, if_pos hversion]
    exact .tooNew hversion
  · have hle : s.version ≤ currentVersion := UInt32.not_lt.mp hversion
    rw [Settings.validate, if_neg hversion]
    rcases validateAll_cases s.agents with
      ⟨hall, hok⟩ | ⟨before, a, after, e, hagents, hbefore, ha, herror⟩
    · rw [hok]
      exact .accepted hle hall
    · rw [herror]
      exact .refused hle hagents hbefore ha

/-- A file that holds the text of settings is loaded. -/
theorem verdict_load {s : Settings} {d : Disk} {path : String}
    (h : d.read path = .ok (Utf8.encode s.text)) : Verdict s (load d path) := by
  rw [load, Disk.readText, h]
  dsimp only
  rw [Utf8.decode?_encode]
  exact verdict_ofText s

/-! ### Saving -/

/-- The settings can be saved at the path: the directory is there or can be made, and then the
temporary file and the target can be written. -/
structure Savable (d : Disk) (path : String) : Prop where
  directory : (d.makeDirectories (directoryOf path)).2 = .ok ()
  temporary : (d.makeDirectories (directoryOf path)).1.Writable (temporaryPath path)
  target : (d.makeDirectories (directoryOf path)).1.Writable path

/-- Steps succeed one after the other. -/
theorem runSteps_cons_eq_ok_iff {path : String} {content : Bytes} {d d' : Disk} {step : Step}
    {rest : List Step} :
    runSteps path content none d (step :: rest) = (d', .ok ()) ↔
      ∃ mid, step.run path content d = (mid, .ok ()) ∧
        runSteps path content none mid rest = (d', .ok ()) := by
  rw [runSteps, Option.filter_none]
  rcases step.run path content d with ⟨mid, e | _⟩ <;> simp

/-- **What a save does when it succeeds.** -/
theorem save_eq_ok_iff {s : Settings} {path : String} {d d' : Disk} :
    save s path d = (d', .ok ()) ↔
      ∃ made created written,
        d.makeDirectories (directoryOf path) = (made, .ok ()) ∧
          made.write (temporaryPath path) [] = (created, .ok ()) ∧
            created.write (temporaryPath path) (Utf8.encode s.text) = (written, .ok ()) ∧
              written.rename (temporaryPath path) path = (d', .ok ()) := by
  have hnil : ∀ mid, runSteps path (Utf8.encode s.text) none mid [] = (mid, .ok ()) :=
    fun _ => rfl
  simp only [save, steps, runSteps_cons_eq_ok_iff, Step.run, hnil]
  constructor
  · -- serializing and syncing leave the disk as it is
    rintro ⟨made, hmade, _, hserialize, created, hcreate, written, hwrite, _, hsync, _, hrename,
      hend⟩
    cases hserialize
    cases hsync
    cases hend
    exact ⟨made, created, written, hmade, hcreate, hwrite, hrename⟩
  · rintro ⟨made, created, written, hmade, hcreate, hwrite, hrename⟩
    exact ⟨made, hmade, made, rfl, created, hcreate, written, hwrite, written, rfl, d', hrename,
      rfl⟩

/-- **What can be saved is saved**, and the target holds the text of the settings. -/
theorem exists_save {d : Disk} {path : String} (h : Savable d path) (s : Settings) :
    ∃ d', save s path d = (d', .ok ()) ∧ d'.read path = .ok (Utf8.encode s.text) := by
  obtain ⟨hmake, htemporary, htarget⟩ := h
  rcases hmade : d.makeDirectories (directoryOf path) with ⟨made, result⟩
  rw [hmade] at hmake htemporary htarget
  obtain rfl : result = .ok () := hmake
  obtain ⟨created, hcreate⟩ := htemporary.exists_write []
  obtain ⟨written, hwrite⟩ := (htemporary.of_write hcreate).exists_write (Utf8.encode s.text)
  have hread : written.read (temporaryPath path) = .ok (Utf8.encode s.text) :=
    Disk.read_of_write hwrite
  -- the temporary file was written beside the target, which stays free
  have htarget' : written.Writable path := (htarget.of_write hcreate).of_write hwrite
  have hrename := Disk.rename_eq_ok_iff.mpr ⟨_, hread, htarget', rfl⟩
  exact ⟨_, save_eq_ok_iff.mpr ⟨made, created, written, hmade, hcreate, hwrite, hrename⟩,
    Disk.read_of_rename hread hrename⟩

/-- **Whether a save succeeds depends on the disk and the path alone.** -/
theorem savable_iff {d : Disk} {path : String} (s : Settings) :
    Savable d path ↔ (save s path d).2 = .ok () := by
  constructor
  · intro h
    obtain ⟨d', hsave, -⟩ := exists_save h s
    rw [hsave]
  · intro h
    rcases hsave : save s path d with ⟨d', result⟩
    rw [hsave] at h
    obtain rfl : result = .ok () := h
    obtain ⟨made, created, written, hmade, hcreate, hwrite, hrename⟩ := save_eq_ok_iff.mp hsave
    -- the target was as free before the temporary file was written as it was afterwards
    obtain ⟨-, -, hwritable, -⟩ := Disk.rename_eq_ok_iff.mp hrename
    constructor
    · rw [hmade]
    · rw [hmade]
      exact Disk.writable_of_write hcreate
    · rw [hmade]
      exact (hwritable.before_write hwrite).before_write hcreate

/-- What is written to the target does not matter to a save. -/
theorem Savable.write {d : Disk} {path : String} (h : Savable d path) (old : Bytes) :
    Savable (d.write path old).1 path := by
  rcases hwrite : d.write path old with ⟨d', fault | _⟩
  · rw [Disk.write_eq_error hwrite]
    exact h
  · obtain ⟨-, htemporary, htarget⟩ := h
    -- where a file was written the directory is there, and is made again without effect
    have hfollow := (Disk.writable_of_write hwrite).follow
    rw [makeDirectories_directoryOf hfollow] at htemporary htarget
    have hmake := makeDirectories_directoryOf (htarget.of_write hwrite).follow
    refine ⟨?_, ?_, ?_⟩
    · rw [hmake]
    · rw [hmake]
      exact htemporary.of_write hwrite
    · rw [hmake]
      exact htarget.of_write hwrite

/-- Settings can be saved inside a directory that is there or can be made, unless a directory takes
the place of one of the two files. -/
theorem savable_child {d : Disk} {dir name : String} (hdir : EndsInName dir)
    (hname : LeadsDown name) (hstorable : Storable name)
    (htemporary : Storable (String.ofList (temporaryName name.toList)))
    (hmake : (d.makeDirectories dir).2 = .ok ())
    (hfree : ∀ n ∈ [name, String.ofList (temporaryName name.toList)],
      (d.makeDirectories dir).1.node? (placeOf dir ++ [n]) ≠ some .directory) :
    Savable d (child dir name) := by
  rcases hmade : d.makeDirectories dir with ⟨made, result⟩
  rw [hmade] at hmake hfree
  obtain rfl : result = .ok () := hmake
  obtain ⟨hfollow, hnode⟩ := Disk.follow_of_makeDirectories hdir.ne_empty hmade
  -- both files lie in the directory that was made
  have hwritable : ∀ n, LeadsDown n → Storable n →
      made.node? (placeOf dir ++ [n]) ≠ some .directory → made.Writable (child dir n) := by
    intro n hn hstore hn'
    have hok := Disk.write_child_ok hdir hn hstore hfollow hnode hn' []
    exact Disk.writable_of_write (Prod.ext rfl hok)
  have hsame := makeDirectories_directoryOf_child hdir hname hmade
  constructor
  · rw [hsame]
  · rw [hsame, temporaryPath_child hdir hname]
    exact hwritable _ (leadsDown_temporaryName hname.slash_notMem) htemporary (hfree _ (by simp))
  · rw [hsame]
    exact hwritable _ hname hstorable (hfree _ (by simp))

/-! ### Loading what was saved -/

/-- **Settings that are saved are loaded**, or what is wrong with them is found; and what was at the
path before does not matter. -/
theorem load_save {d : Disk} {path : String} (h : Savable d path) (s : Settings) :
    (save s path d).2 = .ok () ∧ Verdict s (load (save s path d).1 path) ∧
      ∀ old, (save s path (d.write path old).1).2 = .ok () ∧
        load (save s path (d.write path old).1).1 path = load (save s path d).1 path := by
  -- loading depends on nothing but the bytes at the path
  have hload : ∀ {d d' : Disk}, d.read path = .ok (Utf8.encode s.text) →
      d'.read path = .ok (Utf8.encode s.text) → load d path = load d' path := by
    intro d d' hd hd'
    rw [load, load, Disk.readText, Disk.readText, hd, hd']
  obtain ⟨d', hsave, hread⟩ := exists_save h s
  refine ⟨?_, ?_, fun old => ?_⟩
  · rw [hsave]
  · rw [hsave]
    exact verdict_load hread
  · obtain ⟨d'', hsave', hread'⟩ := exists_save (h.write old) s
    rw [hsave, hsave']
    exact ⟨rfl, hload hread' hread⟩

/-- Settings with one agent of each protocol; the second one has no host. -/
def sampleSettings : Settings where
  agents := [
    { id := "bank-a", ftp := some { hostname := "ftp.bank.com:21", username := "user" } },
    { id := "bank-b", sftp := some { hostname := "", username := "user", password := "\"é\n\"" } }]

theorem load_save_sampleSettings :
    Savable {} "conf/agents.json" ∧
      (save sampleSettings "conf/agents.json" {}).2 = .ok () ∧
      Verdict sampleSettings
        (load (save sampleSettings "conf/agents.json" {}).1 "conf/agents.json") ∧
      ∀ old,
        (save sampleSettings "conf/agents.json"
          (Disk.write {} "conf/agents.json" old).1).2 = .ok () ∧
        load (save sampleSettings "conf/agents.json"
            (Disk.write {} "conf/agents.json" old).1).1 "conf/agents.json" =
          load (save sampleSettings "conf/agents.json" {}).1 "conf/agents.json" := by
  have hsavable : Savable {} "conf/agents.json" :=
    ⟨by decide +kernel, ⟨by decide +kernel, by decide +kernel⟩,
      ⟨by decide +kernel, by decide +kernel⟩⟩
  exact ⟨hsavable, load_save hsavable sampleSettings⟩

end AchCourier.Config
