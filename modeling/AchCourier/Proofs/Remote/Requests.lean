import AchCourier.Proofs.Remote.Operations

/-!
# What is asked of a host

What an agent remembers decides how an operation gets its session, but not what it asks of the host
then.  So the kinds of requests that an operation makes are known for every agent, whatever it has
been through.

## Main definitions

* `Agent.Asks` — all requests of an action are of a kind.
* `Host.Gave` — the host has given out a file.

## Main results

* `asks_readFiles`, `asks_delete` — reading files removes none, and deleting one removes no other.
* `gave_readFiles` — the files that are read are files that the host gave out.
-/

namespace AchCourier.Remote

variable {σ α β : Type} {host : Host σ} {lookup : Net.Lookup} {agent : Agent} {link after : Link σ}

namespace Agent

/-! ### Kinds of requests -/

/-- All requests that the action makes are of a kind. -/
def Asks (may : Request → Prop) (x : Action σ α) : Prop :=
  ∀ ⦃link out after⦄, x.run link = (out, after) →
    ∃ new, after.calls = link.calls ++ new ∧ ∀ c ∈ new, may c.request

variable {may : Request → Prop}

theorem Works.asks {x : Action σ α} (h : Works may x) : Asks may x := by
  intro link out after hx
  obtain ⟨-, new, hworked, hleads⟩ := h hx
  exact ⟨new, hleads.calls, fun c hc => hworked.may_of_mem hc⟩

theorem Asks.bind {x : Action σ α} {f : α → Action σ β} (hx : Asks may x)
    (hf : ∀ a, Asks may (f a)) : Asks may (x >>= f) := by
  intro link out after h
  rcases run_bind_cases h with ⟨a, mid, hfirst, hsecond⟩ | ⟨e, hfirst, -⟩
  · obtain ⟨new, hcalls, hnew⟩ := hx hfirst
    obtain ⟨more, hcalls', hmore⟩ := hf a hsecond
    refine ⟨new ++ more, by rw [hcalls', hcalls, List.append_assoc], fun c hc => ?_⟩
    exact (List.mem_append.mp hc).elim (hnew c) (hmore c)
  · exact hx hfirst

/-- The requests that concern the session alone. -/
def KeepsHouse (r : Request) : Prop :=
  r = .connect ∨ r = .checkAlive ∨ r = .close

theorem Missed.keepsHouse {held : Bool} {calls : List Call} (h : Missed held calls) :
    ∀ c ∈ calls, KeepsHouse c.request := by
  cases h <;> simp [KeepsHouse]

theorem LetGo.keepsHouse {held : Bool} {calls : List Call} (h : LetGo held calls) :
    ∀ c ∈ calls, KeepsHouse c.request := by
  cases h <;> simp [KeepsHouse]

theorem Dialed.keepsHouse {calls : List Call} {out : Except Error Unit} (h : Dialed calls out) :
    ∀ c ∈ calls, KeepsHouse c.request :=
  fun _ hc => Or.inl (h.connect_of_mem hc)

theorem Acquired.keepsHouse {s t : Standing} {new : List Call} {out : Except Error Unit}
    (h : Acquired s new out t) : ∀ c ∈ new, KeepsHouse c.request := by
  have happend : ∀ {left dialed out}, Missed s.session left → Dialed dialed out →
      ∀ c ∈ left ++ dialed, KeepsHouse c.request := fun hleft hdialed c hc =>
    (List.mem_append.mp hc).elim (hleft.keepsHouse c) (hdialed.keepsHouse c)
  cases h with
  | reused => simp [KeepsHouse]
  | dialed hleft hnew => exact happend hleft hnew
  | unreachable hleft hnew => exact happend hleft hnew
  | refused e hleft => exact hleft.keepsHouse

theorem asks_acquire (hmay : ∀ r, KeepsHouse r → may r) : Asks may (agent.acquire host lookup) := by
  intro link out after h
  obtain ⟨new, s, hacquired, hleads⟩ := acquire_run h
  exact ⟨new, hleads.calls, fun c hc => hmay _ (hacquired.keepsHouse c hc)⟩

/-- Behind its operation a guarded one gives at most the session up. -/
theorem guarded_calls {operation : Action σ α} {out : Except Error α}
    (h : (agent.guarded host operation).run link = (out, after)) :
    ∃ mid last, operation.run link = (out, mid) ∧ after.calls = mid.calls ++ last ∧
      ∀ c ∈ last, KeepsHouse c.request := by
  obtain ⟨mid, hdo, ⟨-, hleads⟩ | ⟨-, last, ⟨-, hletGo, hleads⟩ | ⟨-, rfl, hleads⟩⟩⟩ :=
    guarded_run h
  · exact ⟨mid, [], hdo, hleads.calls, by simp⟩
  · exact ⟨mid, last, hdo, hleads.calls, hletGo.keepsHouse⟩
  · exact ⟨mid, [], hdo, hleads.calls, by simp⟩

theorem asks_guarded (hmay : ∀ r, KeepsHouse r → may r) {operation : Action σ α}
    (hoperation : Asks may operation) : Asks may (agent.guarded host operation) := by
  intro link out after h
  obtain ⟨mid, last, hdo, hlastCalls, hlast⟩ := guarded_calls h
  obtain ⟨new, hcalls, hnew⟩ := hoperation hdo
  refine ⟨new ++ last, by rw [hlastCalls, hcalls, List.append_assoc], fun c hc => ?_⟩
  exact (List.mem_append.mp hc).elim (hnew c) fun hc => hmay _ (hlast c hc)

/-- **Reading files removes none.** -/
theorem asks_readFiles (dir : String) :
    Asks (fun r => ∀ path, r ≠ .removeFile path) (agent.readFiles host lookup dir) := by
  have hhouse : ∀ r, KeepsHouse r → ∀ path, r ≠ Request.removeFile path := by
    rintro r (rfl | rfl | rfl) path <;> simp
  have hbody : Works (fun r => ∀ path, r ≠ .removeFile path)
      (do readEach host dir (← ask host (.readDir dir))) :=
    (works_ask (by simp)).bind fun entries => works_readEach (by simp) entries
  exact asks_guarded hhouse ((asks_acquire hhouse).bind fun _ => hbody.asks)

/-- **Deleting a file removes no other.** -/
theorem asks_delete (path : String) :
    Asks (fun r => ∀ other, r = .removeFile other → other = path)
      (agent.delete host lookup path) := by
  have hhouse : ∀ r, KeepsHouse r → ∀ other, r = Request.removeFile other → other = path := by
    rintro r (rfl | rfl | rfl) other h <;> cases h
  have hstat : Works (fun r => ∀ other, r = .removeFile other → other = path)
      (ask host (.stat path)) := works_ask (by simp)
  refine asks_guarded hhouse
    ((asks_acquire hhouse).bind fun _ => (hstat.bind fun entry? => ?_).asks)
  split
  · exact works_remove (by simp)
  · exact works_pure _

end Agent

/-! ### Files that were read -/

/-- One of the calls has asked for the file at a path, and the host has answered such a request
with the content. -/
def Host.Gave (host : Host σ) (calls : List Call) (path : String) (content : Bytes) : Prop :=
  ⟨.readFile path, none⟩ ∈ calls ∧ ∃ s, (host.answer (.readFile path) s).1 = .ok content

theorem Host.Gave.append_left {calls : List Call} {path : String} {content : Bytes}
    (h : host.Gave calls path content) (before : List Call) :
    host.Gave (before ++ calls) path content :=
  ⟨List.mem_append_right _ h.1, h.2⟩

theorem Host.Gave.append_right {calls : List Call} {path : String} {content : Bytes}
    (h : host.Gave calls path content) (later : List Call) :
    host.Gave (calls ++ later) path content :=
  ⟨List.mem_append_left _ h.1, h.2⟩

namespace Agent

theorem gave_readEach {dir : String} {entries : List Entry} {files : List File}
    (h : (readEach host dir entries).run link = (.ok files, after)) :
    ∃ new, after.calls = link.calls ++ new ∧
      ∀ f ∈ files, host.Gave new (join dir f.name) f.content := by
  -- by induction on the entries; each content is the answer to its own request
  induction entries generalizing link files with
  | nil =>
    obtain ⟨hfiles, rfl⟩ := run_pure_inj h
    obtain rfl := Except.ok.inj hfiles
    exact ⟨[], by simp, by simp⟩
  | cons entry entries ih =>
    rw [readEach] at h
    split at h
    · exact ih h
    · rcases run_bind_cases h with ⟨content, mid, hask, hrest⟩ | ⟨e, -, hout⟩
      · rcases run_bind_cases hrest with ⟨others, last, hothers, hdone⟩ | ⟨e, -, hout⟩
        · obtain ⟨hfiles, rfl⟩ := run_pure_inj hdone
          obtain rfl := Except.ok.inj hfiles
          obtain ⟨new, hnew, hgave⟩ := ih hothers
          have hasked := (ask_run hask).calls
          have hanswer : (host.answer (.readFile (join dir entry.name)) link.host).1 =
              .ok content := (Prod.mk.inj hask).1
          refine ⟨_ :: new, by rw [hnew, hasked, List.append_assoc]; rfl, fun f hf => ?_⟩
          rcases List.mem_cons.mp hf with rfl | hf
          · exact ⟨List.mem_cons_self, link.host, hanswer⟩
          · exact (hgave f hf).append_left [_]
        · cases hout
      · cases hout

/-- **The files that are read are files that the host gave out**, each at its path. -/
theorem gave_readFiles {dir : String} {files : List File}
    (h : (agent.readFiles host lookup dir).run link = (.ok files, after)) :
    ∃ new, after.calls = link.calls ++ new ∧
      (∀ c ∈ new, ∀ path, c.request ≠ .removeFile path) ∧
      ∀ f ∈ files, host.Gave new (join dir f.name) f.content := by
  obtain ⟨new, hcalls, hnew⟩ := asks_readFiles dir h
  refine ⟨new, hcalls, hnew, fun f hf => ?_⟩
  obtain ⟨mid, hdo, ⟨-, hend⟩ | ⟨⟨e, hout⟩, -⟩⟩ := guarded_run h
  · rcases run_bind_cases hdo with ⟨_, opened, hacquire, hread⟩ | ⟨_, -, hout⟩
    · rcases run_bind_cases hread with ⟨entries, listed, hlist, heach⟩ | ⟨_, -, hout⟩
      · obtain ⟨first, s, -, hfirst⟩ := acquire_run hacquire
        have hasked := (ask_run hlist).calls
        obtain ⟨read, hreadCalls, hgave⟩ := gave_readEach heach
        -- getting a session and listing the directory come before the files are read
        have hall : link.calls ++ new =
            link.calls ++ (first ++ [⟨.readDir dir, none⟩] ++ read) := by
          rw [← hcalls, hend.calls, List.append_nil, hreadCalls, hasked, hfirst.calls]
          simp only [List.append_assoc, failureIn]
        rw [List.append_cancel_left hall]
        exact (hgave f hf).append_left _
      · cases hout
    · cases hout
  · cases hout

end Agent

end AchCourier.Remote
