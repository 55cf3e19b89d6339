import AchCourier.Proofs.Remote.Actions

/-!
# What operations do

Every operation of an agent takes one of a few courses.  Either it has no use for a session, or it
gets one, makes its requests, and gives the session up if one of them fails.  Each course fixes the
calls of the operation up to their number and what the agent remembers afterwards.

## Main definitions

* `Operation`, `Operation.perform` — the operations and how they run.
* `Operation.mayAsk` — the requests that an operation makes on its session.
* `Operation.isRejected` — an upload that ends before it needs a session.
* `Operation.needsSession` — an operation that does, as all do but closing and rejected uploads.
* `Standing.Settled` — what holds of an agent between its operations.
* `Course` — what an operation may do.
* `Agent.withRanges` — an agent with another list of allowed ranges.

## Main results

* `perform_eq_guarded`, `perform_of_isRejected` — how operations run, with and without a session.
* `perform_course` — **every operation takes one of the courses.**
* `Course.settled` — between operations the agent is settled.
-/

namespace AchCourier.Remote

/-! ### Operations -/

/-- The operations of an agent. -/
inductive Operation where
  /-- Read the files of a directory. -/
  | readFiles (dir : String)
  /-- Write a file into the outbound directory. -/
  | upload (payload : Payload)
  /-- Remove a file. -/
  | delete (path : String)
  /-- Show that the host answers. -/
  | ping
  /-- Give the session up. -/
  | close
  deriving DecidableEq, Repr

namespace Operation

/-- Runs an operation; what it reads is left aside. -/
def perform {σ : Type} (host : Host σ) (lookup : Net.Lookup) (agent : Agent) :
    Operation → Action σ Unit
  | .readFiles dir => do let _ ← agent.readFiles host lookup dir
  | .upload payload => agent.upload host lookup payload
  | .delete path => agent.delete host lookup path
  | .ping => agent.ping host lookup
  | .close => Agent.close host

/-- The operation is an upload without a content or without a name, which ends before it needs a
session. -/
def isRejected : Operation → Bool
  | .upload payload =>
      match payload.read with
      | .error _ => true
      | .ok _ => baseName payload.name = ""
  | _ => false

/-- The operation needs a session, which it may have to open. -/
def needsSession (op : Operation) : Bool :=
  op ≠ .close && !op.isRejected

theorem needsSession_eq_true_iff {op : Operation} :
    op.needsSession = true ↔ op ≠ .close ∧ op.isRejected = false := by
  simp [needsSession]

theorem eq_close_or_isRejected {op : Operation} (h : op.needsSession = false) :
    op = .close ∨ op.isRejected = true := by
  by_cases hclose : op = .close
  · exact Or.inl hclose
  · exact Or.inr (by simpa [needsSession, hclose] using h)

/-- The requests that the operation makes on its session. -/
def mayAsk : Operation → Request → Prop
  | .readFiles dir, r => r = .readDir dir ∨ ∃ path, r = .readFile path
  | .upload _, r =>
      (∃ path, r = .stat path ∨ r = .createDir path) ∨
        ∃ dir name content, r = .writeFile dir name content
  | .delete path, r => r = .stat path ∨ r = .removeFile path
  | .ping, r => r = .readDir "."
  | .close, _ => False

/-- Opening, checking and closing a session is not the business of an operation. -/
theorem mayAsk_ne {op : Operation} {r : Request} (h : op.mayAsk r) :
    r ≠ .connect ∧ r ≠ .checkAlive ∧ r ≠ .close := by
  cases op with
  | readFiles dir => rcases h with rfl | ⟨path, rfl⟩ <;> simp
  | upload payload => rcases h with ⟨path, rfl | rfl⟩ | ⟨dir, name, content, rfl⟩ <;> simp
  | delete path => rcases h with rfl | rfl <;> simp
  | ping => subst h; simp
  | close => exact h.elim

end Operation

/-! ### Work on a session -/

/-- A failure that leaves the session of no more use.  That there is no file to remove is no such
failure, and an attempt to dial has no session yet. -/
def Call.breaks (c : Call) : Bool :=
  match c.request, c.failure with
  | _, none => false
  | .connect, some _ => false
  | .removeFile _, some e => !e.isNotFound
  | _, some _ => true

@[simp] theorem Call.breaks_none (r : Request) : Call.breaks ⟨r, none⟩ = false := by
  cases r <;> rfl

theorem Call.breaks_connect {c : Call} (h : c.request = .connect) : c.breaks = false := by
  obtain ⟨r, failure⟩ := c
  subst h
  cases failure <;> rfl

/-- Requests that may be made, one after another until one breaks the session, and whether the work
succeeded. -/
inductive Worked (may : Request → Prop) : List Call → Bool → Prop where
  /-- Nothing more is asked. -/
  | stop (ok : Bool) : Worked may [] ok
  /-- A request that leaves the session as good as it was. -/
  | sound {c : Call} {calls : List Call} {ok : Bool} :
      may c.request → c.breaks = false → Worked may calls ok → Worked may (c :: calls) ok
  /-- A request that breaks the session. -/
  | broke {c : Call} : may c.request → c.breaks = true → Worked may [c] false

theorem Worked.append {may : Request → Prop} {first more : List Call} {ok : Bool}
    (h : Worked may first true) (h' : Worked may more ok) : Worked may (first ++ more) ok := by
  generalize htrue : true = t at h
  induction h with
  | stop => exact h'
  | sound hmay hsound _ ih => exact .sound hmay hsound (ih htrue)
  | broke => cases htrue

theorem Worked.may_of_mem {may : Request → Prop} {calls : List Call} {ok : Bool}
    (h : Worked may calls ok) {c : Call} (hc : c ∈ calls) : may c.request := by
  induction h with
  | stop => cases hc
  | sound hmay _ _ ih =>
    rcases List.mem_cons.mp hc with rfl | hc
    · exact hmay
    · exact ih hc
  | broke hmay _ =>
    rw [List.mem_singleton.mp hc]
    exact hmay

namespace Agent

variable {σ α β : Type}

/-- The action works: it makes requests that it may make until one breaks the session, and changes
nothing of what the agent remembers and nothing of the health. -/
def Works (may : Request → Prop) (x : Action σ α) : Prop :=
  ∀ ⦃link out after⦄, x.run link = (out, after) → after.health = link.health ∧
    ∃ new, Worked may new out.isOk ∧ link.Leads new link.standing after

section
variable {host : Host σ} {may : Request → Prop}

theorem works_pure (a : α) : Works may (pure a : Action σ α) := by
  intro link out after h
  obtain ⟨rfl, rfl⟩ := run_pure_inj h
  exact ⟨rfl, [], .stop _, Link.Leads.refl _⟩

theorem works_throw (e : Error) : Works may (throw e : Action σ α) := by
  intro link out after h
  obtain ⟨rfl, rfl⟩ := run_throw_inj h
  exact ⟨rfl, [], .stop _, Link.Leads.refl _⟩

theorem works_ask {r : Request} (hmay : may r) : Works may (ask host r) := by
  intro link out after h
  have hhealth : after.health = link.health := by
    obtain ⟨-, rfl⟩ := Prod.mk.inj h
    rfl
  refine ⟨hhealth, _, ?_, ask_run h⟩
  -- only a failure that breaks the session ends the work
  cases out with
  | ok a => exact .sound hmay (Call.breaks_none r) (.stop _)
  | error e =>
    cases hbreaks : Call.breaks ⟨r, some e⟩ with
    | false => exact .sound hmay hbreaks (.stop _)
    | true => exact .broke hmay hbreaks

theorem Works.bind {x : Action σ α} {f : α → Action σ β} (hx : Works may x)
    (hf : ∀ a, Works may (f a)) : Works may (x >>= f) := by
  intro link out after h
  rcases run_bind_cases h with ⟨a, mid, hfirst, hsecond⟩ | ⟨e, hfirst, rfl⟩
  · obtain ⟨hhealth, new, hnew, hleads⟩ := hx hfirst
    obtain ⟨hhealth', more, hmore, hleads'⟩ := hf a hsecond
    rw [hleads.standing] at hleads'
    exact ⟨hhealth'.trans hhealth, new ++ more, hnew.append hmore, hleads.trans hleads'⟩
  · exact hx hfirst

theorem works_readEach {dir : String} (hmay : ∀ path, may (.readFile path))
    (entries : List Entry) : Works may (readEach host dir entries) := by
  induction entries with
  | nil => exact works_pure _
  | cons entry entries ih =>
    rw [readEach]
    split
    · exact ih
    · exact (works_ask (hmay _)).bind fun content => ih.bind fun files => works_pure _

theorem works_prepareOutbound {agent : Agent} (hstat : ∀ path, may (.stat path))
    (hcreate : ∀ path, may (.createDir path)) : Works may (agent.prepareOutbound host) := by
  rw [prepareOutbound]
  split
  · refine (works_ask (hstat _)).bind fun entry? => ?_
    cases entry? with
    | none => exact works_ask (hcreate _)
    | some entry =>
      dsimp only
      split
      · exact works_pure _
      · exact works_throw _
  · exact works_pure _

/-- That there is no file to remove is no failure. -/
theorem works_remove {path : String} (hmay : may (.removeFile path)) :
    Works may (tryCatch (ask host (.removeFile path)) fun e =>
      if e.isNotFound then return () else throw e) := by
  intro link out after h
  rcases run_tryCatch_cases h with ⟨_, hask, rfl⟩ | ⟨e, mid, hask, hhandle⟩
  · exact works_ask hmay hask
  · have hasked := ask_run hask
    split at hhandle
    · -- that the file is gone already does not break the session
      next hfound =>
      obtain ⟨rfl, rfl⟩ := run_pure_inj hhandle
      exact ⟨(works_ask hmay hask).1, _,
        .sound hmay (by simp [failureIn, Call.breaks, hfound]) (.stop _), hasked⟩
    · obtain ⟨rfl, rfl⟩ := run_throw_inj hhandle
      exact works_ask hmay hask

end

end Agent

/-! ### Courses -/

/-- What holds of an agent between its operations. -/
structure Standing.Settled (s : Standing) : Prop where
  /-- The agent holds a session exactly while it is connected. -/
  session_iff : s.session = true ↔ s.status = .connected
  /-- No dial is under way. -/
  idle : s.status ≠ .connecting
  /-- A session was opened to an allowed host. -/
  allowed : s.session = true → s.hostAllowed = true

/-- What an operation may do from a standing: its failure, its calls, and the standing that it
leads to. -/
inductive Course (op : Operation) (s : Standing) :
    Option Error → List Call → Standing → Prop where
  /-- It gets a session and succeeds. -/
  | served {first work : List Call} : op.needsSession = true → Agent.Opening s.session first →
      Worked op.mayAsk work true → Course op s none (first ++ work) ⟨.connected, true, true⟩
  /-- It gets a session and gives it up after a failure. -/
  | broken {first work : List Call} (e : Error) (failure : Option Error) :
      op.needsSession = true → Agent.Opening s.session first → Worked op.mayAsk work false →
      Course op s (some e) (first ++ work ++ [⟨.close, failure⟩]) ⟨.disconnected, false, true⟩
  /-- The host cannot be reached. -/
  | unreachable {left new : List Call} {e : Error} : op.needsSession = true →
      Agent.Missed s.session left → Agent.Dialed new (.error e) →
      Course op s (some e) (left ++ new) ⟨.failed, false, true⟩
  /-- The host is not in the allowed ranges, and there never was a session. -/
  | refused (e : Error) : op.needsSession = true → s.session = false → Course op s (some e) [] s
  /-- It gives the session up. -/
  | closed {new : List Call} : op = .close → Agent.LetGo s.session new →
      Course op s none new ⟨.disconnected, false, s.hostAllowed⟩
  /-- It ends before it needs a session. -/
  | rejected (e : Error) : op.isRejected = true → Course op s (some e) [] s

/-- Between operations the agent is settled. -/
theorem Course.settled {op : Operation} {s t : Standing} {failure : Option Error}
    {new : List Call} (h : Course op s failure new t) (hs : s.Settled) : t.Settled := by
  cases h with
  | served => exact ⟨by simp, by simp, by simp⟩
  | broken => exact ⟨by simp, by simp, by simp⟩
  | unreachable => exact ⟨by simp, by simp, by simp⟩
  | refused => exact hs
  | closed => exact ⟨by simp, by simp, by simp⟩
  | rejected => exact hs

namespace Agent

/-- The agent with another list of allowed ranges. -/
def withRanges (agent : Agent) (ranges : String) : Agent :=
  { agent with settings := { agent.settings with allowedIps := ranges } }

theorem withRanges_self (agent : Agent) : agent.withRanges agent.settings.allowedIps = agent := rfl

section
variable {σ α : Type} {host : Host σ} {lookup : Net.Lookup} {agent : Agent} {link after : Link σ}

/-- Behind a success of a guarded operation only the record of it is kept, and behind a failure the
session is let go. -/
theorem guarded_cases {operation : Action σ α} {out : Except Error α}
    (h : (agent.guarded host operation).run link = (out, after)) :
    (∃ a mid, operation.run link = (.ok a, mid) ∧ out = .ok a ∧
        after = { mid with
          health := mid.health.record agent.connector.protocol agent.connector.hostname true }) ∨
      ∃ e mid, operation.run link = (.error e, mid) ∧ out = .error e ∧
        (afterFailure host).run { mid with
          health := mid.health.record agent.connector.protocol agent.connector.hostname false } =
            (.ok (), after) := by
  rcases run_tryCatch_cases h with ⟨a, hdo, rfl⟩ | ⟨e, mid, hdo, hhandle⟩
  · rcases run_bind_cases hdo with ⟨a', mid, hoperation, hrecord⟩ | ⟨_, -, hout⟩
    · rw [run_bind, run_record] at hrecord
      obtain ⟨hout, rfl⟩ := run_pure_inj hrecord
      cases hout
      exact Or.inl ⟨a, mid, hoperation, rfl, rfl⟩
    · cases hout
  · -- the record of a success never fails, so it is the operation that did
    have hoperation : operation.run link = (.error e, mid) := by
      rcases run_bind_cases hdo with ⟨a', _, -, hrecord⟩ | ⟨e', hoperation, hout⟩
      · rw [run_bind, run_record] at hrecord
        cases (run_pure_inj hrecord).1
      · cases hout
        exact hoperation
    rw [run_bind, run_record] at hhandle
    rcases run_bind_cases hhandle with ⟨_, last, hafter, hthrow⟩ | ⟨_, hafter, -⟩
    · obtain ⟨rfl, rfl⟩ := run_throw_inj hthrow
      exact Or.inr ⟨e, mid, hoperation, rfl, hafter⟩
    · cases (afterFailure_run hafter).1

/-- A guarded operation succeeds, or fails and lets the session go. -/
theorem guarded_run {operation : Action σ α} {out : Except Error α}
    (h : (agent.guarded host operation).run link = (out, after)) :
    ∃ mid, operation.run link = (out, mid) ∧
      ((∃ a, out = .ok a) ∧ mid.Leads [] mid.standing after ∨
        (∃ e, out = .error e) ∧ ∃ new,
          (mid.status = .connected ∧ LetGo mid.session new ∧
              mid.Leads new ⟨.disconnected, false, mid.hostAllowed⟩ after ∨
            mid.status ≠ .connected ∧ new = [] ∧ mid.Leads [] mid.standing after)) := by
  rcases guarded_cases h with ⟨a, mid, hoperation, rfl, rfl⟩ | ⟨e, mid, hoperation, rfl, hafter⟩
  · exact ⟨mid, hoperation, Or.inl ⟨⟨a, rfl⟩, by simp, rfl⟩⟩
  · obtain ⟨-, new, hleads⟩ := afterFailure_run hafter
    refine ⟨mid, hoperation, Or.inr ⟨⟨e, rfl⟩, new, ?_⟩⟩
    -- recording the failure leaves the calls and the standing as they are
    rcases hleads with ⟨hstatus, hnew, hleads⟩ | ⟨hstatus, hnew, hleads⟩
    · exact Or.inl ⟨hstatus, hnew, hleads.calls, hleads.standing⟩
    · exact Or.inr ⟨hstatus, hnew, hleads.calls, hleads.standing⟩

/-- Whether it was at hand or is new, a session that an operation gets is connected. -/
theorem Acquired.opening {s t : Standing} {new : List Call}
    (h : Acquired s new (.ok ()) t) (hs : s.Settled) :
    Opening s.session new ∧ t = ⟨.connected, true, true⟩ := by
  generalize hout : (Except.ok () : Except Error Unit) = out at h
  cases h with
  | reused hsession =>
    refine ⟨hsession ▸ .reused, ?_⟩
    obtain ⟨status, session, hostAllowed⟩ := s
    rw [Standing.mk.injEq]
    exact ⟨hs.session_iff.mp hsession, hsession, hs.allowed hsession⟩
  | dialed hleft hnew => exact ⟨.dialed hleft hnew, rfl⟩
  | unreachable => cases hout
  | refused => cases hout

/-- What a guarded operation does that works once it has a session. -/
theorem guarded_course {op : Operation} (hop : op.needsSession = true) {body : Action σ α}
    (hbody : Works op.mayAsk body) (hs : link.standing.Settled) {out : Except Error α}
    (h : (agent.guarded host (do agent.acquire host lookup; body)).run link = (out, after)) :
    ∃ new s, Course op link.standing (failureIn out) new s ∧ link.Leads new s after := by
  obtain ⟨mid, hdo, hrest⟩ := guarded_run h
  rcases run_bind_cases hdo with ⟨_, opened, hacquire, hwork⟩ | ⟨e, hacquire, rfl⟩
  · -- there is a session, and the operation makes its requests
    obtain ⟨first, s, hacquired, hfirst⟩ := acquire_run hacquire
    obtain ⟨hopening, rfl⟩ := hacquired.opening hs
    obtain ⟨-, work, hworked, hleads⟩ := hbody hwork
    rw [hfirst.standing] at hleads
    have hmid := hfirst.trans hleads
    rcases hrest with ⟨⟨a, rfl⟩, hend⟩ | ⟨⟨e, rfl⟩, new, hend⟩
    · rw [hmid.standing] at hend
      have hall := hmid.trans hend
      rw [List.append_nil] at hall
      exact ⟨_, _, .served hop hopening hworked, hall⟩
    · rw [hmid.status, hmid.session, hmid.hostAllowed] at hend
      rcases hend with ⟨-, hnew, hend⟩ | ⟨hstatus, -⟩
      · cases hnew with
        | closed failure =>
          exact ⟨_, _, .broken e failure hop hopening hworked, hmid.trans hend⟩
      · exact absurd rfl hstatus
  · -- there is none, and after the failure nothing is left to give up
    obtain ⟨first, s, hacquired, hfirst⟩ := acquire_run hacquire
    have hkept : s.status ≠ .connected → link.Leads first s after := by
      intro hstatus
      rcases hrest with ⟨⟨_, hout⟩, -⟩ | ⟨-, new, hend⟩
      · cases hout
      · rw [hfirst.status] at hend
        rcases hend with ⟨hconnected, -⟩ | ⟨-, -, hend⟩
        · exact absurd hconnected hstatus
        · rw [hfirst.standing] at hend
          have hall := hfirst.trans hend
          rwa [List.append_nil] at hall
    cases hacquired with
    | unreachable hleft hnew =>
      exact ⟨_, _, .unreachable hop hleft hnew, hkept (by simp)⟩
    | refused _ hleft hallowed =>
      -- a host that is not allowed was never reached, so there was no session to lose
      have hsession : link.standing.session = false := by
        cases hsession : link.standing.session with
        | false => rfl
        | true => rw [hs.allowed hsession] at hallowed; cases hallowed
      have hsame : { link.standing with session := false } = link.standing := by
        rw [← hsession]
      have hstatus : link.standing.status ≠ .connected := by
        intro hstatus
        rw [hs.session_iff.mpr hstatus] at hsession
        cases hsession
      rw [hsession] at hleft
      rw [hsame] at hkept
      cases hleft
      exact ⟨_, _, .refused e hop hsession, hkept hstatus⟩

/-- **An operation that needs a session is guarded**: it gets the session first, and then makes its
requests.  What it does then does not depend on the list of allowed ranges or on lookups. -/
theorem perform_withRanges_eq_guarded (host : Host σ) (agent : Agent) {op : Operation}
    (hop : op.needsSession = true) :
    ∃ (β : Type) (body : Action σ β), Works op.mayAsk body ∧
      ∀ (lookup : Net.Lookup) (ranges : String),
        op.perform host lookup (agent.withRanges ranges) =
          (do let _ ← (agent.withRanges ranges).guarded host
                (do (agent.withRanges ranges).acquire host lookup; body)) := by
  cases op with
  | readFiles dir =>
    have hlist : Works (Operation.mayAsk (.readFiles dir)) (ask host (.readDir dir)) :=
      works_ask (Or.inl rfl)
    exact ⟨_, _, hlist.bind fun _ => works_readEach (fun path => Or.inr ⟨path, rfl⟩) _,
      fun _ _ => rfl⟩
  | upload payload =>
    obtain ⟨-, haccepted⟩ := Operation.needsSession_eq_true_iff.mp hop
    simp only [Operation.isRejected] at haccepted
    split at haccepted
    · cases haccepted
    · next content hread =>
      -- what is accepted has a content and a base name, so the agent goes on to ask for a session
      have hname : baseName payload.name ≠ "" := of_decide_eq_false haccepted
      have hprepare : Works (Operation.mayAsk (.upload payload)) (agent.prepareOutbound host) :=
        works_prepareOutbound (fun path => Or.inl ⟨path, Or.inl rfl⟩)
          fun path => Or.inl ⟨path, Or.inr rfl⟩
      have hwrite : Works (Operation.mayAsk (.upload payload)) (ask host
          (.writeFile agent.settings.paths.outbound (baseName payload.name) content)) :=
        works_ask (Or.inr ⟨_, _, _, rfl⟩)
      refine ⟨_, _, hprepare.bind fun _ => hwrite, fun lookup ranges => ?_⟩
      simp only [Operation.perform, upload, hread, if_neg hname]
      exact bind_pure_unit.symm
  | delete path =>
    have hstat : Works (Operation.mayAsk (.delete path)) (ask host (.stat path)) :=
      works_ask (Or.inl rfl)
    refine ⟨_, _, hstat.bind fun entry? => ?_, fun _ _ => (bind_pure_unit).symm⟩
    split
    · exact works_remove (Or.inr rfl)
    · exact works_pure _
  | ping =>
    have hread : Works (Operation.mayAsk .ping) (ask host (.readDir ".")) := works_ask rfl
    exact ⟨_, _, hread.bind fun _ => works_pure (), fun _ _ => (bind_pure_unit).symm⟩
  | close => cases hop

theorem perform_eq_guarded (host : Host σ) (lookup : Net.Lookup) (agent : Agent) {op : Operation}
    (hop : op.needsSession = true) :
    ∃ (β : Type) (body : Action σ β), Works op.mayAsk body ∧
      op.perform host lookup agent =
        (do let _ ← agent.guarded host (do agent.acquire host lookup; body)) := by
  obtain ⟨β, body, hbody, hperform⟩ := perform_withRanges_eq_guarded host agent hop
  have hown := hperform lookup agent.settings.allowedIps
  rw [withRanges_self] at hown
  exact ⟨β, body, hbody, hown⟩

/-- An upload without a content or without a name fails before it does anything, with one and the
same error whatever the list of allowed ranges. -/
theorem perform_withRanges_of_isRejected (host : Host σ) (agent : Agent) {op : Operation}
    (hop : op.isRejected = true) :
    ∃ e, ∀ (lookup : Net.Lookup) (ranges : String),
      op.perform host lookup (agent.withRanges ranges) = throw e := by
  cases op with
  | upload payload =>
    simp only [Operation.perform, upload]
    -- the content is read before the base name is looked at
    cases hread : payload.read with
    | error message =>
      exact ⟨.io agent.connector.protocol "read" payload.name message, fun _ _ => rfl⟩
    | ok content =>
      simp only [Operation.isRejected, hread] at hop
      have hname : baseName payload.name = "" := of_decide_eq_true hop
      exact ⟨.operation agent.connector.protocol "upload" payload.name "empty filename",
        fun _ _ => if_pos hname⟩
  | readFiles | delete | ping | close => cases hop

theorem perform_of_isRejected (host : Host σ) (lookup : Net.Lookup) (agent : Agent)
    {op : Operation} (hop : op.isRejected = true) :
    ∃ e, op.perform host lookup agent = throw e := by
  obtain ⟨e, hperform⟩ := perform_withRanges_of_isRejected host agent hop
  have hown := hperform lookup agent.settings.allowedIps
  rw [withRanges_self] at hown
  exact ⟨e, hown⟩

/-- **Every operation takes one of the courses.** -/
theorem perform_course {op : Operation} (hs : link.standing.Settled) {out : Except Error Unit}
    (h : (op.perform host lookup agent).run link = (out, after)) :
    ∃ new s, Course op link.standing (failureIn out) new s ∧ link.Leads new s after := by
  cases hop : op.needsSession with
  | true =>
    obtain ⟨_, body, hbody, hperform⟩ := perform_eq_guarded host lookup agent hop
    rw [hperform] at h
    rcases run_bind_cases h with ⟨_, mid, hdo, hdone⟩ | ⟨e, hdo, rfl⟩
    · obtain ⟨rfl, rfl⟩ := run_pure_inj hdone
      exact guarded_course hop hbody hs hdo
    · exact guarded_course hop hbody hs hdo
  | false =>
    rcases Operation.eq_close_or_isRejected hop with rfl | hrejected
    · rcases run_bind_cases h with ⟨_, mid, hgive, hset⟩ | ⟨_, hgive, -⟩
      · obtain ⟨rfl, rfl⟩ := Prod.mk.inj hset
        obtain ⟨-, new, hnew, hleads⟩ := giveUp_run hgive
        refine ⟨new, _, .closed rfl hnew, hleads.calls, ?_⟩
        show (⟨.disconnected, mid.session, mid.hostAllowed⟩ : Standing) = _
        rw [hleads.session, hleads.hostAllowed]
      · cases (giveUp_run hgive).1
    · -- without content or without a base name the agent is left as it is
      obtain ⟨e, hperform⟩ := perform_of_isRejected host lookup agent hrejected
      rw [hperform] at h
      obtain ⟨rfl, rfl⟩ := run_throw_inj h
      exact ⟨[], _, .rejected e hrejected, Link.Leads.refl _⟩

end

end Agent

end AchCourier.Remote
