import AchCourier.Proofs.Net.BarredHosts
import AchCourier.Proofs.Remote.History
import AchCourier.Proofs.Remote.Requests
import AchCourier.Remote.Memory

/-!
# The check of the host

An agent with a list of allowed ranges checks its host before it dials for the first time.  When the
name of the host shows an address, the outcome of the check is settled from the beginning.  A host
that is barred is refused again and again: the agent stays as it was made and never turns to the
host, whatever it is told to do.  A host that is not barred is admitted before the first dial, and
from then on the agent remembers that; neither the list nor a lookup has a say any more.

## Main definitions

* `Agent.Screened`, `Agent.Barred` — agents whose check needs no lookup, and those whose host is
  barred.
* `Agent.Calls` — actions that turn to the host, whatever comes of it.

## Main results

* `perform_of_barred`, `play_of_barred` — what an agent does whose host is barred: nothing.
* `acquire_of_admitted` — the host is admitted before it is dialed.
* `play_reaches`, `Courses.hostAllowed_iff` — when an agent turns to its host, and when it
  remembers that the host was admitted.
* `perform_withRanges`, `play_withRanges` — an admitted host is not checked again.
* `allowList_decides_once` — **the list decides once whether a host is dialed.**
-/

namespace AchCourier.Remote

variable {σ α β : Type} {host : Host σ} {lookup : Net.Lookup} {agent : Agent} {link after : Link σ}

namespace Agent

/-- The settings list allowed ranges, and nothing has to be looked up to check the host. -/
structure Screened (agent : Agent) : Prop where
  listed : agent.settings.allowedRanges ≠ []
  shown : Net.NeedsNoLookup agent.connector.hostname

/-- The list of allowed ranges bars the host. -/
def Barred (agent : Agent) : Prop :=
  Net.Bars agent.settings.allowedRanges agent.connector.hostname

/-! ### A host that is barred -/

theorem stillAlive_of_not_session (hsession : link.session = false) :
    (stillAlive host).run link = (.ok false, link) := by
  rw [stillAlive, run_bind, run_get]
  simp only [hsession]
  rfl

theorem close_of_not_session (hsession : link.session = false)
    (hstatus : link.status = .disconnected) : (Agent.close host).run link = (.ok (), link) := by
  have hgive : (giveUp host).run link = (.ok (), link) := by
    rw [giveUp, run_bind, run_get]
    simp only [hsession]
    rfl
  rw [Agent.close, run_bind, hgive, ← hstatus]
  rfl

theorem checkAllowed_of_barred (hagent : agent.Screened) (hbarred : agent.Barred)
    (hlink : link.hostAllowed = false) :
    ∃ e, e.isConfig = true ∧ (agent.checkAllowed lookup).run link = (.error e, link) := by
  rcases Net.AllowList.screen_of_needsNoLookup hagent.listed hagent.shown lookup with
    ⟨-, refusal, hscreen, hconfig⟩ | ⟨hnot, -⟩
  · refine ⟨_, hconfig agent.connector.protocol, ?_⟩
    rw [checkAllowed, run_bind, run_get]
    simp only [hlink, hscreen]
    rfl
  · exact absurd hbarred hnot

/-- An agent that has never had a session gets none while its host is barred. -/
theorem acquire_of_barred (hagent : agent.Screened) (hbarred : agent.Barred)
    (hlink : link.standing = ⟨.disconnected, false, false⟩) :
    ∃ e, e.isConfig = true ∧ (agent.acquire host lookup).run link = (.error e, link) := by
  obtain ⟨e, hconfig, hcheck⟩ := checkAllowed_of_barred hagent hbarred
    (congrArg Standing.hostAllowed hlink)
  refine ⟨e, hconfig, ?_⟩
  rw [acquire, run_bind, stillAlive_of_not_session (congrArg Standing.session hlink)]
  dsimp only
  rw [if_neg Bool.false_ne_true, run_bind, hcheck]

/-- The only trace of a guarded operation on a host that is barred is that its failure is noted. -/
theorem guarded_of_barred (hagent : agent.Screened) (hbarred : agent.Barred)
    (hlink : link.standing = ⟨.disconnected, false, false⟩) {body : Action σ α}
    {out : Except Error α}
    (h : (agent.guarded host (do agent.acquire host lookup; body)).run link = (out, after)) :
    (∃ e, out = .error e ∧ e.isConfig = true) ∧ after = { link with
      health := link.health.record agent.connector.protocol agent.connector.hostname false } := by
  obtain ⟨e, hconfig, hacquire⟩ := acquire_of_barred hagent hbarred hlink
  have hoperation : (do agent.acquire host lookup; body : Action σ α).run link =
      (.error e, link) := by
    rw [run_bind, hacquire]
  rcases guarded_cases h with ⟨a, mid, hdo, -, -⟩ | ⟨e', mid, hdo, rfl, hafter⟩
  · cases hoperation.symm.trans hdo
  · obtain ⟨herror, rfl⟩ := Prod.mk.inj (hoperation.symm.trans hdo)
    obtain rfl := Except.error.inj herror
    refine ⟨⟨e, rfl, hconfig⟩, ?_⟩
    -- the agent was not connected, so its failure leaves nothing to give up
    have hstatus : link.status = .disconnected := congrArg Standing.status hlink
    rw [afterFailure, run_bind, run_get] at hafter
    dsimp only at hafter
    rw [if_neg (by simp [hstatus])] at hafter
    exact (run_pure_inj hafter).2

/-- **What an agent does whose host is barred**: an operation that needs a session fails by the
configuration, and whatever the operation, nothing but the health changes. -/
theorem perform_of_barred (hagent : agent.Screened) (hbarred : agent.Barred)
    (hlink : link.standing = ⟨.disconnected, false, false⟩) {op : Operation}
    {out : Except Error Unit} (h : (op.perform host lookup agent).run link = (out, after)) :
    (∃ health, after = { link with health } ∧
        ∀ protocol hostname, health.retries protocol hostname =
          link.health.retries protocol hostname) ∧
      (op.needsSession = true → ∃ e, out = .error e ∧ e.isConfig = true) := by
  cases hop : op.needsSession with
  | true =>
    obtain ⟨_, body, -, hperform⟩ := perform_eq_guarded host lookup agent hop
    rw [hperform] at h
    rcases run_bind_cases h with ⟨_, mid, hdo, -⟩ | ⟨e, hdo, rfl⟩
    · obtain ⟨⟨e, hout, -⟩, -⟩ := guarded_of_barred hagent hbarred hlink hdo
      cases hout
    · obtain ⟨⟨e', hout, hconfig⟩, hafter⟩ := guarded_of_barred hagent hbarred hlink hdo
      obtain rfl := Except.error.inj hout
      exact ⟨⟨_, hafter, by simp⟩, fun _ => ⟨e, rfl, hconfig⟩⟩
  | false =>
    refine ⟨⟨link.health, ?_, fun _ _ => rfl⟩, fun hfalse => nomatch hfalse⟩
    -- there is no session to close, and a rejected upload leaves the agent alone
    rcases Operation.eq_close_or_isRejected hop with rfl | hrejected
    · have hclosed : (Agent.close host).run link = (.ok (), link) := close_of_not_session
        (congrArg Standing.session hlink) (congrArg Standing.status hlink)
      exact (Prod.mk.inj (h.symm.trans hclosed)).2
    · obtain ⟨e, hperform⟩ := perform_of_isRejected host lookup agent hrejected
      rw [hperform] at h
      exact (run_throw_inj h).2

/-- **A whole history on a host that is barred** leaves nothing but health behind. -/
theorem play_of_barred (hagent : agent.Screened) (hbarred : agent.Barred) (turns : List Turn)
    (hlink : link.standing = ⟨.disconnected, false, false⟩) :
    (∃ health, (agent.play host turns link).2 = { link with health } ∧
        ∀ protocol hostname, health.retries protocol hostname =
          link.health.retries protocol hostname) ∧
      ∀ e ∈ (agent.play host turns link).1, e.operation.needsSession = true →
        ∃ cause, e.failure = some cause ∧ cause.isConfig = true := by
  -- by induction on the turns: each of them leaves the agent as new, but for its health
  induction turns generalizing link with
  | nil => exact ⟨⟨link.health, rfl, fun _ _ => rfl⟩, by simp [play]⟩
  | cons turn turns ih =>
    rcases hrun : (turn.operation.perform host turn.lookup agent).run link with ⟨out, mid⟩
    obtain ⟨⟨health, rfl, hretries⟩, hfails⟩ := perform_of_barred hagent hbarred hlink hrun
    have hstanding : ({ link with health } : Link σ).standing = ⟨.disconnected, false, false⟩ :=
      hlink
    obtain ⟨⟨health', hafter, hretries'⟩, hlater⟩ := ih hstanding
    have hepisode : agent.episode host turn link = (⟨turn.operation, failureIn out, []⟩,
        { link with health }) := by
      simp [episode, hrun]
    simp only [play, hepisode]
    refine ⟨⟨health', hafter, fun protocol hostname => ?_⟩, List.forall_mem_cons.mpr ⟨?_, hlater⟩⟩
    · exact (hretries' protocol hostname).trans (hretries protocol hostname)
    · intro hneeds
      obtain ⟨e, rfl, hconfig⟩ := hfails hneeds
      exact ⟨e, rfl, hconfig⟩

/-- No first session is opened to a host that is barred. -/
theorem start_of_barred (hagent : agent.Screened) (hbarred : agent.Barred)
    (hlink : link.standing = ⟨.disconnected, false, false⟩) :
    ∃ e, e.isConfig = true ∧ (agent.start host lookup).run link = (.error e, { link with
      health := link.health.record agent.connector.protocol agent.connector.hostname false }) := by
  obtain ⟨e, hconfig, hacquire⟩ := acquire_of_barred hagent hbarred hlink
  refine ⟨e, hconfig, ?_⟩
  rw [start, run_tryCatch, run_bind, hacquire]
  rfl

/-- An agent whose host is barred was made without a session. -/
theorem Created.of_barred (hlink : agent.Created host link) (hagent : agent.Screened)
    (hbarred : agent.Barred) :
    link.calls = [] ∧ link.standing = ⟨.disconnected, false, false⟩ := by
  cases hlink with
  | lazily s health => exact ⟨rfl, rfl⟩
  | @connected lookup s health _ hstart =>
    have hstanding : ({ host := s, health } : Link σ).standing = ⟨.disconnected, false, false⟩ :=
      rfl
    obtain ⟨e, -, hfails⟩ := start_of_barred hagent hbarred hstanding
    cases hfails.symm.trans hstart

/-! ### A host that is admitted -/

theorem checkAllowed_of_admitted (hagent : agent.Screened) (hadmitted : ¬ agent.Barred) :
    (agent.checkAllowed lookup).run link = (.ok (), { link with hostAllowed := true }) := by
  rcases Net.AllowList.screen_of_needsNoLookup hagent.listed hagent.shown lookup with
    ⟨hbars, -⟩ | ⟨-, hscreen⟩
  · exact absurd hbars hadmitted
  · rw [checkAllowed, run_bind, run_get]
    -- whether the host was allowed before or not, it is from here on
    cases hallowed : link.hostAllowed with
    | true =>
      simp only [hallowed]
      rw [← hallowed]
      rfl
    | false =>
      simp only [hallowed, hscreen]
      rfl

/-- **The host is admitted before it is dialed.** -/
theorem acquire_of_admitted (hagent : agent.Screened) (hadmitted : ¬ agent.Barred)
    (hsession : link.session = false) :
    (agent.acquire host lookup).run link =
      (agent.establish host).run { link with hostAllowed := true } := by
  rw [acquire, run_bind, stillAlive_of_not_session hsession]
  dsimp only
  rw [if_neg Bool.false_ne_true, run_bind, checkAllowed_of_admitted hagent hadmitted]

/-- Whatever comes of it, the action makes a call. -/
def Calls (x : Action σ α) : Prop :=
  ∀ ⦃link out after⦄, x.run link = (out, after) → ∃ new ≠ [], after.calls = link.calls ++ new

theorem Calls.bind {may : Request → Prop} {x : Action σ α} {f : α → Action σ β} (hx : Calls x)
    (hf : ∀ a, Asks may (f a)) : Calls (x >>= f) := by
  intro link out after h
  rcases run_bind_cases h with ⟨a, mid, hfirst, hsecond⟩ | ⟨e, hfirst, -⟩
  · obtain ⟨new, hnew, hcalls⟩ := hx hfirst
    obtain ⟨more, hcalls', -⟩ := hf a hsecond
    exact ⟨new ++ more, by simp [hnew], by rw [hcalls', hcalls, List.append_assoc]⟩
  · exact hx hfirst

theorem Calls.guarded {operation : Action σ α} (hoperation : Calls operation) :
    Calls (agent.guarded host operation) := by
  intro link out after h
  obtain ⟨mid, hdo, hend⟩ := guarded_run h
  obtain ⟨new, hnew, hcalls⟩ := hoperation hdo
  have hmore : ∃ more, after.calls = mid.calls ++ more := by
    rcases hend with ⟨-, hleads⟩ | ⟨-, more, ⟨-, -, hleads⟩ | ⟨-, -, hleads⟩⟩
    · exact ⟨_, hleads.calls⟩
    · exact ⟨_, hleads.calls⟩
    · exact ⟨_, hleads.calls⟩
  obtain ⟨more, hmore⟩ := hmore
  exact ⟨new ++ more, by simp [hnew], by rw [hmore, hcalls, List.append_assoc]⟩

theorem Dialed.ne_nil {calls : List Call} {out : Except Error Unit} (h : Dialed calls out) :
    calls ≠ [] := by
  cases h <;> simp

theorem Opening.ne_nil {held : Bool} {calls : List Call} (h : Opening held calls) :
    calls ≠ [] := by
  cases h with
  | reused => simp
  | dialed _ hdialed => simp [hdialed.ne_nil]

/-- The session at hand is checked, or the host is dialed. -/
theorem calls_acquire (hagent : agent.Screened) (hadmitted : ¬ agent.Barred) :
    Calls (agent.acquire host lookup) := by
  intro link out after h
  rcases run_bind_cases h with ⟨alive, mid, halive, hrest⟩ | ⟨_, halive, -⟩
  · -- the check is a call if a session is held, and the first dial is one if none is
    rcases stillAlive_run halive with ⟨hout, -, hleads⟩ | ⟨hout, left, -, hleads⟩
    · obtain rfl := Except.ok.inj hout
      obtain ⟨-, rfl⟩ := run_pure_inj hrest
      exact ⟨_, by simp, hleads.calls⟩
    · obtain rfl := Except.ok.inj hout
      rw [if_neg Bool.false_ne_true, run_bind, checkAllowed_of_admitted hagent hadmitted] at hrest
      obtain ⟨new, hnew, hout⟩ := establish_run hrest
      have hcalls : after.calls = mid.calls ++ new := by
        rcases hout with ⟨-, hleads'⟩ | ⟨-, hleads'⟩
        · exact hleads'.calls
        · exact hleads'.calls
      exact ⟨left ++ new, by simp [hnew.ne_nil], by rw [hcalls, hleads.calls, List.append_assoc]⟩
  · rcases stillAlive_run halive with ⟨hout, -⟩ | ⟨hout, -⟩ <;> cases hout

/-- An operation that needs a session turns to a host that is admitted. -/
theorem calls_perform (hagent : agent.Screened) (hadmitted : ¬ agent.Barred) {op : Operation}
    (hop : op.needsSession = true) : Calls (op.perform host lookup agent) := by
  obtain ⟨_, body, hbody, hperform⟩ := perform_eq_guarded host lookup agent hop
  rw [hperform]
  have hdo : Calls (do agent.acquire host lookup; body) :=
    (calls_acquire hagent hadmitted).bind fun _ => hbody.asks
  have hpure : Works op.mayAsk (pure () : Action σ Unit) := works_pure ()
  exact hdo.guarded.bind fun _ => hpure.asks

/-- A turn that needs a session turns to a host that is admitted. -/
theorem episode_calls_ne_nil (hagent : agent.Screened) (hadmitted : ¬ agent.Barred) {turn : Turn}
    (hneeds : turn.operation.needsSession = true) :
    (agent.episode host turn link).1.calls ≠ [] := by
  rcases hrun : (turn.operation.perform host turn.lookup agent).run link with ⟨out, mid⟩
  obtain ⟨new, hnew, hmade⟩ := calls_perform hagent hadmitted hneeds hrun
  have hcalls : (agent.episode host turn link).1.calls = mid.calls.drop link.calls.length := by
    simp [episode, hrun]
  rwa [hcalls, hmade, List.drop_left]

/-- Whatever its history, an agent whose host is admitted turns to it with every operation that
needs a session. -/
theorem play_reaches (hagent : agent.Screened) (hadmitted : ¬ agent.Barred) (turns : List Turn) :
    ∀ e ∈ (agent.play host turns link).1, e.operation.needsSession = true → e.calls ≠ [] := by
  induction turns generalizing link with
  | nil => simp [play]
  | cons turn turns ih =>
    exact List.forall_mem_cons.mpr ⟨episode_calls_ne_nil hagent hadmitted, ih⟩

end Agent

/-- That the host was admitted is never forgotten. -/
theorem Course.keeps_hostAllowed {op : Operation} {s t : Standing} {failure : Option Error}
    {calls : List Call} (h : Course op s failure calls t) (hallowed : s.hostAllowed = true) :
    t.hostAllowed = true := by
  cases h with
  | served | broken | unreachable => rfl
  | refused | closed | rejected => exact hallowed

/-- An agent remembers that its host was admitted just when it did so before or has turned to the
host since. -/
theorem Course.hostAllowed_iff {op : Operation} {s t : Standing} {failure : Option Error}
    {calls : List Call} (h : Course op s failure calls t) (hs : s.Settled)
    (hreaches : op.needsSession = true → calls ≠ []) :
    t.hostAllowed = true ↔ s.hostAllowed = true ∨ calls ≠ [] := by
  cases h with
  | served hneeds => simp [hreaches hneeds]
  | broken e failure hneeds => simp
  | unreachable hneeds => simp [hreaches hneeds]
  | refused e hneeds => exact absurd rfl (hreaches hneeds)
  | closed _ hletGo =>
    -- closing makes a call just where a session is held, and its host was allowed
    cases hheld : s.session with
    | true => simp [hs.allowed hheld]
    | false => rw [hheld] at hletGo; cases hletGo; simp
  | rejected e => simp

/-- What an agent remembers of its host after a whole history. -/
theorem Courses.hostAllowed_iff {s t : Standing} {es : List Episode} (h : Courses s es t)
    (hs : s.Settled) (hreaches : ∀ e ∈ es, e.operation.needsSession = true → e.calls ≠ []) :
    t.hostAllowed = true ↔ s.hostAllowed = true ∨ es.flatMap Episode.calls ≠ [] := by
  induction h with
  | nil => simp
  | cons hcourse _ ih =>
    obtain ⟨hfirst, hrest⟩ := List.forall_mem_cons.mp hreaches
    rw [ih (hcourse.settled hs) hrest, hcourse.hostAllowed_iff hs hfirst, or_assoc,
      List.flatMap_cons, Ne, Ne, Ne, List.append_eq_nil_iff, Decidable.not_and_iff_or_not]

namespace Agent

/-! ### The check is not made again -/

theorem dial_withRanges (ranges : String) (more : Nat) :
    dial host (agent.withRanges ranges) more = dial host agent more := by
  induction more with
  | zero => rfl
  | succ more ih => rw [dial, dial, ih]; rfl

theorem checkAllowed_of_allowed (hlink : link.hostAllowed = true) :
    (agent.checkAllowed lookup).run link = (.ok (), link) := by
  rw [checkAllowed, run_bind, run_get]
  simp only [hlink]
  rfl

/-- An agent that remembers that its host was admitted gets its session without the list. -/
theorem acquire_withRanges (ranges : String) (lookup' : Net.Lookup)
    (hlink : link.hostAllowed = true) :
    ((agent.withRanges ranges).acquire host lookup').run link =
      (agent.acquire host lookup).run link := by
  rw [acquire, acquire, run_bind, run_bind]
  rcases halive : (stillAlive host).run link with ⟨out, mid⟩
  -- the check of the session does not take back that the host is allowed
  have hmid : mid.hostAllowed = true := by
    rcases stillAlive_run halive with ⟨-, -, hleads⟩ | ⟨-, _, -, hleads⟩ <;>
      exact hleads.hostAllowed.trans hlink
  rcases out with e | alive
  · rfl
  · cases alive with
    | true => rfl
    | false =>
      dsimp only
      rw [if_neg Bool.false_ne_true, if_neg Bool.false_ne_true, run_bind, run_bind,
        checkAllowed_of_allowed hmid, checkAllowed_of_allowed hmid]
      dsimp only
      rw [establish, establish, dial_withRanges]
      rfl

/-- Guarding an operation has no use for the list. -/
theorem guarded_withRanges (ranges : String) {operation operation' : Action σ α}
    (hsame : operation'.run link = operation.run link) :
    ((agent.withRanges ranges).guarded host operation').run link =
      (agent.guarded host operation).run link := by
  rw [guarded, guarded, run_tryCatch, run_tryCatch, run_bind, run_bind, hsame]
  rfl

/-- **An admitted host is not checked again**: no other list and no other lookup makes a
difference to an operation. -/
theorem perform_withRanges (op : Operation) (ranges : String) (lookup' : Net.Lookup)
    (hlink : link.hostAllowed = true) :
    (op.perform host lookup' (agent.withRanges ranges)).run link =
      (op.perform host lookup agent).run link := by
  cases hop : op.needsSession with
  | true =>
    -- the operation does its work behind the session, where the ranges are not looked at
    obtain ⟨_, body, -, hperform⟩ := perform_withRanges_eq_guarded host agent hop
    have hguarded := hperform lookup agent.settings.allowedIps
    rw [withRanges_self] at hguarded
    rw [hguarded, hperform lookup' ranges]
    have hbody : (do (agent.withRanges ranges).acquire host lookup'; body).run link =
        (do agent.acquire host lookup; body).run link := by
      rw [run_bind, run_bind, acquire_withRanges ranges lookup' hlink]
    rw [run_bind, run_bind, guarded_withRanges _ hbody]
  | false =>
    rcases Operation.eq_close_or_isRejected hop with rfl | hrejected
    · rfl
    · obtain ⟨e, hperform⟩ := perform_withRanges_of_isRejected host agent hrejected
      have hthrow := hperform lookup agent.settings.allowedIps
      rw [withRanges_self] at hthrow
      rw [hthrow, hperform lookup' ranges]

/-- Nothing the agent does from then on depends on the list or on lookups. -/
theorem play_withRanges (ranges : String) {turns turns' : List Turn}
    (hsame : turns'.map Turn.operation = turns.map Turn.operation) (hs : link.standing.Settled)
    (hlink : link.hostAllowed = true) :
    (agent.withRanges ranges).play host turns' link = agent.play host turns link := by
  -- by induction on the turns, as each of them leaves the host allowed
  induction turns generalizing turns' link with
  | nil =>
    obtain rfl := List.map_eq_nil_iff.mp hsame
    rfl
  | cons turn turns ih =>
    obtain ⟨turn', turns', rfl, hturn, hrest⟩ := List.map_eq_cons_iff.mp hsame
    have hepisode : (agent.withRanges ranges).episode host turn' link =
        agent.episode host turn link := by
      rw [episode, episode, hturn, perform_withRanges turn.operation ranges turn'.lookup hlink]
    obtain ⟨hcourse, -⟩ := episode_course hs turn
    have hafter : (agent.episode host turn link).2.hostAllowed = true :=
      hcourse.keeps_hostAllowed hlink
    rw [play, play, hepisode]
    dsimp only
    rw [ih hrest (hcourse.settled hs) hafter]

/-! ### The decision -/

/-- In any history of an admitted host, the agent remembers that it was admitted as soon as it has
turned to it. -/
theorem Created.hostAllowed_iff (hlink : agent.Created host link) (hagent : agent.Screened)
    (hadmitted : ¬ agent.Barred) (turns : List Turn) :
    (agent.play host turns link).2.hostAllowed = true ↔
      (agent.play host turns link).2.calls ≠ [] := by
  obtain ⟨hcourses, hcalls⟩ := @play_courses _ host agent turns link hlink.settled
  have hiff := hcourses.hostAllowed_iff hlink.settled (play_reaches hagent hadmitted turns)
  have hstart : link.standing.hostAllowed = true ↔ link.calls ≠ [] := by
    rcases hlink.opening with ⟨hnone, hstanding⟩ | ⟨hopening, hstanding⟩
    · simp [hnone, hstanding]
    · simp [hopening.ne_nil, hstanding]
  rw [hcalls, Ne, List.append_eq_nil_iff, Decidable.not_and_iff_or_not, ← Ne, ← Ne, ← hstart]
  exact hiff

/-- **The list decides once whether a host is dialed.**  If it bars the host, an agent cannot be
started and turns to the host at no time, whatever it is told to do and however often: every
operation that needs a session fails by the configuration, no retry is counted, and the agent stays
disconnected.  If it does not, the host is admitted before the first dial, and once the agent has
turned to its host no list and no lookup matters to it any more. -/
theorem allowList_decides_once (host : Host σ) {agent : Agent} (hagent : agent.Screened) :
    (agent.Barred →
      (∀ (lookup : Net.Lookup) (s : σ) (health : Health), ∃ e after,
        (agent.start host lookup).run { host := s, health } = (.error e, after) ∧
          e.isConfig = true ∧ after.calls = [] ∧ after.status = .disconnected ∧
          ∀ protocol hostname,
            after.health.retries protocol hostname = health.retries protocol hostname) ∧
      ∀ ⦃link⦄, agent.Created host link → ∀ turns : List Turn,
        (agent.play host turns link).2.calls = [] ∧
        (agent.play host turns link).2.status = .disconnected ∧
        (∀ e ∈ (agent.play host turns link).1, e.operation.needsSession = true →
          ∃ cause, e.failure = some cause ∧ cause.isConfig = true) ∧
        ∀ protocol hostname, (agent.play host turns link).2.health.retries protocol hostname =
          link.health.retries protocol hostname) ∧
    (¬ agent.Barred →
      (∀ (lookup : Net.Lookup) (link : Link σ), link.session = false →
        (agent.acquire host lookup).run link =
          (agent.establish host).run { link with hostAllowed := true }) ∧
      ∀ ⦃link⦄, agent.Created host link → ∀ turns : List Turn,
        (∀ e ∈ (agent.play host turns link).1, e.operation.needsSession = true → e.calls ≠ []) ∧
        ((agent.play host turns link).2.hostAllowed = true ↔
          (agent.play host turns link).2.calls ≠ []) ∧
        ((agent.play host turns link).2.calls ≠ [] →
          ∀ (ranges : String) (more more' : List Turn),
            more'.map Turn.operation = more.map Turn.operation →
            (agent.withRanges ranges).play host more' (agent.play host turns link).2 =
              agent.play host more (agent.play host turns link).2)) := by
  refine ⟨fun hbarred => ⟨fun lookup s health => ?_, fun link hlink turns => ?_⟩,
    fun hadmitted => ⟨fun lookup link => acquire_of_admitted hagent hadmitted,
      fun link hlink turns => ?_⟩⟩
  · have hstanding : ({ host := s, health } : Link σ).standing = ⟨.disconnected, false, false⟩ :=
      rfl
    obtain ⟨e, hconfig, hstart⟩ := start_of_barred hagent hbarred hstanding
    exact ⟨e, _, hstart, hconfig, rfl, rfl, by simp⟩
  · obtain ⟨hcalls, hstanding⟩ := hlink.of_barred hagent hbarred
    obtain ⟨⟨health, hafter, hretries⟩, hfails⟩ := play_of_barred hagent hbarred turns hstanding
    rw [hafter]
    exact ⟨hcalls, congrArg Standing.status hstanding, hfails, hretries⟩
  · have hallowed := hlink.hostAllowed_iff hagent hadmitted turns
    refine ⟨play_reaches hagent hadmitted turns, hallowed, fun hcalls ranges more more' hsame => ?_⟩
    -- a call was made, so the host is allowed, and the ranges are not looked at again
    have hsettled : (agent.play host turns link).2.standing.Settled :=
      (play_courses turns hlink.settled).1.settled hlink.settled
    exact play_withRanges ranges hsame hsettled (hallowed.mpr hcalls)

/-- A list bars an address that it does not cover, and admits one that it covers before the first
dial. -/
theorem allowList_decides_once_addresses :
    let agentAt : String → Agent := fun hostname =>
      { settings := { id := "bank", allowedIps := " 10.0.0.0/8, " }
        connector := { protocol := .memory, hostname } }
    let turns : List Turn := [⟨.offline, .ping⟩, ⟨.offline, .close⟩, ⟨.offline, .ping⟩]
    let link : Link Memory := { host := {} }
    (agentAt "127.0.0.1:22").Screened ∧ (agentAt "10.1.2.3:22").Screened ∧
      (agentAt "127.0.0.1:22").Barred ∧
      ((agentAt "127.0.0.1:22").play Memory.host turns link).2.calls = [] ∧
      ¬ (agentAt "10.1.2.3:22").Barred ∧
      ((agentAt "10.1.2.3:22").play Memory.host turns link).2.hostAllowed = true := by
  intro agentAt turns link
  have hloopback : (agentAt "127.0.0.1:22").Screened := ⟨by decide +kernel, by decide +kernel⟩
  have hprivate : (agentAt "10.1.2.3:22").Screened := ⟨by decide +kernel, by decide +kernel⟩
  have hbarred : (agentAt "127.0.0.1:22").Barred :=
    (Net.AllowList.bars_iff hloopback.listed hloopback.shown .offline).mpr (by decide +kernel)
  have hadmitted : ¬ (agentAt "10.1.2.3:22").Barred := fun hbars => by
    have hrefused := (Net.AllowList.bars_iff hprivate.listed hprivate.shown .offline).mp hbars
    revert hrefused
    decide +kernel
  -- both agents are new, and the same turns are played with each
  have hnew : ∀ hostname, (agentAt hostname).Created Memory.host link := fun _ => .lazily _ _
  obtain ⟨-, hnever⟩ := (allowList_decides_once Memory.host hloopback).1 hbarred
  obtain ⟨-, hdialed⟩ := (allowList_decides_once Memory.host hprivate).2 hadmitted
  obtain ⟨hcalls, -⟩ := hnever (hnew _) turns
  obtain ⟨-, hallowed, -⟩ := hdialed (hnew _) turns
  have hturned : ((agentAt "10.1.2.3:22").play Memory.host turns link).2.calls ≠ [] := by
    decide +kernel
  exact ⟨hloopback, hprivate, hbarred, hcalls, hadmitted, hallowed.mpr hturned⟩

end Agent

end AchCourier.Remote
