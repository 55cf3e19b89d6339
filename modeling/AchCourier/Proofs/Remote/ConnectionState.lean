import AchCourier.Proofs.Remote.History
import AchCourier.Remote.Memory

/-!
# The status of an agent

An agent remembers its status beside the session that it holds.  Between operations the two always
agree: the agent is connected exactly while it holds a session, it is never left in the middle of a
dial, and it has failed exactly when its last dial did and it was not closed since.

## Main definitions

* `Episode.Dials`, `Episode.DialFailed` — operations that dial, and those that dial in vain.
* `LastDialFailed` — the last dial of a history was in vain, and nothing has closed the agent since.

## Main results

* `Courses.failed_iff` — when a history ends with a failed agent.
* `session_iff_connected` — **the session and the status of an agent agree after every history.**
-/

namespace AchCourier.Remote

/-! ### Dials that fail -/

/-- The operation dialed. -/
def Episode.Dials (e : Episode) : Prop :=
  ∃ c ∈ e.calls, c.request = .connect

/-- The operation dialed, and no attempt succeeded. -/
def Episode.DialFailed (e : Episode) : Prop :=
  e.Dials ∧ ∀ c ∈ e.calls, c.request = .connect → c.failure.isSome = true

/-- The operation leaves it open whether the last dial has failed. -/
def Episode.KeepsStatus (e : Episode) : Prop :=
  e.operation ≠ .close ∧ ¬ e.Dials

/-- The last dial was in vain, and the agent was not closed since. -/
def LastDialFailed (episodes : List Episode) : Prop :=
  ∃ before e later, episodes = before ++ e :: later ∧ e.DialFailed ∧
    ∀ x ∈ later, x.KeepsStatus

theorem lastDialFailed_cons {e : Episode} {es : List Episode} :
    LastDialFailed (e :: es) ↔ LastDialFailed es ∨ e.DialFailed ∧ ∀ x ∈ es, x.KeepsStatus := by
  constructor
  · rintro ⟨before, x, later, heq, hx, hlater⟩
    -- the dial that failed is this one or one behind it
    cases before with
    | nil =>
      obtain ⟨rfl, rfl⟩ := List.cons.inj heq
      exact Or.inr ⟨hx, hlater⟩
    | cons first before =>
      obtain ⟨-, rfl⟩ := List.cons.inj heq
      exact Or.inl ⟨before, x, later, rfl, hx, hlater⟩
  · rintro (⟨before, x, later, rfl, hx, hlater⟩ | ⟨he, hes⟩)
    · exact ⟨e :: before, x, later, rfl, hx, hlater⟩
    · exact ⟨[], e, es, rfl, he, hes⟩

/-! ### The calls of a course -/

namespace Agent

/-- A dial succeeds with its last attempt. -/
theorem Dialed.mem_of_ok {calls : List Call} {out : Except Error Unit} (h : Dialed calls out)
    (hout : out = .ok ()) : ⟨.connect, none⟩ ∈ calls := by
  induction h with
  | reached => exact List.mem_singleton_self _
  | failed => cases hout
  | again e _ ih => exact List.mem_cons_of_mem _ (ih hout)

/-- A dial that fails fails with every attempt, and there is at least one. -/
theorem Dialed.failure_of_mem {calls : List Call} {out : Except Error Unit} (h : Dialed calls out)
    {e : Error} (hout : out = .error e) :
    calls ≠ [] ∧ ∀ c ∈ calls, c.failure.isSome = true := by
  induction h with
  | reached => cases hout
  | failed e => simp
  | again e _ ih => simpa using (ih hout).2

theorem LetGo.ne_connect {held : Bool} {calls : List Call} (h : LetGo held calls) :
    ∀ c ∈ calls, c.request ≠ .connect := by
  cases h <;> simp

theorem Missed.ne_connect {held : Bool} {calls : List Call} (h : Missed held calls) :
    ∀ c ∈ calls, c.request ≠ .connect := by
  cases h <;> simp

end Agent

theorem Worked.ne_connect {op : Operation} {calls : List Call} {ok : Bool}
    (h : Worked op.mayAsk calls ok) : ∀ c ∈ calls, c.request ≠ .connect :=
  fun _ hc => (Operation.mayAsk_ne (h.may_of_mem hc)).1

theorem Agent.Opening.reused_or_connect_mem {held : Bool} {calls : List Call}
    (h : Opening held calls) :
    held = true ∧ calls = [⟨.checkAlive, none⟩] ∨ ⟨.connect, none⟩ ∈ calls := by
  cases h with
  | reused => exact Or.inl ⟨rfl, rfl⟩
  | dialed _ hnew => exact Or.inr (List.mem_append_right _ (hnew.mem_of_ok rfl))

theorem Operation.ne_close_of_isRejected {op : Operation} (h : op.isRejected = true) :
    op ≠ .close := by
  rintro rfl
  cases h

/-- An operation that gets a session did not dial in vain, and if it did not dial then the agent
had not failed before. -/
theorem Episode.not_failed_of_opening {s : Standing} (hs : s.Settled) {e : Episode}
    {first rest : List Call} (hfirst : Agent.Opening s.session first)
    (hrest : ∀ c ∈ rest, c.request ≠ .connect) (hcalls : e.calls = first ++ rest) :
    ¬ (e.DialFailed ∨ s.status = .failed ∧ e.KeepsStatus) := by
  -- a session is held and nothing is dialed, or the dial has worked
  rcases hfirst.reused_or_connect_mem with ⟨hsession, rfl⟩ | hmem
  · have hnot : ¬ e.Dials := by
      rintro ⟨c, hc, hconnect⟩
      rw [hcalls] at hc
      rcases List.mem_append.mp hc with hc | hc
      · rw [List.mem_singleton.mp hc] at hconnect
        cases hconnect
      · exact hrest c hc hconnect
    rintro (⟨hdials, -⟩ | ⟨hfailed, -⟩)
    · exact hnot hdials
    · rw [hs.session_iff.mp hsession] at hfailed
      cases hfailed
  · have hconnect : ⟨.connect, none⟩ ∈ e.calls := hcalls ▸ List.mem_append_left _ hmem
    rintro (⟨-, hfailed⟩ | ⟨-, -, hnot⟩)
    · cases hfailed _ hconnect rfl
    · exact hnot ⟨_, hconnect, rfl⟩

/-- After a course the agent has failed exactly when the course dialed in vain, or when the agent
had failed before and the course kept that. -/
theorem Course.failed_iff {s t : Standing} {e : Episode}
    (h : Course e.operation s e.failure e.calls t) (hs : s.Settled) :
    t.status = .failed ↔ e.DialFailed ∨ s.status = .failed ∧ e.KeepsStatus := by
  obtain ⟨op, failure, calls⟩ := e
  dsimp only at h
  cases h with
  | served _ hfirst hwork =>
    exact iff_of_false (by simp) (Episode.not_failed_of_opening hs hfirst hwork.ne_connect rfl)
  | broken e failure _ hfirst hwork =>
    refine iff_of_false (by simp)
      (Episode.not_failed_of_opening hs hfirst ?_ (List.append_assoc ..))
    -- the session is only closed behind the work
    intro c hc
    rcases List.mem_append.mp hc with hc | hc
    · exact hwork.ne_connect c hc
    · rw [List.mem_singleton.mp hc]
      simp
  | unreachable _ hleft hnew =>
    -- the dials are the calls behind the session that was let go, and all of them failed
    obtain ⟨hne, hfailed⟩ := hnew.failure_of_mem rfl
    obtain ⟨c, hc⟩ := List.exists_mem_of_ne_nil _ hne
    refine iff_of_true rfl (Or.inl ⟨⟨c, List.mem_append_right _ hc, hnew.connect_of_mem hc⟩, ?_⟩)
    intro d hd hconnect
    rcases List.mem_append.mp hd with hd | hd
    · exact absurd hconnect (hleft.ne_connect d hd)
    · exact hfailed d hd
  | refused e hop hsession =>
    simp [Episode.DialFailed, Episode.KeepsStatus, Episode.Dials,
      (Operation.needsSession_eq_true_iff.mp hop).1]
  | closed hop hnew =>
    refine iff_of_false (by simp) ?_
    rintro (⟨⟨c, hc, hconnect⟩, -⟩ | ⟨-, hnot, -⟩)
    · exact hnew.ne_connect c hc hconnect
    · exact hnot hop
  | rejected e hop =>
    simp [Episode.DialFailed, Episode.KeepsStatus, Episode.Dials,
      Operation.ne_close_of_isRejected hop]

/-- When a history ends with a failed agent. -/
theorem Courses.failed_iff {s t : Standing} {es : List Episode} (h : Courses s es t)
    (hs : s.Settled) :
    t.status = .failed ↔
      LastDialFailed es ∨ s.status = .failed ∧ ∀ e ∈ es, e.KeepsStatus := by
  induction h with
  | nil => simp [LastDialFailed]
  | cons hcourse _ ih =>
    rw [ih (hcourse.settled hs), hcourse.failed_iff hs, lastDialFailed_cons, List.forall_mem_cons,
      or_and_right, and_assoc, or_assoc]

/-! ### After a failure -/

/-- An operation that fails leaves no session, unless it ended before it needed one. -/
theorem Course.session_of_failure {op : Operation} {s t : Standing} {failure : Option Error}
    {new : List Call} (h : Course op s failure new t) (hfailure : failure.isSome = true)
    (hop : op.isRejected = false) : t.session = false := by
  cases h with
  | served => cases hfailure
  | broken => rfl
  | unreachable => rfl
  | refused _ _ hsession => exact hsession
  | closed => rfl
  | rejected _ hrejected =>
    rw [hop] at hrejected
    cases hrejected

/-- **The session and the status of an agent agree after every history.**  The agent holds a
session exactly while it is connected, it is never left while it dials, it has failed exactly when
its last dial did and it was not closed since, and after a failed operation it holds no session.
The one exception are uploads that fail before they need a session: they leave it as it is. -/
theorem session_iff_connected {σ : Type} {host : Host σ} {agent : Agent} {link : Link σ}
    (hlink : agent.Created host link) (turns : List Turn) :
    let episodes := (agent.play host turns link).1
    let after := (agent.play host turns link).2
    (after.session = true ↔ after.status = .connected) ∧
      after.status ≠ .connecting ∧
      (after.status = .failed ↔ LastDialFailed episodes) ∧
      ∀ e ∈ episodes.getLast?, e.failure.isSome = true → e.operation.isRejected = false →
        after.session = false := by
  obtain ⟨hcourses, -⟩ := Agent.play_courses turns hlink.settled
  generalize agent.play host turns link = played at hcourses
  obtain ⟨episodes, after⟩ := played
  have hsettled := hcourses.settled hlink.settled
  refine ⟨hsettled.session_iff, hsettled.idle, ?_, ?_⟩
  · -- a new agent has not failed yet
    have hfresh : link.standing.status ≠ .failed := by
      rcases hlink.opening with ⟨-, hs⟩ | ⟨-, hs⟩ <;> rw [hs] <;> simp
    refine (hcourses.failed_iff hlink.settled).trans ⟨?_, Or.inl⟩
    rintro (hlast | ⟨hfailed, -⟩)
    · exact hlast
    · exact absurd hfailed hfresh
  · intro e he hfailure hop
    obtain ⟨before, rfl⟩ := List.getLast?_eq_some_iff.mp he
    obtain ⟨u, v, -, hcourse, hlater⟩ := hcourses.split
    cases hlater
    exact hcourse.session_of_failure hfailure hop

/-- An agent that is refused when it dials has failed, and holds a session once it dials again. -/
theorem session_iff_connected_refused :
    let link : Link Memory := { host := Memory.refuse {} 1 }
    let first := plainBank.play Memory.host [⟨.offline, .ping⟩] link
    let both := plainBank.play Memory.host [⟨.offline, .ping⟩, ⟨.offline, .ping⟩] link
    plainBank.Created Memory.host link ∧ LastDialFailed first.1 ∧ first.2.session = false ∧
      ¬ LastDialFailed both.1 ∧ both.2.session = true := by
  intro link first both
  have hlink : plainBank.Created Memory.host link := .lazily _ _
  -- the first dial is refused, and the second one is not
  obtain ⟨hsession, -, hfailed, -⟩ := session_iff_connected hlink [⟨.offline, .ping⟩]
  obtain ⟨hsession', -, hfailed', -⟩ :=
    session_iff_connected hlink [⟨.offline, .ping⟩, ⟨.offline, .ping⟩]
  have hfirst : first.2.status = .failed := by decide
  have hboth : both.2.status = .connected := by decide
  refine ⟨hlink, hfailed.mp hfirst, ?_, fun h => ?_, hsession'.mpr hboth⟩
  · rw [← Bool.not_eq_true]
    intro h
    cases hfirst.symm.trans (hsession.mp h)
  · cases hboth.symm.trans (hfailed'.mpr h)

end AchCourier.Remote
