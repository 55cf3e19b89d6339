import AchCourier.Proofs.Remote.History
import AchCourier.Remote.Memory
import Mathlib.Data.List.Induction

/-!
# The life of a session

The calls of an agent are one long list, and every session is a stretch of it: from the dial that
opened it to the call that closes it.  A small automaton reads such a list and knows of the session
at hand whether there is one and whether it has failed.  It has no step for a call that may not be
made, so a list that it reads to the end keeps all the rules; and every history of an agent is read
to the end, whatever the host answers.

## Main definitions

* `Call.Opens`, `SessionOpen` — a dial that succeeds, and calls that leave a session open.
* `Phase`, `Phase.Step`, `Phase.Reads` — the automaton.
* `SessionsInOrder` — the rules for the calls of all sessions.
* `Episode.ChecksSession` — when an operation checks its session, and when it leaves it alone.

## Main results

* `Phase.Reads.balance` — sessions that are opened and closed balance.
* `sessionsInOrder_of_reads` — a list that the automaton reads keeps the rules.
* `Course.reads`, `Courses.reads` — the automaton reads every history.
* `sessionsInOrder_calls` — **the calls of every history keep the rules.**
-/

namespace AchCourier.Remote

/-! ### Open sessions -/

/-- The call opens a session. -/
def Call.Opens (c : Call) : Prop :=
  c.request = .connect ∧ c.failure = none

instance (c : Call) : Decidable c.Opens :=
  inferInstanceAs (Decidable (_ ∧ _))

/-- The call closes a session; it does so even if it fails. -/
def Call.Closes (c : Call) : Prop :=
  c.request = .close

instance (c : Call) : Decidable c.Closes :=
  inferInstanceAs (Decidable (_ = _))

/-- The call neither dials nor closes: it is made on a session that is open and stays so. -/
def Call.Uses (c : Call) : Prop :=
  c.request ≠ .connect ∧ ¬ c.Closes

namespace Call

variable {c : Call}

theorem Closes.ne_connect (h : c.Closes) : c.request ≠ .connect := by
  rw [h]
  simp

theorem Closes.not_opens (h : c.Closes) : ¬ c.Opens :=
  fun hopens => h.ne_connect hopens.1

theorem Opens.not_closes (h : c.Opens) : ¬ c.Closes :=
  fun hcloses => hcloses.not_opens h

theorem Uses.not_opens (h : c.Uses) : ¬ c.Opens :=
  fun hopens => h.1 hopens.1

end Call

/-- The calls have opened a session and not closed it since. -/
def SessionOpen (calls : List Call) : Prop :=
  ∃ before c mid, calls = before ++ c :: mid ∧ c.Opens ∧ ∀ d ∈ mid, ¬ d.Opens ∧ ¬ d.Closes

theorem not_sessionOpen_nil : ¬ SessionOpen [] := by
  rintro ⟨before, c, mid, heq, -⟩
  simp at heq

theorem sessionOpen_snoc {calls : List Call} {c : Call} :
    SessionOpen (calls ++ [c]) ↔ c.Opens ∨ SessionOpen calls ∧ ¬ c.Closes := by
  constructor
  · rintro ⟨before, d, mid, heq, hd, hmid⟩
    -- the dial is the last call, or the last call is one of those behind it
    rcases List.eq_nil_or_concat mid with rfl | ⟨mid, last, rfl⟩
    · obtain ⟨-, hlast⟩ := List.append_inj' heq rfl
      obtain rfl := List.singleton_inj.mp hlast
      exact Or.inl hd
    · rw [List.concat_eq_append, ← List.cons_append, ← List.append_assoc] at heq
      obtain ⟨rfl, hlast⟩ := List.append_inj' heq rfl
      obtain rfl := List.singleton_inj.mp hlast
      refine Or.inr ⟨⟨before, d, mid, rfl, hd, fun x hx => hmid x ?_⟩, (hmid c ?_).2⟩ <;> simp [*]
  · intro h
    by_cases hc : c.Opens
    · exact ⟨calls, c, [], rfl, hc, by simp⟩
    · obtain ⟨⟨before, d, mid, rfl, hd, hmid⟩, hcloses⟩ := h.resolve_left hc
      refine ⟨before, d, mid ++ [c], by simp, hd, fun x hx => ?_⟩
      rcases List.mem_append.mp hx with hx | hx
      · exact hmid x hx
      · rw [List.mem_singleton.mp hx]
        exact ⟨hc, hcloses⟩

/-! ### The automaton -/

/-- What has become of the session at hand. -/
inductive Phase where
  /-- There is none. -/
  | absent
  /-- It is open and has not failed. -/
  | live
  /-- It has failed and is still open. -/
  | broken
  deriving DecidableEq, Repr

namespace Phase

/-- The calls that may be made in a phase, and the phase behind them. -/
inductive Step : Phase → Call → Phase → Prop where
  /-- A dial opens a session. -/
  | opened {c : Call} : c.Opens → Step .absent c .live
  /-- A dial fails. -/
  | refused {c : Call} : c.request = .connect → ¬ c.Opens → Step .absent c .absent
  /-- A session is used. -/
  | used {c : Call} : c.Uses → c.breaks = false → Step .live c .live
  /-- A session fails while it is used. -/
  | failed {c : Call} : c.Uses → c.breaks = true → Step .live c .broken
  /-- A session is closed. -/
  | closed {p : Phase} {c : Call} : p ≠ .absent → c.Closes → Step p c .absent

/-- Calls that may be made one after the other. -/
inductive Reads : Phase → List Call → Phase → Prop where
  | nil (p : Phase) : Reads p [] p
  | cons {p q r : Phase} {c : Call} {calls : List Call} :
      Step p c q → Reads q calls r → Reads p (c :: calls) r

variable {p q r : Phase} {c : Call} {calls more : List Call}

theorem Reads.single (h : Step p c q) : Reads p [c] q :=
  .cons h (.nil q)

theorem Reads.append (h : Reads p calls q) (h' : Reads q more r) : Reads p (calls ++ more) r := by
  induction h with
  | nil => exact h'
  | cons hstep _ ih => exact .cons hstep (ih h')

/-- The phases around a call. -/
theorem Reads.split {before later : List Call} (h : Reads p (before ++ c :: later) q) :
    ∃ u v, Reads p before u ∧ Step u c v ∧ Reads v later q := by
  induction before generalizing p with
  | nil =>
    cases h with
    | cons hstep hlater => exact ⟨p, _, .nil p, hstep, hlater⟩
  | cons d before ih =>
    cases h with
    | cons hstep hrest =>
      obtain ⟨u, v, hbefore, hc, hlater⟩ := ih hrest
      exact ⟨u, v, .cons hstep hbefore, hc, hlater⟩

/-- Only a dial is possible without a session, and none is with one. -/
theorem Step.eq_absent_iff (h : Step p c q) : p = .absent ↔ c.request = .connect := by
  cases h with
  | opened hc => exact iff_of_true rfl hc.1
  | refused hc => exact iff_of_true rfl hc
  | used hc => exact iff_of_false (by simp) hc.1
  | failed hc => exact iff_of_false (by simp) hc.1
  | closed hp hc => exact iff_of_false hp hc.ne_connect

/-- There is a session behind a call if the call opened one, or if there was one and the call did
not close it. -/
theorem Step.ne_absent_iff (h : Step p c q) :
    q ≠ .absent ↔ c.Opens ∨ p ≠ .absent ∧ ¬ c.Closes := by
  cases h with
  | opened hc => simp [hc]
  | refused hc hnot => simp [hnot]
  | used hc => simp [hc.2]
  | failed hc => simp [hc.2]
  | closed hp hc => simp [hc, hc.not_opens]

/-- There is a session exactly if the calls have left one open. -/
theorem Reads.ne_absent_iff (h : Reads .absent calls p) : p ≠ .absent ↔ SessionOpen calls := by
  -- from the end, since the last call decides what is open
  induction calls using List.reverseRecOn generalizing p with
  | nil =>
    cases h
    simp [not_sessionOpen_nil]
  | append_singleton calls c ih =>
    obtain ⟨u, v, hcalls, hc, hv⟩ := h.split
    cases hv
    rw [hc.ne_absent_iff, sessionOpen_snoc, ih hcalls]

/-- The number of sessions that are open. -/
def sessions : Phase → Nat
  | .absent => 0
  | _ => 1

theorem Step.balance (h : Step p c q) :
    p.sessions + (if c.Opens then 1 else 0) = q.sessions + (if c.Closes then 1 else 0) := by
  -- a session is opened and let go by the calls that say so
  cases h with
  | opened hc => simp [sessions, hc, hc.not_closes]
  | refused hc hnot => simp [hnot, Call.Closes, hc]
  | used hc => simp [hc.2, hc.not_opens]
  | failed hc => simp [sessions, hc.2, hc.not_opens]
  | closed hp hc =>
    cases p with
    | absent => exact absurd rfl hp
    | live => simp [sessions, hc, hc.not_opens]
    | broken => simp [sessions, hc, hc.not_opens]

/-- **Sessions that are opened and closed balance**: those that were open at the start or were
opened since are open still or were closed. -/
theorem Reads.balance (h : Reads p calls q) :
    p.sessions + calls.countP (·.Opens) = q.sessions + calls.countP (·.Closes) := by
  induction h with
  | nil => rfl
  | cons hstep _ ih =>
    have hone := hstep.balance
    simp only [List.countP_cons, decide_eq_true_eq]
    omega

/-- Without a dial that succeeds no session comes to life. -/
theorem Step.ne_live (h : Step p c q) (hp : p ≠ .live) (hc : ¬ c.Opens) : q ≠ .live := by
  cases h with
  | opened hopens => exact absurd hopens hc
  | refused => simp
  | used => exact absurd rfl hp
  | failed => simp
  | closed => simp

theorem Reads.ne_live (h : Reads p calls q) (hp : p ≠ .live) (hcalls : ∀ c ∈ calls, ¬ c.Opens) :
    q ≠ .live := by
  induction h with
  | nil => exact hp
  | cons hstep _ ih =>
    rw [List.forall_mem_cons] at hcalls
    exact ih (hstep.ne_live hp hcalls.1) hcalls.2

/-- A failure leaves a session that waits to be closed, or none. -/
theorem Step.ne_live_of_breaks (h : Step p c q) (hc : c.breaks = true) : q ≠ .live := by
  cases h with
  | opened hopens => cases hc.symm.trans (Call.breaks_connect hopens.1)
  | refused => simp
  | used _ hsound => cases hc.symm.trans hsound
  | failed => simp
  | closed => simp

/-- Unless a session is live, it can only be closed, and one can only be dialed for. -/
theorem Step.of_ne_live (h : Step p c q) (hp : p ≠ .live) : c.Closes ∨ c.request = .connect := by
  cases h with
  | opened hc => exact Or.inr hc.1
  | refused hc => exact Or.inr hc
  | used => exact absurd rfl hp
  | failed => exact absurd rfl hp
  | closed _ hc => exact Or.inl hc

end Phase

/-! ### The rules -/

/-- The rules for the calls of all sessions. -/
structure SessionsInOrder (calls : List Call) : Prop where
  /-- Between a session and the next one the first is closed exactly once. -/
  closedOnce : ∀ {before c mid d later}, calls = before ++ c :: mid ++ d :: later → c.Opens →
    d.Opens → (∀ e ∈ mid, ¬ e.Opens) → mid.countP (·.Closes) = 1
  /-- The host is only dialed while no session is open, and everything else is only asked while
  one is: nothing is asked of a session that was closed. -/
  dialedIff : ∀ {before d later}, calls = before ++ d :: later →
    (d.request = .connect ↔ ¬ SessionOpen before)
  /-- All that follows on a session after a failure is that it is closed. -/
  closedAfter : ∀ {before c mid d later}, calls = before ++ c :: mid ++ d :: later →
    c.breaks = true → (∀ e ∈ mid, ¬ e.Opens) → d.Closes ∨ d.request = .connect

theorem sessionsInOrder_of_reads {calls : List Call} {p : Phase}
    (h : Phase.Reads .absent calls p) : SessionsInOrder calls where
  closedOnce := by
    intro before c mid d later heq hc hd hmid
    rw [heq] at h
    obtain ⟨u, _, hfirst, hdial, -⟩ := h.split
    obtain ⟨v, w, -, hopen, hbetween⟩ := hfirst.split
    -- one session is open behind the first dial, and none before the second
    have hone := hopen.balance
    have hbalance := hbetween.balance
    have hnone : mid.countP (·.Opens) = 0 := List.countP_eq_zero.mpr (by simpa using hmid)
    rw [if_pos hc, if_neg hc.not_closes, hopen.eq_absent_iff.mpr hc.1] at hone
    rw [hnone, hdial.eq_absent_iff.mpr hd.1] at hbalance
    simp only [Phase.sessions] at hone hbalance
    omega
  dialedIff := by
    intro before d later heq
    rw [heq] at h
    obtain ⟨u, _, hbefore, hd, -⟩ := h.split
    rw [← hbefore.ne_absent_iff, not_not]
    exact hd.eq_absent_iff.symm
  closedAfter := by
    intro before c mid d later heq hc hmid
    rw [heq] at h
    obtain ⟨u, _, hfirst, hd, -⟩ := h.split
    obtain ⟨v, w, -, hfailed, hbetween⟩ := hfirst.split
    -- from the failure on no session is live, as none is opened in between
    have hw : w ≠ .live := hfailed.ne_live_of_breaks hc
    have hu : u ≠ .live := hbetween.ne_live hw hmid
    exact hd.of_ne_live hu

/-! ### The automaton reads every history -/

namespace Phase

/-- The phase between two operations. -/
def between (held : Bool) : Phase :=
  if held then .live else .absent

theorem Step.connected : Step .absent ⟨.connect, none⟩ .live :=
  .opened ⟨rfl, rfl⟩

theorem Step.connectFailed (e : Error) : Step .absent ⟨.connect, some e⟩ .absent :=
  .refused rfl fun h => nomatch h.2

theorem Step.checked : Step .live ⟨.checkAlive, none⟩ .live :=
  .used ⟨by simp, by simp [Call.Closes]⟩ rfl

theorem Step.stale (e : Error) : Step .live ⟨.checkAlive, some e⟩ .broken :=
  .failed ⟨by simp, by simp [Call.Closes]⟩ rfl

end Phase

namespace Agent

open Phase

theorem Dialed.reads {calls : List Call} {out : Except Error Unit} (h : Dialed calls out) :
    Reads .absent calls (between out.isOk) := by
  induction h with
  | reached => exact .single .connected
  | failed e => exact .single (.connectFailed e)
  | again e _ ih => exact .cons (.connectFailed e) ih

theorem LetGo.reads {held : Bool} {calls : List Call} (h : LetGo held calls) :
    Reads (between held) calls .absent := by
  cases h with
  | absent => exact .nil _
  | closed failure => exact .single (.closed (by simp [between]) rfl)

theorem Missed.reads {held : Bool} {calls : List Call} (h : Missed held calls) :
    Reads (between held) calls .absent := by
  cases h with
  | absent => exact .nil _
  | stale e failure => exact .cons (.stale e) (.single (.closed (by simp) rfl))

theorem Opening.reads {held : Bool} {calls : List Call} (h : Opening held calls) :
    Reads (between held) calls .live := by
  cases h with
  | reused => exact .single .checked
  | dialed hleft hnew => exact hleft.reads.append hnew.reads

end Agent

theorem Operation.uses_of_mayAsk {op : Operation} {c : Call} (h : op.mayAsk c.request) :
    c.Uses :=
  ⟨(mayAsk_ne h).1, (mayAsk_ne h).2.2⟩

/-- Work leaves the session open, and in good order if it succeeded. -/
theorem Worked.reads {op : Operation} {calls : List Call} {ok : Bool}
    (h : Worked op.mayAsk calls ok) :
    ∃ p, Phase.Reads .live calls p ∧ p ≠ .absent ∧ (ok = true → p = .live) := by
  induction h with
  | stop ok => exact ⟨.live, .nil _, by simp, fun _ => rfl⟩
  | sound hmay hsound _ ih =>
    obtain ⟨p, hp, hopen, hlive⟩ := ih
    exact ⟨p, .cons (.used (Operation.uses_of_mayAsk hmay) hsound) hp, hopen, hlive⟩
  | broke hmay hbreaks =>
    exact ⟨.broken, .single (.failed (Operation.uses_of_mayAsk hmay) hbreaks), by simp, by simp⟩

/-- **The automaton reads every operation**, and then knows whether the agent holds a session. -/
theorem Course.reads {op : Operation} {s t : Standing} {failure : Option Error} {new : List Call}
    (h : Course op s failure new t) :
    Phase.Reads (.between s.session) new (.between t.session) := by
  -- each course is read call by call: getting the session, the work, and what is let go
  cases h with
  | served _ hfirst hwork =>
    obtain ⟨p, hp, -, hlive⟩ := hwork.reads
    rw [hlive rfl] at hp
    exact hfirst.reads.append hp
  | broken e failure _ hfirst hwork =>
    obtain ⟨p, hp, hopen, -⟩ := hwork.reads
    exact (hfirst.reads.append hp).append (.single (.closed hopen rfl))
  | unreachable _ hleft hnew => exact hleft.reads.append hnew.reads
  | refused => exact .nil _
  | closed _ hnew => exact hnew.reads
  | rejected => exact .nil _

theorem Courses.reads {s t : Standing} {es : List Episode} (h : Courses s es t) :
    Phase.Reads (.between s.session) (es.flatMap Episode.calls) (.between t.session) := by
  induction h with
  | nil => exact .nil _
  | cons hcourse _ ih =>
    rw [List.flatMap_cons]
    exact hcourse.reads.append ih

theorem Agent.Created.reads {σ : Type} {host : Host σ} {agent : Agent} {link : Link σ}
    (h : agent.Created host link) :
    Phase.Reads .absent link.calls (.between link.standing.session) := by
  rcases h.opening with ⟨hcalls, hs⟩ | ⟨hopening, hs⟩
  · rw [hcalls, hs]
    exact .nil _
  · rw [hs]
    exact hopening.reads

/-! ### Checks -/

/-- What an operation does with the session that is `held` before it, if one is. -/
structure Episode.ChecksSession (e : Episode) (held : Prop) : Prop where
  /-- If it needs a session it begins with a check of the one that is held, and makes no other. -/
  checked : e.operation.needsSession = true → held → ∃ failure rest,
    e.calls = ⟨.checkAlive, failure⟩ :: rest ∧ ∀ c ∈ rest, c.request ≠ .checkAlive
  /-- Nothing else is ever checked; in particular a session that was just opened is not. -/
  unchecked : ¬ (e.operation.needsSession = true ∧ held) → ∀ c ∈ e.calls, c.request ≠ .checkAlive
  /-- An upload that ends before it needs a session makes no call at all. -/
  untouched : e.operation.isRejected = true → e.calls = []
  /-- To close is to close the session that is held, and nothing else. -/
  closed : e.operation = .close →
    (held → ∃ failure, e.calls = [⟨.close, failure⟩]) ∧ (¬ held → e.calls = [])

theorem Agent.Dialed.ne_checkAlive {calls : List Call} {out : Except Error Unit}
    (h : Dialed calls out) : ∀ c ∈ calls, c.request ≠ .checkAlive := by
  intro c hc
  rw [h.connect_of_mem hc]
  simp

theorem Agent.LetGo.ne_checkAlive {held : Bool} {calls : List Call} (h : LetGo held calls) :
    ∀ c ∈ calls, c.request ≠ .checkAlive := by
  cases h <;> simp

theorem Worked.ne_checkAlive {op : Operation} {calls : List Call} {ok : Bool}
    (h : Worked op.mayAsk calls ok) : ∀ c ∈ calls, c.request ≠ .checkAlive :=
  fun _ hc => (Operation.mayAsk_ne (h.may_of_mem hc)).2.1

/-- An operation that needs a session checks the one at hand and then makes no check. -/
theorem Episode.checksSession_of_append {e : Episode} {held : Bool} {first rest : List Call}
    (hop : e.operation.needsSession = true)
    (hfirst : Agent.Opening held first ∨ ∃ left new error,
      Agent.Missed held left ∧ Agent.Dialed new (.error error) ∧ first = left ++ new)
    (hrest : ∀ c ∈ rest, c.request ≠ .checkAlive) (hcalls : e.calls = first ++ rest) :
    e.ChecksSession (held = true) := by
  -- the calls up to the session are a check if one is held, and then no checks
  have hbegin : (held = true → ∃ failure more, first = ⟨.checkAlive, failure⟩ :: more ∧
        ∀ c ∈ more, c.request ≠ .checkAlive) ∧
      (held ≠ true → ∀ c ∈ first, c.request ≠ .checkAlive) := by
    have hmissed : ∀ {left new out}, Agent.Missed held left → Agent.Dialed new out →
        (held = true → ∃ failure more, left ++ new = ⟨.checkAlive, failure⟩ :: more ∧
          ∀ c ∈ more, c.request ≠ .checkAlive) ∧
        (held ≠ true → ∀ c ∈ left ++ new, c.request ≠ .checkAlive) := by
      intro left new out hleft hnew
      cases hleft with
      | absent => exact ⟨by simp, fun _ => hnew.ne_checkAlive⟩
      | stale error failure =>
        refine ⟨fun _ => ⟨some error, ⟨.close, failure⟩ :: new, rfl, ?_⟩, by simp⟩
        simpa using hnew.ne_checkAlive
    rcases hfirst with hopening | ⟨left, new, error, hleft, hnew, rfl⟩
    · cases hopening with
      | reused => exact ⟨fun _ => ⟨none, [], rfl, by simp⟩, by simp⟩
      | dialed hleft hnew => exact hmissed hleft hnew
    · exact hmissed hleft hnew
  obtain ⟨hclose, hrejected⟩ := Operation.needsSession_eq_true_iff.mp hop
  refine ⟨fun _ hheld => ?_, fun hnot c hc => ?_, fun h => ?_, fun h => absurd h hclose⟩
  · obtain ⟨failure, more, hmore, hclean⟩ := hbegin.1 hheld
    refine ⟨failure, more ++ rest, by rw [hcalls, hmore, List.cons_append], fun c hc => ?_⟩
    exact (List.mem_append.mp hc).elim (hclean c) (hrest c)
  · rw [hcalls] at hc
    exact (List.mem_append.mp hc).elim (hbegin.2 (fun hheld => hnot ⟨hop, hheld⟩) c) (hrest c)
  · cases h.symm.trans hrejected

/-- An operation that makes no call checks nothing. -/
theorem Episode.checksSession_of_calls_eq_nil {e : Episode} {held : Prop} (hcalls : e.calls = [])
    (hheld : e.operation.needsSession = true → ¬ held) (hclose : e.operation ≠ .close) :
    e.ChecksSession held where
  checked := fun hneeds h => absurd h (hheld hneeds)
  unchecked := fun _ c hc => by simp [hcalls] at hc
  untouched := fun _ => hcalls
  closed := fun h => absurd h hclose

theorem Course.checksSession {s t : Standing} {e : Episode}
    (h : Course e.operation s e.failure e.calls t) : e.ChecksSession (s.session = true) := by
  obtain ⟨op, failure, calls⟩ := e
  dsimp only at h
  cases h with
  | served hop hfirst hwork =>
    exact Episode.checksSession_of_append hop (Or.inl hfirst) hwork.ne_checkAlive rfl
  | broken e failure hop hfirst hwork =>
    refine Episode.checksSession_of_append hop (Or.inl hfirst) (fun c hc => ?_)
      (List.append_assoc ..)
    rcases List.mem_append.mp hc with hc | hc
    · exact hwork.ne_checkAlive c hc
    · rw [List.mem_singleton.mp hc]
      simp
  | unreachable hop hleft hnew =>
    exact Episode.checksSession_of_append hop (Or.inr ⟨_, _, _, hleft, hnew, rfl⟩) (by simp)
      (List.append_nil _).symm
  | refused e hop hsession =>
    exact Episode.checksSession_of_calls_eq_nil rfl (fun _ => by simp [hsession])
      (Operation.needsSession_eq_true_iff.mp hop).1
  | closed hop hnew =>
    subst hop
    refine ⟨by simp [Operation.needsSession], fun _ => hnew.ne_checkAlive,
      by simp [Operation.isRejected], fun _ => ?_⟩
    -- what is let go is what is held
    generalize s.session = held at hnew
    cases hnew with
    | absent => exact ⟨by simp, fun _ => rfl⟩
    | closed failure => exact ⟨fun _ => ⟨failure, rfl⟩, by simp⟩
  | rejected e hop =>
    refine Episode.checksSession_of_calls_eq_nil rfl ?_ ?_
    · simp [Operation.needsSession, hop]
    · rintro rfl
      cases hop

/-- **The calls of every history keep the rules**, whatever the host answers.  Sessions are opened
one after the other, each is closed exactly once before the next, nothing is asked of a closed one,
a failed one is only closed, and a session left by an earlier operation is checked before it is
used again, while a new one is not.  An upload without a readable content or without a name leaves
the session alone, and to close makes no other call. -/
theorem sessionsInOrder_calls {σ : Type} {host : Host σ} {agent : Agent} {link : Link σ}
    (hlink : agent.Created host link) (turns : List Turn) :
    let episodes := (agent.play host turns link).1
    let after := (agent.play host turns link).2
    after.calls = link.calls ++ episodes.flatMap Episode.calls ∧
      SessionsInOrder after.calls ∧
      ∀ before e later, episodes = before ++ e :: later →
        e.ChecksSession (SessionOpen (link.calls ++ before.flatMap Episode.calls)) := by
  obtain ⟨hcourses, hcalls⟩ := Agent.play_courses turns hlink.settled
  generalize agent.play host turns link = played at hcourses hcalls
  obtain ⟨episodes, after⟩ := played
  have hall : Phase.Reads .absent after.calls (.between after.standing.session) := by
    rw [hcalls]
    exact hlink.reads.append hcourses.reads
  refine ⟨hcalls, sessionsInOrder_of_reads hall, ?_⟩
  rintro before e later rfl
  obtain ⟨s, t, hbefore, he, -⟩ := hcourses.split
  -- the agent holds a session before an operation just when the calls have left one open
  have hheld : (s.session = true) = SessionOpen (link.calls ++ before.flatMap Episode.calls) := by
    rw [← (hlink.reads.append hbefore.reads).ne_absent_iff]
    cases s.session <;> simp [Phase.between]
  rw [← hheld]
  exact he.checksSession

/-- A directory that is missing costs the session, and the next operation opens another one. -/
theorem sessionsInOrder_calls_missing :
    let turns : List Turn :=
      [⟨.offline, .ping⟩, ⟨.offline, .readFiles "gone"⟩, ⟨.offline, .ping⟩, ⟨.offline, .close⟩]
    let link : Link Memory := { host := {} }
    let after := (plainBank.play Memory.host turns link).2
    plainBank.Created Memory.host link ∧ SessionsInOrder after.calls ∧
      after.calls.map Call.request =
        [.connect, .readDir ".", .checkAlive, .readDir "gone", .close,
          .connect, .readDir ".", .close] := by
  intro turns link after
  have hlink : plainBank.Created Memory.host link := .lazily _ _
  have hrules := sessionsInOrder_calls hlink turns
  exact ⟨hlink, hrules.2.1, by decide +kernel⟩

/-- An upload with a name whose content cannot be read makes no call, not even to check the session
that is open. -/
theorem unchecked_unreadable_upload :
    let payload : Payload := { name := "a.ach", content := [], broken := some "disk" }
    let link := ((plainBank.start Memory.host .offline).run { host := {} }).2
    let episodes := (plainBank.play Memory.host [⟨.offline, .upload payload⟩] link).1
    plainBank.Created Memory.host link ∧ SessionOpen link.calls ∧ baseName payload.name ≠ "" ∧
      episodes.map (fun e => (e.operation, e.calls)) = [(.upload payload, [])] := by
  intro payload link episodes
  -- the agent has dialed, and nothing has closed its session since
  have hstarted : ((plainBank.start Memory.host .offline).run { host := {} }).1 = .ok () := rfl
  have hcalls : link.calls = [⟨.connect, none⟩] := by decide +kernel
  refine ⟨.connected (Prod.ext hstarted rfl), ?_, by decide, by decide +kernel⟩
  rw [hcalls]
  exact ⟨[], _, [], rfl, ⟨rfl, rfl⟩, by simp⟩

end AchCourier.Remote
