import AchCourier.Remote.Agent

/-!
# What actions do

An action leads from one link to another and leaves calls behind.  Here it is said once, for every
part of an operation, which calls it makes and what it changes of what the agent remembers.  All
that is known about operations is derived from these statements, and no later proof looks inside an
action again.

## Main definitions

* `Standing` — what an agent remembers between its operations.
* `Link.Leads` — a link after more calls, with what the agent remembers then.
* `Dialed`, `LetGo`, `Missed`, `Opening` — the calls of a dial, of giving a session up, of looking
  for a session in vain, and of getting one.
* `Acquired` — what comes of getting a session.

## Main results

* `run_bind_cases`, `run_tryCatch_cases` — the outcome of two steps, and of a step with a handler.
* `dial_run`, `giveUp_run`, `stillAlive_run`, `checkAllowed_run`, `establish_run`, `acquire_run`,
  `afterFailure_run` — what each part of an operation does.
-/

namespace AchCourier.Remote

/-! ### Links -/

/-- What an agent remembers between its operations. -/
structure Standing where
  status : Status
  /-- The agent holds a session. -/
  session : Bool
  /-- The host was found to be in the allowed ranges. -/
  hostAllowed : Bool
  deriving DecidableEq, Repr

/-- What the agent remembers. -/
def Link.standing {σ : Type} (link : Link σ) : Standing :=
  ⟨link.status, link.session, link.hostAllowed⟩

/-- `after` is `link` after the calls `new`, and the agent remembers `s`. -/
structure Link.Leads {σ : Type} (link : Link σ) (new : List Call) (s : Standing)
    (after : Link σ) : Prop where
  calls : after.calls = link.calls ++ new
  standing : after.standing = s

namespace Link.Leads

variable {σ : Type} {link mid after : Link σ} {new more : List Call} {s t : Standing}

theorem refl (link : Link σ) : link.Leads [] link.standing link :=
  ⟨(List.append_nil _).symm, rfl⟩

theorem trans (h : link.Leads new s mid) (h' : mid.Leads more t after) :
    link.Leads (new ++ more) t after :=
  ⟨by rw [h'.calls, h.calls, List.append_assoc], h'.standing⟩

theorem status (h : link.Leads new s after) : after.status = s.status :=
  congrArg Standing.status h.standing

theorem session (h : link.Leads new s after) : after.session = s.session :=
  congrArg Standing.session h.standing

theorem hostAllowed (h : link.Leads new s after) : after.hostAllowed = s.hostAllowed :=
  congrArg Standing.hostAllowed h.standing

end Link.Leads

namespace Agent

variable {σ α β : Type}

/-! ### One step after another -/

theorem stateM_bind (x : StateM (Link σ) α) (f : α → StateM (Link σ) β) (link : Link σ) :
    (x >>= f) link = f (x link).1 (x link).2 := rfl

theorem run_bind (x : Action σ α) (f : α → Action σ β) (link : Link σ) :
    (x >>= f).run link =
      match x.run link with
      | (.ok a, mid) => (f a).run mid
      | (.error e, mid) => (.error e, mid) := by
  rw [ExceptT.run_bind, stateM_bind]
  obtain ⟨_ | _, _⟩ := x.run link <;> rfl

theorem run_tryCatch (x : Action σ α) (handle : Error → Action σ α) (link : Link σ) :
    (tryCatch x handle).run link =
      match x.run link with
      | (.ok a, mid) => (.ok a, mid)
      | (.error e, mid) => (handle e).run mid := by
  rw [ExceptT.run_tryCatch, stateM_bind]
  obtain ⟨_ | _, _⟩ := x.run link <;> rfl

theorem run_get (link : Link σ) : (get : Action σ (Link σ)).run link = (.ok link, link) := rfl

theorem run_modify (f : Link σ → Link σ) (link : Link σ) :
    (modify f : Action σ Unit).run link = (.ok (), f link) := rfl

theorem run_setStatus (status : Status) (link : Link σ) :
    (setStatus status : Action σ Unit).run link = (.ok (), { link with status }) := rfl

theorem run_record (agent : Agent) (ok : Bool) (link : Link σ) :
    (agent.record ok : Action σ Unit).run link = (.ok (), { link with
      health := link.health.record agent.connector.protocol agent.connector.hostname ok }) := rfl

theorem run_countRetry (agent : Agent) (link : Link σ) :
    (agent.countRetry : Action σ Unit).run link = (.ok (), { link with
      health := link.health.retry agent.connector.protocol agent.connector.hostname }) := rfl

theorem run_ask (host : Host σ) (r : Request) (link : Link σ) :
    (ask host r).run link = ((host.answer r link.host).1, { link with
      host := (host.answer r link.host).2
      calls := link.calls ++ [⟨r, failureIn (host.answer r link.host).1⟩] }) := rfl

section
variable {link after : Link σ}

/-- The outcome of two steps: that of the second one, or the failure of the first. -/
theorem run_bind_cases {x : Action σ α} {f : α → Action σ β} {out : Except Error β}
    (h : (x >>= f).run link = (out, after)) :
    (∃ a mid, x.run link = (.ok a, mid) ∧ (f a).run mid = (out, after)) ∨
      ∃ e, x.run link = (.error e, after) ∧ out = .error e := by
  rw [run_bind] at h
  rcases hx : x.run link with ⟨e | a, mid⟩
  · rw [hx] at h
    obtain ⟨rfl, rfl⟩ := Prod.mk.inj h
    exact Or.inr ⟨e, rfl, rfl⟩
  · rw [hx] at h
    exact Or.inl ⟨a, mid, rfl, h⟩

/-- The outcome of a step with a handler: its result, or what the handler makes of its failure. -/
theorem run_tryCatch_cases {x : Action σ α} {handle : Error → Action σ α} {out : Except Error α}
    (h : (tryCatch x handle).run link = (out, after)) :
    (∃ a, x.run link = (.ok a, after) ∧ out = .ok a) ∨
      ∃ e mid, x.run link = (.error e, mid) ∧ (handle e).run mid = (out, after) := by
  rw [run_tryCatch] at h
  rcases hx : x.run link with ⟨e | a, mid⟩
  · rw [hx] at h
    exact Or.inr ⟨e, mid, rfl, h⟩
  · rw [hx] at h
    obtain ⟨rfl, rfl⟩ := Prod.mk.inj h
    exact Or.inl ⟨a, rfl, rfl⟩

theorem run_pure_inj {a : α} {out : Except Error α}
    (h : (pure a : Action σ α).run link = (out, after)) : out = .ok a ∧ after = link :=
  ⟨(Prod.mk.inj h).1.symm, (Prod.mk.inj h).2.symm⟩

theorem run_throw_inj {e : Error} {out : Except Error α}
    (h : (throw e : Action σ α).run link = (out, after)) : out = .error e ∧ after = link :=
  ⟨(Prod.mk.inj h).1.symm, (Prod.mk.inj h).2.symm⟩

end

/-! ### Dialing -/

/-- The calls of a dial: attempts that fail, and the one that succeeds if there is one. -/
inductive Dialed : List Call → Except Error Unit → Prop where
  /-- The host is reached. -/
  | reached : Dialed [⟨.connect, none⟩] (.ok ())
  /-- The last attempt fails. -/
  | failed (e : Error) : Dialed [⟨.connect, some e⟩] (.error e)
  /-- An attempt fails and is not the last one. -/
  | again (e : Error) {calls : List Call} {out : Except Error Unit} :
      Dialed calls out → Dialed (⟨.connect, some e⟩ :: calls) out

theorem Dialed.connect_of_mem {calls : List Call} {out : Except Error Unit}
    (h : Dialed calls out) {c : Call} (hc : c ∈ calls) : c.request = .connect := by
  induction h with
  | reached => rw [List.mem_singleton.mp hc]
  | failed e => rw [List.mem_singleton.mp hc]
  | again e _ ih =>
    rcases List.mem_cons.mp hc with rfl | hc
    · rfl
    · exact ih hc

section
variable {host : Host σ} {link after : Link σ}

theorem ask_run {r : Request} {out : Except Error r.Reply}
    (h : (ask host r).run link = (out, after)) :
    link.Leads [⟨r, failureIn out⟩] link.standing after := by
  obtain ⟨rfl, rfl⟩ := Prod.mk.inj h
  exact ⟨rfl, rfl⟩

theorem dial_run {agent : Agent} {more : Nat} {out : Except Error Unit}
    (h : (dial host agent more).run link = (out, after)) :
    ∃ new, Dialed new out ∧ link.Leads new link.standing after := by
  induction more generalizing link out with
  | zero =>
    cases out with
    | ok a => exact ⟨_, .reached, ask_run h⟩
    | error e => exact ⟨_, .failed e, ask_run h⟩
  | succ more ih =>
    rcases run_tryCatch_cases h with ⟨_, hask, rfl⟩ | ⟨e, mid, hask, hmore⟩
    · exact ⟨_, .reached, ask_run hask⟩
    have hasked := ask_run hask
    split at hmore
    · -- a fault of the configuration ends the dial
      obtain ⟨rfl, rfl⟩ := run_throw_inj hmore
      exact ⟨_, .failed e, hasked⟩
    · rcases run_bind_cases hmore with ⟨_, _, hcount, hdial⟩ | ⟨_, hcount, -⟩
      · obtain ⟨-, rfl⟩ := Prod.mk.inj hcount
        obtain ⟨new, hnew, hleads⟩ := ih hdial
        exact ⟨_, .again e hnew, hasked.trans ⟨hleads.calls, hleads.standing.trans hasked.standing⟩⟩
      · cases hcount

/-! ### Giving a session up -/

/-- The calls of giving a session up, if there is one. -/
inductive LetGo : Bool → List Call → Prop where
  /-- There is none. -/
  | absent : LetGo false []
  /-- It is closed, and no matter if that fails. -/
  | closed (failure : Option Error) : LetGo true [⟨.close, failure⟩]

theorem askQuietly_run {r : Request} {out : Except Error Unit}
    (h : (askQuietly host r).run link = (out, after)) :
    out = .ok () ∧ ∃ failure, link.Leads [⟨r, failure⟩] link.standing after := by
  rcases run_tryCatch_cases h with ⟨_, hdo, rfl⟩ | ⟨e, mid, hdo, hnone⟩
  · rcases run_bind_cases hdo with ⟨_, mid, hask, hnone⟩ | ⟨_, -, hout⟩
    · obtain ⟨-, rfl⟩ := run_pure_inj hnone
      exact ⟨rfl, none, ask_run hask⟩
    · cases hout
  · obtain ⟨rfl, rfl⟩ := run_pure_inj hnone
    rcases run_bind_cases hdo with ⟨_, _, -, hout⟩ | ⟨e', hask, -⟩
    · cases hout
    · exact ⟨rfl, some e', ask_run hask⟩

theorem giveUp_run {out : Except Error Unit} (h : (giveUp host).run link = (out, after)) :
    out = .ok () ∧ ∃ new, LetGo link.session new ∧
      link.Leads new { link.standing with session := false } after := by
  rw [giveUp, run_bind, run_get] at h
  -- with a session the host is told to close it, whatever the answer
  cases hsession : link.session with
  | false =>
    simp only [hsession] at h
    obtain ⟨rfl, rfl⟩ := run_pure_inj h
    exact ⟨rfl, [], .absent, by simp, by simp [Link.standing, hsession]⟩
  | true =>
    simp only [hsession, if_true] at h
    rw [run_bind, run_modify] at h
    obtain ⟨rfl, failure, hleads⟩ := askQuietly_run h
    exact ⟨rfl, _, .closed failure, hleads.calls, hleads.standing⟩

/-! ### Getting a session -/

/-- The calls of looking for a session in vain: one that no longer holds is closed. -/
inductive Missed : Bool → List Call → Prop where
  /-- There is none. -/
  | absent : Missed false []
  /-- There is one that no longer holds. -/
  | stale (e : Error) (failure : Option Error) :
      Missed true [⟨.checkAlive, some e⟩, ⟨.close, failure⟩]

theorem stillAlive_run {out : Except Error Bool}
    (h : (stillAlive host).run link = (out, after)) :
    (out = .ok true ∧ link.session = true ∧
        link.Leads [⟨.checkAlive, none⟩] link.standing after) ∨
      (out = .ok false ∧ ∃ new, Missed link.session new ∧
        link.Leads new { link.standing with session := false } after) := by
  rw [stillAlive, run_bind, run_get] at h
  cases hsession : link.session with
  | false =>
    simp only [hsession] at h
    obtain ⟨rfl, rfl⟩ := run_pure_inj h
    exact Or.inr ⟨rfl, [], .absent, by simp, by simp [Link.standing, hsession]⟩
  | true =>
    simp only [hsession, if_true] at h
    rcases run_tryCatch_cases h with ⟨_, hdo, rfl⟩ | ⟨e, mid, hdo, hgive⟩
    · rcases run_bind_cases hdo with ⟨_, _, hask, htrue⟩ | ⟨_, -, hout⟩
      · obtain ⟨hout, rfl⟩ := run_pure_inj htrue
        exact Or.inl ⟨hout, rfl, ask_run hask⟩
      · cases hout
    · -- the check has failed, and the session is closed
      rcases run_bind_cases hdo with ⟨_, _, -, hout⟩ | ⟨e', hask, -⟩
      · cases hout
      have hasked := ask_run hask
      rcases run_bind_cases hgive with ⟨_, last, hgaveUp, hfalse⟩ | ⟨_, hgaveUp, -⟩
      · obtain ⟨rfl, rfl⟩ := run_pure_inj hfalse
        obtain ⟨-, new, hnew, hleads⟩ := giveUp_run hgaveUp
        rw [hasked.session] at hnew
        rw [hasked.standing] at hleads
        rw [show link.standing.session = true from hsession] at hnew
        cases hnew with
        | closed failure => exact Or.inr ⟨rfl, _, .stale e' failure, hasked.trans hleads⟩
      · cases (giveUp_run hgaveUp).1

theorem checkAllowed_run {lookup : Net.Lookup} {agent : Agent} {out : Except Error Unit}
    (h : (checkAllowed lookup agent).run link = (out, after)) :
    (out = .ok () ∧ link.Leads [] { link.standing with hostAllowed := true } after) ∨
      ∃ e, out = .error e ∧ link.hostAllowed = false ∧ link.Leads [] link.standing after := by
  rw [checkAllowed, run_bind, run_get] at h
  -- a host that was allowed once is not looked up again
  cases hallowed : link.hostAllowed with
  | true =>
    simp only [hallowed, if_true] at h
    obtain ⟨rfl, rfl⟩ := run_pure_inj h
    exact Or.inl ⟨rfl, by simp, by simp [Link.standing, hallowed]⟩
  | false =>
    simp only [hallowed, Bool.false_eq_true, if_false] at h
    split at h
    · obtain ⟨rfl, rfl⟩ := run_throw_inj h
      exact Or.inr ⟨_, rfl, rfl, Link.Leads.refl _⟩
    · obtain ⟨rfl, rfl⟩ := Prod.mk.inj h
      exact Or.inl ⟨rfl, by simp, rfl⟩

theorem establish_run {agent : Agent} {out : Except Error Unit}
    (h : (establish host agent).run link = (out, after)) :
    ∃ new, Dialed new out ∧
      (out = .ok () ∧ link.Leads new ⟨.connected, true, link.hostAllowed⟩ after ∨
        (∃ e, out = .error e) ∧ link.Leads new { link.standing with status := .failed } after) := by
  rw [establish, run_bind, run_setStatus] at h
  -- the session is put in place behind a dial that works
  rcases run_bind_cases h with ⟨_, mid, hdial, hmodify⟩ | ⟨e, hdial, rfl⟩
  · obtain ⟨rfl, rfl⟩ := Prod.mk.inj hmodify
    rcases run_tryCatch_cases hdial with ⟨_, hdial, -⟩ | ⟨_, _, -, hfail⟩
    · obtain ⟨new, hnew, hleads⟩ := dial_run hdial
      refine ⟨new, hnew, Or.inl ⟨rfl, hleads.calls, ?_⟩⟩
      exact congrArg (Standing.mk .connected true) hleads.hostAllowed
    · rw [run_bind, run_setStatus] at hfail
      cases (run_throw_inj hfail).1
  · rcases run_tryCatch_cases hdial with ⟨_, -, hout⟩ | ⟨_, mid, hdial, hfail⟩
    · cases hout
    · rw [run_bind, run_setStatus] at hfail
      obtain ⟨hout, rfl⟩ := run_throw_inj hfail
      cases hout
      obtain ⟨new, hnew, hleads⟩ := dial_run hdial
      refine ⟨new, hnew, Or.inr ⟨⟨e, rfl⟩, hleads.calls, ?_⟩⟩
      show (⟨.failed, mid.session, mid.hostAllowed⟩ : Standing) = _
      rw [hleads.session, hleads.hostAllowed]
      rfl

/-- The calls of getting a session: the one at hand still holds, or a new one is opened. -/
inductive Opening : Bool → List Call → Prop where
  /-- The session at hand still holds. -/
  | reused : Opening true [⟨.checkAlive, none⟩]
  /-- A new session is opened. -/
  | dialed {held : Bool} {left new : List Call} :
      Missed held left → Dialed new (.ok ()) → Opening held (left ++ new)

/-- What comes of getting a session. -/
inductive Acquired (s : Standing) : List Call → Except Error Unit → Standing → Prop where
  /-- The session at hand still holds. -/
  | reused : s.session = true → Acquired s [⟨.checkAlive, none⟩] (.ok ()) s
  /-- A new session is opened. -/
  | dialed {left new : List Call} : Missed s.session left → Dialed new (.ok ()) →
      Acquired s (left ++ new) (.ok ()) ⟨.connected, true, true⟩
  /-- The host cannot be reached. -/
  | unreachable {left new : List Call} {e : Error} : Missed s.session left →
      Dialed new (.error e) → Acquired s (left ++ new) (.error e) ⟨.failed, false, true⟩
  /-- The host is not in the allowed ranges. -/
  | refused {left : List Call} (e : Error) : Missed s.session left → s.hostAllowed = false →
      Acquired s left (.error e) { s with session := false }

theorem acquire_run {lookup : Net.Lookup} {agent : Agent} {out : Except Error Unit}
    (h : (acquire host lookup agent).run link = (out, after)) :
    ∃ new s, Acquired link.standing new out s ∧ link.Leads new s after := by
  rcases run_bind_cases h with ⟨alive, mid, halive, hrest⟩ | ⟨_, halive, -⟩
  · rcases stillAlive_run halive with ⟨hout, hsession, hleads⟩ | ⟨hout, left, hleft, hleads⟩
    · obtain rfl := Except.ok.inj hout
      obtain ⟨rfl, rfl⟩ := run_pure_inj hrest
      exact ⟨_, _, .reused hsession, hleads⟩
    · -- no session is left: the host is checked, and then dialed
      obtain rfl := Except.ok.inj hout
      rw [if_neg Bool.false_ne_true] at hrest
      rcases run_bind_cases hrest with ⟨_, allowed, hallowed, hestablish⟩ | ⟨e, hrefused, rfl⟩
      · rcases checkAllowed_run hallowed with ⟨-, hleads'⟩ | ⟨_, hout, -⟩
        · obtain ⟨new, hnew, hout⟩ := establish_run hestablish
          rcases hout with ⟨rfl, hleads''⟩ | ⟨⟨e, rfl⟩, hleads''⟩
          · have hall := (hleads.trans hleads').trans hleads''
            rw [List.append_nil, hleads'.hostAllowed] at hall
            exact ⟨_, _, .dialed hleft hnew, hall⟩
          · have hall := (hleads.trans hleads').trans hleads''
            rw [List.append_nil, hleads'.standing, hleads.standing] at hall
            exact ⟨_, _, .unreachable hleft hnew, hall⟩
        · cases hout
      · rcases checkAllowed_run hrefused with ⟨hout, -⟩ | ⟨_, -, hallowed, hleads'⟩
        · cases hout
        · rw [hleads.hostAllowed] at hallowed
          rw [hleads.standing] at hleads'
          have hall := hleads.trans hleads'
          rw [List.append_nil] at hall
          exact ⟨_, _, .refused e hleft hallowed, hall⟩
  · rcases stillAlive_run halive with ⟨hout, -⟩ | ⟨hout, -⟩ <;> cases hout

/-! ### After a failure -/

theorem afterFailure_run {out : Except Error Unit}
    (h : (afterFailure host).run link = (out, after)) :
    out = .ok () ∧ ∃ new,
      (link.status = .connected ∧ LetGo link.session new ∧
          link.Leads new ⟨.disconnected, false, link.hostAllowed⟩ after ∨
        link.status ≠ .connected ∧ new = [] ∧ link.Leads [] link.standing after) := by
  rw [afterFailure, run_bind, run_get] at h
  -- only an agent that was connected has something to give up
  by_cases hstatus : link.status = .connected
  · simp only [hstatus, if_true] at h
    rcases run_bind_cases h with ⟨_, mid, hgive, hset⟩ | ⟨_, hgive, -⟩
    · obtain ⟨rfl, rfl⟩ := Prod.mk.inj hset
      obtain ⟨-, new, hnew, hleads⟩ := giveUp_run hgive
      refine ⟨rfl, new, Or.inl ⟨hstatus, hnew, hleads.calls, ?_⟩⟩
      rw [Link.standing, hleads.hostAllowed, hleads.session]
      rfl
    · cases (giveUp_run hgive).1
  · simp only [hstatus, if_false] at h
    obtain ⟨rfl, rfl⟩ := run_pure_inj h
    exact ⟨rfl, [], Or.inr ⟨hstatus, rfl, Link.Leads.refl _⟩⟩

end

end Agent

end AchCourier.Remote
