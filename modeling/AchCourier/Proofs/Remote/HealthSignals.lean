import AchCourier.Proofs.Remote.ConnectionState
import AchCourier.Proofs.Remote.Dialing
import AchCourier.Proofs.Remote.HostStates
import AchCourier.Total

/-!
# What the health signals tell

All agents note their health in one place, under the protocol and the host that they dial, and they
take turns in any order.  Each errand of an agent that needs a session, the opening of its first one
included, counts the attempts of its dial beyond the first, if it has to dial, and notes once how it
ended.  Everything else leaves the signals alone: giving a session up, and an upload that ends
before it needs a session because its content cannot be read or its name is empty.  So what the
signals of a host tell can be read from the log of the errands that were run for it.

## Main definitions

* `retriesIn` — the attempts among some calls beyond the first of each dial.
* `Agent.noted` — the health behind an errand that needs a session.
* `Errand`, `Fleet` — what is to be done with an agent, and agents that share their health.
* `Fleet.run` — errands one after the other, with a log of deeds.

## Main results

* `retried_acquire` — getting a session counts the attempts of its dial.
* `noted_perform`, `noted_start` — whatever needs a session notes once how it ended.
* `carryOut_health`, `run_health` — what one errand, and what many do to the signals of any host.
* `signals_tell_deeds` — **the signals of a host are those of the deeds done for it.**
-/

namespace AchCourier.Remote

variable {σ : Type}

/-! ### Attempts to dial -/

/-- The call is an attempt to dial. -/
def Call.dials (c : Call) : Bool :=
  c.request = .connect

/-- The attempts to dial beyond the first of each dial: those that come right behind another one. -/
def retriesIn : List Call → ℕ
  | c :: d :: calls => (if c.dials && d.dials then 1 else 0) + retriesIn (d :: calls)
  | _ => 0

theorem retriesIn_cons_of_ne {c : Call} (h : c.request ≠ .connect) (calls : List Call) :
    retriesIn (c :: calls) = retriesIn calls := by
  cases calls with
  | nil => rfl
  | cons d calls => simp [retriesIn, Call.dials, h]

theorem retriesIn_append_right {before later : List Call} (h : ∀ c ∈ before, c.request ≠ .connect) :
    retriesIn (before ++ later) = retriesIn later := by
  induction before with
  | nil => rfl
  | cons c before ih =>
    obtain ⟨hc, hbefore⟩ := List.forall_mem_cons.mp h
    rw [List.cons_append, retriesIn_cons_of_ne hc, ih hbefore]

theorem retriesIn_eq_zero {calls : List Call} (h : ∀ c ∈ calls, c.request ≠ .connect) :
    retriesIn calls = 0 := by
  rw [← List.append_nil calls, retriesIn_append_right h]
  rfl

theorem retriesIn_append_left {before later : List Call} (h : ∀ c ∈ later, c.request ≠ .connect) :
    retriesIn (before ++ later) = retriesIn before := by
  induction before with
  | nil => exact retriesIn_eq_zero h
  | cons c before ih =>
    cases before with
    | nil =>
      -- the call behind the last attempt is none itself
      cases later with
      | nil => rfl
      | cons d later =>
        have hd := h d List.mem_cons_self
        simp [retriesIn, Call.dials, hd, retriesIn_eq_zero h]
    | cons d before =>
      rw [List.cons_append, List.cons_append, retriesIn, ← List.cons_append, ih, retriesIn]

/-- A dial has one attempt that is the first. -/
theorem retriesIn_of_dials {calls : List Call} (h : ∀ c ∈ calls, c.request = .connect) :
    retriesIn calls = calls.length - 1 := by
  induction calls with
  | nil => rfl
  | cons c calls ih =>
    obtain ⟨hc, hcalls⟩ := List.forall_mem_cons.mp h
    -- every call but the first one is a retry
    cases calls with
    | nil => rfl
    | cons d calls =>
      have hd := hcalls d List.mem_cons_self
      rw [retriesIn, ih hcalls]
      simp [Call.dials, hc, hd, Nat.add_comm]

namespace Agent

variable {host : Host σ} {lookup : Net.Lookup} {agent : Agent} {link mid after : Link σ}

/-- The health with so many more attempts to dial the host of the agent. -/
def retried (agent : Agent) (n : ℕ) (health : Health) : Health :=
  (fun h : Health => h.retry agent.connector.protocol agent.connector.hostname)^[n] health

/-- Between two links the attempts to dial beyond the first were counted, and nothing was noted. -/
def Retried (agent : Agent) (link after : Link σ) : Prop :=
  ∃ new, after.calls = link.calls ++ new ∧
    after.health = agent.retried (retriesIn new) link.health

/-- Calls between two links that do not dial, so that there is nothing to count. -/
def Calm (link after : Link σ) : Prop :=
  ∃ new, after.calls = link.calls ++ new ∧ (∀ c ∈ new, c.request ≠ .connect) ∧
    after.health = link.health

theorem Calm.retried (h : Calm link after) : agent.Retried link after := by
  obtain ⟨new, hcalls, hnew, hhealth⟩ := h
  exact ⟨new, hcalls, by rw [retriesIn_eq_zero hnew, hhealth]; rfl⟩

theorem Calm.trans (h : Calm link mid) (h' : Calm mid after) : Calm link after := by
  obtain ⟨new, hcalls, hnew, hhealth⟩ := h
  obtain ⟨more, hcalls', hmore, hhealth'⟩ := h'
  refine ⟨new ++ more, by rw [hcalls', hcalls, List.append_assoc], fun c hc => ?_,
    hhealth'.trans hhealth⟩
  exact (List.mem_append.mp hc).elim (hnew c) (hmore c)

theorem Calm.trans_retried (h : Calm link mid) (h' : agent.Retried mid after) :
    agent.Retried link after := by
  obtain ⟨new, hcalls, hnew, hhealth⟩ := h
  obtain ⟨more, hcalls', hhealth'⟩ := h'
  refine ⟨new ++ more, by rw [hcalls', hcalls, List.append_assoc], ?_⟩
  rw [retriesIn_append_right hnew, hhealth', hhealth]

theorem Retried.trans_calm (h : agent.Retried link mid) (h' : Calm mid after) :
    agent.Retried link after := by
  obtain ⟨new, hcalls, hhealth⟩ := h
  obtain ⟨more, hcalls', hmore, hhealth'⟩ := h'
  refine ⟨new ++ more, by rw [hcalls', hcalls, List.append_assoc], ?_⟩
  rw [retriesIn_append_left hmore, hhealth', hhealth]

/-! ### Sessions -/

theorem calm_giveUp {out : Except Error Unit} (h : (giveUp host).run link = (out, after)) :
    Calm link after := by
  obtain ⟨-, new, hnew, hleads⟩ := giveUp_run h
  exact ⟨new, hleads.calls, hnew.ne_connect,
    keeps_giveUp (v := fun _ health => health) (fun _ _ _ _ => rfl) h⟩

theorem calm_afterFailure {out : Except Error Unit}
    (h : (afterFailure host).run link = (out, after)) : Calm link after := by
  have hhealth := keeps_afterFailure (v := fun _ health => health) (fun _ _ _ _ => rfl) h
  obtain ⟨-, new, ⟨-, hnew, hleads⟩ | ⟨-, -, hleads⟩⟩ := afterFailure_run h
  · exact ⟨new, hleads.calls, hnew.ne_connect, hhealth⟩
  · exact ⟨[], hleads.calls, by simp, hhealth⟩

theorem calm_stillAlive {out : Except Error Bool}
    (h : (stillAlive host).run link = (out, after)) : Calm link after := by
  have hhealth := keeps_stillAlive (v := fun _ health => health) (fun _ _ _ _ => rfl) h
  rcases stillAlive_run h with ⟨-, -, hleads⟩ | ⟨-, left, hleft, hleads⟩
  · exact ⟨_, hleads.calls, by simp, hhealth⟩
  · exact ⟨left, hleads.calls, hleft.ne_connect, hhealth⟩

theorem calm_checkAllowed {out : Except Error Unit}
    (h : (checkAllowed lookup agent).run link = (out, after)) : Calm link after := by
  have hhealth := keeps_checkAllowed (v := fun _ health => health) h
  rcases checkAllowed_run h with ⟨-, hleads⟩ | ⟨-, -, -, hleads⟩
  · exact ⟨[], hleads.calls, by simp, hhealth⟩
  · exact ⟨[], hleads.calls, by simp, hhealth⟩

/-- Work on a session does not dial. -/
theorem calm_of_works {α : Type} {op : Operation} {body : Action σ α}
    (hbody : Works op.mayAsk body) {out : Except Error α} (h : body.run link = (out, after)) :
    Calm link after := by
  obtain ⟨hhealth, new, hworked, hleads⟩ := hbody h
  exact ⟨new, hleads.calls, hworked.ne_connect, hhealth⟩

/-- A dial counts its attempts beyond the first. -/
theorem retried_establish {out : Except Error Unit}
    (h : (agent.establish host).run link = (out, after)) : agent.Retried link after := by
  have hdial := dial_eq host agent (agent.connector.attempts - 1)
    { link with status := .connecting }
  dsimp only at hdial
  rw [run_establish, hdial] at h
  generalize attemptsNeeded (host.dialOutcome link.host) (agent.connector.attempts - 1 + 1) = made
    at h
  -- all calls are dials, so the number of them tells the retries
  have hmade : retriesIn ((List.range made).map fun i =>
      (⟨.connect, failureIn (host.dialOutcome link.host i)⟩ : Call)) = made - 1 := by
    rw [retriesIn_of_dials (by simp), List.length_map, List.length_range]
  rcases hlast : host.dialOutcome link.host (made - 1) with e | _
  · rw [hlast] at h
    obtain ⟨-, rfl⟩ := Prod.mk.inj h
    exact ⟨_, rfl, by rw [hmade]; rfl⟩
  · rw [hlast] at h
    obtain ⟨-, rfl⟩ := Prod.mk.inj h
    exact ⟨_, rfl, by rw [hmade]; rfl⟩

/-- **Getting a session counts the attempts of its dial**, if it takes one, and notes nothing. -/
theorem retried_acquire {out : Except Error Unit}
    (h : (agent.acquire host lookup).run link = (out, after)) : agent.Retried link after := by
  rcases run_bind_cases h with ⟨alive, mid, halive, hrest⟩ | ⟨_, halive, -⟩
  · have hcalm := calm_stillAlive halive
    split at hrest
    · obtain ⟨-, rfl⟩ := run_pure_inj hrest
      exact hcalm.retried
    · rcases run_bind_cases hrest with ⟨_, allowed, hallowed, hestablish⟩ | ⟨_, hallowed, -⟩
      · exact (hcalm.trans (calm_checkAllowed hallowed)).trans_retried
          (retried_establish hestablish)
      · exact (hcalm.trans (calm_checkAllowed hallowed)).retried
  · exact (calm_stillAlive halive).retried

/-! ### Operations -/

/-- The health behind an errand that needs a session. -/
def noted (agent : Agent) (calls : List Call) (ok : Bool) (health : Health) : Health :=
  (agent.retried (retriesIn calls) health).record agent.connector.protocol
    agent.connector.hostname ok

/-- Between two links the attempts to dial beyond the first were counted, and an outcome was
noted. -/
def Noted (agent : Agent) (link : Link σ) (ok : Bool) (after : Link σ) : Prop :=
  ∃ new, after.calls = link.calls ++ new ∧ after.health = agent.noted new ok link.health

/-- A guarded operation notes its outcome. -/
theorem noted_guarded {α : Type} {operation : Action σ α} {out : Except Error α}
    (hoperation : ∀ {out mid}, operation.run link = (out, mid) → agent.Retried link mid)
    (h : (agent.guarded host operation).run link = (out, after)) :
    agent.Noted link out.isOk after := by
  rcases guarded_cases h with ⟨a, mid, hdo, rfl, rfl⟩ | ⟨e, mid, hdo, rfl, hafter⟩
  · obtain ⟨new, hcalls, hhealth⟩ := hoperation hdo
    exact ⟨new, hcalls, by rw [noted, ← hhealth]; rfl⟩
  · obtain ⟨new, hcalls, hhealth⟩ := hoperation hdo
    obtain ⟨last, hcalls', hlast, hhealth'⟩ := calm_afterFailure hafter
    dsimp only at hcalls' hhealth'
    refine ⟨new ++ last, by rw [hcalls', hcalls, List.append_assoc], ?_⟩
    rw [hhealth', noted, retriesIn_append_left hlast, ← hhealth]
    rfl

/-- **An operation that needs a session notes its outcome once.** -/
theorem noted_perform {op : Operation} (hop : op.needsSession = true) {out : Except Error Unit}
    (h : (op.perform host lookup agent).run link = (out, after)) :
    agent.Noted link out.isOk after := by
  obtain ⟨_, body, hbody, hperform⟩ := perform_eq_guarded host lookup agent hop
  -- up to the record at its end the operation notes nothing but retries
  have hoperation : ∀ {out mid}, (do agent.acquire host lookup; body).run link = (out, mid) →
      agent.Retried link mid := by
    intro out mid hdo
    rcases run_bind_cases hdo with ⟨_, opened, hacquire, hwork⟩ | ⟨e, hacquire, -⟩
    · exact (retried_acquire hacquire).trans_calm (calm_of_works hbody hwork)
    · exact retried_acquire hacquire
  rw [hperform] at h
  rcases run_bind_cases h with ⟨_, mid, hdo, hdone⟩ | ⟨e, hdo, rfl⟩
  · obtain ⟨rfl, rfl⟩ := run_pure_inj hdone
    exact (noted_guarded hoperation hdo :)
  · exact (noted_guarded hoperation hdo :)

/-- Other operations do not dial, and note nothing. -/
theorem calm_perform {op : Operation} (hop : op.needsSession = false) {out : Except Error Unit}
    (h : (op.perform host lookup agent).run link = (out, after)) : Calm link after := by
  -- closing notes nothing, and what is rejected is not even begun
  rcases Operation.eq_close_or_isRejected hop with rfl | hrejected
  · rcases run_bind_cases h with ⟨_, mid, hgive, hset⟩ | ⟨_, hgive, -⟩
    · obtain ⟨new, hcalls, hnew, hhealth⟩ := calm_giveUp hgive
      obtain ⟨-, rfl⟩ := Prod.mk.inj hset
      exact ⟨new, hcalls, hnew, hhealth⟩
    · exact calm_giveUp hgive
  · obtain ⟨e, hperform⟩ := perform_of_isRejected host lookup agent hrejected
    rw [hperform] at h
    obtain ⟨-, rfl⟩ := run_throw_inj h
    exact ⟨[], (List.append_nil _).symm, by simp, rfl⟩

/-- **Opening the first session notes its outcome once.** -/
theorem noted_start {out : Except Error Unit}
    (h : (agent.start host lookup).run link = (out, after)) : agent.Noted link out.isOk after := by
  rcases run_tryCatch_cases h with ⟨_, hdo, rfl⟩ | ⟨e, mid, hdo, hhandle⟩
  · rcases run_bind_cases hdo with ⟨_, mid, hacquire, hrecord⟩ | ⟨_, -, hout⟩
    · obtain ⟨new, hcalls, hhealth⟩ := retried_acquire hacquire
      obtain ⟨-, rfl⟩ := Prod.mk.inj hrecord
      exact ⟨new, hcalls, by rw [noted, ← hhealth]; rfl⟩
    · cases hout
  · -- noting a success cannot fail, so getting the session did
    have hacquire : (agent.acquire host lookup).run link = (.error e, mid) := by
      rcases run_bind_cases hdo with ⟨_, _, -, hrecord⟩ | ⟨_, hacquire, hout⟩
      · cases (Prod.mk.inj hrecord).1
      · cases hout
        exact hacquire
    obtain ⟨new, hcalls, hhealth⟩ := retried_acquire hacquire
    rw [run_bind, run_record] at hhandle
    obtain ⟨rfl, rfl⟩ := run_throw_inj hhandle
    exact ⟨new, hcalls, by rw [noted, ← hhealth]; rfl⟩

/-! ### Signals -/

/-- The agent dials the host with the protocol. -/
def isAt (agent : Agent) (protocol : Protocol) (hostname : String) : Bool :=
  (protocol, hostname) = (agent.connector.protocol, agent.connector.hostname)

variable {protocol : Protocol} {hostname : String}

theorem isUp?_noted (calls : List Call) (ok : Bool) (health : Health) :
    (agent.noted calls ok health).isUp? protocol hostname =
      if agent.isAt protocol hostname then some ok else health.isUp? protocol hostname := by
  rw [noted, Health.isUp?_record]
  simp only [isAt, decide_eq_true_eq]
  split
  · rfl
  · next hne => exact Health.isUp?_iterate_retry_of_ne health hne _

theorem retries_noted (calls : List Call) (ok : Bool) (health : Health) :
    (agent.noted calls ok health).retries protocol hostname =
      health.retries protocol hostname +
        if agent.isAt protocol hostname then retriesIn calls else 0 := by
  simp only [noted, Health.retries_record, retried, Health.retries_iterate_retry, isAt,
    decide_eq_true_eq]

end Agent

/-! ### Agents that share their health -/

/-- What is to be done with an agent. -/
inductive Errand where
  /-- It is made anew, and its first session is opened. -/
  | construct
  /-- It performs an operation. -/
  | perform (operation : Operation)
  deriving DecidableEq, Repr

namespace Errand

/-- The errand needs a session, and so shows whether the host can be worked with. -/
def needsSession : Errand → Bool
  | .construct => true
  | .perform operation => operation.needsSession

/-- Runs an errand. -/
def action (host : Host σ) (lookup : Net.Lookup) (agent : Agent) : Errand → Action σ Unit
  | .construct => agent.start host lookup
  | .perform operation => operation.perform host lookup agent

variable {host : Host σ} {lookup : Net.Lookup} {agent : Agent} {link after : Link σ}
  {errand : Errand} {out : Except Error Unit}

theorem noted_action (h : (errand.action host lookup agent).run link = (out, after))
    (hneeds : errand.needsSession = true) : agent.Noted link out.isOk after := by
  cases errand with
  | construct => exact Agent.noted_start h
  | perform operation => exact Agent.noted_perform hneeds h

theorem calm_action (h : (errand.action host lookup agent).run link = (out, after))
    (hneeds : errand.needsSession = false) : Agent.Calm link after := by
  cases errand with
  | construct => cases hneeds
  | perform operation => exact Agent.calm_perform hneeds h

end Errand

/-- An errand for one of the agents, and how host names are looked up meanwhile. -/
structure Order (ι : Type) where
  agent : ι
  lookup : Net.Lookup
  errand : Errand

/-- An errand with what came of it. -/
structure Deed (ι : Type) where
  agent : ι
  errand : Errand
  failure : Option Error
  /-- The calls that were made. -/
  calls : List Call
  deriving DecidableEq, Repr

/-- Agents whose hosts are parts of one world. -/
structure Fleet (ι σ : Type) where
  agent : ι → Agent
  host : ι → Host σ

namespace Fleet

/-- The world, the health signals that all agents share, and what each agent remembers. -/
structure State (ι σ : Type) where
  world : σ
  health : Health := {}
  standing : ι → Standing := fun _ => ⟨.disconnected, false, false⟩

variable {ι : Type} [DecidableEq ι]

/-- What an order starts from.  An agent that is made anew remembers nothing. -/
def State.link (s : State ι σ) (o : Order ι) : Link σ :=
  match o.errand with
  | .construct => { host := s.world, health := s.health }
  | .perform _ =>
      let standing := s.standing o.agent
      { host := s.world, health := s.health, status := standing.status,
        session := standing.session, hostAllowed := standing.hostAllowed }

omit [DecidableEq ι] in
theorem State.link_calls (s : State ι σ) (o : Order ι) :
    (s.link o).calls = [] ∧ (s.link o).health = s.health := by
  rw [link]
  cases o.errand <;> exact ⟨rfl, rfl⟩

/-- Carries out an order. -/
def carryOut (fleet : Fleet ι σ) (o : Order ι) (s : State ι σ) : Deed ι × State ι σ :=
  let (result, after) :=
    (o.errand.action (fleet.host o.agent) o.lookup (fleet.agent o.agent)).run (s.link o)
  (⟨o.agent, o.errand, failureIn result, after.calls⟩,
    ⟨after.host, after.health, Function.update s.standing o.agent after.standing⟩)

/-- Carries out one order after another. -/
def run (fleet : Fleet ι σ) : List (Order ι) → State ι σ → List (Deed ι) × State ι σ
  | [], s => ([], s)
  | o :: os, s =>
      let (deed, mid) := fleet.carryOut o s
      let (deeds, after) := fleet.run os mid
      (deed :: deeds, after)

/-- The deed was done by an agent that dials the host with the protocol. -/
def doneAt (fleet : Fleet ι σ) (protocol : Protocol) (hostname : String) (deed : Deed ι) : Bool :=
  (fleet.agent deed.agent).isAt protocol hostname

variable (fleet : Fleet ι σ) (protocol : Protocol) (hostname : String)

theorem isNone_failureIn {α : Type} (out : Except Error α) : (failureIn out).isNone = out.isOk := by
  cases out <;> rfl

/-- **What one errand does to the signals of any host.** -/
theorem carryOut_health (o : Order ι) (s : State ι σ) :
    let (deed, after) := fleet.carryOut o s
    (deed.agent, deed.errand) = (o.agent, o.errand) ∧
      after.health.isUp? protocol hostname =
        (if fleet.doneAt protocol hostname deed && deed.errand.needsSession
          then some deed.failure.isNone else s.health.isUp? protocol hostname) ∧
      after.health.retries protocol hostname = s.health.retries protocol hostname +
        (if fleet.doneAt protocol hostname deed then retriesIn deed.calls else 0) ∧
      (deed.errand.needsSession = false → retriesIn deed.calls = 0) := by
  rcases hrun : (o.errand.action (fleet.host o.agent) o.lookup (fleet.agent o.agent)).run
    (s.link o) with ⟨out, after⟩
  obtain ⟨hnocalls, hstart⟩ := s.link_calls o
  have hcarry : fleet.carryOut o s = (⟨o.agent, o.errand, failureIn out, after.calls⟩,
      ⟨after.host, after.health, Function.update s.standing o.agent after.standing⟩) := by
    simp only [carryOut, hrun]
  rw [hcarry]
  refine ⟨rfl, ?_⟩
  simp only [doneAt, isNone_failureIn]
  -- what needs a session is recorded, and anything else leaves the signals alone
  cases hneeds : o.errand.needsSession with
  | true =>
    obtain ⟨new, hcalls, hhealth⟩ := Errand.noted_action hrun hneeds
    rw [hnocalls, List.nil_append] at hcalls
    simp only [hhealth, hstart, hcalls, Agent.isUp?_noted, Agent.retries_noted, Bool.and_true]
    exact ⟨trivial, trivial, fun h => nomatch h⟩
  | false =>
    obtain ⟨new, hcalls, hnew, hhealth⟩ := Errand.calm_action hrun hneeds
    rw [hnocalls, List.nil_append] at hcalls
    simp [hhealth, hstart, hcalls, retriesIn_eq_zero hnew]

/-- What a whole run does to the signals of any host. -/
theorem run_health (orders : List (Order ι)) (s : State ι σ) :
    let (deeds, after) := fleet.run orders s
    deeds.map (fun deed => (deed.agent, deed.errand)) =
        orders.map (fun o => (o.agent, o.errand)) ∧
      after.health.isUp? protocol hostname =
        ((deeds.filter fun deed => fleet.doneAt protocol hostname deed && deed.errand.needsSession
          ).getLast?.map fun deed => deed.failure.isNone).or
          (s.health.isUp? protocol hostname) ∧
      after.health.retries protocol hostname = s.health.retries protocol hostname +
        total ((deeds.filter (fleet.doneAt protocol hostname)).map fun deed =>
          retriesIn deed.calls) := by
  -- by induction on the orders: the last deed that counts decides, and the retries add up
  induction orders generalizing s with
  | nil => exact ⟨rfl, rfl, rfl⟩
  | cons o orders ih =>
    have hone := fleet.carryOut_health protocol hostname o s
    rw [run]
    generalize fleet.carryOut o s = carried at hone
    obtain ⟨deed, mid⟩ := carried
    have hall := ih mid
    dsimp only
    generalize fleet.run orders mid = ran at hall
    obtain ⟨deeds, after⟩ := ran
    obtain ⟨horder, hup, hretries, -⟩ := hone
    obtain ⟨horders, hups, hretriesAll⟩ := hall
    refine ⟨congrArg₂ List.cons horder horders, ?_, ?_⟩
    · rw [hups, hup, List.filter_cons]
      split
      · rw [List.getLast?_cons]
        cases (deeds.filter _).getLast? <;> rfl
      · rfl
    · rw [hretriesAll, hretries, List.filter_cons]
      split
      · rw [List.map_cons, total_cons, Nat.add_assoc]
      · rw [Nat.add_zero]

/-- **The signals of a host are those of the deeds done for it.**  Whatever agents there are, and in
whichever order they are given errands, and whatever their hosts answer:
* A host is up if the last errand for it that needed a session succeeded, and down if that failed;
  before the first one nothing is known of it.
* Its retries are the attempts to dial beyond the first, over all errands for it.
* An errand that needs no session changes none of that, and neither does one for another host or
  with another protocol. -/
theorem signals_tell_deeds (world : σ) (orders : List (Order ι)) :
    let (deeds, after) := fleet.run orders { world }
    deeds.map (fun deed => (deed.agent, deed.errand)) =
        orders.map (fun o => (o.agent, o.errand)) ∧
      after.health.isUp? protocol hostname =
        (deeds.filter fun deed => fleet.doneAt protocol hostname deed && deed.errand.needsSession
          ).getLast?.map (fun deed => deed.failure.isNone) ∧
      after.health.retries protocol hostname =
        total ((deeds.filter (fleet.doneAt protocol hostname)).map fun deed =>
          retriesIn deed.calls) ∧
      ∀ o : Order ι,
        o.errand.needsSession = false ∨ (fleet.agent o.agent).isAt protocol hostname = false →
        let next := (fleet.carryOut o after).2.health
        next.isUp? protocol hostname = after.health.isUp? protocol hostname ∧
          next.retries protocol hostname = after.health.retries protocol hostname := by
  have hall := fleet.run_health protocol hostname orders { world }
  generalize fleet.run orders { world } = ran at hall
  obtain ⟨deeds, after⟩ := ran
  obtain ⟨horders, hups, hretriesAll⟩ := hall
  refine ⟨horders, hups.trans (Option.or_none ..), hretriesAll.trans (Nat.zero_add _),
    fun o hother => ?_⟩
  -- one more order, of an errand that notes nothing or of an agent elsewhere
  have hone := fleet.carryOut_health protocol hostname o after
  dsimp only
  generalize fleet.carryOut o after = carried at hone
  obtain ⟨deed, next⟩ := carried
  obtain ⟨horder, hup, hretries, hcalm⟩ := hone
  obtain ⟨hagent, herrand⟩ := Prod.mk.inj horder
  rw [herrand] at hup hcalm
  rw [doneAt, hagent] at hup hretries
  rw [hup, hretries]
  rcases hother with hneeds | haway
  · simp [hneeds, hcalm hneeds]
  · simp [haway]

/-- An upload with a name whose content cannot be read fails, and ends before it needs a session:
the host is still up. -/
theorem isUp_behind_unreadable_upload :
    let payload : Payload := { name := "a.ach", content := [], broken := some "disk" }
    let fleet : Fleet Unit Memory := ⟨fun _ => plainBank, fun _ => Memory.host⟩
    let orders : List (Order Unit) :=
      [⟨(), .offline, .construct⟩, ⟨(), .offline, .perform (.upload payload)⟩]
    let (deeds, after) := fleet.run orders { world := {} }
    baseName payload.name ≠ "" ∧
      deeds.map (fun deed => (deed.errand, deed.failure.isNone)) =
        [(.construct, true), (.perform (.upload payload), false)] ∧
      after.health.isUp? .memory "bank" = some true := by
  decide +kernel

end Fleet

end AchCourier.Remote
