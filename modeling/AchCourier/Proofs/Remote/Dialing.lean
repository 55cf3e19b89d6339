import AchCourier.Proofs.Remote.Actions
import AchCourier.Remote.Memory
import Mathlib.Logic.Function.Iterate

/-!
# Dialing

A dial is a bounded loop.  It ends with the first attempt that settles it, by a session or by a
fault of the configuration, and at the latest with the last attempt that the agent may make.  Every
attempt beyond the first is counted.  So all that a dial does follows from the answers that the host
has for one attempt after another.

## Main definitions

* `Host.afterDials`, `Host.dialOutcome` — the host behind some attempts, and what comes of the next.
* `settles` — an outcome behind which no further attempt is made.
* `attemptsNeeded` — the attempts that a dial makes, given the outcomes of all that it could make.

## Main results

* `attemptsNeeded_add_two` — how many attempts there are, by what comes of the first.
* `run_dial_succ`, `dial_eq` — one attempt, and the whole of a dial in one equation.
* `establish_attempts` — **what the agent does to get a new session, attempt by attempt.**
-/

namespace AchCourier

/-- Only the attempts of the host that is dialed again are counted. -/
theorem Health.retries_iterate_retry (h : Health) (protocol protocol' : Remote.Protocol)
    (hostname hostname' : String) (n : Nat) :
    ((fun h : Health => h.retry protocol hostname)^[n] h).retries protocol' hostname' =
      h.retries protocol' hostname' +
        if (protocol', hostname') = (protocol, hostname) then n else 0 := by
  induction n generalizing h with
  | zero => simp
  | succ n ih =>
    rw [Function.iterate_succ_apply, ih, retries_retry, Nat.add_assoc]
    split
    · rw [Nat.add_comm 1]
    · rfl

/-- Dialing one host says nothing about others. -/
theorem Health.isUp?_iterate_retry_of_ne (h : Health) {protocol protocol' : Remote.Protocol}
    {hostname hostname' : String} (hne : (protocol', hostname') ≠ (protocol, hostname)) (n : Nat) :
    ((fun h : Health => h.retry protocol hostname)^[n] h).isUp? protocol' hostname' =
      h.isUp? protocol' hostname' := by
  induction n generalizing h with
  | zero => rfl
  | succ n ih => rw [Function.iterate_succ_apply, ih, isUp?_retry_of_ne _ _ _ _ _ hne]

namespace Remote

variable {σ : Type}

/-! ### One attempt after another -/

/-- The host behind `n` attempts to dial. -/
def Host.afterDials (host : Host σ) : Nat → σ → σ
  | 0, s => s
  | n + 1, s => host.afterDials n (host.answer .connect s).2

/-- What comes of an attempt to dial behind `n` others. -/
def Host.dialOutcome (host : Host σ) (s : σ) (n : Nat) : Except Error Unit :=
  (host.answer .connect (host.afterDials n s)).1

/-- Behind this outcome no further attempt is made. -/
def settles : Except Error Unit → Bool
  | .ok _ => true
  | .error e => e.isConfig

/-- The attempts that are made out of `most` possible ones: up to the first that settles the dial,
or all of them. -/
def attemptsNeeded (outcome : Nat → Except Error Unit) (most : Nat) : Nat :=
  min most ((List.range most).findIdx (fun i => settles (outcome i)) + 1)

section
variable {outcome : Nat → Except Error Unit}

theorem attemptsNeeded_one : attemptsNeeded outcome 1 = 1 := by
  simp [attemptsNeeded]

theorem attemptsNeeded_add_two (most : Nat) :
    attemptsNeeded outcome (most + 2) =
      if settles (outcome 0) then 1
      else attemptsNeeded (fun i => outcome (i + 1)) (most + 1) + 1 := by
  rw [attemptsNeeded, List.range_succ_eq_map, List.findIdx_cons, List.findIdx_map, attemptsNeeded]
  cases settles (outcome 0) with
  | true => simp
  | false =>
    simp only [cond_false, Bool.false_eq_true, if_false]
    exact Nat.add_min_add_right _ _ 1

theorem attemptsNeeded_pos {most : Nat} (h : 0 < most) : 0 < attemptsNeeded outcome most :=
  Nat.lt_min.mpr ⟨h, Nat.succ_pos _⟩

end

namespace Agent

/-- An attempt that is not the last one, and the others behind it if it does not settle the dial. -/
theorem run_dial_succ (host : Host σ) (agent : Agent) (more : Nat) (link : Link σ) :
    (dial host agent (more + 1)).run link =
      let first := (host.answer .connect link.host).1
      let asked := { link with
        host := (host.answer .connect link.host).2
        calls := link.calls ++ [⟨.connect, failureIn first⟩] }
      if settles first then (first, asked)
      else (dial host agent more).run { asked with
        health := link.health.retry agent.connector.protocol agent.connector.hostname } := by
  rw [dial, run_tryCatch, run_ask]
  rcases (host.answer .connect link.host).1 with e | _
  · -- a fault of the configuration settles the matter just as a success does
    cases hconfig : e.isConfig with
    | true =>
      simp only [settles, hconfig, if_true]
      rfl
    | false =>
      simp only [settles, hconfig, Bool.false_eq_true, if_false]
      rw [run_bind, run_countRetry]
  · rfl

/-- The whole of a dial: as many attempts as are needed, and the outcome of the last of them. -/
theorem dial_eq (host : Host σ) (agent : Agent) (more : Nat) (link : Link σ) :
    let outcome := host.dialOutcome link.host
    let made := attemptsNeeded outcome (more + 1)
    (dial host agent more).run link =
      (outcome (made - 1), { link with
        host := host.afterDials made link.host
        calls := link.calls ++ (List.range made).map fun i => ⟨.connect, failureIn (outcome i)⟩
        health := (fun h : Health =>
          h.retry agent.connector.protocol agent.connector.hostname)^[made - 1] link.health }) := by
  induction more generalizing link with
  | zero =>
    dsimp only
    rw [attemptsNeeded_one]
    rfl
  | succ more ih =>
    -- the outcomes behind the first attempt are those of the host that it has left
    have hfirst : host.dialOutcome link.host 0 = (host.answer .connect link.host).1 := rfl
    have hlater : (fun i => host.dialOutcome link.host (i + 1)) =
        host.dialOutcome (host.answer .connect link.host).2 := rfl
    dsimp only
    rw [run_dial_succ, attemptsNeeded_add_two, hfirst, hlater]
    dsimp only
    by_cases hsettled : settles (host.answer .connect link.host).1 = true
    · rw [if_pos hsettled, if_pos hsettled]
      rfl
    · rw [if_neg hsettled, if_neg hsettled, ih]
      dsimp only
      obtain ⟨made, hmade⟩ : ∃ made, attemptsNeeded
          (host.dialOutcome (host.answer .connect link.host).2) (more + 1) = made + 1 :=
        Nat.exists_eq_succ_of_ne_zero (Nat.ne_of_gt (attemptsNeeded_pos (Nat.succ_pos more)))
      rw [hmade, Nat.add_sub_cancel, Nat.add_sub_cancel, List.range_succ_eq_map (n := made + 1),
        List.map_cons, List.map_map, List.append_assoc]
      rfl

/-- What getting a new session makes of the dial. -/
theorem run_establish (host : Host σ) (agent : Agent) (link : Link σ) :
    (agent.establish host).run link =
      match (dial host agent (agent.connector.attempts - 1)).run
          { link with status := .connecting } with
      | (.ok _, mid) => (.ok (), { mid with session := true, status := .connected })
      | (.error e, mid) => (.error e, { mid with status := .failed }) := by
  rw [establish, run_bind, run_setStatus]
  dsimp only
  rw [run_bind, run_tryCatch]
  rcases (dial host agent (agent.connector.attempts - 1)).run
    { link with status := .connecting } with ⟨_ | _, mid⟩ <;> rfl

/-- **What the agent does to get a new session, attempt by attempt.**  It dials up to the first
attempt that succeeds or shows a fault of the configuration, and otherwise as often as it may, but
at least once; it ends as the last attempt did; and the attempts beyond the first are counted for
its host and for no other. -/
theorem establish_attempts (host : Host σ) (agent : Agent) (link : Link σ) :
    let outcome := host.dialOutcome link.host
    let made := attemptsNeeded outcome (max 1 agent.connector.attempts)
    let (result, after) := (agent.establish host).run link
    result = outcome (made - 1) ∧
      after.calls =
        link.calls ++ (List.range made).map (fun i => ⟨.connect, failureIn (outcome i)⟩) ∧
      ∀ protocol hostname, after.health.retries protocol hostname =
        link.health.retries protocol hostname +
          if (protocol, hostname) = (agent.connector.protocol, agent.connector.hostname)
          then made - 1 else 0 := by
  intro outcome made
  -- one attempt is made at least
  have hmost : max 1 agent.connector.attempts = agent.connector.attempts - 1 + 1 := by omega
  have hdial := dial_eq host agent (agent.connector.attempts - 1)
    { link with status := .connecting }
  dsimp only at hdial
  rw [← hmost] at hdial
  have hcounted := fun protocol hostname => Health.retries_iterate_retry link.health
    agent.connector.protocol protocol agent.connector.hostname hostname (made - 1)
  rw [run_establish, hdial]
  rcases hresult : host.dialOutcome link.host (made - 1) with e | _
  · exact ⟨hresult.symm, rfl, hcounted⟩
  · exact ⟨hresult.symm, rfl, hcounted⟩

/-- A host that refuses twice is reached with the third attempt, and never by an agent that may make
none, which makes one all the same. -/
example :
    let run (attempts : Nat) := (Agent.establish Memory.host
      { settings := { id := "bank" }
        connector := { protocol := .memory, hostname := "bank", attempts } }).run
      { host := Memory.refuse {} 2 }
    (run 3).1.isOk = true ∧ (run 3).2.calls.length = 3 ∧
      (run 0).1.isOk = false ∧ (run 0).2.calls.length = 1 := by
  decide

end Agent

end Remote

end AchCourier
