import AchCourier.Proofs.Remote.Requests
import AchCourier.Remote.Memory
import AchCourier.Remote.Scripted

/-!
# What operations leave of a host

The state of a host is changed by its answers alone.  So a part of the state that no request of an
action changes is the same behind the action, whatever came of it.  Opening, checking and closing a
session leaves the files and directories of a host in memory alone, also if failures are planned.

## Main definitions

* `Host.Spares`, `Agent.Spares` — a request or an action leaves a part of the state as it is.
* `Agent.Keeps` — an action leaves what is seen of the host and of the health as it is.
* `Request.looks` — a request that only looks at what a host has.

## Main results

* `spares_acquire` — getting a session spares what opening, checking and closing one spares.
* `guarded_host` — what a guarded operation leaves of a host is what the operation itself leaves.
* `Memory.spares_files`, `Memory.spares_directories` — the requests that spare what is stored.
* `Scripted.answer_cases` — a planned failure spares everything.
-/

namespace AchCourier.Remote

variable {σ τ α β : Type}

/-- Whatever its answer, the request leaves the part of the state of the host as it is. -/
def Host.Spares (host : Host σ) (part : σ → τ) (r : Request) : Prop :=
  ∀ s, part (host.answer r s).2 = part s

namespace Agent

/-- Whatever comes of it, the action leaves what is seen of the host and of the health as it is. -/
def Keeps (v : σ → Health → τ) (x : Action σ α) : Prop :=
  ∀ ⦃link out after⦄, x.run link = (out, after) →
    v after.host after.health = v link.host link.health

/-- Whatever comes of it, the action leaves the part of the state of the host as it is. -/
def Spares (part : σ → τ) (x : Action σ α) : Prop :=
  ∀ ⦃link out after⦄, x.run link = (out, after) → part after.host = part link.host

section
variable {v : σ → Health → τ} {host : Host σ} {lookup : Net.Lookup} {agent : Agent}

theorem keeps_pure (a : α) : Keeps v (pure a : Action σ α) := by
  intro link out after h
  rw [(run_pure_inj h).2]

theorem keeps_throw (e : Error) : Keeps v (throw e : Action σ α) := by
  intro link out after h
  rw [(run_throw_inj h).2]

theorem keeps_get : Keeps v (get : Action σ (Link σ)) := by
  intro link out after h
  obtain ⟨-, rfl⟩ := Prod.mk.inj h
  rfl

/-- What an agent remembers is not seen. -/
theorem keeps_modify {f : Link σ → Link σ} (hhost : ∀ link, (f link).host = link.host)
    (hhealth : ∀ link, (f link).health = link.health) :
    Keeps v (modify f : Action σ Unit) := by
  intro link out after h
  obtain ⟨-, rfl⟩ := Prod.mk.inj h
  rw [hhost, hhealth]

theorem keeps_ask {r : Request} (hr : ∀ s health, v (host.answer r s).2 health = v s health) :
    Keeps v (ask host r) := by
  intro link out after h
  obtain ⟨-, rfl⟩ := Prod.mk.inj h
  exact hr link.host link.health

theorem Keeps.bind {x : Action σ α} {f : α → Action σ β} (hx : Keeps v x)
    (hf : ∀ a, Keeps v (f a)) : Keeps v (x >>= f) := by
  intro link out after h
  rcases run_bind_cases h with ⟨a, mid, hfirst, hsecond⟩ | ⟨e, hfirst, -⟩
  · exact (hf a hsecond).trans (hx hfirst)
  · exact hx hfirst

theorem Keeps.tryCatch {x : Action σ α} {handle : Error → Action σ α} (hx : Keeps v x)
    (hhandle : ∀ e, Keeps v (handle e)) : Keeps v (tryCatch x handle) := by
  intro link out after h
  rcases run_tryCatch_cases h with ⟨a, hdo, -⟩ | ⟨e, mid, hdo, hrest⟩
  · exact hx hdo
  · exact (hhandle e hrest).trans (hx hdo)

theorem keeps_checkAllowed : Keeps v (checkAllowed lookup agent : Action σ Unit) := by
  refine keeps_get.bind fun link => ?_
  split
  · exact keeps_pure _
  · cases Net.AllowList.screen lookup agent.settings.allowedRanges agent.connector.hostname with
    | error refusal => exact keeps_throw _
    | ok => exact keeps_modify (fun _ => rfl) fun _ => rfl

section
variable (hhouse : ∀ r, KeepsHouse r → ∀ s health, v (host.answer r s).2 health = v s health)
include hhouse

theorem keeps_giveUp : Keeps v (giveUp host) := by
  refine keeps_get.bind fun link => ?_
  split
  · refine Keeps.bind (keeps_modify (fun _ => rfl) fun _ => rfl) fun _ => ?_
    refine Keeps.tryCatch ?_ fun _ => keeps_pure _
    exact (keeps_ask (hhouse _ (Or.inr (Or.inr rfl)))).bind fun _ => keeps_pure _
  · exact keeps_pure _

theorem keeps_stillAlive : Keeps v (stillAlive host) := by
  refine keeps_get.bind fun link => ?_
  split
  · refine Keeps.tryCatch ?_ fun _ => (keeps_giveUp hhouse).bind fun _ => keeps_pure _
    exact (keeps_ask (hhouse _ (Or.inr (Or.inl rfl)))).bind fun _ => keeps_pure _
  · exact keeps_pure _

theorem keeps_afterFailure : Keeps v (afterFailure host) := by
  refine keeps_get.bind fun link => ?_
  split
  · exact (keeps_giveUp hhouse).bind fun _ => keeps_modify (fun _ => rfl) fun _ => rfl
  · exact keeps_pure _

end

end

section
variable {part : σ → τ} {host : Host σ} {lookup : Net.Lookup} {agent : Agent}

theorem spares_pure (a : α) : Spares part (pure a : Action σ α) :=
  keeps_pure (v := fun s _ => part s) a

theorem spares_throw (e : Error) : Spares part (throw e : Action σ α) :=
  keeps_throw (v := fun s _ => part s) e

/-- What an agent remembers is no part of its host. -/
theorem spares_modify {f : Link σ → Link σ} (hf : ∀ link, (f link).host = link.host) :
    Spares part (modify f : Action σ Unit) := by
  intro link out after h
  obtain ⟨-, rfl⟩ := Prod.mk.inj h
  exact congrArg part (hf link)

theorem spares_ask {r : Request} (hr : host.Spares part r) : Spares part (ask host r) :=
  keeps_ask (v := fun s _ => part s) fun s _ => hr s

theorem Spares.bind {x : Action σ α} {f : α → Action σ β} (hx : Spares part x)
    (hf : ∀ a, Spares part (f a)) : Spares part (x >>= f) :=
  Keeps.bind (v := fun s _ => part s) hx hf

theorem Spares.tryCatch {x : Action σ α} {handle : Error → Action σ α} (hx : Spares part x)
    (hhandle : ∀ e, Spares part (handle e)) : Spares part (tryCatch x handle) :=
  Keeps.tryCatch (v := fun s _ => part s) hx hhandle

/-! ### Sessions -/

section
variable (hhouse : ∀ r, KeepsHouse r → host.Spares part r)
include hhouse

theorem spares_stillAlive : Spares part (stillAlive host) :=
  keeps_stillAlive (v := fun s _ => part s) fun r hr s _ => hhouse r hr s

theorem spares_dial (more : Nat) : Spares part (dial host agent more) := by
  induction more with
  | zero => exact spares_ask (hhouse _ (Or.inl rfl))
  | succ more ih =>
    refine (spares_ask (hhouse _ (Or.inl rfl))).tryCatch fun e => ?_
    split
    · exact spares_throw _
    · exact Spares.bind (spares_modify fun _ => rfl) fun _ => ih

theorem spares_establish : Spares part (establish host agent) := by
  refine Spares.bind (spares_modify fun _ => rfl) fun _ => ?_
  refine Spares.bind ?_ fun _ => spares_modify fun _ => rfl
  refine (spares_dial hhouse _).tryCatch fun e => ?_
  exact Spares.bind (spares_modify fun _ => rfl) fun _ => spares_throw _

theorem spares_afterFailure : Spares part (afterFailure host) :=
  keeps_afterFailure (v := fun s _ => part s) fun r hr s _ => hhouse r hr s

/-- Getting a session spares what opening, checking and closing one spares. -/
theorem spares_acquire : Spares part (agent.acquire host lookup) := by
  refine (spares_stillAlive hhouse).bind fun alive => ?_
  split
  · exact spares_pure _
  · have hallowed : Spares part (checkAllowed lookup agent : Action σ Unit) :=
      keeps_checkAllowed (v := fun s _ => part s)
    exact hallowed.bind fun _ => spares_establish hhouse

end

theorem spares_prepareOutbound (hstat : ∀ path, host.Spares part (.stat path))
    (hcreate : ∀ path, host.Spares part (.createDir path)) :
    Spares part (agent.prepareOutbound host) := by
  rw [prepareOutbound]
  split
  · refine (spares_ask (hstat _)).bind fun found => ?_
    cases found with
    | none => exact spares_ask (hcreate _)
    | some entry =>
      dsimp only
      split
      · exact spares_pure _
      · exact spares_throw _
  · exact spares_pure _

/-- What a guarded operation leaves of a host is what the operation itself leaves, up to what
closing the session changes after a failure.  Behind a success only the health is noted. -/
theorem guarded_host (hhouse : ∀ r, KeepsHouse r → host.Spares part r) {operation : Action σ α}
    {link after : Link σ} {out : Except Error α}
    (h : (agent.guarded host operation).run link = (out, after)) :
    ∃ mid, operation.run link = (out, mid) ∧ part after.host = part mid.host ∧
      (out.isOk = true → ∃ health, after = { mid with health }) := by
  rcases guarded_cases h with ⟨a, mid, hoperation, rfl, rfl⟩ | ⟨e, mid, hoperation, rfl, hafter⟩
  · exact ⟨mid, hoperation, rfl, fun _ => ⟨_, rfl⟩⟩
  · have hspared := spares_afterFailure hhouse hafter
    exact ⟨mid, hoperation, hspared, fun hok => by cases hok⟩

end

end Agent

/-! ### Hosts in memory -/

/-- The request only looks at what a host has. -/
def Request.looks : Request → Bool
  | .checkAlive | .readDir _ | .readFile _ | .stat _ => true
  | _ => false

namespace Memory

/-- A host that is only looked at stays as it is. -/
theorem answer_of_looks (m : Memory) {r : Request} (h : r.looks = true) : (m.answer r).2 = m := by
  cases r with
  | checkAlive | readDir | readFile | stat =>
    simp only [answer]
    split <;> rfl
  | connect | createDir | writeFile | removeFile | close => cases h

/-- What opening a session changes. -/
theorem answer_connect (m : Memory) :
    ((m.answer .connect).1 = .error (.connection .memory "connection refused") ∧
        ∃ n, (m.answer .connect).2 = { m with refusals := n }) ∨
      ((m.answer .connect).1 = .ok () ∧ (m.answer .connect).2 =
        { m with connects := m.connects + 1, session := some m.generation }) := by
  simp only [answer, answerConnect]
  split
  · exact Or.inl ⟨rfl, _, rfl⟩
  · exact Or.inr ⟨rfl, rfl⟩

/-- Only writing and removing changes the files. -/
theorem spares_files {r : Request} (hwrite : ∀ dir name content, r ≠ .writeFile dir name content)
    (hremove : ∀ path, r ≠ .removeFile path) : Memory.host.Spares Memory.files r := by
  intro m
  -- what only looks changes nothing, and of the others only two touch the files
  cases r with
  | checkAlive | readDir | readFile | stat => exact congrArg files (m.answer_of_looks rfl)
  | writeFile => exact absurd rfl (hwrite _ _ _)
  | removeFile => exact absurd rfl (hremove _)
  | connect =>
    rcases m.answer_connect with ⟨-, n, h⟩ | ⟨-, h⟩
    · exact (congrArg files h).trans rfl
    · exact (congrArg files h).trans rfl
  | createDir =>
    simp only [Memory.host, answer, answerLive]
    split
    · split <;> rfl
    · rfl
  | close => rfl

/-- Only making directories changes them. -/
theorem spares_directories {r : Request} (hcreate : ∀ path, r ≠ .createDir path) :
    Memory.host.Spares Memory.directories r := by
  intro m
  -- of the requests that change something, only making one touches the directories
  cases r with
  | checkAlive | readDir | readFile | stat => exact congrArg directories (m.answer_of_looks rfl)
  | createDir => exact absurd rfl (hcreate _)
  | connect =>
    rcases m.answer_connect with ⟨-, n, h⟩ | ⟨-, h⟩
    · exact (congrArg directories h).trans rfl
    · exact (congrArg directories h).trans rfl
  | writeFile | removeFile =>
    simp only [Memory.host, answer, answerLive]
    split
    · split <;> rfl
    · rfl
  | close => rfl

/-- Opening, checking and closing a session leaves all that is stored alone. -/
theorem spares_of_keepsHouse {r : Request} (h : Agent.KeepsHouse r) :
    Memory.host.Spares Memory.files r ∧ Memory.host.Spares Memory.directories r := by
  rcases h with rfl | rfl | rfl
  · exact ⟨spares_files (by simp) (by simp), spares_directories (by simp)⟩
  · exact ⟨spares_files (by simp) (by simp), spares_directories (by simp)⟩
  · exact ⟨spares_files (by simp) (by simp), spares_directories (by simp)⟩

end Memory

/-! ### Planned failures -/

namespace Scripted

theorem inner_nextPlanned (s : Scripted σ) (kind : RequestKind) :
    (s.nextPlanned kind).2.inner = s.inner := by
  rw [nextPlanned]
  split <;> rfl

/-- A request for which a failure is planned fails with it, and does not reach the host. -/
theorem answer_of_planned (inner : Host σ) {r : Request} {s : Scripted σ} {e : Error}
    (h : (s.nextPlanned r.kind).1 = some e) :
    ((Scripted.host inner).answer r s).1 = .error e ∧
      ((Scripted.host inner).answer r s).2.inner = s.inner := by
  have hinner := s.inner_nextPlanned r.kind
  rcases hnext : s.nextPlanned r.kind with ⟨planned, s'⟩
  rw [hnext] at h hinner
  subst h
  simp only [host, hnext]
  exact ⟨trivial, hinner⟩

/-- A request for which no failure is planned is answered by the host. -/
theorem answer_of_not_planned (inner : Host σ) {r : Request} {s : Scripted σ}
    (h : (s.nextPlanned r.kind).1 = none) :
    ((Scripted.host inner).answer r s).1 = (inner.answer r s.inner).1 ∧
      ((Scripted.host inner).answer r s).2.inner = (inner.answer r s.inner).2 := by
  have hinner := s.inner_nextPlanned r.kind
  rcases hnext : s.nextPlanned r.kind with ⟨planned, s'⟩
  rw [hnext] at h hinner
  subst h
  simp only [host, hnext]
  rw [hinner]
  exact ⟨rfl, rfl⟩

/-- A request fails as planned before it reaches the host, or the host answers it. -/
theorem answer_cases (inner : Host σ) (r : Request) (s : Scripted σ) :
    (∃ e, ((Scripted.host inner).answer r s).1 = .error e ∧
        ((Scripted.host inner).answer r s).2.inner = s.inner) ∨
      (((Scripted.host inner).answer r s).1 = (inner.answer r s.inner).1 ∧
        ((Scripted.host inner).answer r s).2.inner = (inner.answer r s.inner).2) := by
  cases hplanned : (s.nextPlanned r.kind).1 with
  | some e => exact Or.inl ⟨e, answer_of_planned inner hplanned⟩
  | none => exact Or.inr (answer_of_not_planned inner hplanned)

/-- What is planned next is the first step of the plan. -/
theorem fst_nextPlanned (s : Scripted σ) (kind : RequestKind) :
    (s.nextPlanned kind).1 = match s.plans.get? kind with
      | some (step :: _) => step
      | _ => none := by
  rw [nextPlanned]
  cases s.plans.get? kind with
  | none => rfl
  | some steps => cases steps <;> rfl

/-- A request uses up no plan but the one for its kind. -/
theorem spares_nextPlanned (inner : Host σ) {r : Request} {kind : RequestKind}
    (h : kind ≠ r.kind) : (Scripted.host inner).Spares (fun s => (s.nextPlanned kind).1) r := by
  intro s
  -- a request takes the next plan of its own kind only
  have hplans : ((Scripted.host inner).answer r s).2.plans = (s.nextPlanned r.kind).2.plans := by
    simp only [host]
    split <;> next hnext => rw [hnext]
  have hother : (s.nextPlanned r.kind).2.plans.get? kind = s.plans.get? kind := by
    rw [nextPlanned]
    split
    · rw [plan, Table.get?_put, if_neg h]
    · rfl
  simp only [fst_nextPlanned, hplans, hother]

/-- Planning failures does no more to a host. -/
theorem spares {inner : Host σ} {part : σ → τ} {r : Request} (h : inner.Spares part r) :
    (Scripted.host inner).Spares (fun s => part s.inner) r := by
  intro s
  rcases answer_cases inner r s with ⟨e, -, hinner⟩ | ⟨-, hinner⟩
  · exact congrArg part hinner
  · exact (congrArg part hinner).trans (h s.inner)

end Scripted

end AchCourier.Remote
