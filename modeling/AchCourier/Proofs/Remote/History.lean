import AchCourier.Proofs.Remote.Operations

/-!
# Histories of agents

The history of an agent is the list of its operations with what came of each.  It begins with an
agent that was made without a session, or with one whose first session was opened at once.

## Main definitions

* `Turn`, `Episode` — an operation to come, and one with what came of it.
* `Operation.deleted?` — the path that an operation is to delete.
* `deleteTurns` — deletions as turns of an agent.
* `Agent.play` — the episodes of a list of turns.
* `Created` — an agent before its first operation.
* `Courses` — episodes that lead from one standing to another.

## Main results

* `play_courses` — **every history is a list of courses.**
* `Created.settled` — an agent is settled from the beginning.
-/

namespace AchCourier.Remote

/-- An operation to come, and how host names are looked up meanwhile. -/
structure Turn where
  lookup : Net.Lookup
  operation : Operation

/-- The path of the file that the operation is to delete. -/
def Operation.deleted? : Operation → Option String
  | .delete path => some path
  | _ => none

/-- Deletions, one turn for each path. -/
def deleteTurns (lookup : Net.Lookup) (paths : List String) : List Turn :=
  paths.map fun path => ⟨lookup, .delete path⟩

/-- An operation with what came of it. -/
structure Episode where
  operation : Operation
  failure : Option Error
  /-- The calls that the operation made. -/
  calls : List Call
  deriving DecidableEq, Repr

namespace Agent

variable {σ : Type}

/-- One turn. -/
def episode (host : Host σ) (agent : Agent) (turn : Turn) (link : Link σ) : Episode × Link σ :=
  let (result, after) := (turn.operation.perform host turn.lookup agent).run link
  (⟨turn.operation, failureIn result, after.calls.drop link.calls.length⟩, after)

/-- One turn after another. -/
def play (host : Host σ) (agent : Agent) : List Turn → Link σ → List Episode × Link σ
  | [], link => ([], link)
  | turn :: turns, link =>
      let (e, mid) := agent.episode host turn link
      let (es, after) := agent.play host turns mid
      (e :: es, after)

/-- The turns before and those behind are played one after the other. -/
theorem play_append (host : Host σ) (agent : Agent) (before later : List Turn)
    (link : Link σ) :
    agent.play host (before ++ later) link =
      ((agent.play host before link).1 ++
          (agent.play host later (agent.play host before link).2).1,
        (agent.play host later (agent.play host before link).2).2) := by
  induction before generalizing link with
  | nil => rfl
  | cons turn before ih => simp only [List.cons_append, play, ih]

/-- A turn leads where its operation leads, which may have read something. -/
theorem episode_readFiles (host : Host σ) (agent : Agent) (lookup : Net.Lookup) (dir : String)
    (link : Link σ) :
    (agent.episode host ⟨lookup, .readFiles dir⟩ link).2 =
      ((agent.readFiles host lookup dir).run link).2 := by
  simp only [episode, Operation.perform, run_bind]
  rcases (agent.readFiles host lookup dir).run link with ⟨_ | _, after⟩ <;> rfl

/-- An agent before its first operation. -/
inductive Created (host : Host σ) (agent : Agent) : Link σ → Prop where
  /-- It has not dialed yet. -/
  | lazily (s : σ) (health : Health) : Created host agent { host := s, health }
  /-- Its first session was opened. -/
  | connected {lookup : Net.Lookup} {s : σ} {health : Health} {link : Link σ} :
      (agent.start host lookup).run { host := s, health } = (.ok (), link) →
      Created host agent link

end Agent

/-- An agent of a bank that has told nothing but its name. -/
def plainBank : Agent where
  settings := { id := "bank" }
  connector := { protocol := .memory, hostname := "bank" }

/-- Episodes that lead from one standing to another, each on one of the courses. -/
inductive Courses : Standing → List Episode → Standing → Prop where
  /-- Nothing was done. -/
  | nil (s : Standing) : Courses s [] s
  /-- One episode and then the others. -/
  | cons {s t u : Standing} {e : Episode} {es : List Episode} :
      Course e.operation s e.failure e.calls t → Courses t es u → Courses s (e :: es) u

namespace Courses

variable {s t : Standing}

theorem settled {es : List Episode} (h : Courses s es t) (hs : s.Settled) : t.Settled := by
  induction h with
  | nil => exact hs
  | cons hcourse _ ih => exact ih (hcourse.settled hs)

/-- The standings around an episode. -/
theorem split {before later : List Episode} {e : Episode}
    (h : Courses s (before ++ e :: later) t) :
    ∃ u v, Courses s before u ∧ Course e.operation u e.failure e.calls v ∧ Courses v later t := by
  induction before generalizing s with
  | nil =>
    cases h with
    | cons hcourse hlater => exact ⟨s, _, .nil s, hcourse, hlater⟩
  | cons first before ih =>
    cases h with
    | cons hcourse hrest =>
      obtain ⟨u, v, hbefore, he, hlater⟩ := ih hrest
      exact ⟨u, v, .cons hcourse hbefore, he, hlater⟩

end Courses

namespace Agent

variable {σ : Type} {host : Host σ} {agent : Agent}

/-- One turn is one course, and its calls are those of the episode. -/
theorem episode_course {link : Link σ} (hs : link.standing.Settled) (turn : Turn) :
    Course turn.operation link.standing (agent.episode host turn link).1.failure
        (agent.episode host turn link).1.calls (agent.episode host turn link).2.standing ∧
      (agent.episode host turn link).2.calls =
        link.calls ++ (agent.episode host turn link).1.calls := by
  rcases h : (turn.operation.perform host turn.lookup agent).run link with ⟨out, after⟩
  obtain ⟨new, s, hcourse, hleads⟩ := perform_course hs h
  have hnew : after.calls.drop link.calls.length = new := by
    rw [hleads.calls, List.drop_left]
  have hepisode : agent.episode host turn link = (⟨turn.operation, failureIn out, new⟩, after) := by
    simp only [episode, h, hnew]
  rw [hepisode, hleads.standing]
  exact ⟨hcourse, hleads.calls⟩

/-- **Every history is a list of courses**, and its calls are those of its episodes. -/
theorem play_courses (turns : List Turn) {link : Link σ} (hs : link.standing.Settled) :
    Courses link.standing (agent.play host turns link).1
        (agent.play host turns link).2.standing ∧
      (agent.play host turns link).2.calls =
        link.calls ++ (agent.play host turns link).1.flatMap Episode.calls := by
  induction turns generalizing link with
  | nil => exact ⟨.nil _, by simp [play]⟩
  | cons turn turns ih =>
    obtain ⟨hcourse, hcalls⟩ := episode_course hs turn
    obtain ⟨hcourses, hrest⟩ := ih (hcourse.settled hs)
    refine ⟨.cons hcourse hcourses, ?_⟩
    rw [play, List.flatMap_cons, ← List.append_assoc, ← hcalls]
    exact hrest

/-- Opening the first session is the beginning of an operation. -/
theorem start_run {lookup : Net.Lookup} {link after : Link σ}
    (h : (agent.start host lookup).run link = (.ok (), after)) :
    ∃ new s, Acquired link.standing new (.ok ()) s ∧ link.Leads new s after := by
  rcases run_tryCatch_cases h with ⟨_, hdo, -⟩ | ⟨_, _, -, hhandle⟩
  · rcases run_bind_cases hdo with ⟨_, mid, hacquire, hrecord⟩ | ⟨_, -, hout⟩
    · obtain ⟨-, rfl⟩ := Prod.mk.inj hrecord
      obtain ⟨new, s, hacquired, hleads⟩ := acquire_run hacquire
      exact ⟨new, s, hacquired, hleads.calls, hleads.standing⟩
    · cases hout
  · rw [run_bind, run_record] at hhandle
    cases (run_throw_inj hhandle).1

theorem settled_disconnected : Standing.Settled ⟨.disconnected, false, false⟩ :=
  ⟨by simp, by simp, by simp⟩

namespace Created

variable {link : Link σ} (h : Created host agent link)
include h

/-- An agent was made without a session or has opened one, and has made no other calls. -/
theorem opening :
    link.calls = [] ∧ link.standing = ⟨.disconnected, false, false⟩ ∨
      Opening false link.calls ∧ link.standing = ⟨.connected, true, true⟩ := by
  cases h with
  | lazily s health => exact Or.inl ⟨rfl, rfl⟩
  | connected hstart =>
    obtain ⟨new, s, hacquired, hleads⟩ := start_run hstart
    obtain ⟨hopening, rfl⟩ := hacquired.opening settled_disconnected
    rw [hleads.calls, List.nil_append]
    exact Or.inr ⟨hopening, hleads.standing⟩

theorem settled : link.standing.Settled := by
  rcases h.opening with ⟨-, hs⟩ | ⟨-, hs⟩ <;> rw [hs]
  · exact settled_disconnected
  · exact ⟨by simp, by simp, by simp⟩

end Created

end Agent

end AchCourier.Remote
