import Turnstile.Proofs.Abort.View

/-!
# Steps seen without some tasks

A step of a task that is not hidden passes through the view (`view_step?`), as long as the task does
not wait for a hidden one. So limiters that look the same still look the same after it, and the same
goes for the cancelling of such a task (`view_cancel`).
-/

namespace Turnstile

namespace Limiter

variable {σ ε : Type} {B : Backend σ} {hidden : List TaskId} {t : TaskId}

/-! ## Getting a connection -/

@[simp] theorem view_record (s : Limiter σ) (t child : TaskId) (service : String) (d : Decision) :
    (s.record t child service d).view hidden =
      if t ∈ hidden then s.view hidden else (s.view hidden).emit (.decided t child service d) := by
  have htally : ({ s with totals := s.totals.add d }.tally (.ofDecision service d)).view hidden =
      s.view hidden := by
    refine view_tally_of_not ?_ _
    cases d <;> rfl
  unfold record
  split
  · rw [view_emit_of_not (by simpa [Event.isSeen] using ‹t ∈ hidden›), htally]
  · rw [view_emit (by simpa [Event.isSeen] using ‹t ∉ hidden›), htally]

/-- Of deciding only the decision itself is seen, if the task that decides is. -/
@[simp] theorem view_decideOn (s : Limiter σ) (t child : TaskId) (c : Charge)
    (outcome : Except Fault Verdict) :
    (s.decideOn t child c outcome).1.view hidden =
      if t ∈ hidden then s.view hidden
      else (s.view hidden).emit (.decided t child c.service (s.decideOn t child c outcome).2) := by
  cases outcome with
  | ok v =>
    cases v with
    | admitted =>
      refine (view_record s.clear.1 t child c.service .admitted).trans ?_
      rw [view_clear]
      rfl
    | blocked ms =>
      refine (view_emit_of_not rfl _).trans ((view_record s.clear.1 t child c.service _).trans ?_)
      rw [view_clear]
      rfl
  | error f =>
    refine (view_record ((s.emit (.checkFailed c.service f)).raise f.message).1 t child c.service
      .degraded).trans ?_
    rw [view_raise, view_emit_of_not rfl]
    rfl

@[simp] theorem bare_answerTo (call : Call) (reply : Reply) :
    Outcome.bare (answerTo call reply) = answerTo call reply := by
  cases reply with
  | error f => rfl
  | ok ms => cases hc : call.command <;> simp [answerTo, hc, Outcome.bare]

end Limiter

end Turnstile
