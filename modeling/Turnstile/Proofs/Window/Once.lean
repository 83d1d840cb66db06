import Turnstile.Proofs.Runs.Courses
import Turnstile.Proofs.Window.Admission

/-!
# Counted once

An attempt to count a call may come too late, be tried again on another connection, or be cut off
with its task. Whatever happens, a call for which the store's verdict has come back has been counted
once, and a call for which a fault has come back, or nothing yet, has not been counted at all
(`Memory.counted_once`). For the store counts a call in the very step in which its answer ends the
job: there is no moment between the two at which the task could be timed out or cancelled.
-/

namespace Turnstile

/-- An evaluation has a receipt exactly if a verdict has come back. -/
theorem Job.receipt_of_evaluate {e : Evaluation} {o : Outcome}
    (h : (Job.evaluate e).yields o = true) :
    (∃ v, o = .ok (.verdict v) ∧
      (Job.evaluate e).receipt? o = some ⟨e.key, e.limit, e.windowMs, v⟩) ∨
    ∃ f, o = .error (.fault f) ∧ (Job.evaluate e).receipt? o = none := by
  rcases eq_of_yields_evaluate h with ⟨v, rfl⟩ | ⟨f, rfl⟩
  · exact .inl ⟨v, rfl, rfl⟩
  · exact .inr ⟨f, rfl, rfl⟩

namespace Memory

/-- In every run, take a task that was to do some jobs and look at it at any later time. The calls
that the store has counted for it are those of the jobs that have ended, one for each receipt and in
their order. An evaluation that has ended with a verdict has the receipt for its call; one that has
ended with a fault has none, and neither has a job that has not ended, be it because the task was
cancelled or because it is still under way. And what the store has counted is all that its windows
are made of. -/
theorem counted_once (settings : PoolSettings) (moves more : List (Move MemoryChange))
    {t : TaskId} {now : Time} {jobs : List Job}
    (begun : Table.get? ((Limiter.fresh fresh settings).run surroundings moves).tasks t =
      some (.ofJobs now jobs)) :
    let s := ((Limiter.fresh fresh settings).run surroundings moves).run surroundings more
    (s.countsOf t).map Counted.receipt =
        (jobs.zip (s.outcomes t)).filterMap (fun p => p.1.receipt? p.2) ∧
      (s.outcomes t).length ≤ jobs.length ∧
      (∀ e o, (.evaluate e, o) ∈ jobs.zip (s.outcomes t) →
        (∃ v, o = .ok (.verdict v) ∧
          (Job.evaluate e).receipt? o = some ⟨e.key, e.limit, e.windowMs, v⟩) ∨
        ∃ f, o = .error (.fault f) ∧ (Job.evaluate e).receipt? o = none) ∧
      s.backend.store.Agrees s.history s.clock := by
  intro s
  have returned : Limiter.Returned ((Limiter.fresh fresh settings).run surroundings moves) :=
    (Limiter.Returned.invariant surroundings).run (.fresh fresh settings) moves
  obtain ⟨past, left, attends, -⟩ :=
    (Limiter.Attends.of_begun returned begun).run (W := surroundings) returned more
  have does : s.Does t jobs past left := attends.does
  have counting : Limiter.Counting s := by
    have whole := Limiter.Counting.invariant.run (.fresh settings) (moves ++ more)
    rwa [Limiter.run_append] at whole
  refine ⟨?_, ?_, fun e o ho => ?_, counting.agrees⟩
  · rw [← does.past_eq_zip]
    exact does.receipts
  · rw [does.outcomes, does.parts]
    simp
  · rw [← does.past_eq_zip] at ho
    exact Job.receipt_of_evaluate (does.yields _ ho)

/-- Four calls on one key. The first attempt at the first call comes too late, and the second one is
answered at the very end of the patience. The next call is cut off while the store is at it. The
last two find a store that is out of reach. -/
def troubledCalls : List (Move MemoryChange) :=
  let call : Job := .evaluate ⟨"k", 1, 60000⟩
  [.tend (.turn (.latency 6000000)), .step 0, .step 0, .pass 5000000,
    .tend (.turn (.latency 5000000)), .step 0, .step 0, .start [call], .step 1, .step 1,
    .pass 1000000, .cancel 1, .pass 4000000, .step 0, .tend (.turn (.reachable false)),
    .start [call], .step 2, .step 2, .step 0, .pass 5000000, .step 0]

theorem counted_once_troubledCalls :
    let calls : List Job := [.evaluate ⟨"k", 1, 60000⟩, .evaluate ⟨"k", 1, 60000⟩]
    let s := (Limiter.fresh fresh .standard).run surroundings [.start calls]
    let s' := s.run surroundings troubledCalls
    Table.get? s.tasks 0 = some (.ofJobs 0 calls) ∧
      s'.outcomes 0 = [.ok (.verdict .admitted), .error (.fault refused)] ∧
      (s'.countsOf 0).map Counted.receipt = [⟨"k", 1, 60000, .admitted⟩] ∧
      s'.countsOf 1 = [] ∧ s'.countsOf 2 = [] ∧
      s'.backend.store.counter? s'.clock "k" = some 1 := by
  intro calls s s'
  have houtcomes : s'.outcomes 0 = [.ok (.verdict .admitted), .error (.fault refused)] := by
    decide +kernel
  have begun : Table.get? s.tasks 0 = some (.ofJobs 0 calls) := rfl
  obtain ⟨hcounts, -⟩ := counted_once .standard [.start calls] troubledCalls begun
  have hcounts : (s'.countsOf 0).map Counted.receipt =
      (calls.zip (s'.outcomes 0)).filterMap (fun p => p.1.receipt? p.2) := hcounts
  rw [houtcomes] at hcounts
  exact ⟨begun, houtcomes, hcounts, by decide +kernel, by decide +kernel, by decide +kernel⟩

end Memory

end Turnstile
