import Turnstile.Proofs.Runs.Attendance

/-!
# Limits that nobody can keep

A check under numbers that make no limit ends in its first step. Nothing but the outcome of the task
is changed by that step (`step?_of_refused`). Under all other numbers the call is counted by a task
of its own, which asks the store for exactly these numbers, and the check ends with a decision,
whatever the store does (`Attends.outcome_of_check`).
-/

namespace Turnstile

namespace Limit

/-- A number is not positive, or the window has more milliseconds than a signed number of sixty-four
bits can tell. -/
def Invalid (times seconds : Int) : Prop :=
  times < 1 ∨ seconds < 1 ∨ Text.maxI64 / 1000 < seconds

theorem ofInts_of_invalid {times seconds : Int} (h : Invalid times seconds) :
    ofInts times seconds = .error ⟨times, seconds⟩ := by
  unfold ofInts
  apply dif_neg
  rintro ⟨htimes, hseconds, hfits⟩
  simp only [Invalid, Text.maxI64] at h hfits
  omega

/-- The limit has the numbers that were given, and its window has no more milliseconds than fit. -/
theorem exists_ofInts {times seconds : Int} (h : ¬ Invalid times seconds) :
    ∃ limit, ofInts times seconds = .ok limit ∧ (limit.times : Int) = times ∧
      (limit.windowMs : Int) = seconds * 1000 ∧ seconds * 1000 ≤ Text.maxI64 := by
  have hfits : 0 < times ∧ 0 < seconds ∧ (seconds.toNat * 1000 : Nat) ≤ Text.maxI64 := by
    simp only [Invalid, Text.maxI64] at h ⊢
    omega
  refine ⟨_, dif_pos hfits, ?_, ?_, ?_⟩
  · exact Int.toNat_of_nonneg (by omega)
  · simp only [windowMs, msPerSecond]
    omega
  · omega

end Limit

/-- A task that is about a check under numbers that make no limit has yet to begin it. -/
theorem Stage.Serves.of_refused {stage : Stage} {identity service : String} {times seconds : Int}
    (serves : stage.Serves (.check identity service (some (times, seconds))))
    {e : InvalidLimit} (refused : Limit.ofInts times seconds = .error e) :
    stage = .fresh (.check identity service (some (times, seconds))) := by
  have ofGoal : ∀ {goal : Goal}, goal.job ≠ .check identity service (some (times, seconds)) := by
    intro goal hgoal
    cases goal <;> cases hgoal
  cases stage with
  | fresh job => exact congrArg Stage.fresh serves
  | awaiting c child =>
    -- nobody is charged for it
    obtain ⟨limit, charged⟩ := serves
    simp [Job.charge?, refused] at charged
  | queued | granted | probing | opening => exact absurd serves ofGoal
  | holding =>
    obtain ⟨_, _, hjob⟩ := serves
    cases hjob
  | sleeping =>
    obtain ⟨_, hjob⟩ := serves
    cases hjob
  | calling => rcases serves with ⟨hjob, -⟩ | hjob <;> cases hjob
  | done | cancelled => exact serves.elim
  | evaluating | verifying | joining | resting | sweeping => cases serves

namespace Limiter

variable {σ ε : Type} {W : Surroundings σ ε} {B : Backend σ} {s s' : Limiter σ}
  {t child : TaskId} {identity service : String} {times seconds : Int}

/-! ## Refused checks -/

/-- The check ends, and nothing else happens. -/
theorem step?_of_refused {task : Task} (hget : Table.get? s.tasks t = some task)
    (hs : task.stage = .fresh (.check identity service (some (times, seconds))))
    (refused : Limit.ofInts times seconds = .error ⟨times, seconds⟩) :
    ∃ ready, s.step? B t = some { s with
      tasks := Table.put s.tasks t (task.settled s.clock (.error (.limit ⟨times, seconds⟩))),
      ready } := by
  obtain ⟨ready, heq⟩ := settle_eq hget (.error (.limit ⟨times, seconds⟩))
  have hstage := stage?_of_get? hget
  rw [hs] at hstage
  refine ⟨ready, ?_⟩
  simp only [step?, hstage, begin, refused]
  rw [heq]

/-- A step that ends a check ends it with an error if its numbers make no limit, and with a decision
if they do. -/
theorem Attends.outcome_of_check {jobs rest : List Job} {past : List (Job × Outcome)} {o : Outcome}
    (tidy : Tidy s)
    (h : s.Attends t jobs past (.check identity service (some (times, seconds)) :: rest))
    (step : s.step? W.backend t = some s')
    (ended : s'.Does t jobs
      (past ++ [(.check identity service (some (times, seconds)), o)]) rest) :
    (Limit.Invalid times seconds → o = .error (.limit ⟨times, seconds⟩)) ∧
    (¬ Limit.Invalid times seconds → ∃ d, o = .ok (.decision d)) := by
  obtain ⟨task, hget, -, leaves⟩ := id h.does.entry
  have houtcome : s'.outcomes t = s.outcomes t ++ [o] := by
    rw [ended.outcomes, h.does.outcomes, List.map_append]
    rfl
  constructor
  · intro invalid
    have refused := Limit.ofInts_of_invalid invalid
    obtain ⟨stage, jobs', outcomes⟩ := task
    cases leaves with
    | cancelled => simp [step?, stage?_of_get? hget] at step
    | busy serves =>
      obtain rfl := serves.of_refused refused
      obtain ⟨ready, heq⟩ := step?_of_refused (B := W.backend) hget rfl refused
      rw [heq] at step
      obtain rfl := Option.some.inj step
      simpa [Limiter.outcomes, hget, eq_comm] using houtcome
  · intro valid
    obtain ⟨limit, hlimit, -⟩ := Limit.exists_ofInts valid
    have charged : (Job.check identity service (some (times, seconds))).charge? =
        some (⟨identity, service, none⟩, limit) := by
      simp only [Job.charge?, hlimit]
    obtain ⟨child, hs⟩ := h.awaiting_of_ended tidy charged step ended
    obtain ⟨d, -, htold⟩ := concluded_of_awaiting hget hs step
    rw [houtcome, List.append_cancel_left_eq] at htold
    exact ⟨d, List.singleton_inj.mp htold⟩

/-! ## What the store is asked for -/

/-- A task that counts a call asks the store for the key, the number of calls and the window of the
charge. -/
theorem CountsFor.command {c : Charge} {limit : Limit} (tidy : Tidy s) (h : s.CountsFor t c limit)
    {e : Evaluation} {attempt : Nat} {lease : Lease} {call : Call}
    (hs : s.stage? t = some (.evaluating e attempt lease call)) :
    call.command = .count (counterKey c.identity c.service) limit.times limit.windowMs := by
  obtain ⟨past, left, does⟩ := h
  obtain ⟨job, hjob, serves⟩ := does.exists_serves hs rfl
  rw [List.mem_singleton] at hjob
  subst hjob
  obtain ⟨-, hcommand⟩ := tidy.proper t _ hs
  have he : Job.evaluate e = .evaluate (c.evaluation limit) := serves
  rw [hcommand, Job.evaluate.inj he]
  rfl

/-- A task that is charged is counted for by the next new one. -/
theorem countsFor_charge {c : Charge} {limit : Limit} (returned : Returned (s.charge t c limit))
    (ht : t ≠ s.nextTask) : (s.charge t c limit).CountsFor s.nextTask c limit :=
  ⟨[], _, .of_begun returned (get?_charge_child ht c limit)⟩

/-- A check under numbers that make a limit has the call counted by the next new task, and that
task asks the store for these numbers, however the run goes on. -/
theorem Attended.step?_of_valid (h : Attended s)
    (asked : s.stage? t = some (.fresh (.check identity service (some (times, seconds)))))
    {limit : Limit} (hlimit : Limit.ofInts times seconds = .ok limit) :
    ∃ s', s.step? W.backend t = some s' ∧
      s'.stage? t = some (.awaiting ⟨identity, service, none⟩ s.nextTask) ∧
      ∀ more : List (Move ε),
        (∀ e attempt lease call,
          (s'.run W more).stage? s.nextTask = some (.evaluating e attempt lease call) →
          call.command = .count (counterKey identity service) limit.times limit.windowMs) ∧
        ∀ count ∈ (s'.run W more).countsOf s.nextTask, count.key = counterKey identity service ∧
          count.limit = limit.times ∧ count.windowMs = limit.windowMs := by
  have ht : t ≠ s.nextTask := by
    rintro rfl
    exact h.returned.tidy.nextTask_not_mem (mem_keys_of_stage? asked)
  have hstep : s.step? W.backend t = some (s.charge t ⟨identity, service, none⟩ limit) := by
    simp only [step?, asked, begin, hlimit]
  obtain ⟨task, hget, -⟩ := Option.map_eq_some_iff.mp asked
  have returned' : Returned (s.charge t ⟨identity, service, none⟩ limit) :=
    (Returned.invariant W).step? h.returned hstep
  refine ⟨_, hstep, stage?_of_get? (get?_charge_self ht hget ..), fun more => ?_⟩
  have counts := (countsFor_charge returned' ht).run (W := W) returned' more
  have tidy := ((Returned.invariant W).run returned' more).tidy
  constructor
  · intro e attempt lease call hs
    exact counts.command tidy hs
  · intro count hcount
    exact (counts.eq_of_mem hcount).2

/-! ## Every state that a run leads to -/

/-- A check that a task is about to begin, in any state that a run leads to, ends with an error if
and only if its numbers make no limit, and the error has these numbers. Then it ends in the next
step, which leaves everything but the task as it was: the store, the pool, the connections, the
totals and metrics, the flag, the clock and the journal. Otherwise the next step has a task count
the call, and whatever happens that task asks the store for the given number of calls in a window
of the given seconds, which fits into a signed number of sixty-four bits. -/
theorem check_refused_iff (W : Surroundings σ ε) (backend : σ) (settings : PoolSettings)
    (moves : List (Move ε)) {t : TaskId} {identity service : String} {times seconds : Int}
    (asked : ((Limiter.fresh backend settings).run W moves).stage? t =
      some (.fresh (.check identity service (some (times, seconds))))) :
    let s := (Limiter.fresh backend settings).run W moves
    (∀ (more : List (Move ε)) (o : Outcome),
      ((s.run W more).outcomes t)[(s.outcomes t).length]? = some o →
      ((∃ f, o = .error f) ↔ Limit.Invalid times seconds) ∧
        ∀ f, o = .error f → f = .limit ⟨times, seconds⟩) ∧
    (Limit.Invalid times seconds → ∃ task ready, Table.get? s.tasks t = some task ∧
      s.step? W.backend t = some { s with
        tasks := Table.put s.tasks t (task.settled s.clock (.error (.limit ⟨times, seconds⟩))),
        ready }) ∧
    (¬ Limit.Invalid times seconds → ∃ limit windowMs : Nat, (limit : Int) = times ∧
      (windowMs : Int) = seconds * 1000 ∧ seconds * 1000 ≤ Text.maxI64 ∧
      ∃ s', s.step? W.backend t = some s' ∧
        s'.stage? t = some (.awaiting ⟨identity, service, none⟩ s.nextTask) ∧
        ∀ more : List (Move ε),
          (∀ e attempt lease call,
            (s'.run W more).stage? s.nextTask = some (.evaluating e attempt lease call) →
            call.command = .count (counterKey identity service) limit windowMs) ∧
          ∀ count ∈ (s'.run W more).countsOf s.nextTask, count.key = counterKey identity service ∧
            count.limit = limit ∧ count.windowMs = windowMs) := by
  intro s
  have attended : Attended s := attended_run W backend settings moves
  refine ⟨?_, ?_, ?_⟩
  · intro more o ended
    obtain ⟨jobs, past, rest, attends⟩ := attended.exists_attends asked
    obtain ⟨before, hbefore, hstep, hafter⟩ := attends.exists_step attended.returned more ended
    have tidy := ((Returned.invariant W).run attended.returned before).tidy
    obtain ⟨invalid, valid⟩ := hbefore.outcome_of_check tidy hstep hafter.does
    by_cases hinvalid : Limit.Invalid times seconds
    · obtain rfl := invalid hinvalid
      exact ⟨iff_of_true ⟨_, rfl⟩ hinvalid, fun f hf => (Except.error.inj hf).symm⟩
    · obtain ⟨d, rfl⟩ := valid hinvalid
      have hok : ∀ f : Failure, (.ok (.decision d) : Outcome) ≠ .error f := nofun
      exact ⟨iff_of_false (fun ⟨f, hf⟩ => hok f hf) hinvalid, fun f hf => absurd hf (hok f)⟩
  · intro invalid
    obtain ⟨task, hget, hs⟩ := Option.map_eq_some_iff.mp asked
    obtain ⟨ready, hstep⟩ :=
      step?_of_refused (B := W.backend) hget hs (Limit.ofInts_of_invalid invalid)
    exact ⟨task, ready, hget, hstep⟩
  · intro valid
    obtain ⟨limit, hlimit, htimes, hwindow, hfits⟩ := Limit.exists_ofInts valid
    exact ⟨limit.times, limit.windowMs, htimes, hwindow, hfits,
      attended.step?_of_valid asked hlimit⟩

end Limiter

namespace Memory

/-- The longest window is asked for in the store, and one that is a second longer is refused. -/
theorem check_refused_iff_longestWindow :
    let longest := (Limiter.fresh fresh .standard).run surroundings
      [.start [.check "u" "svc" (some (1, 9223372036854775))]]
    let longer := (Limiter.fresh fresh .standard).run surroundings
      [.start [.check "u" "svc" (some (1, 9223372036854776))]]
    (longest.stage? 0 = some (.fresh (.check "u" "svc" (some (1, 9223372036854775)))) ∧
      longer.stage? 0 = some (.fresh (.check "u" "svc" (some (1, 9223372036854776))))) ∧
    (∃ f, (longer.run surroundings [.step 0]).outcomes 0 = [.error f] ∧
      f = .limit ⟨1, 9223372036854776⟩ ∧ Limit.Invalid 1 9223372036854776) ∧
    (∃ task ready, Table.get? longer.tasks 0 = some task ∧
      longer.step? backend 0 = some { longer with
        tasks := Table.put longer.tasks 0
          (task.settled longer.clock (.error (.limit ⟨1, 9223372036854776⟩))),
        ready }) ∧
    ∃ s', longest.step? backend 0 = some s' ∧
      ∃ e attempt lease call, (s'.run surroundings [.step 1, .step 1]).stage? 1 =
        some (.evaluating e attempt lease call) ∧
        call.command = .count "rl:u:svc" 1 9223372036854775000 := by
  intro longest longer
  have invalid : Limit.Invalid 1 9223372036854776 := by
    unfold Limit.Invalid
    decide
  have valid : ¬ Limit.Invalid 1 9223372036854775 := by
    unfold Limit.Invalid
    decide
  have asked : longest.stage? 0 =
    some (.fresh (.check "u" "svc" (some (1, 9223372036854775)))) := rfl
  have asked' : longer.stage? 0 =
    some (.fresh (.check "u" "svc" (some (1, 9223372036854776)))) := rfl
  have hcounted := Limiter.check_refused_iff surroundings fresh .standard
    [.start [.check "u" "svc" (some (1, 9223372036854775))]] asked
  have hrefused := Limiter.check_refused_iff surroundings fresh .standard
    [.start [.check "u" "svc" (some (1, 9223372036854776))]] asked'
  have houtcome : (longer.run surroundings [.step 0]).outcomes 0 =
      [.error (.limit ⟨1, 9223372036854776⟩)] := by
    decide +kernel
  have hfirst := hrefused.1 [.step 0] (.error (.limit ⟨1, 9223372036854776⟩))
    (by rw [houtcome]; rfl)
  obtain ⟨limit, windowMs, hlimit, hwindow, -, s', hstep, -, hmore⟩ := hcounted.2.2 valid
  refine ⟨⟨asked, asked'⟩, ⟨_, houtcome, hfirst.2 _ rfl, hfirst.1.mp ⟨_, rfl⟩⟩,
    hrefused.2.1 invalid, s', hstep, ?_⟩
  obtain rfl : limit = 1 := by omega
  obtain rfl : windowMs = 9223372036854775000 := by omega
  obtain rfl := Option.some.inj hstep
  exact ⟨_, _, _, _, rfl, (hmore [.step 1, .step 1]).1 _ _ _ _ rfl⟩

end Memory

end Turnstile
