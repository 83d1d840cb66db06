import Turnstile.Proofs.Runs.Announced

/-!
# The books balance

Whoever watches a run and sees each move before it is made (`seen`) knows which tasks are started,
which attempts to count a call end, and which decisions are come to. After every run of a fresh
limiter the totals, the metrics and the error lines of the journal agree with what was seen
(`Reconciled`). The decisions are those that the jobs of the started tasks have ended with, one for
each job that had somebody charged and has ended: a job that was cut off by a cancellation has no
outcome, and a check whose limit is refused has nobody charged.
-/

namespace Turnstile

/-! ## Kinds of decisions -/

namespace Decision

/-- A decision without the number that it may have in it. -/
inductive Kind where
  | allowed
  | rejected
  | degraded
deriving DecidableEq, Repr

def kind : Decision → Kind
  | .admitted => .allowed
  | .rejected _ => .rejected
  | .degraded => .degraded

namespace Kind

/-- The name under which decisions of the kind are counted. -/
def counter : Kind → String
  | .allowed => "ratelimiter_allowed_total"
  | .rejected => "ratelimiter_rejected_total"
  | .degraded => "ratelimiter_degraded_total"

def metric (service : String) : Kind → Metric
  | .allowed => .allowed service
  | .rejected => .rejected service
  | .degraded => .degraded service

theorem metric_inj {k k' : Kind} {a b : String} : k.metric a = k'.metric b ↔ a = b ∧ k = k' := by
  cases k <;> cases k' <;> simp [metric]

theorem name_metric_eq {k k' : Kind} {service : String} :
    (k.metric service).name = k'.counter ↔ k = k' := by
  cases k <;> cases k' <;> simp [metric, Metric.name, counter]

end Kind

end Decision

theorem Decided.metric_eq (d : Decided) : d.metric = d.decision.kind.metric d.service := by
  obtain ⟨task, child, service, decision⟩ := d
  cases decision <;> rfl

/-- The total of a kind. -/
def Totals.of (t : Totals) : Decision.Kind → Nat
  | .allowed => t.allowed
  | .rejected => t.rejected
  | .degraded => t.degraded

theorem Totals.of_add (t : Totals) (d : Decision) (kind : Decision.Kind) :
    (t.add d).of kind = t.of kind + if d.kind = kind then 1 else 0 := by
  cases d <;> cases kind <;> rfl

/-! ## Error lines -/

/-- What is logged as an error about a check that failed. -/
def Event.failedCheck? (e : Event) : Option String :=
  match e.log? with
  | some (.error, text) =>
    if "Rate limiting check failed".toList <+: text.toList then some text else none
  | _ => none

theorem Event.failedCheck?_checkFailed (service : String) (f : Fault) :
    ∃ text, (Event.checkFailed service f).failedCheck? = some text := by
  refine ⟨_, if_pos ?_⟩
  simp only [String.toList_append, List.append_assoc]
  exact (by decide : "Rate limiting check failed".toList <+:
    "Rate limiting check failed for ".toList).trans (List.prefix_append ..)

theorem Event.failedCheck?_of_not_isSignal {e : Event} (h : e.isSignal = false) :
    e.failedCheck? = none := by
  cases e <;> first | rfl | cases h

namespace Limiter

variable {σ ε α : Type} {W : Surroundings σ ε} {s s' : Limiter σ} {t : TaskId}

/-- The error lines about checks that failed, the first one in front. -/
def failedChecks (s : Limiter σ) : List String := s.journal.reverse.filterMap Event.failedCheck?

theorem failedChecks_emit (s : Limiter σ) (e : Event) :
    (s.emit e).failedChecks = s.failedChecks ++ e.failedCheck?.toList := by
  cases he : e.failedCheck? <;> simp [failedChecks, emit, List.filterMap_append, he]

theorem failedChecks_raise (s : Limiter σ) (reason : String) :
    (s.raise reason).1.failedChecks = s.failedChecks :=
  filterMap_raise (fun _ => rfl) s reason

theorem failedChecks_clear (s : Limiter σ) : s.clear.1.failedChecks = s.failedChecks :=
  filterMap_clear rfl s

theorem Silent.failedChecks (h : Silent s s') : s'.failedChecks = s.failedChecks := by
  obtain ⟨recent, hjournal, hnone⟩ := h.journal
  have hrecent : recent.filterMap Event.failedCheck? = [] := by
    rw [List.filterMap_eq_nil_iff]
    intro e he
    exact Event.failedCheck?_of_not_isSignal (hnone e he)
  simp [Limiter.failedChecks, hjournal, List.filterMap_append, List.filterMap_reverse, hrecent]

theorem failedChecks_record (s : Limiter σ) (t child : TaskId) (service : String) (d : Decision) :
    (s.record t child service d).failedChecks = s.failedChecks :=
  (failedChecks_emit _ (.decided t child service d)).trans (List.append_nil _)

/-- Deciding without a verdict, and nothing else, is logged as an error. -/
theorem failedChecks_decideOn (s : Limiter σ) (t child : TaskId) (c : Charge)
    (outcome : Except Fault Verdict) :
    (s.decideOn t child c outcome).1.failedChecks.length = s.failedChecks.length +
      if (Decision.ofOutcome outcome).kind = .degraded then 1 else 0 := by
  cases outcome with
  | ok v =>
    cases v with
    | admitted =>
      exact congrArg List.length ((failedChecks_record ..).trans (failedChecks_clear s))
    | blocked ms =>
      have hhit := (failedChecks_emit (s.clear.1.record t child c.service
        (.rejected (Verdict.retryAfterSeconds ms))) (.limitHit c.identity c.service
        (Verdict.retryAfterSeconds ms))).trans (List.append_nil _)
      exact congrArg List.length
        (hhit.trans ((failedChecks_record ..).trans (failedChecks_clear s)))
  | error f =>
    obtain ⟨text, htext⟩ := Event.failedCheck?_checkFailed c.service f
    have hlines : (s.decideOn t child c (.error f)).1.failedChecks = s.failedChecks ++ [text] := by
      refine (failedChecks_record ..).trans ((failedChecks_raise ..).trans ?_)
      rw [failedChecks_emit, htext]
      rfl
    rw [hlines, List.length_append]
    rfl

/-! ## What a move does to the books -/

/-- What a move does to the totals and to the error lines. -/
inductive Deciding (W : Surroundings σ ε) (s : Limiter σ) (m : Move ε) : Prop where
  /-- No decision is come to. -/
  | undecided (unseen : s.decided? m = none) (totals : (s.move W m).totals = s.totals)
    (failedChecks : (s.move W m).failedChecks = s.failedChecks)
  | decided {t child : TaskId} {c : Charge} {outcome : Except Fault Verdict}
    (seen : s.decided? m = some ⟨t, child, c.service, .ofOutcome outcome⟩)
    (after : Silent (s.decideOn t child c outcome).1 (s.move W m))

theorem deciding_move (W : Surroundings σ ε) (tidy : Tidy s) (m : Move ε) : Deciding W s m := by
  cases hd : s.decided? m with
  | some d =>
    obtain ⟨t, c, child, rfl, hs, ended, rfl⟩ := eq_of_decided? hd
    apply Deciding.decided hd
    simp only [move, step?, hs, if_pos ended]
    exact .settle ..
  | none =>
    cases hm : m.isClear with
    | true =>
      cases m with
      | clear => exact .undecided hd rfl (failedChecks_clear s)
      | _ => cases hm
    | false =>
      cases signalled_move W tidy hm with
      | silent quiet => exact .undecided hd quiet.totals quiet.failedChecks
      | raised reason before after =>
        exact .undecided hd (after.totals.trans before.totals)
          (after.failedChecks.trans ((failedChecks_raise ..).trans before.failedChecks))
      | opened conn before told after =>
        exact .undecided hd (after.totals.trans before.totals)
          (after.failedChecks.trans ((failedChecks_clear _).trans before.failedChecks))
      | decided t child c ended after own waiting =>
        -- this would have been seen
        obtain rfl := Move.eq_step own
        simp [decided?, waiting, ended] at hd

/-! ## What a run does to the books -/

/-- A number that every move raises by what is seen of it is raised by a run by what is seen
of that. -/
theorem add_seen (μ : Limiter σ → Nat) {look : Limiter σ → Move ε → Option α} {p : α → Bool}
    (hmove : ∀ s m, Tidy s → μ (s.move W m) = μ s + (look s m).toList.countP p) (tidy : Tidy s)
    (moves : List (Move ε)) : μ (s.run W moves) = μ s + (s.seen W look moves).countP p := by
  induction moves generalizing s with
  | nil => rfl
  | cons m moves ih =>
    have hrun := ih ((Tidy.invariant W).move tidy m)
    rw [seen, List.countP_append]
    show μ ((s.move W m).run W moves) = _
    rw [hrun, hmove s m tidy]
    omega

theorem totals_move (W : Surroundings σ ε) (tidy : Tidy s) (m : Move ε) (kind : Decision.Kind) :
    (s.move W m).totals.of kind =
      s.totals.of kind + (s.decided? m).toList.countP (·.decision.kind = kind) := by
  cases deciding_move W tidy m with
  | undecided unseen totals _ => simp [unseen, totals]
  | decided seen after =>
    simp [after.totals, decision_decideOn_eq, Totals.of_add, seen, List.countP_cons]

theorem failedChecks_move (W : Surroundings σ ε) (tidy : Tidy s) (m : Move ε) :
    (s.move W m).failedChecks.length =
      s.failedChecks.length + (s.decided? m).toList.countP (·.decision.kind = .degraded) := by
  cases deciding_move W tidy m with
  | undecided unseen _ failedChecks => simp [unseen, failedChecks]
  | decided seen after =>
    rw [after.failedChecks, failedChecks_decideOn, seen]
    simp [List.countP_cons]

/-- What a move adds to the metric of a kind and a service. -/
theorem label_move (W : Surroundings σ ε) (s : Limiter σ) (m : Move ε) (kind : Decision.Kind)
    (service : String) : (s.move W m).metrics.value (kind.metric service) =
      s.metrics.value (kind.metric service) +
        (s.decided? m).toList.countP fun d => d.service = service && d.decision.kind = kind := by
  have hcommands : [Metric.commands, .durations].countP (· == kind.metric service) = 0 := by
    cases kind <;> rfl
  have hdecided : ∀ d : Decided, (d.metric == kind.metric service) =
      (decide (d.service = service) && decide (d.decision.kind = kind)) := by
    intro d
    show decide (d.metric = kind.metric service) = _
    rw [← Bool.decide_and, Decided.metric_eq]
    exact decide_eq_decide.mpr Decision.Kind.metric_inj
  rw [metrics_move, Metrics.value_foldl_bump, List.count, countP_metered, hcommands]
  simp only [hdecided, Nat.mul_zero, Nat.zero_add]

/-- What a move adds to all the metrics of a kind together. -/
theorem sum_move (W : Surroundings σ ε) (s : Limiter σ) (m : Move ε) (kind : Decision.Kind) :
    (s.move W m).metrics.sumOf kind.counter =
      s.metrics.sumOf kind.counter + (s.decided? m).toList.countP (·.decision.kind = kind) := by
  have hcommands : [Metric.commands, .durations].countP (·.name = kind.counter) = 0 := by
    cases kind <;> rfl
  rw [metrics_move, Metrics.sumOf_foldl_bump, countP_metered, hcommands]
  simp only [Decided.metric_eq, Decision.Kind.name_metric_eq, Nat.mul_zero, Nat.zero_add]

/-- An attempt that ends is one command more and one duration more. -/
theorem commands_move (W : Surroundings σ ε) (s : Limiter σ) (m : Move ε) {metric : Metric}
    (which : metric = .commands ∨ metric = .durations) : (s.move W m).metrics.value metric =
      s.metrics.value metric + (s.attempt? W m).toList.countP fun _ => true := by
  have hcommands : [Metric.commands, .durations].countP (· == metric) = 1 := by
    rcases which with rfl | rfl <;> rfl
  have hdecided : ∀ d : Decided, (d.metric == metric) = false := by
    intro d
    rw [Decided.metric_eq]
    rcases which with rfl | rfl <;> cases d.decision.kind <;> rfl
  rw [metrics_move, Metrics.value_foldl_bump, List.count, countP_metered, hcommands,
    List.countP_true]
  simp [hdecided]

/-! ## The books after a run -/

section

variable (W : Surroundings σ ε) (backend : σ) (settings : PoolSettings) (moves : List (Move ε))

theorem totals_run (kind : Decision.Kind) :
    ((Limiter.fresh backend settings).run W moves).totals.of kind =
      ((Limiter.fresh backend settings).seen W decided? moves).countP (·.decision.kind = kind) := by
  have hfresh : (Limiter.fresh backend settings).totals.of kind = 0 := by cases kind <;> rfl
  rw [add_seen (·.totals.of kind) (fun s m tidy => totals_move W tidy m kind)
    (.fresh backend settings) moves, hfresh, Nat.zero_add]

theorem failedChecks_run : ((Limiter.fresh backend settings).run W moves).failedChecks.length =
    ((Limiter.fresh backend settings).seen W decided? moves).countP
      (·.decision.kind = .degraded) := by
  rw [add_seen (·.failedChecks.length) (fun s m tidy => failedChecks_move W tidy m)
    (.fresh backend settings) moves]
  exact Nat.zero_add _

theorem label_run (kind : Decision.Kind) (service : String) :
    ((Limiter.fresh backend settings).run W moves).metrics.value (kind.metric service) =
      ((Limiter.fresh backend settings).seen W decided? moves).countP
        fun d => d.service = service && d.decision.kind = kind := by
  rw [add_seen (·.metrics.value (kind.metric service))
    (fun s m _ => label_move W s m kind service) (.fresh backend settings) moves]
  exact Nat.zero_add _

theorem sum_run (kind : Decision.Kind) :
    ((Limiter.fresh backend settings).run W moves).metrics.sumOf kind.counter =
      ((Limiter.fresh backend settings).seen W decided? moves).countP (·.decision.kind = kind) := by
  rw [add_seen (·.metrics.sumOf kind.counter) (fun s m _ => sum_move W s m kind)
    (.fresh backend settings) moves]
  exact Nat.zero_add _

theorem commands_run {metric : Metric} (which : metric = .commands ∨ metric = .durations) :
    ((Limiter.fresh backend settings).run W moves).metrics.value metric =
      ((Limiter.fresh backend settings).seen W (attempt? W) moves).length := by
  rw [add_seen (·.metrics.value metric) (fun s m _ => commands_move W s m which)
    (.fresh backend settings) moves, List.countP_true]
  exact Nat.zero_add _

end

/-- The books of a limiter agree with what was seen of its run: the tasks that were started with
their jobs, the decisions, and the attempts to count a call that have ended. -/
structure Reconciled (s : Limiter σ) (starts : List (TaskId × List Job)) (ds : List Decided)
    (attempts : List Attempt) : Prop where
  /-- A total is the number of decisions of its kind. -/
  totals : ∀ kind, s.totals.of kind = ds.countP (·.decision.kind = kind)
  /-- It is also what the metrics of the kind come to for all services together. -/
  sums : ∀ kind, s.metrics.sumOf kind.counter = s.totals.of kind
  /-- The metric for one service is the number of decisions for it. -/
  labels : ∀ kind service, s.metrics.value (kind.metric service) =
    ds.countP fun d => d.service = service && d.decision.kind = kind
  failures : s.failedChecks.length = s.totals.degraded
  /-- Each attempt counts for itself, whether it was answered or took too long. -/
  commands : s.metrics.value .commands = attempts.length
  durations : s.metrics.value .durations = attempts.length
  distinct : (starts.map Prod.fst).Nodup
  /-- Only tasks that were started have decided. -/
  deciders : ∀ d ∈ ds, d.task ∈ starts.map Prod.fst
  /-- The decisions of a task are those that its jobs have announced, one by each job that has
  somebody charged and has an outcome. -/
  announced : ∀ t jobs, (t, jobs) ∈ starts → List.Forall₂ Announces
    ((jobs.zip (s.outcomes t)).filter fun p => p.1.charge?.isSome) (ds.filter fun d => d.task = t)
  /-- If none of a task's jobs has somebody charged and an outcome, the task has decided nothing. -/
  spared : ∀ t jobs, (t, jobs) ∈ starts → (∀ p ∈ jobs.zip (s.outcomes t), p.1.charge? = none) →
    ∀ d ∈ ds, d.task ≠ t

/-- After every run, with any store, the books of a limiter balance. -/
theorem reconciled_run (W : Surroundings σ ε) (backend : σ) (settings : PoolSettings)
    (moves : List (Move ε)) :
    let s := Limiter.fresh backend settings
    Reconciled (s.run W moves) (s.seen W started? moves) (s.seen W decided? moves)
      (s.seen W (attempt? W) moves) := by
  intro s
  have kept : Kept (s.run W moves) (s.seen W started? moves) (s.seen W decided? moves) :=
    (Kept.fresh backend settings).run moves
  have degraded : (s.run W moves).totals.degraded = _ :=
    totals_run W backend settings moves .degraded
  exact {
    totals := totals_run W backend settings moves
    sums := fun kind => (sum_run W backend settings moves kind).trans
      (totals_run W backend settings moves kind).symm
    labels := label_run W backend settings moves
    failures := (failedChecks_run W backend settings moves).trans degraded.symm
    commands := commands_run W backend settings moves (.inl rfl)
    durations := commands_run W backend settings moves (.inr rfl)
    distinct := kept.distinct
    deciders := kept.deciders
    announced := fun _ _ hmem => kept.forall₂_announces hmem
    spared := fun _ _ hmem uncharged => kept.task_ne hmem uncharged }

/-- The second of two checks is rejected, and a third one is refused. -/
example :
    let jobs : List Job := [.check "u" "svc" (some (1, 60)), .check "u" "svc" (some (1, 60)),
      .check "u" "svc" (some (0, 60))]
    let moves : List (Move MemoryChange) := [.start jobs, .step 0, .step 1, .step 1, .step 1,
      .step 0, .step 0, .step 2, .step 2, .step 0, .step 0]
    (fresh Memory.fresh .standard).seen Memory.surroundings decided? moves =
      [⟨0, 1, "svc", .admitted⟩, ⟨0, 2, "svc", .rejected 60⟩] := by
  decide +kernel

end Limiter

end Turnstile
