import Turnstile.Proofs.Runs.Tidy

/-!
# Who moves the flag and who decides

Of all that a move does, only three things concern the flag, the totals and the decisions: a
connection cannot be opened, a connection is opened, and somebody decides on a call. Everything else
is silent about them. `signalled_move` says which of these a move may be; the one move that is left
out is clearing the flag by hand.
-/

namespace Turnstile

/-- Whether the event tells of the flag or of a decision. -/
def Event.isSignal : Event → Bool
  | .degraded _ | .recovered | .limitHit .. | .checkFailed .. | .decided .. => true
  | _ => false

/-- Whether a step from the stage may open a connection, fail to open one, or decide on a call. -/
def Stage.signals : Stage → Bool
  | .opening .. | .awaiting .. => true
  | _ => false

/-- Whether the move is clearing the flag by hand. -/
def Move.isClear {ε : Type} : Move ε → Bool
  | .clear => true
  | _ => false

/-- Whether the move is a step of a task, or somebody writes to the flag by hand. -/
def Move.signals {ε : Type} : Move ε → Bool
  | .step _ | .raise _ | .clear => true
  | _ => false

/-- The task whose step the move is. -/
def Move.stepper? {ε : Type} : Move ε → Option TaskId
  | .step t => some t
  | _ => none

theorem Move.eq_step {ε : Type} {m : Move ε} {t : TaskId} (h : m.stepper? = some t) :
    m = .step t := by
  cases m with
  | step v =>
    obtain rfl : v = t := Option.some.inj h
    rfl
  | _ => cases h

namespace Limiter

variable {σ ε : Type} {B : Backend σ} {s s' u : Limiter σ} {t : TaskId}

/-- Between two limiters nothing has happened to the flag or to what is counted about decisions, and
what has been written down is no signal. -/
structure Silent (s s' : Limiter σ) : Prop where
  flag : s'.flag = s.flag
  totals : s'.totals = s.totals
  metrics : ∀ service d, s'.metrics.value (.ofDecision service d) =
    s.metrics.value (.ofDecision service d)
  journal : ∃ recent, s'.journal = recent ++ s.journal ∧ ∀ e ∈ recent, e.isSignal = false

namespace Silent

/-- Nothing is written down at all. -/
theorem of_eq (flag : s'.flag = s.flag) (totals : s'.totals = s.totals)
    (metrics : s'.metrics = s.metrics) (journal : s'.journal = s.journal) : Silent s s' :=
  ⟨flag, totals, fun _ _ => by rw [metrics], [], journal, by simp⟩

theorem refl (s : Limiter σ) : Silent s s := of_eq rfl rfl rfl rfl

theorem trans (h : Silent s u) (h' : Silent u s') : Silent s s' := by
  obtain ⟨recent, hrecent, hnone⟩ := h.journal
  obtain ⟨more, hmore, hnone'⟩ := h'.journal
  refine ⟨h'.flag.trans h.flag, h'.totals.trans h.totals,
    fun service d => (h'.metrics service d).trans (h.metrics service d), more ++ recent, ?_, ?_⟩
  · rw [hmore, hrecent, List.append_assoc]
  · exact List.forall_mem_append.mpr ⟨hnone', hnone⟩

theorem emit (s : Limiter σ) {e : Event} (he : e.isSignal = false) : Silent s (s.emit e) :=
  ⟨rfl, rfl, fun _ _ => rfl, [e], rfl, by simp [he]⟩

/-- What is counted about commands to the store is not about decisions. -/
theorem tally (s : Limiter σ) {m : Metric} (hm : ∀ service d, Metric.ofDecision service d ≠ m) :
    Silent s (s.tally m) :=
  ⟨rfl, rfl, fun service d => Metrics.value_bump_ne _ (hm service d), [], rfl, by simp⟩

/-! ## Tasks, permits and requests -/

theorem setStage (s : Limiter σ) (t : TaskId) (stage : Stage) : Silent s (s.setStage t stage) :=
  of_eq rfl rfl rfl rfl

theorem wakeAll (s : Limiter σ) (ts : List TaskId) : Silent s (s.wakeAll ts) :=
  of_eq (by simp) (by simp) (by simp) (by simp)

theorem start (s : Limiter σ) (jobs : List Job) : Silent s (s.start jobs).1 :=
  of_eq (by simp) (by simp) (by simp) (by simp)

theorem settle (s : Limiter σ) (t : TaskId) (outcome : Outcome) :
    Silent s (s.settle t outcome) :=
  of_eq (by simp) (by simp) (by simp) (by simp)

theorem fail (s : Limiter σ) (t : TaskId) (f : Fault) : Silent s (s.fail t f) := settle ..

theorem freePermit (s : Limiter σ) : Silent s s.freePermit :=
  of_eq (by simp) (by simp) (by simp) (by simp)

theorem giveBack (s : Limiter σ) (l : Lease) : Silent s (s.giveBack l) :=
  of_eq (by simp) (by simp) (by simp) (by simp)

theorem setTimer (s : Limiter σ) (ms : Nat) : Silent s (s.setTimer ms).1 := of_eq rfl rfl rfl rfl

theorem dueAfter (s : Limiter σ) (d : Delay) : Silent s (s.dueAfter d).1 := by
  cases d <;> exact of_eq rfl rfl rfl rfl

theorem startCall (s : Limiter σ) (conn : ConnId) (command : Command) (patience : Option Nat) :
    Silent s (s.startCall B conn command patience).1 := by
  have hask : Silent s { s with backend := (B.start s.backend conn command).1 } :=
    of_eq rfl rfl rfl rfl
  have hdue := hask.trans (dueAfter _ (B.start s.backend conn command).2)
  cases patience with
  | none => exact hdue
  | some ms => exact hdue.trans (setTimer _ ms)

/-- A request is made and waited for. -/
theorem call (s : Limiter σ) (t : TaskId) (conn : ConnId) (command : Command)
    (patience : Option Nat) (stage : Call → Stage) :
    Silent s ((s.startCall B conn command patience).1.setStage t
      (stage (s.startCall B conn command patience).2)) :=
  (startCall s conn command patience).trans (setStage ..)

theorem finishCall (s : Limiter σ) (t : TaskId) (call : Call) :
    Silent s (s.finishCall B t call).1 := by
  have hnone : ∀ e ∈ answerEvents s.clock t call
      (B.finish s.backend s.clock call.conn call.command).2, e.isSignal = false := by
    cases (B.finish s.backend s.clock call.conn call.command).2 with
    | error f => simp [answerEvents]
    | ok ms => cases hc : call.command <;> simp [answerEvents, hc, Event.isSignal]
  exact ⟨rfl, rfl, fun _ _ => rfl, _, rfl, by simpa using hnone⟩

/-! ## Getting and using a connection -/

theorem employ (s : Limiter σ) (t : TaskId) (goal : Goal) (l : Lease) :
    Silent s (s.employ B t goal l) := by
  cases goal with
  | evaluate e attempt =>
    exact call s t l.conn (.count e.key e.limit e.windowMs) (some s.settings.commandTimeout)
      (.evaluating e attempt l)
  | verify => exact call s t l.conn .ping (some s.settings.connectTimeout) (.verifying l)
  | borrow holdMs broken => exact of_eq rfl rfl rfl rfl
  | keep name =>
    have hput : Silent s { s with held := Table.put s.held name l } := of_eq rfl rfl rfl rfl
    cases hold : Table.get? s.held name with
    | none =>
      simp only [Limiter.employ, hold]
      exact hput.trans (settle ..)
    | some old =>
      simp only [Limiter.employ, hold]
      exact hput.trans ((giveBack ..).trans (settle ..))

theorem openFor (s : Limiter σ) (t : TaskId) (goal : Goal) : Silent s (s.openFor B t goal) := by
  have hnumber : Silent s { s with nextConn := s.nextConn + 1 } := of_eq rfl rfl rfl rfl
  exact hnumber.trans
    (call _ t s.nextConn .connect (some s.settings.connectTimeout) (.opening goal))

theorem choose (s : Limiter σ) (t : TaskId) (goal : Goal) : Silent s (s.choose B t goal) := by
  cases front : s.pool.idle with
  | nil =>
    simp only [Limiter.choose, front]
    exact openFor s t goal
  | cons i rest =>
    have htake : Silent s { s with pool := { s.pool with idle := rest } } := of_eq rfl rfl rfl rfl
    simp only [Limiter.choose, front]
    split
    · exact htake.trans (employ ..)
    · exact htake.trans (call _ t i.conn .ping (some s.settings.connectTimeout) (.probing goal))

theorem want (s : Limiter σ) (t : TaskId) (goal : Goal) : Silent s (s.want B t goal) := by
  unfold Limiter.want
  split
  · exact fail ..
  · split
    · have htake : Silent s { s with pool := { s.pool with free := s.pool.free - 1 } } :=
        of_eq rfl rfl rfl rfl
      exact htake.trans (choose ..)
    · simp only
      split
      · exact (setTimer s s.settings.connectTimeout).trans (fail ..)
      · exact of_eq rfl rfl rfl rfl

theorem evict (s : Limiter σ) (t : TaskId) (goal : Goal) : Silent s (s.evict B t goal) :=
  (emit s rfl).trans (choose ..)

theorem counted (s : Limiter σ) (t : TaskId) (e : Evaluation) (attempt : Nat) (l : Lease)
    (reply : Reply) : Silent s (s.counted B t e attempt l reply) := by
  have htold : Silent s (((s.tally .commands).tally .durations).emit (.commanded t l.conn reply)) :=
    (tally s fun _ d => by cases d <;> nofun).trans
      ((tally _ fun _ d => by cases d <;> nofun).trans (emit _ rfl))
  cases reply with
  | ok ms => exact htold.trans ((giveBack _ l).trans (settle ..))
  | error f =>
    simp only [Limiter.counted]
    split
    · exact htold.trans ((emit _ rfl).trans ((giveBack ..).trans (want ..)))
    · exact htold.trans ((giveBack ..).trans (fail ..))

theorem verified (s : Limiter σ) (t : TaskId) (l : Lease) (reply : Reply) :
    Silent s (s.verified t l reply) := by
  cases reply with
  | ok ms => exact (giveBack s l).trans (settle ..)
  | error f => exact (giveBack s { l with broken := true }).trans (fail ..)

theorem charge (s : Limiter σ) (t : TaskId) (c : Charge) (limit : Limit) :
    Silent s (s.charge t c limit) :=
  (start s [.evaluate ⟨counterKey c.identity c.service, limit.times, limit.windowMs⟩]).trans
    (setStage ..)

/-! ## Sweeping -/

theorem restUntil (s : Limiter σ) (t : TaskId) (deadline : Time) :
    Silent s (s.restUntil t deadline) :=
  of_eq rfl rfl rfl rfl

theorem endSweep (s : Limiter σ) (t : TaskId) (sweep : Sweep) : Silent s (s.endSweep t sweep) := by
  unfold Limiter.endSweep
  split
  · exact (emit s rfl).trans (restUntil ..)
  · exact restUntil ..

theorem sweepOn (s : Limiter σ) (t : TaskId) (sweep : Sweep) : Silent s (s.sweepOn B t sweep) := by
  cases front : s.pool.idle with
  | nil =>
    simp only [Limiter.sweepOn, front]
    exact endSweep s t sweep
  | cons i rest =>
    simp only [Limiter.sweepOn, front]
    split
    · exact endSweep s t sweep
    · have htake : Silent s { s with
          pool := { s.pool with idle := rest, free := s.pool.free - 1 } } := of_eq rfl rfl rfl rfl
      exact htake.trans (call _ t i.conn .ping (some s.settings.connectTimeout)
        (.sweeping { sweep with left := sweep.left - 1 }))

theorem swept (s : Limiter σ) (t : TaskId) (sweep : Sweep) (call : Call) (answered : Bool) :
    Silent s (s.swept B t sweep call answered) := by
  cases answered with
  | true =>
    have hrest : Silent s { s with pool := s.pool.rest ⟨call.conn, s.clock⟩ } :=
      of_eq rfl rfl rfl rfl
    exact hrest.trans ((freePermit _).trans (sweepOn ..))
  | false => exact (freePermit s).trans (sweepOn ..)

theorem beginSweep (s : Limiter σ) (t : TaskId) (deadline : Time) :
    Silent s (s.beginSweep B t deadline) := by
  unfold Limiter.beginSweep
  split
  · exact (emit s rfl).trans (settle ..)
  · exact sweepOn ..

/-! ## Jobs -/

theorem begin (s : Limiter σ) (t : TaskId) (job : Job) : Silent s (s.begin B t job) := by
  cases job with
  | check identity service numbers =>
    cases numbers with
    | none => exact charge ..
    | some n =>
      simp only [Limiter.begin]
      split
      · exact settle ..
      · exact charge ..
  | serve site r =>
    cases site with
    | error e => exact settle ..
    | ok site =>
      simp only [Limiter.begin]
      split
      · exact charge ..
      · exact settle ..
  | evaluate e => exact want ..
  | verify => exact want ..
  | borrow holdMs broken => exact want ..
  | keep name => exact want ..
  | sleep ms => exact of_eq rfl rfl rfl rfl
  | connect =>
    have hnumber : Silent s { s with nextConn := s.nextConn + 1 } := of_eq rfl rfl rfl rfl
    exact hnumber.trans (call _ t s.nextConn .connect none .calling)
  | request conn command => exact call s t conn command none .calling
  | join task => exact setStage ..
  | guard =>
    simp only [Limiter.begin]
    split
    · exact restUntil ..
    · exact settle ..

/-! ## Cancelling and closing -/

theorem reclaim (s : Limiter σ) (t : TaskId) (stage : Stage) : Silent s (s.reclaim t stage) := by
  cases stage with
  | queued => exact of_eq rfl rfl rfl rfl
  | granted | probing | opening | sweeping => exact freePermit s
  | evaluating | verifying | holding => exact giveBack ..
  | _ => exact refl s

theorem cancel (s : Limiter σ) (t : TaskId) : Silent s (s.cancel t) := by
  unfold Limiter.cancel
  split
  · exact refl s
  · split
    · exact refl s
    · rename_i stage _ _
      have hstop : Silent s ({ s with ready := s.ready.erase t }.setStage t .cancelled) :=
        of_eq rfl rfl rfl rfl
      exact hstop.trans ((reclaim _ t stage).trans (wakeAll ..))

theorem close (s : Limiter σ) : Silent s s.close := by
  have hshut : Silent s { s with pool := s.pool.close.1 } := of_eq rfl rfl rfl rfl
  exact hshut.trans (wakeAll ..)

end Silent

/-! ## Moves -/

/-- What a move may be, seen from the flag, the totals and the decisions, if it is a step of that
task or of nobody. -/
inductive Signalled (who : Option TaskId) (s s' : Limiter σ) : Prop where
  | silent (quiet : Silent s s')
  /-- A connection cannot be opened, or somebody raises the flag by hand. -/
  | raised {u : Limiter σ} (reason : String) (before : Silent s u)
    (after : Silent (u.raise reason).1 s')
  /-- A connection is opened for whoever wanted one. -/
  | opened {u : Limiter σ} (conn : ConnId) (before : Silent s u)
    (told : u.journal = .opened conn s.clock :: s.journal) (after : Silent u.clear.1 s')
  /-- Somebody decides, from how the task that counted the call has ended. -/
  | decided (t child : TaskId) (c : Charge) (ended : s.isOver child = true)
    (after : Silent (s.decideOn t child c (verdictOf child (s.lastOutcome? child))).1 s')
    (own : who = some t) (waiting : s.stage? t = some (.awaiting c child))

/-! ## Steps -/

theorem Silent.of_finishCall {call : Call} {reply : Reply}
    (hr : s.finishCall B t call = (u, reply)) : Silent s u := by
  have hfinish := Silent.finishCall (B := B) s t call
  rwa [hr] at hfinish

/-- A connection that was to be opened is opened or cannot be opened. -/
theorem signalled_of_opening {goal : Goal} {call : Call}
    (hs : s.stage? t = some (.opening goal call)) (connect : call.command = .connect)
    (step : s.step? B t = some s') : Signalled (some t) s s' := by
  have failed : ∀ {u : Limiter σ} (f : Fault), Silent s u →
      Signalled (some t) s (u.openFailed t f) :=
    fun f hu => .raised f.message hu ((Silent.freePermit _).trans (.fail ..))
  simp only [step?, hs] at step
  split at step
  · cases step
  · cases step
    exact failed .connectTimeout (.refl s)
  · cases hr : s.finishCall B t call with
    | mk u reply =>
      have hu : Silent s u := .of_finishCall hr
      simp only [hr] at step
      cases reply with
      | error f =>
        cases step
        exact failed f hu
      | ok ms =>
        cases step
        have told : u.journal = .opened call.conn s.clock :: s.journal := by
          have hreply : (B.finish s.backend s.clock call.conn call.command).2 = .ok ms :=
            congrArg Prod.snd hr
          have hevents : answerEvents s.clock t call (.ok ms) = [.opened call.conn s.clock] := by
            simp [answerEvents, connect]
          rw [show u = (s.finishCall B t call).1 from by rw [hr]]
          simp [Limiter.finishCall, hreply, hevents, emitAll]
        exact .opened call.conn hu told (.employ ..)

/-! The other stages at which a task waits for an answer. -/

section

variable {call : Call}

theorem silent_of_probing {goal : Goal} (hs : s.stage? t = some (.probing goal call))
    (step : s.step? B t = some s') : Silent s s' := by
  simp only [step?, hs] at step
  split at step
  · cases step
  · cases step
    exact .evict ..
  · cases hr : s.finishCall B t call with
    | mk u reply =>
      simp only [hr] at step
      cases reply with
      | ok ms =>
        cases step
        exact (Silent.of_finishCall hr).trans (.employ ..)
      | error f =>
        cases step
        exact (Silent.of_finishCall hr).trans (.evict ..)

theorem silent_of_sweeping {sweep : Sweep} (hs : s.stage? t = some (.sweeping sweep call))
    (step : s.step? B t = some s') : Silent s s' := by
  simp only [step?, hs] at step
  split at step
  · cases step
  · cases step
    exact .swept ..
  · cases hr : s.finishCall B t call with
    | mk u reply =>
      simp only [hr] at step
      cases reply with
      | ok ms =>
        cases step
        exact (Silent.of_finishCall hr).trans (.swept ..)
      | error f =>
        cases step
        exact (Silent.of_finishCall hr).trans (.swept ..)

theorem silent_of_evaluating {e : Evaluation} {attempt : Nat} {lease : Lease}
    (hs : s.stage? t = some (.evaluating e attempt lease call)) (step : s.step? B t = some s') :
    Silent s s' := by
  simp only [step?, hs] at step
  split at step
  · cases step
  · cases step
    exact .counted ..
  · cases step
    exact (Silent.finishCall ..).trans (.counted ..)

theorem silent_of_verifying {lease : Lease} (hs : s.stage? t = some (.verifying lease call))
    (step : s.step? B t = some s') : Silent s s' := by
  simp only [step?, hs] at step
  split at step
  · cases step
  · cases step
    exact .verified ..
  · cases step
    exact (Silent.finishCall ..).trans (.verified ..)

theorem silent_of_calling (hs : s.stage? t = some (.calling call))
    (step : s.step? B t = some s') : Silent s s' := by
  simp only [step?, hs] at step
  split at step
  · cases step
    exact (Silent.finishCall ..).trans (.settle ..)
  · cases step

end

theorem silent_of_queued {goal : Goal} {expiry : Timer}
    (hs : s.stage? t = some (.queued goal expiry)) (step : s.step? B t = some s') :
    Silent s s' := by
  simp only [step?, hs] at step
  split at step
  · cases step
    exact .fail ..
  · split at step
    · cases step
      have hleave : Silent s { s with pool := s.pool.leave t } := .of_eq rfl rfl rfl rfl
      exact hleave.trans (.fail ..)
    · cases step

theorem silent_of_granted {goal : Goal} (hs : s.stage? t = some (.granted goal))
    (step : s.step? B t = some s') : Silent s s' := by
  simp only [step?, hs] at step
  split at step
  · cases step
    exact (Silent.freePermit s).trans (.fail ..)
  · cases step
    exact .choose ..

/-- A step from a stage at which no connection is opened and nobody decides is silent. -/
theorem silent_of_step? {stage : Stage} (hs : s.stage? t = some stage)
    (quiet : stage.signals = false) (step : s.step? B t = some s') : Silent s s' := by
  cases stage with
  | opening goal call => cases quiet
  | awaiting c child => cases quiet
  | probing goal call => exact silent_of_probing hs step
  | evaluating e attempt lease call => exact silent_of_evaluating hs step
  | verifying lease call => exact silent_of_verifying hs step
  | calling call => exact silent_of_calling hs step
  | sweeping sweep call => exact silent_of_sweeping hs step
  | queued goal expiry => exact silent_of_queued hs step
  | granted goal => exact silent_of_granted hs step
  | fresh job =>
    simp only [step?, hs] at step
    cases step
    exact .begin ..
  | holding lease broken since timer =>
    simp only [step?, hs] at step
    split at step
    · cases step
      exact (Silent.giveBack ..).trans (.settle ..)
    · cases step
  | joining task =>
    simp only [step?, hs] at step
    split at step
    · cases step
      exact .settle ..
    · cases step
  | sleeping timer =>
    simp only [step?, hs] at step
    split at step
    · cases step
      exact .settle ..
    · cases step
  | resting deadline timer =>
    simp only [step?, hs] at step
    split at step
    · cases step
      exact .beginSweep ..
    · cases step
  | done time => simp [step?, hs] at step
  | cancelled => simp [step?, hs] at step

/-- A step of a task opens a connection or fails to, decides on a call, or is silent. -/
theorem signalled_of_step? {stage : Stage} (hs : s.stage? t = some stage) (proper : stage.Proper)
    (step : s.step? B t = some s') : Signalled (some t) s s' := by
  cases stage with
  | opening goal call => exact signalled_of_opening hs proper step
  | awaiting c child =>
    simp only [step?, hs] at step
    split at step
    · cases step
      exact .decided t child c ‹_› (.settle ..) rfl hs
    · cases step
  | _ => exact .silent (silent_of_step? hs rfl step)

/-! ## Every move -/

/-- A move that is no step of a task, and by which nobody writes to the flag, is silent. -/
theorem silent_move (W : Surroundings σ ε) {m : Move ε} (quiet : m.signals = false) :
    Silent s (s.move W m) := by
  cases m with
  | step t => cases quiet
  | raise reason => cases quiet
  | clear => cases quiet
  | start jobs => exact .start ..
  | cancel t => exact .cancel ..
  | close => exact .close s
  | release name =>
    simp only [Limiter.move]
    split
    · have htake : Silent s { s with held := Table.without s.held name } := .of_eq rfl rfl rfl rfl
      exact htake.trans (.giveBack ..)
    · exact .refl s
  | _ => exact .of_eq rfl rfl rfl rfl

/-- Every move but clearing the flag by hand is one of these. -/
theorem signalled_move (W : Surroundings σ ε) (tidy : Tidy s) {m : Move ε}
    (hm : m.isClear = false) : Signalled m.stepper? s (s.move W m) := by
  cases m with
  | step t =>
    cases hs : s.step? W.backend t with
    | none => simpa [Limiter.move, hs] using .silent (.refl s)
    | some s' =>
      cases hstage : s.stage? t with
      | none => simp [Limiter.step?, hstage] at hs
      | some stage =>
        have hsignalled := signalled_of_step? hstage (tidy.proper t stage hstage) hs
        simpa [Limiter.move, Move.stepper?, hs] using hsignalled
  | raise reason => exact .raised reason (.refl s) (.refl _)
  | clear => cases hm
  | _ => exact .silent (silent_move W rfl)

/-! ## The journal grows -/

theorem journal_decideOn (s : Limiter σ) (t child : TaskId) (c : Charge)
    (outcome : Except Fault Verdict) :
    ∃ recent, (s.decideOn t child c outcome).1.journal = recent ++ s.journal := by
  cases outcome with
  | ok v =>
    cases v with
    | admitted => exact ⟨_ :: s.flag.clear.2.1.reverse, rfl⟩
    | blocked ms => exact ⟨_ :: _ :: s.flag.clear.2.1.reverse, rfl⟩
  | error f =>
    refine ⟨.decided t child c.service .degraded ::
      ((s.flag.raise s.clock f.message).2.1.reverse ++ [.checkFailed c.service f]), ?_⟩
    rw [List.cons_append, List.append_assoc]
    rfl

/-- Nothing that was written down is ever taken back. -/
theorem journal_move (W : Surroundings σ ε) (tidy : Tidy s) (m : Move ε) :
    ∃ recent, (s.move W m).journal = recent ++ s.journal := by
  have grows : ∀ {a b c : Limiter σ}, (∃ recent, b.journal = recent ++ a.journal) →
      (∃ recent, c.journal = recent ++ b.journal) → ∃ recent, c.journal = recent ++ a.journal := by
    rintro a b c ⟨recent, hb⟩ ⟨more, hc⟩
    exact ⟨more ++ recent, by rw [hc, hb, List.append_assoc]⟩
  have quiet : ∀ {a b : Limiter σ}, Silent a b → ∃ recent, b.journal = recent ++ a.journal := by
    intro a b h
    obtain ⟨recent, hjournal, -⟩ := h.journal
    exact ⟨recent, hjournal⟩
  cases hm : m.isClear with
  | true =>
    cases m with
    | clear => exact ⟨s.flag.clear.2.1.reverse, rfl⟩
    | _ => cases hm
  | false =>
    cases signalled_move W tidy hm with
    | silent h => exact quiet h
    | raised reason before after => exact grows (grows (quiet before) ⟨_, rfl⟩) (quiet after)
    | opened conn before told after => exact grows (grows (quiet before) ⟨_, rfl⟩) (quiet after)
    | decided t child c ended after => exact grows (journal_decideOn ..) (quiet after)

end Limiter

end Turnstile
