import Turnstile.Proofs.Runs.Hand

/-!
# Every step is made of acts

Each function that a step is made of is taken apart here once. `leads_of_step?` puts the parts
together: a step leads from the stage at which a task stands, with what it holds in hand, to the
limiter after the step.
-/

namespace Turnstile

namespace Limiter

variable {σ : Type} {B : Backend σ} {s s' : Limiter σ} {t : TaskId} {h : Hand} {o : Option Nat}

/-! ## Single acts in front -/

namespace Leads

theorem aside (a : Aside) (rest : Leads B t ⟨h, o, s.aside B a⟩ s') : Leads B t ⟨h, o, s⟩ s' :=
  .act (.aside a) rest

theorem emit (e : Event) (own : e.isOfStore = false) (rest : Leads B t ⟨h, o, s.emit e⟩ s') :
    Leads B t ⟨h, o, s⟩ s' :=
  .act (.emit e own) rest

theorem setTimer (ms : Nat) (rest : Leads B t ⟨h, o, (s.setTimer ms).1⟩ s') :
    Leads B t ⟨h, o, s⟩ s' :=
  aside (.setTimer _) rest

/-- Making a request is asking for it and setting up to two timers. -/
theorem startCall (conn : ConnId) (command : Command) (patience : Option Nat)
    (rest : Leads B t ⟨h, o, (s.startCall B conn command patience).1⟩ s') :
    Leads B t ⟨h, o, s⟩ s' := by
  refine aside (.ask conn command) ?_
  -- one timer for an answer that takes its time, one for a patience that ends
  simp only [Limiter.startCall] at rest
  cases hd : (B.start s.backend conn command).2 with
  | none =>
    simp only [hd, dueAfter] at rest
    cases patience with
    | none => exact rest
    | some ms => exact setTimer ms rest
  | ms n =>
    simp only [hd, dueAfter] at rest
    refine setTimer n ?_
    cases patience with
    | none => exact rest
    | some ms => exact setTimer ms rest
  | never =>
    simp only [hd, dueAfter] at rest
    cases patience with
    | none => exact rest
    | some ms => exact setTimer ms rest

/-- A connection that goes back is laid to rest or dropped. -/
theorem takeBack {l : Lease} (keepalive : Bool)
    (rest : Leads B t ⟨.permit, o, { s with pool := s.pool.takeBack keepalive l }⟩ s') :
    Leads B t ⟨.lease l, o, s⟩ s' := by
  unfold Pool.takeBack at rest
  split at rest
  · exact .act (.drop rfl) rest
  · exact .act .rest rest

theorem giveBack {l : Lease} (rest : Leads B t ⟨.nothing, o, s.giveBack l⟩ s') :
    Leads B t ⟨.lease l, o, s⟩ s' :=
  takeBack s.settings.keepalive (.act .free rest)

/-- A job that ends with nothing to pass on. -/
theorem done (outcome : Outcome) (silent : Outcome.verdict? outcome = none) :
    Leads B t ⟨.nothing, none, s⟩ (s.settle t outcome) :=
  .settle outcome silent

theorem fail (f : Fault) : Leads B t ⟨.nothing, none, s⟩ (s.fail t f) :=
  done _ rfl

end Leads

@[simp] theorem conn_startCall (conn : ConnId) (command : Command) (patience : Option Nat) :
    (s.startCall B conn command patience).2.conn = conn := by
  cases patience <;> rfl

@[simp] theorem command_startCall (conn : ConnId) (command : Command) (patience : Option Nat) :
    (s.startCall B conn command patience).2.command = command := by
  cases patience <;> rfl

/-! ## Getting a connection -/

/-- Parks with a request that has just been made. -/
theorem leads_call (conn : ConnId) (command : Command) (patience : Option Nat)
    (stage : Call → Stage)
    (fits : ∀ call, call.conn = conn → call.command = command →
      (stage call).hand = h ∧ (stage call).Proper) :
    Leads B t ⟨h, none, s⟩ ((s.startCall B conn command patience).1.setStage t
      (stage (s.startCall B conn command patience).2)) := by
  obtain ⟨hh, hp⟩ := fits _ (conn_startCall conn command patience)
    (command_startCall conn command patience)
  refine Leads.startCall conn command patience ?_
  rw [← hh]
  exact .park _ hp

theorem leads_employ (goal : Goal) (l : Lease) :
    Leads B t ⟨.lease l, none, s⟩ (s.employ B t goal l) := by
  cases goal with
  | evaluate e attempt =>
    exact leads_call l.conn (.count e.key e.limit e.windowMs) (some s.settings.commandTimeout)
      (.evaluating e attempt l) fun _ hc hm => ⟨rfl, hc, hm⟩
  | verify =>
    exact leads_call l.conn .ping (some s.settings.connectTimeout) (.verifying l)
      fun _ hc hm => ⟨rfl, hc, hm⟩
  | borrow holdMs broken => exact Leads.setTimer holdMs (.park (.holding l broken _ _) trivial)
  | keep name =>
    cases hold : Table.get? s.held name with
    | none =>
      simp only [employ, hold]
      exact .act (.keep name hold) (Leads.done _ rfl)
    | some old =>
      simp only [employ, hold]
      exact .act (.swap name hold) (Leads.giveBack (Leads.done _ rfl))

theorem leads_openFor (goal : Goal) (none_rests : s.pool.idle = []) :
    Leads B t ⟨.permit, none, s⟩ (s.openFor B t goal) :=
  .act (.open none_rests)
    (leads_call s.nextConn .connect (some s.settings.connectTimeout) (.opening goal)
      fun _ hc hm => ⟨congrArg Hand.opening hc, hm⟩)

theorem leads_choose (goal : Goal) : Leads B t ⟨.permit, none, s⟩ (s.choose B t goal) := by
  cases front : s.pool.idle with
  | nil =>
    simp only [choose, front]
    exact leads_openFor goal front
  | cons i rest =>
    simp only [choose, front]
    split
    · exact .act (.lend front ‹_›) (leads_employ goal _)
    · exact .act (.probe front)
        (leads_call i.conn .ping (some s.settings.connectTimeout) (.probing goal)
          fun _ hc hm => ⟨congrArg Hand.probe hc, hm⟩)

theorem leads_want (goal : Goal) : Leads B t ⟨.nothing, none, s⟩ (s.want B t goal) := by
  unfold want
  split
  · exact Leads.fail _
  · rename_i isOpen
    have isOpen : s.pool.closed = false := by simpa using isOpen
    split
    · exact .act (.take isOpen ‹_›) (leads_choose goal)
    · -- without patience the timer has rung as soon as it is set
      rename_i none_free
      refine Leads.setTimer s.settings.connectTimeout ?_
      simp only
      split
      · exact Leads.fail _
      · exact .act (.enqueue isOpen (Nat.eq_zero_of_not_pos none_free))
          (.park (.queued goal _) trivial)

theorem leads_openFailed (conn : ConnId) (f : Fault) :
    Leads B t ⟨.opening conn, none, s⟩ (s.openFailed t f) :=
  Leads.aside (.raise f.message) (.act (.drop rfl) (.act .free (Leads.fail f)))

theorem leads_openDone (goal : Goal) (conn : ConnId) :
    Leads B t ⟨.lease ⟨conn, s.clock, false⟩, none, s⟩ (s.openDone B t goal conn) := by
  have hclock : s.clear.1.clock = s.clock := rfl
  exact Leads.aside .clear (hclock ▸ leads_employ goal _)

theorem leads_evict (goal : Goal) (conn : ConnId) :
    Leads B t ⟨.probe conn, none, s⟩ (s.evict B t goal) :=
  .act (.drop rfl) (Leads.emit .evicted rfl (leads_choose goal))

/-! ## Using a connection -/

/-- The lease on which a command has failed goes back as a broken one. -/
theorem Leads.giveBackBroken {l : Lease}
    (rest : Leads B t ⟨.nothing, o, s.giveBack { l with broken := true }⟩ s') :
    Leads B t ⟨.lease l, o, s⟩ s' :=
  .act (.mark true) (giveBack rest)

/-- What is owed after a reply to a counted call. -/
def owedBy (reply : Reply) : Option Nat := reply.toOption

theorem leads_counted (e : Evaluation) (attempt : Nat) (l : Lease) (reply : Reply) :
    Leads B t ⟨.lease l, owedBy reply, s⟩ (s.counted B t e attempt l reply) := by
  refine Leads.aside (.tally .commands) (Leads.aside (.tally .durations) ?_)
  refine Leads.emit (.commanded t l.conn reply) rfl ?_
  cases reply with
  | ok ms => exact Leads.giveBack (.settle _ rfl)
  | error f =>
    simp only [counted]
    split
    · -- the permit goes back before the next attempt asks for one
      exact Leads.emit (.retrying e.key) rfl
        (Leads.giveBackBroken (leads_want (.evaluate e (attempt + 1))))
    · exact Leads.giveBackBroken (Leads.fail f)

theorem leads_verified (l : Lease) (reply : Reply) :
    Leads B t ⟨.lease l, none, s⟩ (s.verified t l reply) := by
  cases reply with
  | ok ms => exact Leads.giveBack (Leads.done _ rfl)
  | error f => exact Leads.giveBackBroken (Leads.fail f)

/-! ## Deciding -/

/-- What a caller is told is no verdict of the store. -/
theorem verdict?_tell (c : Charge) (d : Decision) : Outcome.verdict? (.ok (s.tell c d)) = none := by
  unfold tell
  split <;> rfl

theorem Leads.record (child : TaskId) (service : String) (d : Decision)
    (rest : Leads B t ⟨h, o, s.record t child service d⟩ s') : Leads B t ⟨h, o, s⟩ s' :=
  aside (.total d) (aside (.tally (.ofDecision service d))
    (emit (.decided t child service d) rfl rest))

theorem leads_decide (child : TaskId) (c : Charge) (outcome : Except Fault Verdict) :
    Leads B t ⟨.nothing, none, s⟩ ((s.decideOn t child c outcome).1.settle t
      (.ok ((s.decideOn t child c outcome).1.tell c (s.decideOn t child c outcome).2))) := by
  cases outcome with
  | ok v =>
    refine Leads.aside .clear ?_
    cases v with
    | admitted => exact Leads.record child c.service .admitted (Leads.done _ (verdict?_tell c _))
    | blocked ms =>
      exact Leads.record child c.service (.rejected (Verdict.retryAfterSeconds ms))
        (Leads.emit (.limitHit c.identity c.service (Verdict.retryAfterSeconds ms)) rfl
          (Leads.done _ (verdict?_tell c _)))
  | error f =>
    exact Leads.emit (.checkFailed c.service f) rfl (Leads.aside (.raise f.message)
      (Leads.record child c.service .degraded (Leads.done _ (verdict?_tell c _))))

theorem leads_charge (c : Charge) (limit : Limit) :
    Leads B t ⟨.nothing, none, s⟩ (s.charge t c limit) :=
  .act (.start _) (.park (.awaiting c _) trivial)

/-! ## Sweeping -/

theorem leads_restUntil (deadline : Time) :
    Leads B t ⟨.nothing, none, s⟩ (s.restUntil t deadline) :=
  Leads.aside (.setTimer deadline) (.park (.resting deadline _) trivial)

theorem leads_endSweep (sweep : Sweep) : Leads B t ⟨.nothing, none, s⟩ (s.endSweep t sweep) := by
  unfold endSweep
  split
  · exact Leads.emit (.sweepEvicted sweep.failed sweep.total) rfl (leads_restUntil _)
  · exact leads_restUntil _

theorem leads_sweepOn (sweep : Sweep) : Leads B t ⟨.nothing, none, s⟩ (s.sweepOn B t sweep) := by
  cases front : s.pool.idle with
  | nil =>
    simp only [sweepOn, front]
    exact leads_endSweep sweep
  | cons i rest =>
    simp only [sweepOn, front]
    split
    · exact leads_endSweep sweep
    · rename_i go
      simp only [not_or, Bool.not_eq_true] at go
      obtain ⟨-, isOpen, some_free⟩ := go
      refine .act (.take isOpen (Nat.pos_of_ne_zero some_free)) ?_
      exact .act (.probe front)
        (leads_call i.conn .ping (some s.settings.connectTimeout)
          (.sweeping { sweep with left := sweep.left - 1 })
          fun _ hc hm => ⟨congrArg Hand.probe hc, hm⟩)

/-- A connection that answered the ping of a sweep goes to rest again. -/
theorem leads_swept_ok (sweep : Sweep) (call : Call) :
    Leads B t ⟨.lease ⟨call.conn, s.clock, false⟩, none, s⟩ (s.swept B t sweep call true) :=
  .act .rest (.act .free (leads_sweepOn sweep))

theorem leads_swept_failed (sweep : Sweep) (call : Call) :
    Leads B t ⟨.probe call.conn, none, s⟩ (s.swept B t sweep call false) :=
  .act (.drop rfl) (.act .free (leads_sweepOn _))

theorem leads_beginSweep (deadline : Time) :
    Leads B t ⟨.nothing, none, s⟩ (s.beginSweep B t deadline) := by
  unfold beginSweep
  split
  · exact Leads.emit .checkerStopped rfl (Leads.done _ rfl)
  · exact leads_sweepOn _

/-! ## Jobs -/

theorem leads_begin (job : Job) : Leads B t ⟨.nothing, none, s⟩ (s.begin B t job) := by
  cases job with
  | check identity service numbers =>
    cases numbers with
    | none => exact leads_charge _ _
    | some n =>
      obtain ⟨times, seconds⟩ := n
      simp only [begin]
      split
      · exact Leads.done _ rfl
      · exact leads_charge _ _
  | serve site r =>
    cases site with
    | error e => exact Leads.done _ rfl
    | ok site =>
      simp only [begin]
      split
      · exact leads_charge _ _
      · exact Leads.done _ rfl
  | evaluate e => exact leads_want _
  | verify => exact leads_want _
  | borrow holdMs broken => exact leads_want _
  | keep name => exact leads_want _
  | sleep ms => exact Leads.setTimer ms (.park (.sleeping _) trivial)
  | connect =>
    exact Leads.aside .number
      (leads_call s.nextConn .connect none .calling fun _ _ _ => ⟨rfl, trivial⟩)
  | request conn command =>
    exact leads_call conn command none .calling fun _ _ _ => ⟨rfl, trivial⟩
  | join task => exact .park (.joining task) trivial
  | guard =>
    simp only [begin]
    split
    · exact leads_restUntil _
    · exact Leads.done _ rfl

/-! ## Whole steps -/

/-- Getting an answer takes no time. -/
theorem clock_finishCall {u : Limiter σ} {call : Call} {reply : Reply}
    (hr : s.finishCall B t call = (u, reply)) : u.clock = s.clock := by
  rw [show u = (s.finishCall B t call).1 from by rw [hr]]
  rfl

theorem Act.finish_of_eq {u : Limiter σ} {call : Call} {reply : Reply} (fits : h.Fits call)
    (hr : s.finishCall B t call = (u, reply)) :
    Act B t ⟨h, none, s⟩ ⟨h.answered s.clock reply, call.command.counted? reply, u⟩ := by
  have act := Act.finish (B := B) (t := t) (h := h) (s := s) call fits
  rwa [hr] at act

theorem verdict?_answerTo (call : Call) (reply : Reply) :
    Outcome.verdict? (answerTo call reply) =
      (call.command.counted? reply).map Verdict.ofRemaining := by
  cases reply with
  | error f => cases hc : call.command <;> rfl
  | ok ms => cases hc : call.command <;> simp [answerTo, hc, Command.counted?, Outcome.verdict?]

/-! One lemma for every stage at which a task waits for an answer: it comes, or it comes too
late. -/

section

variable {goal : Goal} {call : Call}

theorem leads_of_probing (hs : s.stage? t = some (.probing goal call))
    (ping : call.command = .ping) (step : s.step? B t = some s') :
    Leads B t ⟨.probe call.conn, none, s⟩ s' := by
  simp only [step?, hs] at step
  split at step
  · cases step
  · cases step
    exact leads_evict goal call.conn
  · cases hr : s.finishCall B t call with
    | mk u reply =>
      have act := Act.finish_of_eq (h := .probe call.conn) ⟨rfl, ping⟩ hr
      rw [ping] at act
      simp only [hr] at step
      cases reply with
      | ok ms =>
        cases step
        exact .act act (clock_finishCall hr ▸ leads_employ goal _)
      | error f =>
        cases step
        exact .act act (leads_evict goal call.conn)

theorem leads_of_opening (hs : s.stage? t = some (.opening goal call))
    (connect : call.command = .connect) (step : s.step? B t = some s') :
    Leads B t ⟨.opening call.conn, none, s⟩ s' := by
  simp only [step?, hs] at step
  split at step
  · cases step
  · cases step
    exact leads_openFailed call.conn .connectTimeout
  · cases hr : s.finishCall B t call with
    | mk u reply =>
      have act := Act.finish_of_eq (h := .opening call.conn) ⟨rfl, connect⟩ hr
      rw [connect] at act
      simp only [hr] at step
      cases reply with
      | ok ms =>
        cases step
        exact .act act (clock_finishCall hr ▸ leads_openDone goal call.conn)
      | error f =>
        cases step
        exact .act act (leads_openFailed call.conn f)

theorem leads_of_evaluating {e : Evaluation} {attempt : Nat} {lease : Lease}
    (hs : s.stage? t = some (.evaluating e attempt lease call)) (conn : call.conn = lease.conn)
    (count : call.command = .count e.key e.limit e.windowMs) (step : s.step? B t = some s') :
    Leads B t ⟨.lease lease, none, s⟩ s' := by
  simp only [step?, hs] at step
  split at step
  · cases step
  · cases step
    exact leads_counted e attempt lease (.error .commandTimeout)
  · cases hr : s.finishCall B t call with
    | mk u reply =>
      have act := Act.finish_of_eq (h := .lease lease) ⟨conn, by simp [count]⟩ hr
      rw [count] at act
      simp only [hr] at step
      cases step
      cases reply with
      | ok ms => exact .act act (leads_counted e attempt lease (.ok ms))
      | error f => exact .act act (leads_counted e attempt lease (.error f))

theorem leads_of_verifying {lease : Lease} (hs : s.stage? t = some (.verifying lease call))
    (conn : call.conn = lease.conn) (ping : call.command = .ping)
    (step : s.step? B t = some s') : Leads B t ⟨.lease lease, none, s⟩ s' := by
  simp only [step?, hs] at step
  split at step
  · cases step
  · cases step
    exact leads_verified lease (.error .connectTimeout)
  · cases hr : s.finishCall B t call with
    | mk u reply =>
      have act := Act.finish_of_eq (h := .lease lease) ⟨conn, by simp [ping]⟩ hr
      rw [ping] at act
      simp only [hr] at step
      cases step
      cases reply with
      | ok ms => exact .act act (leads_verified lease (.ok ms))
      | error f => exact .act act (leads_verified lease (.error f))

/-- Nobody stops waiting for a request that is not the pool's. -/
theorem leads_of_calling (hs : s.stage? t = some (.calling call))
    (step : s.step? B t = some s') : Leads B t ⟨.nothing, none, s⟩ s' := by
  simp only [step?, hs] at step
  split at step
  · cases hr : s.finishCall B t call with
    | mk u reply =>
      have act := Act.finish_of_eq (h := .nothing) trivial hr
      have nothing : Hand.nothing.answered s.clock reply = .nothing := by cases reply <;> rfl
      rw [nothing] at act
      simp only [hr] at step
      cases step
      exact .act act (.settle _ (verdict?_answerTo call reply))
  · cases step

theorem leads_of_sweeping {sweep : Sweep} (hs : s.stage? t = some (.sweeping sweep call))
    (ping : call.command = .ping) (step : s.step? B t = some s') :
    Leads B t ⟨.probe call.conn, none, s⟩ s' := by
  simp only [step?, hs] at step
  split at step
  · cases step
  · cases step
    exact leads_swept_failed sweep call
  · cases hr : s.finishCall B t call with
    | mk u reply =>
      have act := Act.finish_of_eq (h := .probe call.conn) ⟨rfl, ping⟩ hr
      rw [ping] at act
      simp only [hr] at step
      cases reply with
      | ok ms =>
        cases step
        exact .act act (clock_finishCall hr ▸ leads_swept_ok sweep call)
      | error f =>
        cases step
        exact .act act (leads_swept_failed sweep call)

end

/-! The other stages. -/

theorem leads_of_queued {goal : Goal} {expiry : Timer}
    (hs : s.stage? t = some (.queued goal expiry)) (step : s.step? B t = some s') :
    Leads B t ⟨.place, none, s⟩ s' := by
  simp only [step?, hs] at step
  split at step
  · -- closing the pool has emptied the line
    cases step
    exact .act (.dismiss ‹_›) (Leads.fail _)
  · split at step
    · cases step
      exact .act .leave (Leads.fail _)
    · cases step

theorem leads_of_granted {goal : Goal} (hs : s.stage? t = some (.granted goal))
    (step : s.step? B t = some s') : Leads B t ⟨.permit, none, s⟩ s' := by
  simp only [step?, hs] at step
  split at step
  · cases step
    exact .act .free (Leads.fail _)
  · cases step
    exact leads_choose goal

theorem leads_of_holding {lease : Lease} {broken : Bool} {since : Time} {timer : Timer}
    (hs : s.stage? t = some (.holding lease broken since timer))
    (step : s.step? B t = some s') : Leads B t ⟨.lease lease, none, s⟩ s' := by
  simp only [step?, hs] at step
  split at step
  · cases step
    exact .act (.mark broken) (Leads.giveBack (Leads.done _ rfl))
  · cases step

/-- A step of a task leads from the stage at which it stands to the limiter after the step. -/
theorem leads_of_step? {stage : Stage} (hs : s.stage? t = some stage) (proper : stage.Proper)
    (step : s.step? B t = some s') : Leads B t ⟨stage.hand, none, s⟩ s' := by
  cases stage with
  | queued goal expiry => exact leads_of_queued hs step
  | granted goal => exact leads_of_granted hs step
  | probing goal call => exact leads_of_probing hs proper step
  | opening goal call => exact leads_of_opening hs proper step
  | evaluating e attempt lease call => exact leads_of_evaluating hs proper.1 proper.2 step
  | verifying lease call => exact leads_of_verifying hs proper.1 proper.2 step
  | holding lease broken since timer => exact leads_of_holding hs step
  | calling call => exact leads_of_calling hs step
  | sweeping sweep call => exact leads_of_sweeping hs proper step
  | fresh job =>
    simp only [step?, hs] at step
    cases step
    exact leads_begin job
  | awaiting c child =>
    simp only [step?, hs] at step
    split at step
    · cases step
      exact leads_decide child c _
    · cases step
  | joining task =>
    simp only [step?, hs] at step
    split at step
    · cases step
      exact Leads.done _ rfl
    · cases step
  | sleeping timer =>
    simp only [step?, hs] at step
    split at step
    · cases step
      exact Leads.done _ rfl
    · cases step
  | resting deadline timer =>
    simp only [step?, hs] at step
    split at step
    · cases step
      exact leads_beginSweep deadline
    · cases step
  | done time =>
    simp only [step?, hs] at step
    cases step
  | cancelled =>
    simp only [step?, hs] at step
    cases step

end Limiter

end Turnstile
