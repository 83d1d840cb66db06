import Turnstile.Proofs.Runs.Tasks

/-!
# What an operation leaves alone

An operation on tasks, permits or requests changes a few fields of a limiter. Its frame says what
these become, where that takes no case distinction, and of every other field that it stays. The
frames are for `simp`: no proof has to open an operation to look at what it does not touch.
-/

namespace Turnstile

namespace Limiter

variable {σ : Type} {B : Backend σ} {s : Limiter σ} {t u : TaskId}

/-! ## Tasks -/

@[simp] theorem wakeAll_frame (s : Limiter σ) (ts : List TaskId) :
    (s.wakeAll ts).clock = s.clock ∧ (s.wakeAll ts).backend = s.backend ∧
      (s.wakeAll ts).settings = s.settings ∧ (s.wakeAll ts).pool = s.pool ∧
      (s.wakeAll ts).flag = s.flag ∧ (s.wakeAll ts).totals = s.totals ∧
      (s.wakeAll ts).metrics = s.metrics ∧ (s.wakeAll ts).journal = s.journal ∧
      (s.wakeAll ts).tasks = s.tasks ∧ (s.wakeAll ts).held = s.held ∧
      (s.wakeAll ts).opened = s.opened ∧ (s.wakeAll ts).nextTask = s.nextTask ∧
      (s.wakeAll ts).nextConn = s.nextConn ∧ (s.wakeAll ts).nextSerial = s.nextSerial := by
  obtain ⟨ready, heq⟩ := s.wakeAll_eq ts
  simp [heq]

@[simp] theorem setStage_frame (s : Limiter σ) (t : TaskId) (stage : Stage) :
    (s.setStage t stage).clock = s.clock ∧ (s.setStage t stage).backend = s.backend ∧
      (s.setStage t stage).settings = s.settings ∧ (s.setStage t stage).pool = s.pool ∧
      (s.setStage t stage).flag = s.flag ∧ (s.setStage t stage).totals = s.totals ∧
      (s.setStage t stage).metrics = s.metrics ∧ (s.setStage t stage).journal = s.journal ∧
      (s.setStage t stage).ready = s.ready ∧ (s.setStage t stage).held = s.held ∧
      (s.setStage t stage).opened = s.opened ∧ (s.setStage t stage).nextTask = s.nextTask ∧
      (s.setStage t stage).nextConn = s.nextConn ∧
      (s.setStage t stage).nextSerial = s.nextSerial := by
  simp [setStage]

@[simp] theorem start_frame (s : Limiter σ) (jobs : List Job) :
    (s.start jobs).1.clock = s.clock ∧ (s.start jobs).1.backend = s.backend ∧
      (s.start jobs).1.settings = s.settings ∧ (s.start jobs).1.pool = s.pool ∧
      (s.start jobs).1.flag = s.flag ∧ (s.start jobs).1.totals = s.totals ∧
      (s.start jobs).1.metrics = s.metrics ∧ (s.start jobs).1.journal = s.journal ∧
      (s.start jobs).1.tasks = Table.put s.tasks s.nextTask (.ofJobs s.clock jobs) ∧
      (s.start jobs).1.held = s.held ∧ (s.start jobs).1.opened = s.opened ∧
      (s.start jobs).1.nextTask = s.nextTask + 1 ∧ (s.start jobs).1.nextConn = s.nextConn ∧
      (s.start jobs).1.nextSerial = s.nextSerial := by
  obtain ⟨ready, heq⟩ := s.start_eq jobs
  simp [heq]

theorem get?_start_self (s : Limiter σ) (jobs : List Job) :
    Table.get? (s.start jobs).1.tasks s.nextTask = some (.ofJobs s.clock jobs) := by
  simp

theorem get?_start_ne (ht : t ≠ s.nextTask) (jobs : List Job) :
    Table.get? (s.start jobs).1.tasks t = Table.get? s.tasks t := by
  simp [ht]

@[simp] theorem settle_frame (s : Limiter σ) (t : TaskId) (outcome : Outcome) :
    (s.settle t outcome).clock = s.clock ∧ (s.settle t outcome).backend = s.backend ∧
      (s.settle t outcome).settings = s.settings ∧ (s.settle t outcome).pool = s.pool ∧
      (s.settle t outcome).flag = s.flag ∧ (s.settle t outcome).totals = s.totals ∧
      (s.settle t outcome).metrics = s.metrics ∧ (s.settle t outcome).journal = s.journal ∧
      (s.settle t outcome).tasks = Table.modify s.tasks t (·.settled s.clock outcome) ∧
      (s.settle t outcome).held = s.held ∧ (s.settle t outcome).opened = s.opened ∧
      (s.settle t outcome).nextTask = s.nextTask ∧ (s.settle t outcome).nextConn = s.nextConn ∧
      (s.settle t outcome).nextSerial = s.nextSerial := by
  cases ht : Table.get? s.tasks t with
  | none => simp [settle, ht, Table.modify]
  | some task =>
    obtain ⟨ready, heq⟩ := settle_eq ht outcome
    simp [heq, ht, Table.modify]

/-- A job that fails ends like any other. -/
@[simp] theorem fail_eq (s : Limiter σ) (t : TaskId) (f : Fault) :
    s.fail t f = s.settle t (.error (.fault f)) := rfl

/-- Whoever has ended a job has nothing in hand. -/
@[simp] theorem hand_settle_self (s : Limiter σ) (t : TaskId) (outcome : Outcome) :
    (s.settle t outcome).hand t = .nothing := by
  cases ht : Table.get? s.tasks t with
  | none => exact hand_of_none (by simp [stage?, ht])
  | some task => exact (hand_of_get? (by simp [ht])).trans (task.hand_settled s.clock outcome)

@[simp] theorem hand_settle_ne (hne : u ≠ t) (outcome : Outcome) :
    (s.settle t outcome).hand u = s.hand u := by
  simp [hand, stage?, hne]

@[simp] theorem outcomes_settle (ht : t ∈ Table.keys s.tasks) (outcome : Outcome) :
    (s.settle t outcome).outcomes t = s.outcomes t ++ [outcome] := by
  obtain ⟨task, hget⟩ := Option.isSome_iff_exists.mp (Table.get?_isSome_iff.mpr ht)
  simp [outcomes, hget]

/-! ## Permits -/

@[simp] theorem freePermit_frame (s : Limiter σ) :
    s.freePermit.clock = s.clock ∧ s.freePermit.backend = s.backend ∧
      s.freePermit.settings = s.settings ∧ s.freePermit.pool.idle = s.pool.idle ∧
      s.freePermit.pool.closed = s.pool.closed ∧ s.freePermit.flag = s.flag ∧
      s.freePermit.totals = s.totals ∧ s.freePermit.metrics = s.metrics ∧
      s.freePermit.journal = s.journal ∧ s.freePermit.held = s.held ∧
      s.freePermit.opened = s.opened ∧ s.freePermit.nextTask = s.nextTask ∧
      s.freePermit.nextConn = s.nextConn ∧ s.freePermit.nextSerial = s.nextSerial := by
  rcases s.freePermit_cases with ⟨-, h⟩ | ⟨u, rest, -, -, h⟩ |
    ⟨u, rest, goal, expiry, ready, -, -, h⟩ <;> simp [h]

@[simp] theorem giveBack_frame (s : Limiter σ) (l : Lease) :
    (s.giveBack l).clock = s.clock ∧ (s.giveBack l).backend = s.backend ∧
      (s.giveBack l).settings = s.settings ∧
      (s.giveBack l).pool.idle = (s.pool.takeBack s.settings.keepalive l).idle ∧
      (s.giveBack l).pool.closed = s.pool.closed ∧ (s.giveBack l).flag = s.flag ∧
      (s.giveBack l).totals = s.totals ∧ (s.giveBack l).metrics = s.metrics ∧
      (s.giveBack l).journal = s.journal ∧ (s.giveBack l).held = s.held ∧
      (s.giveBack l).opened = s.opened ∧ (s.giveBack l).nextTask = s.nextTask ∧
      (s.giveBack l).nextConn = s.nextConn ∧ (s.giveBack l).nextSerial = s.nextSerial := by
  simp [giveBack]

@[simp] theorem keys_giveBack (s : Limiter σ) (l : Lease) :
    Table.keys (s.giveBack l).tasks = Table.keys s.tasks := by
  simp [giveBack]

/-! ## Requests and decisions -/

@[simp] theorem startCall_frame (s : Limiter σ) (conn : ConnId) (command : Command)
    (patience : Option Nat) :
    (s.startCall B conn command patience).1.clock = s.clock ∧
      (s.startCall B conn command patience).1.settings = s.settings ∧
      (s.startCall B conn command patience).1.pool = s.pool ∧
      (s.startCall B conn command patience).1.flag = s.flag ∧
      (s.startCall B conn command patience).1.totals = s.totals ∧
      (s.startCall B conn command patience).1.metrics = s.metrics ∧
      (s.startCall B conn command patience).1.journal = s.journal ∧
      (s.startCall B conn command patience).1.tasks = s.tasks ∧
      (s.startCall B conn command patience).1.ready = s.ready ∧
      (s.startCall B conn command patience).1.held = s.held ∧
      (s.startCall B conn command patience).1.opened = s.opened ∧
      (s.startCall B conn command patience).1.nextTask = s.nextTask ∧
      (s.startCall B conn command patience).1.nextConn = s.nextConn := by
  simp only [startCall]
  cases (B.start s.backend conn command).2 <;> cases patience <;>
    simp [dueAfter, setTimer, setTimerTo]

@[simp] theorem decideOn_frame (s : Limiter σ) (t child : TaskId) (c : Charge)
    (outcome : Except Fault Verdict) :
    (s.decideOn t child c outcome).1.clock = s.clock ∧
      (s.decideOn t child c outcome).1.backend = s.backend ∧
      (s.decideOn t child c outcome).1.settings = s.settings ∧
      (s.decideOn t child c outcome).1.pool = s.pool ∧
      (s.decideOn t child c outcome).1.totals = s.totals.add (s.decideOn t child c outcome).2 ∧
      (s.decideOn t child c outcome).1.metrics =
        s.metrics.bump (.ofDecision c.service (s.decideOn t child c outcome).2) ∧
      (s.decideOn t child c outcome).1.tasks = s.tasks ∧
      (s.decideOn t child c outcome).1.ready = s.ready ∧
      (s.decideOn t child c outcome).1.held = s.held ∧
      (s.decideOn t child c outcome).1.opened = s.opened ∧
      (s.decideOn t child c outcome).1.nextTask = s.nextTask ∧
      (s.decideOn t child c outcome).1.nextConn = s.nextConn ∧
      (s.decideOn t child c outcome).1.nextSerial = s.nextSerial := by
  cases outcome with
  | ok v => cases v <;> simp [decideOn, record, clear, tally, emit, emitAll]
  | error f => simp [decideOn, record, raise, tally, emit, emitAll]

end Limiter

end Turnstile
