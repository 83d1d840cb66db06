import Turnstile.Proofs.Pool.Conservation
import Turnstile.Proofs.Pool.Queue
import Turnstile.Proofs.Runs.Announced

/-!
# Sweeps

A sweep is a stretch of a run, from the step of a task that begins it to the step that ends it, with
whatever others do in between. Of the sweep itself one sees its pings and the warning at its end.
Each of its steps ends one ping (`Over`) and then looks at the connection in front or ends the sweep
(`Resumes`), which is all that the steps of a sweep do to the pool (`resumes_of_step?`).
-/

namespace Turnstile

def Stage.isSweeping : Stage → Bool
  | .sweeping .. => true
  | _ => false

def Stage.isResting : Stage → Bool
  | .resting .. => true
  | _ => false

def Event.isSweepWarning : Event → Bool
  | .sweepEvicted .. => true
  | _ => false

/-- What is written down at the end of a sweep in which so many connections have failed. -/
def sweepWarnings (failed total : Nat) : List Event :=
  if 0 < failed then [.sweepEvicted failed total] else []

theorem Stage.exists_of_isSweeping {stage? : Option Stage} (h : stage?.any Stage.isSweeping) :
    ∃ sweep call, stage? = some (.sweeping sweep call) := by
  cases stage? with
  | none => cases h
  | some stage =>
    cases stage with
    | sweeping sweep call => exact ⟨sweep, call, rfl⟩
    | _ => cases h

/-- A ping for which a sweep no longer waits. -/
structure Ping where
  call : Call
  /-- When the store answered it. If it reported an error, or had not answered when the patience
  was over, there is no such time. -/
  answered : Option Time
deriving DecidableEq, Repr

/-- The connection that goes to rest again after the ping, with the time at which it answered. -/
def Ping.idle? (p : Ping) : Option Idle := p.answered.map fun time => ⟨p.call.conn, time⟩

/-- The sweep after a ping. -/
def Sweep.after (sweep : Sweep) (p : Ping) : Sweep :=
  { sweep with failed := sweep.failed + [p].countP (·.answered.isNone) }

namespace Limiter

variable {σ ε : Type} {W : Surroundings σ ε} {B : Backend σ} {s s' : Limiter σ} {t : TaskId}
  {c : ConnId}

/-! ## Sweeps and what is seen of them -/

/-- The task rests and has a sweep to begin. -/
def isDue (s : Limiter σ) (t : TaskId) : Bool :=
  match s.stage? t with
  | some (.resting _ timer) => s.rung timer
  | _ => false

/-- The task is at a sweep all along the run, and rests at its end. -/
def Sweeping (W : Surroundings σ ε) (t : TaskId) : Limiter σ → List (Move ε) → Prop
  | s, [] => (s.stage? t).any Stage.isResting
  | s, m :: rest => (s.stage? t).any Stage.isSweeping ∧ Sweeping W t (s.move W m) rest

/-- The run is a sweep of the task: it begins with the step that begins the sweep and ends with the
one that ends it. In between others may do what they like. -/
def Sweeps (W : Surroundings σ ε) (t : TaskId) (s : Limiter σ) : List (Move ε) → Prop
  | [] => False
  | m :: rest => m.stepper? = some t ∧ s.isDue t ∧ s.pool.closed = false ∧
      Sweeping W t (s.move W m) rest

instance decidableSweeping (W : Surroundings σ ε) (t : TaskId) :
    (s : Limiter σ) → (moves : List (Move ε)) → Decidable (Sweeping W t s moves)
  | s, [] => inferInstanceAs (Decidable ((s.stage? t).any Stage.isResting = true))
  | s, m :: rest =>
    have := decidableSweeping W t (s.move W m) rest
    inferInstanceAs (Decidable (_ ∧ _))

instance (W : Surroundings σ ε) (t : TaskId) (s : Limiter σ) :
    (moves : List (Move ε)) → Decidable (Sweeps W t s moves)
  | [] => .isFalse id
  | _ :: _ => inferInstanceAs (Decidable (_ ∧ _))

/-- How many connections the sweep has yet to look at. -/
def unlooked (s : Limiter σ) (t : TaskId) : Nat :=
  match s.stage? t with
  | some (.sweeping sweep _) => sweep.left
  | _ => s.pool.idle.length

/-- When the last step of a sweep was made there were connections left to be looked at, and the pool
was closed or no permit was free. -/
def CutShort (W : Surroundings σ ε) (t : TaskId) (s : Limiter σ) (moves : List (Move ε)) : Prop :=
  0 < (s.run W moves.dropLast).unlooked t ∧
    ((s.run W moves).pool.closed = true ∨ (s.run W moves).pool.free = 0)

instance (W : Surroundings σ ε) (t : TaskId) (s : Limiter σ) (moves : List (Move ε)) :
    Decidable (CutShort W t s moves) :=
  inferInstanceAs (Decidable (_ ∧ _))

/-- The ping for which the next step of a task no longer waits. -/
def ping? (B : Backend σ) (s : Limiter σ) (t : TaskId) : Option Ping :=
  match s.stage? t with
  | some (.sweeping _ call) =>
    (s.answered? B t call).map fun ok => ⟨call, if ok then some s.clock else none⟩
  | _ => none

/-- The pings of a task's sweep in a run. -/
def pings (W : Surroundings σ ε) (t : TaskId) (s : Limiter σ) (moves : List (Move ε)) : List Ping :=
  s.seen W (fun u m => if m.stepper? = some t then u.ping? W.backend t else none) moves

/-- What a move writes down, the first event in front. -/
def written (W : Surroundings σ ε) (s : Limiter σ) (m : Move ε) : List Event :=
  ((s.move W m).journal.take ((s.move W m).journal.length - s.journal.length)).reverse

/-- The warnings about connections that have failed which the steps of a task write down. -/
def warnings (W : Surroundings σ ε) (t : TaskId) (s : Limiter σ) (moves : List (Move ε)) :
    List Event :=
  (s.seen W (fun u m => if m.stepper? = some t then
    some ((u.written W m).filter Event.isSweepWarning) else none) moves).flatten

/-- A borrower takes the resting connection: it is lent, or pinged to be lent. -/
structure Borrows (W : Surroundings σ ε) (c : ConnId) (s : Limiter σ) (m : Move ε) : Prop where
  rests : c ∈ s.pool.idle.map (·.conn)
  taken : c ∈ (s.move W m).borrowed ∨
    ∃ v goal call, (s.move W m).stage? v = some (.probing goal call) ∧ call.conn = c

/-- The sweep of another task takes the resting connection. -/
structure Diverts (W : Surroundings σ ε) (t : TaskId) (c : ConnId) (s : Limiter σ) (m : Move ε) :
    Prop where
  rests : c ∈ s.pool.idle.map (·.conn)
  taken : ∃ v ≠ t, ∃ sweep call,
    (s.move W m).stage? v = some (.sweeping sweep call) ∧ call.conn = c

/-- No other task comes to a sweep. -/
def OnlySweep (W : Surroundings σ ε) (t : TaskId) (s : Limiter σ) (moves : List (Move ε)) : Prop :=
  ¬Happens W (fun u m => ∃ v ≠ t, ((u.move W m).stage? v).any Stage.isSweeping) s moves

/-- Nothing but the steps of the task touches the pool. -/
def Alone (W : Surroundings σ ε) (t : TaskId) : Limiter σ → List (Move ε) → Prop
  | _, [] => True
  | s, m :: rest => (m.stepper? = some t ∨ (s.move W m).pool = s.pool) ∧
      Alone W t (s.move W m) rest

instance decidableAlone (W : Surroundings σ ε) (t : TaskId) :
    (s : Limiter σ) → (moves : List (Move ε)) → Decidable (Alone W t s moves)
  | _, [] => .isTrue trivial
  | s, m :: rest =>
    have := decidableAlone W t (s.move W m) rest
    inferInstanceAs (Decidable (_ ∧ _))

/-! ## From one connection to the next -/

/-- The request is a ping that was made at that time, with a patience of so many milliseconds. -/
def PingFor (B : Backend σ) (ms : Nat) (time : Time) (call : Call) : Prop :=
  ∃ s : Limiter σ, s.clock = time ∧ call = (s.startCall B call.conn .ping (some ms)).2

/-- A sweep that goes on looks at the connection in front, or ends. -/
inductive Resumes (B : Backend σ) (t : TaskId) (sweep : Sweep) (s s' : Limiter σ) : Prop
  | looks {i : Idle} {rest : List Idle} {call : Call} (front : s.pool.idle = i :: rest)
    (more : 0 < sweep.left) (isOpen : s.pool.closed = false) (permit : 0 < s.pool.free)
    (pool : s'.pool = { s.pool with idle := rest, free := s.pool.free - 1 })
    (stage : s'.stage? t = some (.sweeping { sweep with left := sweep.left - 1 } call))
    (conn : call.conn = i.conn)
    (asked : PingFor B s.settings.connectTimeout s.clock call)
    (journal : s'.journal = s.journal)
  | ends (why : s.pool.idle = [] ∨ sweep.left = 0 ∨ s.pool.closed = true ∨ s.pool.free = 0)
    (pool : s'.pool = s.pool) (stage : (s'.stage? t).any Stage.isResting)
    (journal : s'.journal = sweepWarnings sweep.failed sweep.total ++ s.journal)

theorem resumes_endSweep (ht : t ∈ Table.keys s.tasks) {sweep : Sweep}
    (why : s.pool.idle = [] ∨ sweep.left = 0 ∨ s.pool.closed = true ∨ s.pool.free = 0) :
    Resumes B t sweep s (s.endSweep t sweep) := by
  unfold endSweep
  split
  · rename_i some_failed
    let u := s.emit (.sweepEvicted sweep.failed sweep.total)
    refine .ends why rfl ?_ ?_
    · rw [restUntil, stage?_setStage_self (s := (u.setTimerTo _).1) ht]
      rfl
    · rw [sweepWarnings, if_pos some_failed]
      rfl
  · rename_i none_failed
    refine .ends why rfl ?_ ?_
    · rw [restUntil, stage?_setStage_self (s := (s.setTimerTo _).1) ht]
      rfl
    · rw [sweepWarnings, if_neg none_failed]
      rfl

theorem resumes_sweepOn (ht : t ∈ Table.keys s.tasks) (sweep : Sweep) :
    Resumes B t sweep s (s.sweepOn B t sweep) := by
  cases front : s.pool.idle with
  | nil =>
    simp only [sweepOn, front]
    exact resumes_endSweep ht (.inl front)
  | cons i rest =>
    simp only [sweepOn, front]
    split
    · rename_i stop
      exact resumes_endSweep ht (.inr stop)
    · rename_i go
      simp only [not_or, Bool.not_eq_true] at go
      obtain ⟨more, isOpen, permit⟩ := go
      let u : Limiter σ :=
        { s with pool := { s.pool with idle := rest, free := s.pool.free - 1 } }
      have conn := conn_startCall (B := B) (s := u) i.conn .ping (some s.settings.connectTimeout)
      refine .looks front (Nat.pos_of_ne_zero more) isOpen (Nat.pos_of_ne_zero permit) (by simp)
        (stage?_setStage_self (by simpa using ht) _) conn ⟨u, rfl, ?_⟩ (by simp)
      rw [conn]

theorem Resumes.asked {sweep after : Sweep} {call : Call} (resumes : Resumes B t sweep s s')
    (hs : s'.stage? t = some (.sweeping after call)) :
    PingFor B s.settings.connectTimeout s.clock call := by
  cases resumes with
  | looks _ _ _ _ _ stage _ asked =>
    cases hs.symm.trans stage
    exact asked
  | ends _ _ stage =>
    rw [hs] at stage
    cases stage

/-- A ping of a sweep is over, and the permit for it has been given back. -/
structure Over (s : Limiter σ) (p : Ping) (s' : Limiter σ) : Prop where
  grows : Grows s s'
  idle : s.pool.closed = false → s'.pool.idle = s.pool.idle ++ p.idle?.toList
  closed : s'.pool.closed = s.pool.closed
  permit : s.pool.line = [] → s'.pool.line = [] ∧ 0 < s'.pool.free
  settings : s'.settings = s.settings
  clock : s'.clock = s.clock
  keys : Table.keys s'.tasks = Table.keys s.tasks
  journal : ∃ recent, s'.journal = recent ++ s.journal ∧ ∀ e ∈ recent, e.isSweepWarning = false

namespace Over

variable {p : Ping}

theorem freePermit (s : Limiter σ) (call : Call) : Over s ⟨call, none⟩ s.freePermit where
  grows := .freePermit
  idle _ := by simp [Ping.idle?]
  closed := by simp
  permit line := by
    rcases s.freePermit_cases with ⟨-, heq⟩ | ⟨v, rest, front, -⟩ | ⟨v, rest, _, _, _, front, -⟩
    · rw [heq]
      exact ⟨line, Nat.succ_pos _⟩
    · cases line.symm.trans front
    · cases line.symm.trans front
  settings := by simp
  clock := by simp
  keys := by simp
  journal := ⟨[], by simp, nofun⟩

/-- The connection has answered and is laid to rest first. -/
theorem rest (s : Limiter σ) (call : Call) :
    Over s ⟨call, some s.clock⟩
      ({ s with pool := s.pool.rest ⟨call.conn, s.clock⟩ } : Limiter σ).freePermit := by
  let u : Limiter σ := { s with pool := s.pool.rest ⟨call.conn, s.clock⟩ }
  have back := freePermit u call
  refine ⟨(Grows.rest _).trans back.grows, fun isOpen => ?_, ?_, fun line => ?_, back.settings,
    back.clock, back.keys, back.journal⟩
  · have hrest : u.pool.idle = s.pool.idle ++ [⟨call.conn, s.clock⟩] :=
      congrArg Pool.idle (Pool.rest_of_open isOpen _)
    rw [u.still_freePermit.idle, hrest]
    rfl
  · exact back.closed.trans (Pool.closed_rest ..)
  · exact back.permit ((Pool.line_rest ..).trans line)

/-- What the store answered is written down before. -/
theorem after_finishCall {call : Call} {v : Limiter σ} {reply : Reply}
    (hr : s.finishCall B t call = (v, reply)) (ended : Over v p s') : Over s p s' := by
  obtain rfl : v = (s.finishCall B t call).1 := (congrArg Prod.fst hr).symm
  obtain ⟨recent, hrecent, silent⟩ := ended.journal
  refine ⟨ended.grows, ended.idle, ended.closed, ended.permit, ended.settings, ended.clock,
    ended.keys, recent ++ (answerEvents s.clock t call (s.finishCall B t call).2).reverse, ?_, ?_⟩
  · rw [hrecent, List.append_assoc]
    rfl
  · refine List.forall_mem_append.mpr ⟨silent, fun e he => ?_⟩
    rw [List.mem_reverse] at he
    unfold answerEvents at he
    split at he
    · cases he
    · split at he <;> rw [List.mem_singleton.mp he] <;> rfl

end Over

/-- A step at a sweep ends a ping and goes on to the next connection. -/
theorem resumes_of_step? {sweep : Sweep} {call : Call}
    (hs : s.stage? t = some (.sweeping sweep call)) (step : s.step? B t = some s') :
    ∃ p u, s.ping? B t = some p ∧ p.call = call ∧ Over s p u ∧
      Resumes B t (sweep.after p) u s' := by
  have ht := mem_keys_of_stage? hs
  -- the store has reported an error, or the patience is over
  have failed : ∀ {v : Limiter σ}, Over s ⟨call, none⟩ v.freePermit →
      s.answered? B t call = some false → v.swept B t sweep call false = s' →
      ∃ p u, s.ping? B t = some p ∧ p.call = call ∧ Over s p u ∧
        Resumes B t (sweep.after p) u s' := by
    rintro v ended answered rfl
    refine ⟨⟨call, none⟩, v.freePermit, ?_, rfl, ended, ?_⟩
    · simp [ping?, hs, answered]
    · exact resumes_sweepOn (ended.keys ▸ ht) _
  simp only [step?, hs] at step
  split at step
  · cases step
  · rename_i late
    exact failed (.freePermit s call) (answered?_of_late late) (Option.some.inj step)
  · rename_i ripe
    cases hr : s.finishCall B t call with
    | mk v reply =>
      have answered := answered?_of_ripe ripe (congrArg Prod.snd hr)
      simp only [hr] at step
      cases reply with
      | ok ms =>
        have clock := clock_finishCall hr
        have ended := Over.after_finishCall hr (.rest v call)
        refine ⟨_, _, ?_, rfl, ended, ?_⟩
        · rw [clock]
          simp [ping?, hs, answered, Except.isOk, Except.toBool]
        · rw [← Option.some.inj step]
          exact resumes_sweepOn (ended.keys ▸ ht) sweep
      | error f =>
        exact failed (.after_finishCall hr (.freePermit v call)) answered (Option.some.inj step)

/-- A task that is at a sweep and cannot go on waits for the ping. -/
theorem ping?_of_step?_eq_none (blocked : s.step? B t = none) : s.ping? B t = none := by
  unfold ping?
  split
  · rename_i sweep call hs
    simp only [step?, hs] at blocked
    split at blocked
    · rename_i pending
      simp only [answered?, pending]
      rfl
    · cases blocked
    · split at blocked <;> cases blocked
  · rfl

/-! ## One move of a sweep -/

/-- During a sweep the task is at the sweep or, at the end, rests. -/
theorem Sweeping.stage {moves : List (Move ε)} (sweeping : Sweeping W t s moves) :
    (s.stage? t).any Stage.isSweeping ∨ (s.stage? t).any Stage.isResting := by
  cases moves with
  | nil => exact .inr sweeping
  | cons m rest => exact .inl sweeping.1

/-- When the task rests the sweep has ended. -/
theorem Sweeping.eq_nil {moves : List (Move ε)} (sweeping : Sweeping W t s moves)
    (rests : (s.stage? t).any Stage.isResting) : moves = [] := by
  cases moves with
  | nil => rfl
  | cons m rest =>
    obtain ⟨sweep, call, hs⟩ := Stage.exists_of_isSweeping sweeping.1
    rw [hs] at rests
    cases rests

theorem Sweeping.ne_nil {moves : List (Move ε)} (sweeping : Sweeping W t s moves) {sweep : Sweep}
    {call : Call} (hs : s.stage? t = some (.sweeping sweep call)) : moves ≠ [] := by
  rintro rfl
  have rests : (s.stage? t).any Stage.isResting := sweeping
  rw [hs] at rests
  cases rests

/-- What others do leaves a task where it is in its sweep. -/
theorem stage?_of_other (tidy : Tidy s) {sweep : Sweep} {call : Call}
    (hs : s.stage? t = some (.sweeping sweep call)) {m : Move ε} (other : m.stepper? ≠ some t)
    {rest : List (Move ε)} (sweeping : Sweeping W t (s.move W m) rest) :
    (s.move W m).stage? t = some (.sweeping sweep call) := by
  obtain ⟨task, hget, hstage⟩ := Option.map_eq_some_iff.mp hs
  cases fate_move W tidy hget m with
  | spared stage entry handed counts =>
    rw [hstage] at handed
    cases handed
    exact stage?_of_get? entry
  | cancelled which entry counts =>
    have stopped : (s.move W m).stage? t = some .cancelled := stage?_of_get? entry
    rcases sweeping.stage with h | h <;> rw [stopped] at h <;> cases h
  | stepped which step => exact absurd (which ▸ rfl) other

section

variable {m : Move ε} {rest : List (Move ε)}

theorem run_cons_of_none (blocked : s.step? W.backend t = none) :
    s.run W (.step t :: rest) = s.run W rest := by
  rw [run, List.foldl_cons, move_step_of_none blocked]
  rfl

theorem run_cons_of_some (step : s.step? W.backend t = some s') :
    s.run W (.step t :: rest) = s'.run W rest := by
  rw [run, List.foldl_cons, move_step_of_some step]
  rfl

theorem pings_cons_of_none (blocked : s.step? W.backend t = none) :
    s.pings W t (.step t :: rest) = s.pings W t rest := by
  rw [pings, seen, move_step_of_none blocked]
  simp [Move.stepper?, ping?_of_step?_eq_none blocked, pings]

theorem pings_cons_of_some (step : s.step? W.backend t = some s') :
    s.pings W t (.step t :: rest) = (s.ping? W.backend t).toList ++ s'.pings W t rest := by
  rw [pings, seen, move_step_of_some step]
  simp [Move.stepper?, pings]

theorem pings_cons_other (other : m.stepper? ≠ some t) :
    s.pings W t (m :: rest) = (s.move W m).pings W t rest := by
  simp [pings, seen, other]

theorem written_of_eq {recent : List Event} (journal : (s.move W m).journal = recent ++ s.journal) :
    s.written W m = recent.reverse := by
  rw [written, journal, List.length_append, Nat.add_sub_cancel, List.take_left']
  rfl

theorem warnings_cons_of_none (blocked : s.step? W.backend t = none) :
    s.warnings W t (.step t :: rest) = s.warnings W t rest := by
  have unchanged : (s.move W (.step t)).journal = [] ++ s.journal :=
    congrArg journal (move_step_of_none blocked)
  rw [warnings, seen, written_of_eq unchanged, move_step_of_none blocked]
  simp [Move.stepper?, warnings]

theorem warnings_cons_of_some (step : s.step? W.backend t = some s') {recent : List Event}
    (journal : s'.journal = recent ++ s.journal) : s.warnings W t (.step t :: rest) =
      recent.reverse.filter Event.isSweepWarning ++ s'.warnings W t rest := by
  have hmove := move_step_of_some step
  have hwritten : s.written W (.step t) = recent.reverse := written_of_eq (hmove ▸ journal)
  rw [warnings, seen, hmove, hwritten]
  simp [Move.stepper?, warnings]

theorem warnings_cons_other (other : m.stepper? ≠ some t) :
    s.warnings W t (m :: rest) = (s.move W m).warnings W t rest := by
  simp [warnings, seen, other]

theorem cutShort_cons (more : rest ≠ []) :
    CutShort W t s (m :: rest) ↔ CutShort W t (s.move W m) rest := by
  rw [CutShort, List.dropLast_cons_of_ne_nil more]
  rfl

end

end Limiter

end Turnstile
