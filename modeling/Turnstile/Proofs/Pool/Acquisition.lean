import Turnstile.Proofs.Pool.Sweeps
import Turnstile.Proofs.Runs.Phases

/-!
# Getting a connection

Somebody asks for a connection while a permit is free and nobody else does anything. A resting
connection that is stale is pinged, and dropped if it fails or takes too long; each ping takes its
time, so that connections further back may be stale by the time they come to the front. `Evicts`
says which connections go that way, `Acquired` what comes of it in the end, and `Hunts` how things
stand in between. `acquire_evicts` follows an acquire from its beginning to its end.
-/

namespace Turnstile

/-- Whether a task at the stage looks for a connection with a permit in hand. -/
def Stage.isSeeking : Stage → Bool
  | .probing .. | .opening .. => true
  | _ => false

/-- Whether a resting connection may not be lent without a ping at that time. -/
def PoolSettings.Stale (p : PoolSettings) (now : Time) (i : Idle) : Prop :=
  p.healthCheckInterval * usPerMs ≤ now - i.checkedAt

instance (p : PoolSettings) (now : Time) (i : Idle) : Decidable (p.Stale now i) :=
  inferInstanceAs (Decidable (_ ≤ _))

/-- A request of somebody who looks for a connection, when the waiting for it was over, and what the
store had answered by then. -/
structure Query where
  call : Call
  endedAt : Time
  reply : Reply

namespace Limiter

variable {σ ε : Type} {W : Surroundings σ ε} {B : Backend σ} {s s' u v : Limiter σ} {t : TaskId}
  {goal : Goal}

/-! ## What is seen of an acquire -/

/-- The request for which the next step of a task no longer waits. One that has taken too long
counts as answered with that fault. -/
def query? (B : Backend σ) (s : Limiter σ) (t : TaskId) : Option Query :=
  match s.stage? t with
  | some (.probing _ call) | some (.opening _ call) =>
    match s.progress call with
    | .pending => none
    | .late => some ⟨call, s.clock, .error .connectTimeout⟩
    | .ripe => some ⟨call, s.clock, (s.finishCall B t call).2⟩
  | _ => none

/-- The requests that a task has made in a run while it looked for a connection. -/
def queries (W : Surroundings σ ε) (t : TaskId) (s : Limiter σ) (moves : List (Move ε)) :
    List Query :=
  s.seen W (fun u m => if m.stepper? = some t then u.query? W.backend t else none) moves

/-- The task looks for a connection before each move of the run. -/
def Seeks (W : Surroundings σ ε) (t : TaskId) : Limiter σ → List (Move ε) → Prop
  | _, [] => True
  | s, m :: rest => (s.stage? t).any Stage.isSeeking ∧ Seeks W t (s.move W m) rest

instance decidableSeeks (W : Surroundings σ ε) (t : TaskId) :
    (s : Limiter σ) → (moves : List (Move ε)) → Decidable (Seeks W t s moves)
  | _, [] => .isTrue trivial
  | s, m :: rest =>
    have := decidableSeeks W t (s.move W m) rest
    inferInstanceAs (Decidable (_ ∧ _))

/-- The request was made at that time, with a patience of so many milliseconds. -/
def CallFor (B : Backend σ) (command : Command) (ms : Nat) (time : Time) (call : Call) : Prop :=
  ∃ s : Limiter σ, s.clock = time ∧ call = (s.startCall B call.conn command (some ms)).2

/-- With these requests an acquire that began with the limiter has pinged the connections at the
front and dropped them, and now these rest. Each of those was stale when its ping was made, which
was as soon as the ping before was over, and each ping failed or took too long. -/
inductive Evicts (B : Backend σ) (s : Limiter σ) : List Query → Time → List Idle → Prop
  | none : Evicts B s [] s.clock s.pool.idle
  | one {pings : List Query} {now : Time} {i : Idle} {rest : List Idle} {q : Query}
    (before : Evicts B s pings now (i :: rest)) (stale : s.settings.Stale now i)
    (asked : CallFor B .ping s.settings.connectTimeout now q.call) (conn : q.call.conn = i.conn)
    (later : now ≤ q.endedAt) (failed : q.reply.isOk = false) :
    Evicts B s (pings ++ [q]) q.endedAt rest

/-- What has come of an acquire that began with the limiter `s`, by the time of `u`. -/
inductive Acquired (B : Backend σ) (s u : Limiter σ) : List Query → Except Fault Lease → Prop
  /-- The connection in front is fresh and lent as it is. -/
  | fresh {pings : List Query} {i : Idle} {rest : List Idle}
    (evicted : Evicts B s pings u.clock (i :: rest)) (fresh : ¬s.settings.Stale u.clock i)
    (pool : u.pool = { s.pool with idle := rest, free := s.pool.free - 1 })
    (flag : u.flag = s.flag) (opened : u.opened = s.opened) (numbers : u.nextConn = s.nextConn) :
    Acquired B s u pings (.ok ⟨i.conn, i.checkedAt, false⟩)
  /-- The connection in front is stale and has answered a ping. -/
  | answered {pings : List Query} {now : Time} {i : Idle} {rest : List Idle} {call : Call}
    {ms : Nat} (evicted : Evicts B s pings now (i :: rest)) (stale : s.settings.Stale now i)
    (asked : CallFor B .ping s.settings.connectTimeout now call) (conn : call.conn = i.conn)
    (later : now ≤ u.clock)
    (pool : u.pool = { s.pool with idle := rest, free := s.pool.free - 1 })
    (flag : u.flag = s.flag) (opened : u.opened = s.opened) (numbers : u.nextConn = s.nextConn) :
    Acquired B s u (pings ++ [⟨call, u.clock, .ok ms⟩]) (.ok ⟨i.conn, u.clock, false⟩)
  /-- None was left, and one has been opened. -/
  | opened {pings : List Query} {now : Time} {call : Call} {ms : Nat}
    (evicted : Evicts B s pings now [])
    (asked : CallFor B .connect s.settings.connectTimeout now call)
    (conn : call.conn = s.nextConn) (later : now ≤ u.clock)
    (pool : u.pool = { s.pool with idle := [], free := s.pool.free - 1 })
    (flag : u.flag = s.flag.clear.1) (opened : u.opened = s.opened + 1)
    (numbers : u.nextConn = s.nextConn + 1) :
    Acquired B s u (pings ++ [⟨call, u.clock, .ok ms⟩]) (.ok ⟨s.nextConn, u.clock, false⟩)
  /-- None was left, and none could be opened. -/
  | failed {pings : List Query} {now : Time} {call : Call} {f : Fault}
    (evicted : Evicts B s pings now [])
    (asked : CallFor B .connect s.settings.connectTimeout now call)
    (conn : call.conn = s.nextConn) (later : now ≤ u.clock)
    (pool : u.pool = { s.pool with idle := [] })
    (flag : u.flag = (s.flag.raise u.clock f.message).1) (opened : u.opened = s.opened)
    (numbers : u.nextConn = s.nextConn + 1) :
    Acquired B s u (pings ++ [⟨call, u.clock, .error f⟩]) (.error f)

/-- How a task goes on that has asked for a connection. -/
def resume (B : Backend σ) (s : Limiter σ) (t : TaskId) (goal : Goal) :
    Except Fault Lease → Limiter σ
  | .ok l => s.employ B t goal l
  | .error f => s.fail t f

/-! ## While an acquire goes on -/

theorem isFresh_iff (s : Limiter σ) (i : Idle) :
    s.isFresh i = true ↔ ¬s.settings.Stale s.clock i := by
  rw [isFresh, decide_eq_true_eq, PoolSettings.Stale, Nat.not_le]

theorem CallFor.command {command : Command} {ms : Nat} {time : Time} {call : Call}
    (h : CallFor B command ms time call) : call.command = command := by
  obtain ⟨s, -, heq⟩ := h
  rw [heq]
  exact command_startCall ..

/-- Whoever has made a request can go on after some time. -/
theorem CallFor.expiry {command : Command} {ms : Nat} {time : Time} {call : Call}
    (h : CallFor B command ms time call) : call.expiry.isSome = true := by
  obtain ⟨s, -, heq⟩ := h
  rw [heq]
  exact expiry_startCall ..

/-- Each ping has used a connection up. -/
theorem Evicts.length {pings : List Query} {now : Time} {rest : List Idle}
    (evicted : Evicts B s pings now rest) : pings.length + rest.length = s.pool.idle.length := by
  induction evicted with
  | none => exact Nat.zero_add _
  | one _ _ _ _ _ _ ih =>
    rw [List.length_append, List.length_singleton, Nat.add_assoc, Nat.add_comm 1, ← ih]
    rfl

/-- An acquire has taken a permit and connections from the queue, and changed nothing else. -/
structure Holds (s v : Limiter σ) : Prop where
  pool : v.pool = { s.pool with idle := v.pool.idle, free := s.pool.free - 1 }
  flag : v.flag = s.flag
  opened : v.opened = s.opened
  settings : v.settings = s.settings

/-- A task has made a request and waits for the answer. -/
structure Asked (B : Backend σ) (t : TaskId) (s : Limiter σ) (conn : ConnId) (command : Command)
    (ms : Nat) (stage : Call → Stage) (s' : Limiter σ) : Prop where
  call : ∃ call, s'.stage? t = some (stage call) ∧ call.conn = conn ∧
    CallFor B command ms s.clock call
  clock : s'.clock = s.clock
  pool : s'.pool = s.pool
  flag : s'.flag = s.flag
  opened : s'.opened = s.opened
  settings : s'.settings = s.settings
  numbers : s'.nextConn = s.nextConn

theorem asked_setStage (ht : t ∈ Table.keys s.tasks) (conn : ConnId) (command : Command) (ms : Nat)
    (stage : Call → Stage) : Asked B t s conn command ms stage
      ((s.startCall B conn command (some ms)).1.setStage t
        (stage (s.startCall B conn command (some ms)).2)) := by
  have still : Still s (s.startCall B conn command (some ms)).1 := .startCall ..
  have hconn := conn_startCall (B := B) (s := s) conn command (some ms)
  have call : ∃ call, ((s.startCall B conn command (some ms)).1.setStage t
      (stage (s.startCall B conn command (some ms)).2)).stage? t = some (stage call) ∧
        call.conn = conn ∧ CallFor B command ms s.clock call :=
    ⟨_, stage?_setStage_self (still.keys ht) _, hconn, s, rfl, by rw [hconn]⟩
  refine ⟨call, ?_, ?_, ?_, ?_, ?_, ?_⟩ <;>
    · simp only [startCall, setStage]
      cases (B.start s.backend conn command).2 <;> rfl

theorem Holds.asked {conn : ConnId} {command : Command} {ms : Nat} {stage : Call → Stage}
    (holds : Holds s u) (asked : Asked B t u conn command ms stage v) : Holds s v where
  pool := by
    rw [asked.pool]
    exact holds.pool
  flag := asked.flag.trans holds.flag
  opened := asked.opened.trans holds.opened
  settings := asked.settings.trans holds.settings

/-- How things stand while an acquire that began with the limiter `s` goes on, and which requests
are over. -/
inductive Hunts (B : Backend σ) (s : Limiter σ) (t : TaskId) (goal : Goal) (queries : List Query)
    (v : Limiter σ) : Prop
  | probes {now : Time} {i : Idle} {call : Call}
    (evicted : Evicts B s queries now (i :: v.pool.idle)) (stale : s.settings.Stale now i)
    (asked : CallFor B .ping s.settings.connectTimeout now call) (conn : call.conn = i.conn)
    (later : now ≤ v.clock) (stage : v.stage? t = some (.probing goal call)) (holds : Holds s v)
    (numbers : v.nextConn = s.nextConn)
  | opens {now : Time} {call : Call} (evicted : Evicts B s queries now [])
    (asked : CallFor B .connect s.settings.connectTimeout now call)
    (conn : call.conn = s.nextConn) (later : now ≤ v.clock)
    (stage : v.stage? t = some (.opening goal call)) (holds : Holds s v) (empty : v.pool.idle = [])
    (numbers : v.nextConn = s.nextConn + 1)

/-- An acquire goes on, or has ended and the task with it. -/
inductive Pursues (B : Backend σ) (s : Limiter σ) (t : TaskId) (goal : Goal)
    (queries : List Query) : Limiter σ → Prop
  | seeks {v : Limiter σ} (hunts : Hunts B s t goal queries v) : Pursues B s t goal queries v
  | ends (u : Limiter σ) (result : Except Fault Lease) (acquired : Acquired B s u queries result)
    (known : t ∈ Table.keys u.tasks) : Pursues B s t goal queries (u.resume B t goal result)

/-! ## Steps -/

/-- The connection in front is looked at, or one is opened if none is left. -/
theorem pursues_choose (ht : t ∈ Table.keys v.tasks) (holds : Holds s v)
    (numbers : v.nextConn = s.nextConn) {pings : List Query}
    (evicted : Evicts B s pings v.clock v.pool.idle) :
    Pursues B s t goal pings (v.choose B t goal) := by
  cases front : v.pool.idle with
  | nil =>
    let w : Limiter σ := { v with nextConn := v.nextConn + 1 }
    have held : Holds s w := ⟨holds.pool, holds.flag, holds.opened, holds.settings⟩
    have asked : Asked B t w v.nextConn .connect v.settings.connectTimeout (.opening goal)
        (v.openFor B t goal) := asked_setStage (s := w) ht ..
    obtain ⟨call, stage, conn, made⟩ := asked.call
    rw [front] at evicted
    simp only [choose, front]
    refine .seeks (.opens evicted (holds.settings ▸ made) (conn.trans numbers)
      (Nat.le_of_eq asked.clock.symm) stage (held.asked asked) ?_ ?_)
    · rw [asked.pool]
      exact front
    · rw [asked.numbers, ← numbers]
  | cons i rest =>
    let w : Limiter σ := { v with pool := { v.pool with idle := rest } }
    have pool : w.pool = { s.pool with idle := rest, free := s.pool.free - 1 } :=
      congrArg (fun p : Pool => { p with idle := rest }) holds.pool
    rw [front] at evicted
    simp only [choose, front]
    split
    · rename_i isFresh
      have fresh := (w.isFresh_iff i).mp isFresh
      exact .ends w (.ok ⟨i.conn, i.checkedAt, false⟩) (.fresh evicted (holds.settings ▸ fresh) pool
        holds.flag holds.opened numbers) ht
    · rename_i isStale
      have stale : v.settings.Stale v.clock i :=
        Decidable.not_not.mp fun h => isStale ((w.isFresh_iff i).mpr h)
      have held : Holds s w := ⟨pool, holds.flag, holds.opened, holds.settings⟩
      have asked : Asked B t w i.conn .ping v.settings.connectTimeout (.probing goal) _ :=
        asked_setStage (s := w) ht ..
      obtain ⟨call, stage, conn, made⟩ := asked.call
      have evicted : Evicts B s pings v.clock (i :: w.pool.idle) := evicted
      rw [← asked.pool] at evicted
      exact .seeks (.probes evicted (holds.settings ▸ stale) (holds.settings ▸ made) conn
        (Nat.le_of_eq asked.clock.symm) stage (held.asked asked) (asked.numbers.trans numbers))

/-- Only a connection that has been opened counts as opened. -/
theorem opened_finishCall {call : Call} {reply : Reply}
    (hr : (s.finishCall B t call).2 = reply) : (s.finishCall B t call).1.opened =
      s.opened + if call.command = .connect ∧ reply.isOk then 1 else 0 := by
  have hr' : (B.finish s.backend s.clock call.conn call.command).2 = reply := hr
  simp only [finishCall, emitAll, hr']
  cases hc : call.command <;> cases reply <;> rfl

/-- A connection that cannot be opened leaves its permit free. -/
theorem pool_openFailed (line : s.pool.line = []) (f : Fault) :
    (s.raise f.message).1.freePermit.pool = { s.pool with free := s.pool.free + 1 } := by
  have line' : (s.raise f.message).1.pool.line = [] := line
  simp only [freePermit, Pool.release_of_nil line']
  rfl

theorem flag_openFailed (s : Limiter σ) (f : Fault) :
    (s.raise f.message).1.freePermit.flag = (s.flag.raise s.clock f.message).1 ∧
      (s.raise f.message).1.freePermit.opened = s.opened ∧
      (s.raise f.message).1.freePermit.nextConn = s.nextConn ∧
      (s.raise f.message).1.freePermit.clock = s.clock := by
  simp [raise, emitAll]

/-- An acquire that cannot open a connection gives its permit back. -/
theorem pursues_openFailed (permit : 0 < s.pool.free) (line : s.pool.line = [])
    (ht : t ∈ Table.keys v.tasks) (holds : Holds s v) (empty : v.pool.idle = [])
    (numbers : v.nextConn = s.nextConn + 1) {pings : List Query} {now : Time} {call : Call}
    {f : Fault} (evicted : Evicts B s pings now [])
    (asked : CallFor B .connect s.settings.connectTimeout now call) (conn : call.conn = s.nextConn)
    (later : now ≤ v.clock) :
    Pursues B s t goal (pings ++ [⟨call, v.clock, .error f⟩]) (v.openFailed t f) := by
  obtain ⟨flag, opened, hnumbers, clock⟩ := v.flag_openFailed f
  have hline : v.pool.line = [] := (congrArg Pool.line holds.pool).trans line
  have pool : (v.raise f.message).1.freePermit.pool = { s.pool with idle := [] } := by
    rw [pool_openFailed hline f, holds.pool, empty]
    simp only [Nat.sub_add_cancel permit]
  rw [← clock] at later
  have acquired := Acquired.failed (f := f) evicted asked conn later pool
    (by rw [flag, holds.flag, clock]) (opened.trans holds.opened) (hnumbers.trans numbers)
  rw [clock] at acquired
  have known : t ∈ Table.keys (v.raise f.message).1.freePermit.tasks := by
    simpa [raise, emitAll] using ht
  exact .ends _ (.error f) acquired known

/-- After a connection has been dropped the queue is looked at again. -/
theorem pursues_evict (ht : t ∈ Table.keys v.tasks) (holds : Holds s v)
    (numbers : v.nextConn = s.nextConn) {pings : List Query}
    (evicted : Evicts B s pings v.clock v.pool.idle) :
    Pursues B s t goal pings (v.evict B t goal) :=
  pursues_choose (v := v.emit .evicted) ht
    ⟨holds.pool, holds.flag, holds.opened, holds.settings⟩ numbers evicted

/-- A ping that is over has been answered, or its connection is dropped. -/
theorem pursues_of_probing {pings : List Query} {now : Time} {i : Idle} {call : Call}
    (evicted : Evicts B s pings now (i :: v.pool.idle)) (stale : s.settings.Stale now i)
    (asked : CallFor B .ping s.settings.connectTimeout now call) (conn : call.conn = i.conn)
    (later : now ≤ v.clock) (stage : v.stage? t = some (.probing goal call)) (holds : Holds s v)
    (numbers : v.nextConn = s.nextConn) (step : v.step? B t = some s') :
    ∃ q, v.query? B t = some q ∧ Pursues B s t goal (pings ++ [q]) s' := by
  have ht := mem_keys_of_stage? stage
  have dropped (reply : Reply) (failed : reply.isOk = false) :
      Evicts B s (pings ++ [⟨call, v.clock, reply⟩]) v.clock v.pool.idle :=
    .one (q := ⟨call, v.clock, reply⟩) evicted stale asked conn later failed
  simp only [step?, stage] at step
  split at step
  · cases step
  · rename_i late
    have seen : v.query? B t = some ⟨call, v.clock, .error .connectTimeout⟩ := by
      simp only [query?, stage, late]
    cases step
    exact ⟨_, seen, pursues_evict ht holds numbers (dropped _ rfl)⟩
  · rename_i ripe
    have seen : v.query? B t = some ⟨call, v.clock, (v.finishCall B t call).2⟩ := by
      simp only [query?, stage, ripe]
    refine ⟨_, seen, ?_⟩
    cases hr : v.finishCall B t call with
    | mk w reply =>
      simp only [hr] at step
      have opened := opened_finishCall (congrArg Prod.snd hr)
      rw [asked.command, if_neg (by simp)] at opened
      obtain rfl : w = (v.finishCall B t call).1 := by rw [hr]
      have holds' : Holds s (v.finishCall B t call).1 :=
        ⟨holds.pool, holds.flag, opened.trans holds.opened, holds.settings⟩
      cases reply with
      | ok ms =>
        rw [← Option.some.inj step, conn]
        exact .ends _ (.ok ⟨i.conn, _, false⟩) (.answered evicted stale asked conn later
          holds'.pool holds'.flag holds'.opened numbers) ht
      | error f =>
        cases step
        exact pursues_evict (v := (v.finishCall B t call).1) ht holds' numbers (dropped _ rfl)

/-- Once a connection has been opened, or could not be, the acquire is at its end. -/
theorem pursues_of_opening (permit : 0 < s.pool.free) (line : s.pool.line = [])
    {pings : List Query} {now : Time} {call : Call} (evicted : Evicts B s pings now [])
    (asked : CallFor B .connect s.settings.connectTimeout now call) (conn : call.conn = s.nextConn)
    (later : now ≤ v.clock) (stage : v.stage? t = some (.opening goal call)) (holds : Holds s v)
    (empty : v.pool.idle = []) (numbers : v.nextConn = s.nextConn + 1)
    (step : v.step? B t = some s') :
    ∃ q, v.query? B t = some q ∧ Pursues B s t goal (pings ++ [q]) s' := by
  have ht := mem_keys_of_stage? stage
  simp only [step?, stage] at step
  split at step
  · cases step
  · rename_i late
    have seen : v.query? B t = some ⟨call, v.clock, .error .connectTimeout⟩ := by
      simp only [query?, stage, late]
    cases step
    exact ⟨_, seen, pursues_openFailed permit line ht holds empty numbers evicted asked conn later⟩
  · rename_i ripe
    have seen : v.query? B t = some ⟨call, v.clock, (v.finishCall B t call).2⟩ := by
      simp only [query?, stage, ripe]
    refine ⟨_, seen, ?_⟩
    cases hr : v.finishCall B t call with
    | mk w reply =>
      simp only [hr] at step
      have opened := opened_finishCall (congrArg Prod.snd hr)
      obtain rfl : w = (v.finishCall B t call).1 := by rw [hr]
      cases reply with
      | ok ms =>
        rw [asked.command, if_pos ⟨rfl, rfl⟩] at opened
        let w : Limiter σ := (v.finishCall B t call).1.clear.1
        have pool : w.pool = { s.pool with idle := [], free := s.pool.free - 1 } := by
          rw [← empty]
          exact holds.pool
        have flag : w.flag = s.flag.clear.1 := congrArg (fun f : Flag => f.clear.1) holds.flag
        rw [← Option.some.inj step, conn]
        exact .ends w (.ok ⟨s.nextConn, w.clock, false⟩) (.opened evicted asked conn later pool
          flag (opened.trans (congrArg (· + 1) holds.opened)) numbers) ht
      | error f =>
        rw [asked.command, if_neg (by simp [Except.isOk, Except.toBool])] at opened
        have holds' : Holds s (v.finishCall B t call).1 :=
          ⟨holds.pool, holds.flag, opened.trans holds.opened, holds.settings⟩
        cases step
        exact pursues_openFailed permit line (v := (v.finishCall B t call).1) ht holds' empty
          numbers evicted asked conn later

/-- Each step ends one request, and then the acquire goes on or is at its end. -/
theorem pursues_of_step? (permit : 0 < s.pool.free) (line : s.pool.line = [])
    {queries : List Query} (hunts : Hunts B s t goal queries v) (step : v.step? B t = some s') :
    ∃ q, v.query? B t = some q ∧ Pursues B s t goal (queries ++ [q]) s' := by
  cases hunts with
  | probes evicted stale asked conn later stage holds numbers =>
    exact pursues_of_probing evicted stale asked conn later stage holds numbers step
  | opens evicted asked conn later stage holds empty numbers =>
    exact pursues_of_opening permit line evicted asked conn later stage holds empty numbers step

/-- A task that looks for a connection and cannot go on waits for its request. -/
theorem query?_of_step?_eq_none (blocked : s.step? B t = none) : s.query? B t = none := by
  unfold query?
  split
  · rename_i hs
    rw [progress_of_blocked hs rfl blocked]
  · rename_i hs
    rw [progress_of_blocked hs rfl blocked]
  · rfl

/-! ## Whole acquires -/

theorem not_isSeeking_settle (ht : t ∈ Table.keys s.tasks) (outcome : Outcome) :
    ((s.settle t outcome).stage? t).any Stage.isSeeking = false := by
  obtain ⟨⟨stage, jobs, outcomes⟩, hget⟩ :=
    Option.isSome_iff_exists.mp (Table.get?_isSome_iff.mpr ht)
  cases jobs <;> simp [stage?, hget, Task.settled, Stage.isSeeking]

/-- Whoever has got a connection, or a fault instead, no longer looks for one. -/
theorem not_isSeeking_resume (ht : t ∈ Table.keys s.tasks) (result : Except Fault Lease) :
    ((s.resume B t goal result).stage? t).any Stage.isSeeking = false := by
  cases result with
  | error f => exact not_isSeeking_settle ht _
  | ok l =>
    cases goal with
    | evaluate e attempt =>
      obtain ⟨call, stage, -⟩ := (asked_setStage (B := B) ht l.conn
        (.count e.key e.limit e.windowMs) s.settings.commandTimeout
        (.evaluating e attempt l)).call
      simp only [resume, employ]
      rw [stage]
      rfl
    | verify =>
      obtain ⟨call, stage, -⟩ := (asked_setStage (B := B) ht l.conn .ping
        s.settings.connectTimeout (.verifying l)).call
      simp only [resume, employ]
      rw [stage]
      rfl
    | borrow holdMs broken =>
      let w : Limiter σ := (s.setTimer holdMs).1
      have ht' : t ∈ Table.keys w.tasks := ht
      simp only [resume, employ]
      rw [stage?_setStage_self ht']
      rfl
    | keep name =>
      have ht' : t ∈ Table.keys { s with held := Table.put s.held name l }.tasks := ht
      simp only [resume, employ]
      split
      · exact not_isSeeking_settle (by simpa using ht) _
      · exact not_isSeeking_settle ht' _

namespace Hunts

variable {queries : List Query}

/-- Time passes, and the store or whose turn it is may change. -/
theorem outside (hunts : Hunts B s t goal queries v) {clock : Time} (backend : σ)
    (ready : List TaskId) (le : v.clock ≤ clock) :
    Hunts B s t goal queries { v with clock, backend, ready } := by
  cases hunts with
  | probes evicted stale asked conn later stage holds numbers =>
    exact .probes evicted stale asked conn (Nat.le_trans later le) stage
      ⟨holds.pool, holds.flag, holds.opened, holds.settings⟩ numbers
  | opens evicted asked conn later stage holds empty numbers =>
    exact .opens evicted asked conn (Nat.le_trans later le) stage
      ⟨holds.pool, holds.flag, holds.opened, holds.settings⟩ empty numbers

/-- An acquire that goes on can do so after some time. -/
theorem exists_step (hunts : Hunts B s t goal queries v) :
    ∃ us, ((v.pass us).step? B t).isSome = true := by
  cases hunts with
  | probes _ _ asked _ _ stage => exact exists_isSome_step? B stage rfl asked.expiry
  | opens _ asked _ _ stage => exact exists_isSome_step? B stage rfl asked.expiry

theorem length (hunts : Hunts B s t goal queries v) :
    queries.length ≤ s.pool.idle.length := by
  cases hunts with
  | probes evicted => exact evicted.length ▸ Nat.le_add_right ..
  | opens evicted => exact evicted.length ▸ Nat.le_add_right ..

end Hunts

/-- There is a ping for each resting connection at most, and one connection may be opened. -/
theorem Acquired.length {queries : List Query} {result : Except Fault Lease}
    (acquired : Acquired B s u queries result) : queries.length ≤ s.pool.idle.length + 1 := by
  cases acquired with
  | fresh evicted =>
    have := evicted.length
    omega
  | answered evicted | opened evicted | failed evicted =>
    have := evicted.length
    rw [List.length_append, List.length_singleton]
    omega

/-- While nobody else does anything an acquire goes on until it has ended, one request after the
other. -/
theorem Pursues.run (permit : 0 < s.pool.free) (line : s.pool.line = []) {queries : List Query}
    (pursues : Pursues W.backend s t goal queries v) {moves : List (Move ε)}
    (alone : ∀ m ∈ moves, m.Within (· = t)) (seeks : Seeks W t v moves) :
    Pursues W.backend s t goal (queries ++ v.queries W t moves) (v.run W moves) ∧
      v.stepsIn W moves = (v.queries W t moves).length := by
  induction moves generalizing v queries with
  | nil => exact ⟨(List.append_nil queries).symm ▸ pursues, rfl⟩
  | cons m rest ih =>
    obtain ⟨within, alone'⟩ := List.forall_mem_cons.mp alone
    obtain ⟨seeking, seeks⟩ := seeks
    cases pursues with
    | ends u result acquired known =>
      rw [not_isSeeking_resume known] at seeking
      cases seeking
    | seeks hunts =>
      -- what is no step of the task leaves the acquire as it is
      have waits : v.query? W.backend t = none ∨ m.stepper? ≠ some t →
          Pursues W.backend s t goal queries (v.move W m) → v.stepsIn W [m] = 0 →
          Pursues W.backend s t goal (queries ++ v.queries W t (m :: rest))
            (v.run W (m :: rest)) ∧
            v.stepsIn W (m :: rest) = (v.queries W t (m :: rest)).length := by
        intro unseen pursues none
        have hqueries : v.queries W t (m :: rest) = (v.move W m).queries W t rest := by
          rcases unseen with h | h <;> simp [Limiter.queries, seen, h]
        rw [stepsIn_cons, none, Nat.zero_add, hqueries]
        exact ih pursues alone' seeks
      cases m with
      | step x =>
        obtain rfl : x = t := within
        cases step : v.step? W.backend x with
        | none =>
          refine waits (.inl (query?_of_step?_eq_none step)) ?_ (stepsIn_step_of_none step)
          rw [move_step_of_none step]
          exact .seeks hunts
        | some s' =>
          obtain ⟨q, hq, pursues⟩ := pursues_of_step? permit line hunts step
          rw [move_step_of_some step] at seeks
          have hqueries : v.queries W x (.step x :: rest) = q :: s'.queries W x rest := by
            rw [Limiter.queries, seen, move_step_of_some step]
            simp [Move.stepper?, hq, Limiter.queries]
          obtain ⟨pursues', hsteps⟩ := ih pursues alone' seeks
          rw [run_cons_of_some step, hqueries, List.append_cons]
          refine ⟨pursues', ?_⟩
          rw [stepsIn_cons, stepsIn_step_of_some step, move_step_of_some step, hsteps,
            List.length_cons, Nat.add_comm]
      | pass us =>
        exact waits (.inr (by simp [Move.stepper?]))
          (.seeks (hunts.outside v.backend v.ready (Nat.le_add_right ..))) rfl
      | tend change =>
        exact waits (.inr (by simp [Move.stepper?]))
          (.seeks (hunts.outside _ v.ready (Nat.le_refl _))) rfl
      | arrange ready =>
        exact waits (.inr (by simp [Move.stepper?]))
          (.seeks (hunts.outside v.backend ready (Nat.le_refl _))) rfl
      | _ => exact within.elim

/-- Somebody asks an open pool for a connection while a permit is free, nobody stands in the line
and no other task is under way; the resting connections, the store and the clock may be any. The
acquire makes no more requests than there are connections that rest and one more, each step of it
ends one of them, and until it has ended some time lets it go on. When it has ended, it has dropped
the connections at the front that were stale, each by the time that the pings before it were over,
and failed their pings or took too long; it has lent the next one, as it was if it was fresh and
checked now if it answered, with the others left as they were; or, if none was left, it has opened
one and cleared the flag, or raised the flag with the fault that it ends with, and its permit is
free again. -/
theorem acquire_evicts (W : Surroundings σ ε) (s : Limiter σ) {t : TaskId} (goal : Goal)
    {moves : List (Move ε)} (known : t ∈ Table.keys s.tasks) (isOpen : s.pool.closed = false)
    (permit : 0 < s.pool.free) (line : s.pool.line = [])
    (alone : ∀ m ∈ moves, m.Within (· = t)) (seeks : Seeks W t (s.want W.backend t goal) moves) :
    let asked := s.want W.backend t goal
    let s' := asked.run W moves
    let queries := asked.queries W t moves
    (asked.stepsIn W moves = queries.length ∧ queries.length ≤ s.pool.idle.length + 1) ∧
      ((s'.stage? t).any Stage.isSeeking = true →
        ∃ us, ((s'.pass us).step? W.backend t).isSome = true) ∧
      ((s'.stage? t).any Stage.isSeeking = false → ∃ u result,
        s' = u.resume W.backend t goal result ∧ Acquired W.backend s u queries result) := by
  intro asked s' queries
  let v : Limiter σ := { s with pool := { s.pool with free := s.pool.free - 1 } }
  have hasked : asked = v.choose W.backend t goal := by
    show s.want W.backend t goal = v.choose W.backend t goal
    rw [want, if_neg (by simp [isOpen]), if_pos permit]
  have first : Pursues W.backend s t goal [] asked :=
    hasked ▸ pursues_choose (v := v) known ⟨rfl, rfl, rfl, rfl⟩ rfl .none
  obtain ⟨pursues, hsteps⟩ := first.run permit line alone seeks
  rw [List.nil_append] at pursues
  have pursues : Pursues W.backend s t goal queries s' := pursues
  generalize s' = s' at pursues
  cases pursues with
  | seeks hunts =>
    refine ⟨⟨hsteps, Nat.le_succ_of_le hunts.length⟩, fun _ => hunts.exists_step, fun ended => ?_⟩
    cases hunts with
    | probes _ _ _ _ _ stage =>
      rw [stage] at ended
      cases ended
    | opens _ _ _ _ stage =>
      rw [stage] at ended
      cases ended
  | ends u result acquired known =>
    refine ⟨⟨hsteps, acquired.length⟩, fun seeking => ?_, fun _ => ⟨u, result, rfl, acquired⟩⟩
    rw [not_isSeeking_resume known] at seeking
    cases seeking

end Limiter

namespace Memory

/-- Three connections come to rest that were checked at different times, then pings become slow, and
somebody is going to borrow a connection. -/
def staggeredRest : List (Move MemoryChange) :=
  [.start [.keep "a"], .step 0, .step 0, .pass 4000000, .start [.keep "b"], .step 1, .step 1,
    .pass 16000000, .start [.keep "c"], .step 2, .step 2, .release "a", .release "b", .release "c",
    .pass 11000000, .tend (.turn (.pingLatency 10000000)), .start [.borrow 0 false]]

/-- The first ping takes too long, and by then the second connection is stale too. -/
def secondAnswers : List (Move MemoryChange) :=
  [.pass 5000000, .tend (.turn (.pingLatency 0)), .step 3, .step 3]

/-- Half a minute later all are stale, and the store is out of reach. -/
def noneAnswers : List (Move MemoryChange) :=
  staggeredRest ++
    [.pass 20000000, .tend (.turn (.pingLatency 0)), .tend (.turn (.reachable false))]

/-- An acquire that drops one of three connections and lends the next, and one that drops them all
and gives up. -/
theorem acquire_evicts_staggeredRest :
    let s := (Limiter.fresh fresh .standard).run surroundings staggeredRest
    let asked := s.want backend 3 (.borrow 0 false)
    let s' := asked.run surroundings secondAnswers
    let w := (Limiter.fresh fresh .standard).run surroundings noneAnswers
    let asked' := w.want backend 3 (.borrow 0 false)
    let w' := asked'.run surroundings [.step 3, .step 3, .step 3, .step 3]
    ((3 ∈ Table.keys s.tasks ∧ s.pool.closed = false ∧ 0 < s.pool.free ∧ s.pool.line = [] ∧
      (∀ m ∈ secondAnswers, m.Within (· = 3)) ∧ Limiter.Seeks surroundings 3 asked secondAnswers) ∧
      (s.pool.idle = [⟨0, 0⟩, ⟨1, 4000000⟩, ⟨2, 20000000⟩] ∧ s'.clock = 36000000 ∧
        s'.pool.idle = [⟨2, 20000000⟩] ∧ s'.hand 3 = .lease ⟨1, 36000000, false⟩) ∧
      ∃ u result, s' = u.resume backend 3 (.borrow 0 false) result ∧
        Limiter.Acquired backend s u (asked.queries surroundings 3 secondAnswers) result) ∧
    (w'.pool = ⟨[], 10, [], false⟩ ∧ w'.flag.up = true ∧
      w'.outcomes 3 = [.error (.fault refused)]) ∧
      ∃ u result, w' = u.resume backend 3 (.borrow 0 false) result ∧
        Limiter.Acquired backend w u
          (asked'.queries surroundings 3 [.step 3, .step 3, .step 3, .step 3]) result := by
  intro s asked s' w asked' w'
  have known : 3 ∈ Table.keys s.tasks := by decide +kernel
  have isOpen : s.pool.closed = false := by decide +kernel
  have permit : 0 < s.pool.free := by decide +kernel
  have line : s.pool.line = [] := by decide +kernel
  have seeks : Limiter.Seeks surroundings 3 asked secondAnswers := by decide +kernel
  obtain ⟨-, -, ends⟩ := Limiter.acquire_evicts surroundings s (.borrow 0 false) known isOpen permit
    line (by decide) seeks
  have seeks' : Limiter.Seeks surroundings 3 asked'
      [.step 3, .step 3, .step 3, .step 3] := by decide +kernel
  obtain ⟨-, -, ends'⟩ := Limiter.acquire_evicts surroundings w (.borrow 0 false)
    (by decide +kernel) (by decide +kernel) (by decide +kernel) (by decide +kernel) (by decide)
    seeks'
  exact ⟨⟨⟨known, isOpen, permit, line, by decide, seeks⟩, by decide +kernel,
    ends (by decide +kernel)⟩, by decide +kernel, ends' (by decide +kernel)⟩

end Memory

end Turnstile
