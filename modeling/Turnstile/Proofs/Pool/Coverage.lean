import Turnstile.Proofs.Pool.Freshness
import Turnstile.Proofs.Pool.Shut
import Turnstile.Proofs.Pool.Sweeps

/-!
# A sweep reaches every resting connection

A sweep pings as many connections as rest when it begins, each time the one in front, while others
take connections from the queue and lay some to rest. A connection that has not been taken has never
more in front of it than the sweep has still to look at (`Awaits`): whoever takes one from the front
shortens the way of those behind it, and what comes to rest goes to the back. So a sweep that is not
cut short has pinged every connection that rested when it began, unless somebody else has taken it
(`sweep_complete`). If nobody else touches the pool, the sweep goes once around the queue (`Tour`).
-/

namespace Turnstile

namespace Limiter

variable {σ ε : Type} {W : Surroundings σ ε} {B : Backend σ} {s s' : Limiter σ} {t : TaskId}
  {c : ConnId}

/-! ## Every connection is reached -/

/-- The sweep of a task is at the connection, has it before it in the queue, or has found the pool
closed with connections left to be looked at. -/
inductive Awaits (s : Limiter σ) (t : TaskId) (c : ConnId) : Prop
  | now {sweep : Sweep} {call : Call} (hs : s.stage? t = some (.sweeping sweep call))
    (conn : call.conn = c)
  | ahead {sweep : Sweep} {call : Call} (hs : s.stage? t = some (.sweeping sweep call))
    (before : c ∈ (s.pool.idle.take sweep.left).map (·.conn))
  | shut {sweep : Sweep} {call : Call} (hs : s.stage? t = some (.sweeping sweep call))
    (shut : Shut s) (more : 0 < sweep.left)

theorem Awaits.stage (awaits : Awaits s t c) :
    ∃ sweep call, s.stage? t = some (.sweeping sweep call) := by
  cases awaits with
  | now hs | ahead hs | shut hs => exact ⟨_, _, hs⟩

/-- The task rests after a step that has ended its sweep, and connections were left to be looked
at. -/
structure Stops (t : TaskId) (s s' : Limiter σ) : Prop where
  rests : (s'.stage? t).any Stage.isResting
  more : 0 < s.unlooked t
  why : s'.pool.closed = true ∨ s'.pool.free = 0

theorem left_pos {sweep : Sweep} {idle : List Idle}
    (before : c ∈ (idle.take sweep.left).map (·.conn)) : 0 < sweep.left := by
  refine Nat.pos_of_ne_zero fun none_left => ?_
  rw [none_left] at before
  cases before

/-- A sweep that goes on comes nearer to the connections before it. -/
theorem Resumes.awaits {sweep : Sweep} (resumes : Resumes B t sweep s s')
    (before : c ∈ (s.pool.idle.take sweep.left).map (·.conn)) : Awaits s' t c ∨
      (s'.stage? t).any Stage.isResting ∧ (s'.pool.closed = true ∨ s'.pool.free = 0) := by
  have more := left_pos before
  cases resumes with
  | @looks i rest call front _ _ _ pool stage conn =>
    obtain ⟨n, hn⟩ := Nat.exists_eq_add_one_of_ne_zero (Nat.ne_of_gt more)
    rw [front, hn, List.take_succ_cons, List.map_cons, List.mem_cons] at before
    rcases before with rfl | before
    · exact .inl (.now stage conn)
    · refine .inl (.ahead stage ?_)
      rw [pool, hn]
      exact before
  | ends why pool stage =>
    refine .inr ⟨stage, ?_⟩
    rw [pool]
    rcases why with none_rests | none_left | why
    · rw [none_rests, List.take_nil] at before
      cases before
    · omega
    · exact why

/-- A step at a sweep pings the connection, comes nearer to it or cuts the sweep short. -/
theorem Awaits.step (awaits : Awaits s t c) (step : s.step? B t = some s') :
    (∃ p, s.ping? B t = some p ∧ p.call.conn = c) ∨ Awaits s' t c ∨ Stops t s s' := by
  cases awaits with
  | now hs conn =>
    obtain ⟨p, u, hp, rfl, -⟩ := resumes_of_step? hs step
    exact .inl ⟨p, hp, conn⟩
  | @ahead sweep call hs before =>
    obtain ⟨p, u, -, -, ended, resumes⟩ := resumes_of_step? hs step
    have before' : c ∈ (u.pool.idle.take sweep.left).map (·.conn) :=
      List.map_subset _ (ended.grows.take sweep.left).subset before
    rcases resumes.awaits (c := c) before' with awaits | ⟨rests, why⟩
    · exact .inr (.inl awaits)
    · refine .inr (.inr ⟨rests, ?_, why⟩)
      simpa only [unlooked, hs] using left_pos before
  | @shut sweep call hs shut more =>
    obtain ⟨p, u, -, -, ended, resumes⟩ := resumes_of_step? hs step
    have closed : u.pool.closed = true := ended.closed.trans shut.closed
    cases resumes with
    | looks front _ isOpen => cases closed.symm.trans isOpen
    | ends why pool stage =>
      refine .inr (.inr ⟨stage, ?_, .inl (pool ▸ closed)⟩)
      simpa only [unlooked, hs] using more

/-- Whoever has taken a resting connection borrows it, or pings it in a sweep of its own. -/
theorem borrows_or_diverts {m : Move ε} {v : TaskId} (tidy : Tidy (s.move W m)) (hne : v ≠ t)
    (rests : c ∈ s.pool.idle.map (·.conn)) (has : (s.move W m).Has v c) :
    Borrows W c s m ∨ Diverts W t c s m := by
  have lent : c ∈ (s.move W m).borrowed → Borrows W c s m ∨ Diverts W t c s m := fun h =>
    .inl ⟨rests, .inl h⟩
  rcases has with own | kept
  · cases hs : (s.move W m).stage? v with
    | none =>
      rw [hand_of_none hs] at own
      cases own
    | some stage =>
      have hand := hand_of_stage? hs
      rw [hand] at own
      cases stage with
      | probing goal call =>
        exact .inl ⟨rests, .inr ⟨v, goal, call, hs, (List.mem_singleton.mp own).symm⟩⟩
      | sweeping sweep call =>
        exact .inr ⟨rests, v, hne, sweep, call, hs, (List.mem_singleton.mp own).symm⟩
      | evaluating _ _ lease _ | verifying lease _ | holding lease _ _ _ =>
        have conn : lease.conn = c := (List.mem_singleton.mp own).symm
        exact lent ((mem_borrowed tidy).mpr (.inl ⟨v, lease, hand, conn⟩))
      | _ => cases own
  · exact lent ((mem_borrowed tidy).mpr (.inr kept))

/-- What others do takes the connection away or moves it no farther from the front. -/
theorem Awaits.other (tidy : Tidy s) (awaits : Awaits s t c) {m : Move ε}
    (other : m.stepper? ≠ some t) {rest : List (Move ε)}
    (sweeping : Sweeping W t (s.move W m) rest) :
    Awaits (s.move W m) t c ∨ Borrows W c s m ∨ Diverts W t c s m := by
  cases awaits with
  | now hs conn => exact .inl (.now (stage?_of_other tidy hs other sweeping) conn)
  | shut hs shut more =>
    have shut' := (Shut.invariant W).move shut m
    exact .inl (.shut (stage?_of_other tidy hs other sweeping) shut' more)
  | @ahead sweep call hs before =>
    have hs' := stage?_of_other tidy hs other sweeping
    rcases draws_move W s m with ⟨v, rfl, taken, left, hidle, hleft, has⟩ | grows | rfl
    · have hne : v ≠ t := fun h => other (congrArg some h)
      obtain ⟨i, hi, rfl⟩ := List.mem_map.mp before
      have rests : i.conn ∈ s.pool.idle.map (·.conn) :=
        List.mem_map_of_mem (List.mem_of_mem_take hi)
      rw [hidle, List.take_append, List.mem_append] at hi
      rcases hi with gone | stays
      · have tidy' : Tidy (s.move W (.step v)) := (Tidy.invariant W).move tidy _
        exact .inr (borrows_or_diverts tidy' hne rests (has i (List.mem_of_mem_take gone)))
      · -- what stood before it is gone, so it is among the first ones still
        refine .inl (.ahead hs' (List.mem_map_of_mem ((hleft.take _).subset ?_)))
        exact (List.take_subset_take_left _ (Nat.sub_le ..)) stays
    · exact .inl (.ahead hs' (List.map_subset _ (grows.take sweep.left).subset before))
    · exact .inl (.shut hs' (shut_close tidy) (left_pos before))

/-- A sweep that is not cut short reaches every connection before it, unless somebody else takes
it. -/
theorem Awaits.run (tidy : Tidy s) (awaits : Awaits s t c) {moves : List (Move ε)}
    (sweeping : Sweeping W t s moves) (whole : ¬CutShort W t s moves) :
    c ∈ (s.pings W t moves).map (·.call.conn) ∨ Happens W (Borrows W c) s moves ∨
      Happens W (Diverts W t c) s moves := by
  induction moves generalizing s with
  | nil =>
    obtain ⟨sweep, call, hs⟩ := awaits.stage
    exact absurd rfl (sweeping.ne_nil hs)
  | cons m rest ih =>
    have tidy' : Tidy (s.move W m) := (Tidy.invariant W).move tidy m
    obtain ⟨-, sweeping⟩ := sweeping
    -- what holds of the rest of the run holds of the run
    have later : Awaits (s.move W m) t c →
        c ∈ ((s.move W m).pings W t rest).map (·.call.conn) ∨
          Happens W (Borrows W c) s (m :: rest) ∨ Happens W (Diverts W t c) s (m :: rest) := by
      intro awaits
      obtain ⟨sweep, call, hs⟩ := awaits.stage
      have whole' := mt (cutShort_cons (sweeping.ne_nil hs)).mpr whole
      exact (ih tidy' awaits sweeping whole').imp id (Or.imp .inr .inr)
    by_cases own : m.stepper? = some t
    · obtain rfl := Move.eq_step own
      cases hstep : s.step? W.backend t with
      | none =>
        rw [pings_cons_of_none hstep]
        rw [move_step_of_none hstep] at later
        exact later awaits
      | some s' =>
        have hmove := move_step_of_some hstep
        rw [pings_cons_of_some hstep, List.map_append, List.mem_append]
        rw [hmove] at later
        rcases awaits.step hstep with ⟨p, hp, rfl⟩ | awaits' | stops
        · exact .inl (.inl (by simp [hp]))
        · exact (later awaits').imp .inr id
        · rw [← hmove] at stops
          obtain rfl := sweeping.eq_nil stops.rests
          exact absurd ⟨stops.more, stops.why⟩ whole
    · rw [pings_cons_other own]
      rcases awaits.other tidy own sweeping with awaits' | borrows | diverts
      · exact later awaits'
      · exact .inr (.inl (.inl borrows))
      · exact .inr (.inr (.inl diverts))

/-! ## Patience -/

/-- The move is a step of the task that makes the request, a ping with a patience of so many
milliseconds. -/
def Asking (W : Surroundings σ ε) (t : TaskId) (ms : Nat) (call : Call) (s : Limiter σ)
    (m : Move ε) : Prop :=
  m.stepper? = some t ∧ PingFor W.backend ms s.clock call

/-- The pings of the rest of a sweep are made in it, but for the one under way. -/
theorem asking_of_mem_pings {start : Limiter σ} (checked : Checked start s)
    {moves : List (Move ε)} (sweeping : Sweeping W t s moves) {p : Ping}
    (hp : p ∈ s.pings W t moves) : (∃ sweep, s.stage? t = some (.sweeping sweep p.call)) ∨
      Happens W (Asking W t start.settings.connectTimeout p.call) s moves := by
  induction moves generalizing s with
  | nil => cases hp
  | cons m rest ih =>
    have checked' : Checked start (s.move W m) := (Checked.invariant W start).move checked m
    obtain ⟨hsweeps, sweeping⟩ := sweeping
    obtain ⟨sweep, call, hs⟩ := Stage.exists_of_isSweeping hsweeps
    by_cases own : m.stepper? = some t
    · obtain rfl := Move.eq_step own
      cases step : s.step? W.backend t with
      | none =>
        have hmove := move_step_of_none step
        rw [pings_cons_of_none step] at hp
        rw [hmove] at sweeping
        exact (ih checked sweeping hp).imp id fun h => .inr (hmove.symm ▸ h)
      | some s' =>
        have hmove := move_step_of_some step
        rw [hmove] at checked' sweeping
        obtain ⟨q, u, hq, rfl, ended, resumes⟩ := resumes_of_step? hs step
        rw [pings_cons_of_some step, hq] at hp
        rcases List.mem_append.mp hp with here | later
        · exact .inl ⟨sweep, (List.mem_singleton.mp here) ▸ hs⟩
        · rcases ih checked' sweeping later with ⟨sweep', hs'⟩ | happens
          · -- the step that ends a ping makes the next one
            have settings := ended.settings.trans checked.settings
            exact .inr (.inl ⟨own, settings ▸ ended.clock ▸ resumes.asked hs'⟩)
          · exact .inr (.inr (hmove.symm ▸ happens))
    · rw [pings_cons_other own] at hp
      refine (ih checked' sweeping hp).imp (fun ⟨sweep', hs'⟩ => ⟨sweep, ?_⟩) .inr
      cases hs'.symm.trans (stage?_of_other checked.tidy hs own sweeping)
      exact hs

/-! ## Once around the queue -/

/-- The rest of a sweep: it pings the connections `todo`, and leaves in the queue what is to stay
and, behind it, the connections that have answered. The warning at the end has been written down
before or is now. -/
structure Tour (W : Surroundings σ ε) (t : TaskId) (s : Limiter σ) (moves : List (Move ε))
    (sweep : Sweep) (said : List Event) (todo : List ConnId) (stay : List Idle) : Prop where
  conns : (s.pings W t moves).map (·.call.conn) = todo
  idle : (s.run W moves).pool.idle = stay ++ (s.pings W t moves).filterMap Ping.idle?
  warnings : said ++ s.warnings W t moves =
    sweepWarnings (sweep.failed + (s.pings W t moves).countP (·.answered.isNone)) sweep.total

/-- Nobody waits for a permit, and there are connections enough to be looked at. -/
structure Ample (s : Limiter σ) (left : Nat) : Prop where
  isOpen : s.pool.closed = false
  line : s.pool.line = []
  enough : left ≤ s.pool.idle.length

theorem filter_reverse_sweepWarnings (failed total : Nat) :
    (sweepWarnings failed total).reverse.filter Event.isSweepWarning =
      sweepWarnings failed total := by
  unfold sweepWarnings
  split <;> rfl

theorem length_filterMap_idle? (ps : List Ping) :
    (ps.filterMap Ping.idle?).length + ps.countP (·.answered.isNone) = ps.length := by
  induction ps with
  | nil => rfl
  | cons p rest ih =>
    cases h : p.answered with
    | none =>
      simp only [List.filterMap_cons, Ping.idle?, h, Option.map_none, List.countP_cons,
        Option.isNone_none, if_true, List.length_cons]
      omega
    | some time =>
      simp only [List.filterMap_cons, Ping.idle?, h, Option.map_some, List.countP_cons,
        Option.isNone_some, List.length_cons]
      simp
      omega

/-- A sweep that goes on and ends only when nothing is left to be looked at goes through the
connections before it. -/
theorem Resumes.tour {sweep : Sweep} {moves : List (Move ε)}
    (resumes : Resumes W.backend t sweep s s')
    (last : s.pool.idle = [] ∨ s.pool.closed = true ∨ s.pool.free = 0 → sweep.left = 0)
    (line : 0 < s.pool.free → s.pool.line = []) (enough : sweep.left ≤ s.pool.idle.length)
    (sweeping : Sweeping W t s' moves)
    (later : ∀ sweep call, s'.stage? t = some (.sweeping sweep call) → Ample s' sweep.left →
      Tour W t s' moves sweep [] (call.conn :: (s'.pool.idle.take sweep.left).map (·.conn))
        (s'.pool.idle.drop sweep.left)) :
    ∃ recent, s'.journal = recent ++ s.journal ∧
      Tour W t s' moves sweep (recent.reverse.filter Event.isSweepWarning)
        ((s.pool.idle.take sweep.left).map (·.conn)) (s.pool.idle.drop sweep.left) := by
  cases resumes with
  | @looks i rest call front more isOpen permit pool stage conn asked journal =>
    obtain ⟨n, hn⟩ := Nat.exists_eq_add_one_of_ne_zero (Nat.ne_of_gt more)
    rw [front, List.length_cons] at enough
    have ample : Ample s' (sweep.left - 1) := by
      refine ⟨by rw [pool]; exact isOpen, by rw [pool]; exact line permit, ?_⟩
      rw [pool]
      show sweep.left - 1 ≤ rest.length
      omega
    have tour := later _ _ stage ample
    rw [pool] at tour
    refine ⟨[], journal, ?_, ?_, tour.warnings⟩
    · rw [tour.conns, front, hn, conn]
      rfl
    · rw [tour.idle, front, hn]
      rfl
  | ends why pool stage journal =>
    have none_left : sweep.left = 0 := by
      rcases why with h | h | h
      · exact last (.inl h)
      · exact h
      · exact last (.inr h)
    obtain rfl := sweeping.eq_nil stage
    refine ⟨_, journal, ?_, ?_, ?_⟩
    · rw [none_left]
      rfl
    · rw [none_left]
      exact (congrArg Pool.idle pool).trans (List.append_nil _).symm
    · rw [filter_reverse_sweepWarnings]
      exact List.append_nil _

/-- Only what is seen of the rest of a sweep matters. -/
theorem Tour.congr {sweep : Sweep} {said said' : List Event} {todo : List ConnId}
    {stay : List Idle} {moves moves' : List (Move ε)}
    (tour : Tour W t s' moves' sweep said' todo stay)
    (pings : s.pings W t moves = s'.pings W t moves') (run : s.run W moves = s'.run W moves')
    (warnings : said ++ s.warnings W t moves = said' ++ s'.warnings W t moves') :
    Tour W t s moves sweep said todo stay where
  conns := by
    rw [pings]
    exact tour.conns
  idle := by
    rw [pings, run]
    exact tour.idle
  warnings := by
    rw [pings, warnings]
    exact tour.warnings

/-- A ping that is over is the first one of a tour. -/
theorem Tour.cons {sweep : Sweep} {p : Ping} {moves : List (Move ε)} {todo : List ConnId}
    {stay : List Idle} {recent : List Event} (step : s.step? W.backend t = some s')
    (hp : s.ping? W.backend t = some p) (journal : s'.journal = recent ++ s.journal)
    (tour : Tour W t s' moves (sweep.after p) (recent.reverse.filter Event.isSweepWarning) todo
      (stay ++ p.idle?.toList)) :
    Tour W t s (.step t :: moves) sweep [] (p.call.conn :: todo) stay := by
  have hpings : s.pings W t (.step t :: moves) = [p] ++ s'.pings W t moves := by
    rw [pings_cons_of_some step, hp]
    rfl
  refine ⟨?_, ?_, ?_⟩
  · rw [hpings, List.map_append, tour.conns]
    rfl
  · have hfirst : [p].filterMap Ping.idle? = p.idle?.toList := by
      cases h : p.idle? <;> simp [h]
    rw [hpings, run_cons_of_some step, tour.idle, List.filterMap_append, hfirst, List.append_assoc]
  · rw [hpings, warnings_cons_of_some step journal, List.countP_append, ← Nat.add_assoc]
    exact tour.warnings

section

variable {sweep : Sweep} {call : Call} {moves : List (Move ε)}

/-- A step at a sweep that nobody disturbs. -/
theorem tour_of_step? (hs : s.stage? t = some (.sweeping sweep call)) (ample : Ample s sweep.left)
    (step : s.step? W.backend t = some s') (sweeping : Sweeping W t s' moves)
    (later : ∀ sweep call, s'.stage? t = some (.sweeping sweep call) → Ample s' sweep.left →
      Tour W t s' moves sweep [] (call.conn :: (s'.pool.idle.take sweep.left).map (·.conn))
        (s'.pool.idle.drop sweep.left)) :
    Tour W t s (.step t :: moves) sweep [] (call.conn :: (s.pool.idle.take sweep.left).map (·.conn))
      (s.pool.idle.drop sweep.left) := by
  obtain ⟨p, u, hp, rfl, ended, resumes⟩ := resumes_of_step? hs step
  have idle := ended.idle ample.isOpen
  obtain ⟨line, permit⟩ := ended.permit ample.line
  have enough : sweep.left ≤ u.pool.idle.length := by
    rw [idle, List.length_append]
    exact Nat.le_add_right_of_le ample.enough
  have last : u.pool.idle = [] ∨ u.pool.closed = true ∨ u.pool.free = 0 →
      (sweep.after p).left = 0 := by
    rintro (h | h | h)
    · rw [h] at enough
      exact Nat.le_zero.mp enough
    · cases (ended.closed.trans ample.isOpen).symm.trans h
    · omega
  obtain ⟨recent, journal, tour⟩ := resumes.tour last (fun _ => line) enough sweeping later
  obtain ⟨before, hbefore, silent⟩ := ended.journal
  -- what was written down about the ping is no warning
  have unheard : before.reverse.filter Event.isSweepWarning = [] :=
    List.filter_eq_nil_iff.mpr fun e he => by simp [silent e (List.mem_reverse.mp he)]
  have hleft : (sweep.after p).left = sweep.left := rfl
  rw [idle, hleft, List.take_append_of_le_length ample.enough,
    List.drop_append_of_le_length ample.enough] at tour
  refine Tour.cons step hp (by rw [journal, hbefore, List.append_assoc]) ?_
  rw [List.reverse_append, List.filter_append, unheard]
  exact tour

/-- A sweep that nobody disturbs goes through the connections before it, each of which goes to the
back if it answers. -/
theorem tour_run (tidy : Tidy s) (hs : s.stage? t = some (.sweeping sweep call))
    (ample : Ample s sweep.left) (sweeping : Sweeping W t s moves) (alone : Alone W t s moves) :
    Tour W t s moves sweep [] (call.conn :: (s.pool.idle.take sweep.left).map (·.conn))
      (s.pool.idle.drop sweep.left) := by
  induction moves generalizing s sweep call with
  | nil => exact absurd rfl (sweeping.ne_nil hs)
  | cons m rest ih =>
    have tidy' : Tidy (s.move W m) := (Tidy.invariant W).move tidy m
    obtain ⟨-, sweeping⟩ := sweeping
    obtain ⟨untouched, alone⟩ := alone
    by_cases own : m.stepper? = some t
    · obtain rfl := Move.eq_step own
      cases step : s.step? W.backend t with
      | none =>
        rw [move_step_of_none step] at sweeping alone
        exact (ih tidy hs ample sweeping alone).congr (pings_cons_of_none step)
          (run_cons_of_none step) (warnings_cons_of_none step)
      | some s' =>
        rw [move_step_of_some step] at tidy' sweeping alone
        exact tour_of_step? hs ample step sweeping fun sweep call hs ample =>
          ih tidy' hs ample sweeping alone
    · have hpool := untouched.resolve_left own
      have hs' := stage?_of_other tidy hs own sweeping
      have ample' : Ample (s.move W m) sweep.left := by
        refine ⟨?_, ?_, ?_⟩ <;> rw [hpool]
        exacts [ample.isOpen, ample.line, ample.enough]
      have tour := ih tidy' hs' ample' sweeping alone
      rw [hpool] at tour
      exact tour.congr (pings_cons_other own) rfl (warnings_cons_other own)

end

/-! ## Whole sweeps -/

/-- A sweep that is due begins with a look at the queue. -/
theorem resumes_of_isDue (due : s.isDue t) (isOpen : s.pool.closed = false) : ∃ deadline s',
    s.step? B t = some s' ∧ s.ping? B t = none ∧ s.unlooked t = s.pool.idle.length ∧
      Resumes B t ⟨s.pool.idle.length, s.pool.idle.length, 0, deadline⟩ s s' := by
  unfold isDue at due
  split at due
  · rename_i deadline timer hs
    refine ⟨deadline, _, ?_, ?_, ?_, resumes_sweepOn (mem_keys_of_stage? hs) _⟩
    · simp [step?, hs, due, beginSweep, isOpen]
    · simp [ping?, hs]
    · simp [unlooked, hs]
  · cases due

/-- The first step of a sweep and what remains of it. -/
theorem Sweeps.exists_step {moves : List (Move ε)} (sweeps : Sweeps W t s moves) :
    ∃ rest deadline s', moves = .step t :: rest ∧ s.step? W.backend t = some s' ∧
      s.ping? W.backend t = none ∧ s.unlooked t = s.pool.idle.length ∧
      Resumes W.backend t ⟨s.pool.idle.length, s.pool.idle.length, 0, deadline⟩ s s' ∧
      Sweeping W t s' rest := by
  cases moves with
  | nil => cases sweeps
  | cons m rest =>
    obtain ⟨own, due, isOpen, sweeping⟩ := sweeps
    obtain rfl := Move.eq_step own
    obtain ⟨deadline, s', step, ping, unlooked, resumes⟩ :=
      resumes_of_isDue (B := W.backend) due isOpen
    rw [move_step_of_some step] at sweeping
    exact ⟨rest, deadline, s', rfl, step, ping, unlooked, resumes, sweeping⟩

theorem Happens.imp {P Q : Limiter σ → Move ε → Prop} (h : ∀ u m, P u m → Q u m)
    {moves : List (Move ε)} (happens : Happens W P s moves) : Happens W Q s moves := by
  induction moves generalizing s with
  | nil => exact happens
  | cons m rest ih => exact Or.imp (h s m) ih happens

/-- What a sweep has done. -/
structure Complete (W : Surroundings σ ε) (t : TaskId) (s : Limiter σ) (moves : List (Move ε)) :
    Prop where
  /-- It has made each of its pings with the patience for opening a connection. -/
  patience : ∀ p ∈ s.pings W t moves,
    Happens W (Asking W t s.settings.connectTimeout p.call) s moves
  /-- Every connection that rested at first has been pinged, or somebody else has taken it. -/
  reached : ∀ c ∈ s.pool.idle.map (·.conn), c ∈ (s.pings W t moves).map (·.call.conn) ∨
    Happens W (Borrows W c) s moves ∨ Happens W (Diverts W t c) s moves
  /-- If there is no other sweep, a borrower has. -/
  borrowed : OnlySweep W t s moves → ∀ c ∈ s.pool.idle.map (·.conn),
    c ∈ (s.pings W t moves).map (·.call.conn) ∨ Happens W (Borrows W c) s moves
  /-- If nobody else has touched the pool, those that rest are those that have answered, and the
  others have been reported. -/
  alone : Alone W t s moves →
    (s.pings W t moves).map (·.call.conn) = s.pool.idle.map (·.conn) ∧
    (s.run W moves).pool.idle = (s.pings W t moves).filterMap Ping.idle? ∧
    s.warnings W t moves = sweepWarnings (s.pool.idle.length - (s.run W moves).pool.idle.length)
      s.pool.idle.length

/-- A sweep that nobody disturbs goes once around the queue. -/
theorem Sweeps.tour {capacity : Nat} (balanced : Balanced capacity s) {moves : List (Move ε)}
    (sweeps : Sweeps W t s moves) (whole : ¬CutShort W t s moves) (alone : Alone W t s moves) :
    ∃ deadline, Tour W t s moves ⟨s.pool.idle.length, s.pool.idle.length, 0, deadline⟩ []
      (s.pool.idle.map (·.conn)) [] := by
  have isOpen : s.pool.closed = false := by
    cases moves with
    | nil => cases sweeps
    | cons m rest => exact sweeps.2.2.1
  obtain ⟨rest, deadline, s', rfl, step, ping, unlooked, resumes, sweeping⟩ := sweeps.exists_step
  have alone' : Alone W t s' rest := by
    rw [← move_step_of_some step]
    exact alone.2
  have last : s.pool.idle = [] ∨ s.pool.closed = true ∨ s.pool.free = 0 →
      s.pool.idle.length = 0 := by
    rintro (h | h | none_free)
    · rw [h, List.length_nil]
    · cases isOpen.symm.trans h
    · -- without a permit the sweep has ended at once
      by_contra some_rest
      cases resumes with
      | looks _ _ _ permit => omega
      | ends why pool stage =>
        obtain rfl := sweeping.eq_nil stage
        refine whole ⟨?_, .inr ?_⟩
        · exact unlooked ▸ Nat.pos_of_ne_zero some_rest
        · rw [run_cons_of_some step]
          exact pool ▸ none_free
  have line : 0 < s.pool.free → s.pool.line = [] := fun some_free =>
    by_contra fun waiting => by
      have := balanced.waits waiting
      omega
  have tidy' : Tidy s' := (Tidy.invariant W).step? balanced.tidy step
  obtain ⟨recent, journal, tour⟩ := resumes.tour last line (Nat.le_refl _) sweeping
    fun sweep call hs ample => tour_run tidy' hs ample sweeping alone'
  rw [List.take_length, List.drop_length] at tour
  have hpings : s.pings W t (.step t :: rest) = s'.pings W t rest := by
    rw [pings_cons_of_some step, ping]
    rfl
  exact ⟨deadline, tour.congr hpings (run_cons_of_some step) (warnings_cons_of_some step journal)⟩

/-- After a sweep that nobody disturbs, those rest that have answered, and the others are
reported. -/
theorem Sweeps.alone {capacity : Nat} (balanced : Balanced capacity s) {moves : List (Move ε)}
    (sweeps : Sweeps W t s moves) (whole : ¬CutShort W t s moves) (alone : Alone W t s moves) :
    (s.pings W t moves).map (·.call.conn) = s.pool.idle.map (·.conn) ∧
    (s.run W moves).pool.idle = (s.pings W t moves).filterMap Ping.idle? ∧
    s.warnings W t moves = sweepWarnings (s.pool.idle.length - (s.run W moves).pool.idle.length)
      s.pool.idle.length := by
  obtain ⟨deadline, tour⟩ := sweeps.tour balanced whole alone
  -- each of those that rested has been pinged once
  have pinged : (s.pings W t moves).length = s.pool.idle.length := by
    rw [← List.length_map (f := fun p : Ping => p.call.conn), tour.conns, List.length_map]
  have stays : (s.run W moves).pool.idle.length =
      ((s.pings W t moves).filterMap Ping.idle?).length := by rw [tour.idle, List.nil_append]
  have failed : 0 + (s.pings W t moves).countP (·.answered.isNone) =
      s.pool.idle.length - (s.run W moves).pool.idle.length := by
    have := length_filterMap_idle? (s.pings W t moves)
    omega
  rw [← failed]
  exact ⟨tour.conns, tour.idle, tour.warnings⟩

/-- A sweep that is not cut short reaches every connection that rests when it begins, unless
somebody else takes it. -/
theorem Sweeps.reached (tidy : Tidy s) {moves : List (Move ε)} (sweeps : Sweeps W t s moves)
    (whole : ¬CutShort W t s moves) (rests : c ∈ s.pool.idle.map (·.conn)) :
    c ∈ (s.pings W t moves).map (·.call.conn) ∨ Happens W (Borrows W c) s moves ∨
      Happens W (Diverts W t c) s moves := by
  obtain ⟨rest, deadline, s', rfl, step, ping, unlooked, resumes, sweeping⟩ := sweeps.exists_step
  have hmove := move_step_of_some step
  have tidy' : Tidy s' := (Tidy.invariant W).step? tidy step
  rcases resumes.awaits (c := c) (by rwa [List.take_length]) with awaits | ⟨stopped, why⟩
  · obtain ⟨sweep, call, hs⟩ := awaits.stage
    have whole' : ¬CutShort W t s' rest := by
      rwa [cutShort_cons (sweeping.ne_nil hs), hmove] at whole
    rw [pings_cons_of_some step, ping]
    refine (awaits.run tidy' sweeping whole').imp id (Or.imp ?_ ?_) <;>
      exact fun h => .inr (hmove ▸ h)
  · obtain rfl := sweeping.eq_nil stopped
    refine absurd ⟨?_, ?_⟩ whole
    · have some_rest : 0 < s.pool.idle.length := by
        obtain ⟨i, hi, -⟩ := List.mem_map.mp rests
        exact List.length_pos_of_mem hi
      exact unlooked ▸ some_rest
    · rwa [run_cons_of_some step]

theorem Sweeps.patience (checked : Checked s s) {moves : List (Move ε)}
    (sweeps : Sweeps W t s moves) {p : Ping} (hp : p ∈ s.pings W t moves) :
    Happens W (Asking W t s.settings.connectTimeout p.call) s moves := by
  obtain ⟨rest, deadline, s', rfl, step, ping, -, resumes, sweeping⟩ := sweeps.exists_step
  have checked' : Checked s s' := (Checked.invariant W s).step? checked step
  rw [pings_cons_of_some step, ping] at hp
  rcases asking_of_mem_pings checked' sweeping hp with ⟨sweep, hs⟩ | happens
  · exact .inl ⟨rfl, resumes.asked hs⟩
  · exact .inr ((move_step_of_some step).symm ▸ happens)

/-- After any run, a sweep that is not cut short because the pool is closed or no permit is free
reaches every connection that rests when it begins, whatever others do meanwhile, unless one of them
takes it. If nobody else touches the pool, then in the end those connections rest that have answered
in time, in their former order and with the time of the answer, and a warning tells how many of how
many have not, if there are any. -/
theorem sweep_complete (W : Surroundings σ ε) (backend : σ) (settings : PoolSettings)
    (before : List (Move ε)) {t : TaskId} {moves : List (Move ε)}
    (sweeps : Sweeps W t ((fresh backend settings).run W before) moves)
    (whole : ¬CutShort W t ((fresh backend settings).run W before) moves) :
    Complete W t ((fresh backend settings).run W before) moves := by
  have checked := (Checked.invariant W _).run (.fresh backend settings) before
  have balanced := balanced_run W backend settings before
  generalize (fresh backend settings).run W before = s at *
  refine ⟨fun p => sweeps.patience checked.again,
    fun c rests => sweeps.reached balanced.tidy whole rests, ?_, sweeps.alone balanced whole⟩
  intro only c rests
  refine (sweeps.reached balanced.tidy whole rests).imp id fun taken => ?_
  refine taken.resolve_right fun diverts => only (diverts.imp fun u m h => ?_)
  obtain ⟨v, hne, sweep, call, hs, -⟩ := h.taken
  exact ⟨v, hne, by rw [hs]; rfl⟩

end Limiter

namespace Memory

/-- Three connections come to rest, and half a minute later a sweep is due. -/
def threeAtRest : List (Move MemoryChange) :=
  [.start [.keep "a"], .step 0, .step 0, .start [.keep "b"], .step 1, .step 1, .start [.keep "c"],
    .step 2, .step 2, .release "a", .release "b", .release "c", .start [.guard], .step 3,
    .pass 30000000]

/-- A sweep in which the second ping takes too long. -/
def slowSweep : List (Move MemoryChange) :=
  [.step 3, .tend (.turn (.pingLatency 10000000)), .step 3, .tend (.turn (.pingLatency 0)),
    .pass 5000000, .step 3, .step 3]

/-- A sweep during which somebody borrows the second connection. -/
def disturbedSweep : List (Move MemoryChange) :=
  [.step 3, .start [.borrow 1000 false], .step 4, .step 4, .step 3, .step 3, .step 3]

/-- The connection that takes too long is dropped, and the one that is borrowed is left out. -/
theorem sweep_complete_threeAtRest :
    let s := (Limiter.fresh fresh .standard).run surroundings threeAtRest
    (Limiter.Sweeps surroundings 3 s slowSweep ∧ ¬Limiter.CutShort surroundings 3 s slowSweep ∧
      Limiter.Alone surroundings 3 s slowSweep ∧
      (s.run surroundings slowSweep).pool.idle = [⟨0, 30000000⟩, ⟨2, 35000000⟩] ∧
      s.warnings surroundings 3 slowSweep = sweepWarnings 1 3) ∧
    Limiter.Sweeps surroundings 3 s disturbedSweep ∧
      ¬Limiter.CutShort surroundings 3 s disturbedSweep ∧
      ∀ c ∈ [0, 1, 2], c ∈ [0, 2, 0] ∨
        Limiter.Happens surroundings (Limiter.Borrows surroundings c) s disturbedSweep ∨
        Limiter.Happens surroundings (Limiter.Diverts surroundings 3 c) s disturbedSweep := by
  intro s
  have slow : Limiter.Sweeps surroundings 3 s slowSweep := by decide +kernel
  have slowWhole : ¬Limiter.CutShort surroundings 3 s slowSweep := by decide +kernel
  have alone : Limiter.Alone surroundings 3 s slowSweep := by decide +kernel
  have disturbed : Limiter.Sweeps surroundings 3 s disturbedSweep := by decide +kernel
  have disturbedWhole : ¬Limiter.CutShort surroundings 3 s disturbedSweep := by decide +kernel
  have idle : s.pool.idle = [⟨0, 0⟩, ⟨1, 0⟩, ⟨2, 0⟩] := by decide +kernel
  have pinged : (s.pings surroundings 3 disturbedSweep).map (·.call.conn) = [0, 2, 0] := by
    decide +kernel
  have complete : Limiter.Complete surroundings 3 s slowSweep :=
    Limiter.sweep_complete surroundings fresh .standard threeAtRest slow slowWhole
  obtain ⟨-, stays, warnings⟩ := complete.alone alone
  have answered : (s.pings surroundings 3 slowSweep).filterMap Ping.idle? =
      [⟨0, 30000000⟩, ⟨2, 35000000⟩] := by decide +kernel
  have complete' : Limiter.Complete surroundings 3 s disturbedSweep :=
    Limiter.sweep_complete surroundings fresh .standard threeAtRest disturbed disturbedWhole
  have reached := complete'.reached
  refine ⟨⟨slow, slowWhole, alone, stays.trans answered, ?_⟩, disturbed, disturbedWhole, ?_⟩
  · rw [warnings, stays, answered, idle]
    rfl
  · rw [pinged, idle] at reached
    exact reached

end Memory

end Turnstile
