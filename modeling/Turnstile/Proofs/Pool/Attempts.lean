import Turnstile.Proofs.Pool.Discards
import Turnstile.Proofs.Pool.Shut
import Turnstile.Proofs.Runs.Prompt

/-!
# Attempts to have a call counted

Somebody has a call counted. It gets a connection and runs a command on it; if the command times out
and an attempt is left, it gives the connection back and looks for another one. The deeds of a task
are what is seen of it in a run, and `Course` says which of them may follow each other and how they
end. `Spends` says what a task does when a command of it is over, and `Finds` where looking for a
connection leads; between them they cover every step of such a task.
-/

namespace Turnstile

/-- A command that is over: the lease of the connection on which it was run, what came of it, and
whether somebody stood in the line for a permit by then. -/
structure Trial where
  lease : Lease
  reply : Reply
  crowded : Bool
deriving DecidableEq

namespace Trial

/-- Whether it has failed in such a way that it is worth a second try. -/
def timedOut (r : Trial) : Bool :=
  match r.reply with
  | .ok _ => false
  | .error f => f.isTimeout

/-- How the job ends of which it is the last command. -/
def outcome (r : Trial) : Outcome :=
  match r.reply with
  | .ok ms => .ok (.verdict (.ofRemaining ms))
  | .error f => .error (.fault f)

end Trial

/-- What is seen of a task that has a call counted. -/
inductive Deed where
  /-- It has got a connection. -/
  | got (lease : Lease)
  /-- It gets no permit. -/
  | denied (f : Fault)
  /-- It has a permit, but no connection can be opened. -/
  | unopened (f : Fault)
  /-- Its command is over. -/
  | tried (trial : Trial)
deriving DecidableEq

/-- The lease of a connection that has been got. -/
def Deed.got? : Deed → Option Lease
  | .got lease => some lease
  | _ => none

def Deed.isTried : Deed → Bool
  | .tried _ => true
  | _ => false

/-- What somebody may do who has a call counted in so many attempts at most, and with which outcome
it ends if it has come to its end. -/
inductive Course : Nat → List Deed → Option Outcome → Prop
  | seeks {n : Nat} (left : 0 < n) : Course n [] none
  | denied {n : Nat} (left : 0 < n) {f : Fault} (kind : f = .poolClosed ∨ f = .poolExhausted) :
    Course n [.denied f] (some (.error (.fault f)))
  | unopened {n : Nat} (left : 0 < n) (f : Fault) :
    Course n [.unopened f] (some (.error (.fault f)))
  | runs {n : Nat} (left : 0 < n) (lease : Lease) : Course n [.got lease] none
  /-- One that has timed out is the last if no attempt is left. -/
  | ends {n : Nat} (left : 0 < n) {r : Trial} (final : r.timedOut = true → n = 1) :
    Course n [.got r.lease, .tried r] (some r.outcome)
  /-- The next command is run on another connection. If nobody stood in the line when this one was
  over, a permit is there for the next one. -/
  | again {n : Nat} {r : Trial} {deeds : List Deed} {outcome : Option Outcome}
    (timedOut : r.timedOut = true) (apart : ∀ l, .got l ∈ deeds → l.conn ≠ r.lease.conn)
    (room : r.crowded = false → deeds.head? ≠ some (.denied .poolExhausted))
    (rest : Course n deeds outcome) : Course (n + 1) (.got r.lease :: .tried r :: deeds) outcome

/-- The deeds of attempts that have all got a connection. -/
def Deed.ofTrials (trials : List Trial) : List Deed :=
  trials.flatMap fun r => [.got r.lease, .tried r]

theorem Deed.got_mem_ofTrials {trials : List Trial} {l : Lease} :
    .got l ∈ ofTrials trials ↔ l ∈ trials.map (·.lease) := by
  simp [ofTrials, eq_comm]

theorem Deed.countP_isTried_ofTrials (trials : List Trial) :
    (ofTrials trials).countP isTried = trials.length := by
  simp [ofTrials, List.countP_flatMap, isTried, Function.comp_def]

namespace Course

variable {n : Nat} {deeds tail : List Deed} {outcome : Option Outcome}

theorem pos (course : Course n deeds outcome) : 0 < n := by
  cases course <;> first | assumption | exact Nat.succ_pos _

/-- There is one connection for each attempt at most. -/
theorem length_le (course : Course n deeds outcome) :
    (deeds.filterMap Deed.got?).length ≤ n := by
  induction course with
  | seeks | denied | unopened => exact Nat.zero_le _
  | runs left | ends left => exact left
  | again _ _ _ _ ih => exact Nat.succ_le_succ ih

/-- There is a second connection if there is a second attempt, the first command has timed out, and
a connection has been got after that. It is another one. -/
theorem second_iff (course : Course n deeds outcome) :
    1 < (deeds.filterMap Deed.got?).length ↔
      1 < n ∧ ∃ r l rest, r.timedOut = true ∧ l.conn ≠ r.lease.conn ∧
        deeds = .got r.lease :: .tried r :: .got l :: rest := by
  constructor
  · intro second
    cases course with
    | again timedOut apart room rest =>
      refine ⟨Nat.succ_lt_succ rest.pos, ?_⟩
      cases rest with
      | runs | ends | again => exact ⟨_, _, _, timedOut, apart _ (List.mem_cons_self ..), rfl⟩
      | seeks | denied | unopened => exact absurd second (Nat.lt_irrefl 1)
    | seeks | denied | unopened => cases second
    | runs | ends => exact absurd second (Nat.lt_irrefl 1)
  · rintro ⟨-, r, l, rest, -, -, rfl⟩
    exact Nat.succ_lt_succ (Nat.succ_pos _)

/-- There is no permit for the next attempt only if somebody stood in the line. -/
theorem crowded (course : Course n deeds outcome) {r : Trial}
    (short : [.tried r, .denied .poolExhausted] <:+: deeds) : r.crowded = true := by
  induction course with
  | again timedOut apart room rest ih =>
    rcases List.infix_cons_iff.mp short with first | short
    · cases (List.cons_prefix_cons.mp first).1
    · rcases List.infix_cons_iff.mp short with first | short
      · obtain ⟨heq, more, rfl⟩ := List.cons_prefix_cons.mp first
        cases heq
        exact Decidable.byContradiction fun uncrowded =>
          room (eq_false_of_ne_true uncrowded) rfl
      · exact ih short
  | _ => simp [List.infix_cons_iff] at short

/-- Attempts that have timed out go before the others. -/
theorem after {trials : List Trial} (timedOut : ∀ r ∈ trials, r.timedOut = true)
    (distinct : (trials.map (·.lease.conn)).Nodup)
    (apart : ∀ l, .got l ∈ tail → l.conn ∉ trials.map (·.lease.conn))
    (room : ∀ r ∈ trials.getLast?, r.crowded = false →
      tail.head? ≠ some (.denied .poolExhausted))
    (rest : Course n tail outcome) :
    Course (trials.length + n) (Deed.ofTrials trials ++ tail) outcome := by
  induction trials with
  | nil => simpa [Deed.ofTrials] using rest
  | cons r more ih =>
    obtain ⟨first, timedOut⟩ := List.forall_mem_cons.mp timedOut
    rw [List.map_cons, List.nodup_cons] at distinct
    have ih := ih timedOut distinct.2
      (fun l hl hc => apart l hl (List.mem_cons_of_mem _ hc)) fun r' hr' => room r' <| by
        cases more with
        | nil => cases hr'
        | cons => simpa using hr'
    rw [List.length_cons, Nat.add_right_comm]
    refine .again first (fun l hl hc => ?_) (fun uncrowded => ?_) ih
    · rcases List.mem_append.mp hl with hl | hl
      · obtain ⟨r', hr', rfl⟩ := List.mem_map.mp (Deed.got_mem_ofTrials.mp hl)
        exact distinct.1 (hc ▸ List.mem_map_of_mem hr')
      · exact apart l hl (hc ▸ List.mem_cons_self ..)
    · -- between two commands there is nothing else
      cases more with
      | nil => exact room r rfl uncrowded
      | cons => exact nofun

end Course

/-- Whether a task at the stage looks for a connection for that attempt to have a call counted. -/
def Stage.LooksFor (e : Evaluation) (n : Nat) : Stage → Prop
  | .fresh (.evaluate e') => e' = e ∧ n = 1
  | .queued goal _ | .granted goal | .probing goal _ | .opening goal _ => goal = .evaluate e n
  | _ => False

theorem Stage.Handed.looksFor {a b : Stage} {e : Evaluation} {n : Nat} (handed : a.Handed b)
    (looks : a.LooksFor e n) : b.LooksFor e n := by
  cases handed <;> exact looks

namespace Limiter

variable {σ ε : Type} {W : Surroundings σ ε} {B : Backend σ} {s s' u v : Limiter σ} {t : TaskId}
  {e : Evaluation} {n : Nat}

/-! ## What is seen of a task -/

/-- The command of a task that its next step finds over. -/
def trial? (B : Backend σ) (s : Limiter σ) (t : TaskId) : Option Trial :=
  match s.stage? t with
  | some (.evaluating _ _ lease call) =>
    match s.progress call with
    | .pending => none
    | .late => some ⟨lease, .error .commandTimeout, !s.pool.line.isEmpty⟩
    | .ripe => some ⟨lease, (s.finishCall B t call).2, !s.pool.line.isEmpty⟩
  | _ => none

/-- What comes of looking for a connection in a step between two limiters, if something does: the
task has a connection, or has ended its job with a fault that no command of its has had. -/
def sought? (B : Backend σ) (s s' : Limiter σ) (t : TaskId) : Option Deed :=
  match s'.hand t with
  | .lease lease => some (.got lease)
  | _ =>
    match (s'.outcomes t)[(s.outcomes t).length]? with
    | some (.error (.fault f)) =>
      if (s.trial? B t).any (·.reply = .error f) then none
      else if (s.stage? t).any Stage.isOpening then some (.unopened f)
      else some (.denied f)
    | _ => none

/-- What a task does in a move. -/
def deedsOf (W : Surroundings σ ε) (s : Limiter σ) (t : TaskId) (m : Move ε) : List Deed :=
  if m.stepper? = some t then
    match s.step? W.backend t with
    | none => []
    | some s' => ((s.trial? W.backend t).map .tried).toList ++ (s.sought? W.backend s' t).toList
  else []

/-- What a task does in a run. -/
def deeds (W : Surroundings σ ε) (t : TaskId) : Limiter σ → List (Move ε) → List Deed
  | _, [] => []
  | s, m :: rest => s.deedsOf W t m ++ deeds W t (s.move W m) rest

/-- What is tried in a run is over at a step of the task. -/
theorem exists_of_tried_mem {moves : List (Move ε)} {r : Trial}
    (tried : .tried r ∈ s.deeds W t moves) : ∃ done rest, moves = done ++ .step t :: rest ∧
      (s.run W done).trial? W.backend t = some r := by
  induction moves generalizing s with
  | nil => cases tried
  | cons m rest ih =>
    rcases List.mem_append.mp tried with now | later
    · unfold deedsOf at now
      split at now
      · rename_i own
        obtain rfl := Move.eq_step own
        refine ⟨[], rest, rfl, ?_⟩
        split at now
        · cases now
        · rename_i s' _
          have hsought : s.sought? W.backend s' t ≠ some (.tried r) := by
            unfold sought?
            repeat' split
            all_goals exact nofun
          simpa [hsought, run] using now
      · cases now
    · obtain ⟨done, rest', rfl, seen⟩ := ih later
      exact ⟨m :: done, rest', rfl, seen⟩

/-- Before each move of the run so many jobs of the task have ended. -/
def Lasts (W : Surroundings σ ε) (t : TaskId) (n : Nat) : Limiter σ → List (Move ε) → Prop
  | _, [] => True
  | s, m :: rest => (s.outcomes t).length = n ∧ Lasts W t n (s.move W m) rest

instance decidableLasts (W : Surroundings σ ε) (t : TaskId) (n : Nat) :
    (s : Limiter σ) → (moves : List (Move ε)) → Decidable (Lasts W t n s moves)
  | _, [] => .isTrue trivial
  | s, m :: rest =>
    have := decidableLasts W t n (s.move W m) rest
    inferInstanceAs (Decidable (_ ∧ _))

theorem Lasts.before {done rest : List (Move ε)} {m : Move ε}
    (lasts : Lasts W t n s (done ++ m :: rest)) : Lasts W t n s done := by
  induction done generalizing s with
  | nil => trivial
  | cons first more ih => exact ⟨lasts.1, ih lasts.2⟩

/-! ## Steps -/

/-- What a task does when a command of it is over. Before it goes on in any way it gives back the
lease, and the permit with it, to the pool as it finds it. -/
inductive Spends (B : Backend σ) (t : TaskId) (e : Evaluation) (n : Nat) (r : Trial)
    (s : Limiter σ) : Limiter σ → Prop
  | counts {u : Limiter σ} {ms : Nat} (ledger : u.ledger? t = s.ledger? t) (pool : u.pool = s.pool)
    (settings : u.settings = s.settings) (ok : r.reply = .ok ms) :
    Spends B t e n r s ((u.giveBack r.lease).settle t r.outcome)
  | gives {u : Limiter σ} {f : Fault} (ledger : u.ledger? t = s.ledger? t) (pool : u.pool = s.pool)
    (settings : u.settings = s.settings) (failed : r.reply = .error f)
    (last : f.isTimeout = true → s.settings.attempts ≤ n) :
    Spends B t e n r s ((u.giveBack { r.lease with broken := true }).settle t r.outcome)
  | again {u : Limiter σ} {f : Fault} (ledger : u.ledger? t = s.ledger? t) (pool : u.pool = s.pool)
    (settings : u.settings = s.settings) (failed : r.reply = .error f)
    (timedOut : f.isTimeout = true) (left : n < s.settings.attempts) :
    Spends B t e n r s
      ((u.giveBack { r.lease with broken := true }).want B t (.evaluate e (n + 1)))

theorem spends_counted (ledger : u.ledger? t = s.ledger? t) (pool : u.pool = s.pool)
    (settings : u.settings = s.settings) (r : Trial) :
    Spends B t e n r s (u.counted B t e n r.lease r.reply) := by
  obtain ⟨lease, reply, crowded⟩ := r
  cases reply with
  | ok ms => exact .counts (r := ⟨lease, .ok ms, crowded⟩) ledger pool settings rfl
  | error f =>
    simp only [counted]
    split
    · rename_i again
      obtain ⟨timedOut, left⟩ := Bool.and_eq_true_iff.mp again
      exact .again (r := ⟨lease, .error f, crowded⟩) ledger pool settings rfl timedOut
        (settings ▸ of_decide_eq_true left)
    · rename_i final
      refine .gives (r := ⟨lease, .error f, crowded⟩) ledger pool settings rfl fun timedOut => ?_
      rw [timedOut, Bool.true_and, decide_eq_true_eq] at final
      exact settings ▸ Nat.le_of_not_lt final

/-- A step of a task with a command under way finds it over. -/
theorem spends_of_step? {lease : Lease} {call : Call}
    (hs : s.stage? t = some (.evaluating e n lease call)) (step : s.step? B t = some s') :
    ∃ r, s.trial? B t = some r ∧ r.lease = lease ∧ r.crowded = !s.pool.line.isEmpty ∧
      s.answered? B t call = some r.reply.isOk ∧ Spends B t e n r s s' := by
  simp only [step?, hs] at step
  split at step
  · cases step
  · rename_i late
    cases step
    let r : Trial := ⟨lease, .error .commandTimeout, !s.pool.line.isEmpty⟩
    have seen : s.trial? B t = some r := by simp only [trial?, hs, late, r]
    exact ⟨r, seen, rfl, rfl, answered?_of_late late, spends_counted rfl rfl rfl r⟩
  · rename_i ripe
    cases hr : s.finishCall B t call with
    | mk w reply =>
      simp only [hr] at step
      cases step
      have hreply : (s.finishCall B t call).2 = reply := by rw [hr]
      obtain rfl : w = (s.finishCall B t call).1 := by rw [hr]
      let r : Trial := ⟨lease, reply, !s.pool.line.isEmpty⟩
      have seen : s.trial? B t = some r := by simp only [trial?, hs, ripe, hreply, r]
      exact ⟨r, seen, rfl, rfl, answered?_of_ripe ripe hreply,
        spends_counted (s := s) (u := (s.finishCall B t call).1) rfl rfl rfl r⟩

/-- Whether the pool denies a permit with that fault: it is closed, or has none to spare. -/
def Denial (short : Prop) (f : Fault) : Prop := f = .poolClosed ∨ f = .poolExhausted ∧ short

/-- Where looking for a connection leads, given the faults with which a permit may be denied. -/
inductive Finds (t : TaskId) (e : Evaluation) (n : Nat) (denies : Fault → Prop) (s : Limiter σ) :
    Limiter σ → Prop
  | parks {u : Limiter σ} (before : u.ledger? t = s.ledger? t) (stage : Stage)
    (looks : stage.LooksFor e n) (place : stage.hand = .place → denies .poolExhausted) :
    Finds t e n denies s (u.setStage t stage)
  | gets {u : Limiter σ} (before : u.ledger? t = s.ledger? t) {lease : Lease}
    (whole : lease.broken = false) (call : Call) :
    Finds t e n denies s (u.setStage t (.evaluating e n lease call))
  | denied {u : Limiter σ} (before : u.ledger? t = s.ledger? t) {f : Fault} (denial : denies f) :
    Finds t e n denies s (u.fail t f)

namespace Finds

variable {denies : Fault → Prop}

theorem after (before : u.ledger? t = s.ledger? t) (rest : Finds t e n denies u s') :
    Finds t e n denies s s' := by
  cases rest with
  | parks later stage looks place => exact .parks (later.trans before) stage looks place
  | gets later whole call => exact .gets (later.trans before) whole call
  | denied later denial => exact .denied (later.trans before) denial

theorem employ {lease : Lease} (whole : lease.broken = false) :
    Finds t e n denies s (s.employ B t (.evaluate e n) lease) := by
  have before := (Steady.startCall (B := B) (t := t) s lease.conn (.count e.key e.limit e.windowMs)
    (some s.settings.commandTimeout)).ledger
  exact .gets before whole _

/-- A request is made and waited for. -/
theorem call (conn : ConnId) (command : Command) (ms : Nat) (stage : Call → Stage)
    (looks : ∀ call, (stage call).LooksFor e n) (place : ∀ call, (stage call).hand ≠ .place) :
    Finds t e n denies s ((s.startCall B conn command (some ms)).1.setStage t
      (stage (s.startCall B conn command (some ms)).2)) :=
  .parks (Steady.startCall ..).ledger _ (looks _) fun h => absurd h (place _)

/-- Who has a permit is not denied one. -/
theorem choose : Finds t e n denies s (s.choose B t (.evaluate e n)) := by
  cases front : s.pool.idle with
  | nil =>
    let u : Limiter σ := { s with nextConn := s.nextConn + 1 }
    simp only [Limiter.choose, front]
    exact after (u := u) rfl (call s.nextConn .connect s.settings.connectTimeout
      (.opening (.evaluate e n)) (fun _ => rfl) fun _ h => by cases h)
  | cons i rest =>
    let u : Limiter σ := { s with pool := { s.pool with idle := rest } }
    simp only [Limiter.choose, front]
    split
    · exact after (u := u) rfl (employ rfl)
    · exact after (u := u) rfl (call i.conn .ping s.settings.connectTimeout
        (.probing (.evaluate e n)) (fun _ => rfl) fun _ h => by cases h)

/-- A permit is denied only by a closed pool, or if none is free. -/
theorem want (closed : denies .poolClosed) (exhausted : s.pool.free = 0 → denies .poolExhausted) :
    Finds t e n denies s (s.want B t (.evaluate e n)) := by
  unfold Limiter.want
  split
  · exact .denied rfl closed
  · split
    · exact after (u := { s with pool := { s.pool with free := s.pool.free - 1 } }) rfl choose
    · rename_i none
      have denial := exhausted (Nat.eq_zero_of_not_pos none)
      let u : Limiter σ := (s.setTimer s.settings.connectTimeout).1
      simp only
      split
      · exact after (u := u) rfl (.denied rfl denial)
      · exact after (u := { u with pool := s.pool.enqueue t }) rfl
          (.parks rfl (.queued _ _) rfl fun _ => denial)

theorem evict : Finds t e n denies s (s.evict B t (.evaluate e n)) :=
  after (u := s.emit .evicted) rfl choose

end Finds

/-- A connection is opened, or the job ends with what went wrong. -/
theorem finds_of_opening {call : Call} (hs : s.stage? t = some (.opening (.evaluate e n) call))
    (step : s.step? B t = some s') : Finds t e n (fun _ => False) s s' ∨
      ∃ (u : Limiter σ) (f : Fault), u.ledger? t = s.ledger? t ∧ s' = u.fail t f := by
  have failed : ∀ (u : Limiter σ) (f : Fault), u.ledger? t = s.ledger? t →
      ∃ (w : Limiter σ) (g : Fault), w.ledger? t = s.ledger? t ∧ u.openFailed t f = w.fail t g :=
    fun u f before =>
    ⟨_, f, ((Steady.raise u f.message).trans (.freePermit _)).ledger.trans before, rfl⟩
  simp only [step?, hs] at step
  split at step
  · cases step
  · cases step
    exact .inr (failed s _ rfl)
  · cases hr : s.finishCall B t call with
    | mk u reply =>
      simp only [hr] at step
      obtain rfl : u = (s.finishCall B t call).1 := by rw [hr]
      cases reply with
      | ok ms =>
        cases step
        exact .inl (.after (u := (s.finishCall B t call).1.clear.1) rfl (.employ rfl))
      | error f =>
        cases step
        exact .inr (failed _ f rfl)

/-- A task that looks for a connection, and opens none, goes on looking, gets one, or is denied a
permit. -/
theorem finds_of_step? {stage : Stage} {denies : Fault → Prop} (hs : s.stage? t = some stage)
    (looks : stage.LooksFor e n) (resting : stage.isOpening = false)
    (closed : denies .poolClosed) (exhausted : n = 1 ∨ stage.hand = .place → denies .poolExhausted)
    (step : s.step? B t = some s') : Finds t e n denies s s' := by
  unfold Stage.LooksFor at looks
  split at looks
  · obtain ⟨rfl, rfl⟩ := looks
    simp only [step?, hs] at step
    cases step
    exact .want closed fun _ => exhausted (.inl rfl)
  · simp only [step?, hs] at step
    split at step
    · cases step
      exact .denied rfl closed
    · split at step
      · cases step
        exact .after (u := { s with pool := s.pool.leave t }) rfl
          (.denied rfl (exhausted (.inr rfl)))
      · cases step
  · subst looks
    simp only [step?, hs] at step
    split at step
    · cases step
      exact .denied (Steady.freePermit s).ledger closed
    · cases step
      exact .choose
  · subst looks
    rename_i call
    simp only [step?, hs] at step
    split at step
    · cases step
    · cases step
      exact .evict
    · cases hr : s.finishCall B t call with
      | mk u reply =>
        simp only [hr] at step
        obtain rfl : u = (s.finishCall B t call).1 := by rw [hr]
        cases reply with
        | ok ms =>
          cases step
          exact .after (u := (s.finishCall B t call).1) rfl (.employ rfl)
        | error f =>
          cases step
          exact .after (u := (s.finishCall B t call).1) rfl .evict
  · cases resting
  · exact looks.elim

/-! ## What is seen of a step -/

theorem outcomes_of_ledger (ledger : u.ledger? t = s.ledger? t) : u.outcomes t = s.outcomes t := by
  have hledger : ∀ v : Limiter σ,
      v.outcomes t = ((v.ledger? t).map fun l => l.2.reverse).getD [] := fun v => by
    simp [outcomes, ledger?, Function.comp_def]
  rw [hledger, ledger, hledger]

theorem mem_keys_of_ledger (ledger : u.ledger? t = s.ledger? t) (ht : t ∈ Table.keys s.tasks) :
    t ∈ Table.keys u.tasks := by
  obtain ⟨task, hget⟩ := Option.isSome_iff_exists.mp (Table.get?_isSome_iff.mpr ht)
  obtain ⟨stage, hu⟩ := get?_of_ledger? hget ledger
  exact Table.mem_keys_of_get? hu

theorem deedsOf_of_step? (step : s.step? W.backend t = some s') : s.deedsOf W t (.step t) =
    ((s.trial? W.backend t).map .tried).toList ++ (s.sought? W.backend s' t).toList := by
  simp [deedsOf, Move.stepper?, step]

theorem sought?_of_evaluating {lease : Lease} {call : Call}
    (hs : s'.stage? t = some (.evaluating e n lease call)) :
    s.sought? B s' t = some (.got lease) := by
  simp only [sought?, hand_of_stage? hs, Stage.hand]

/-- Whoever goes on looking has found nothing. -/
theorem sought?_of_looks {stage : Stage} (hs : s'.stage? t = some stage)
    (looks : stage.LooksFor e n) (outcomes : s'.outcomes t = s.outcomes t) :
    s.sought? B s' t = none := by
  simp only [sought?, hand_of_stage? hs, outcomes, List.getElem?_eq_none (Nat.le_refl _)]
  cases stage with
  | evaluating | verifying | holding => exact looks.elim
  | _ => rfl

/-- What comes of looking for a connection if the job ends. -/
theorem sought?_settle (known : t ∈ Table.keys s.tasks) (ledger : u.ledger? t = s.ledger? t)
    (outcome : Outcome) : s.sought? B (u.settle t outcome) t =
      match outcome with
      | .error (.fault f) =>
        if (s.trial? B t).any (·.reply = .error f) then none
        else if (s.stage? t).any Stage.isOpening then some (.unopened f)
        else some (.denied f)
      | _ => none := by
  have known' := mem_keys_of_ledger ledger known
  have ended : ((u.settle t outcome).outcomes t)[(s.outcomes t).length]? = some outcome := by
    rw [outcomes_settle known', outcomes_of_ledger ledger]
    exact List.getElem?_concat_length
  rw [sought?, hand_settle_self, ended]
  cases outcome with
  | ok answer => rfl
  | error failure => cases failure <;> rfl

end Limiter

end Turnstile
