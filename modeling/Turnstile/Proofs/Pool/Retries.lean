import Turnstile.Proofs.Pool.Attempts
import Turnstile.Proofs.Pool.Conservation

/-!
# Trying again

Whatever others do in between, `Trying` holds after each move of a task that has a call counted. So
the deeds of every run are a course: there is a second command only after one that has timed out, on
another connection, with a permit that has been given back before. When a command is over it can be
told what becomes of its connection (`Concludes`); `evaluate_disciplined` puts it all together.
-/

namespace Turnstile

namespace Limiter

variable {σ ε : Type} {W : Surroundings σ ε} {B : Backend σ} {s s' u v : Limiter σ} {t : TaskId}
  {c : ConnId} {e : Evaluation} {n : Nat}

/-! ## Connections that are gone -/

/-- The connection has been dropped. -/
structure Gone (c : ConnId) (s : Limiter σ) : Prop where
  settled : Settled c s
  nowhere : c ∉ s.places

namespace Gone

theorem of_discards {m : Move ε} (d : Distinct s) (discards : Discards W s m c) :
    Gone c (s.move W m) := by
  have settled := d.settled (discards.mem_places d.tidy)
  refine ⟨(Settled.invariant W c).move settled m, fun hc => ?_⟩
  rcases (mem_places_move d m c).mp hc with ⟨-, keeps⟩ | opens
  · exact keeps discards
  · exact opens.not_settled settled

/-- What is gone stays so. -/
theorem move (d : Distinct s) (gone : Gone c s) (m : Move ε) : Gone c (s.move W m) := by
  refine ⟨(Settled.invariant W c).move gone.settled m, fun hc => ?_⟩
  rcases (mem_places_move d m c).mp hc with ⟨hc, -⟩ | opens
  · exact gone.nowhere hc
  · exact opens.not_settled gone.settled

theorem run (d : Distinct s) (gone : Gone c s) (moves : List (Move ε)) :
    Gone c (s.run W moves) := by
  induction moves generalizing s with
  | nil => exact gone
  | cons m rest ih => exact ih ((Distinct.invariant W).move d m) (gone.move d m)

end Gone

/-- Attempts of a task that have failed, after which it may make another. -/
structure Failed (attempts : Nat) (trials : List Trial) (s : Limiter σ) : Prop where
  few : trials.length < attempts
  timedOut : ∀ r ∈ trials, r.timedOut = true
  distinct : (trials.map (·.lease.conn)).Nodup
  gone : ∀ r ∈ trials, Gone r.lease.conn s

namespace Failed

variable {trials : List Trial}

theorem move (d : Distinct s) (failed : Failed n trials s) (m : Move ε) :
    Failed n trials (s.move W m) :=
  ⟨failed.few, failed.timedOut, failed.distinct, fun r hr => (failed.gone r hr).move d m⟩

/-- What a task has in hand is none of the connections that it had before. -/
theorem new (d : Distinct s) (failed : Failed n trials s) {lease : Lease}
    (own : s.hand t = .lease lease) : lease.conn ∉ trials.map (·.lease.conn) := by
  intro hc
  obtain ⟨r, hr, heq⟩ := List.mem_map.mp hc
  exact (failed.gone r hr).nowhere (heq ▸ mem_places_of_hand d.tidy (congrArg Hand.conns own))

/-- Another attempt may fail as well. -/
theorem snoc (failed : Failed n trials s) {r : Trial} (left : trials.length + 1 < n)
    (timedOut : r.timedOut = true) (new : r.lease.conn ∉ trials.map (·.lease.conn))
    (gone : Gone r.lease.conn s) : Failed n (trials ++ [r]) s where
  few := by
    rw [List.length_append, List.length_singleton]
    exact left
  timedOut := List.forall_mem_append.mpr ⟨failed.timedOut, by simpa using timedOut⟩
  distinct := by
    rw [List.map_append, List.map_singleton]
    exact failed.distinct.append (List.nodup_singleton _) (by simpa using new)
  gone := List.forall_mem_append.mpr ⟨failed.gone, by simpa using gone⟩

theorem course (failed : Failed n trials s) {tail : List Deed} {outcome : Option Outcome}
    (apart : ∀ l, .got l ∈ tail → l.conn ∉ trials.map (·.lease.conn))
    (room : ∀ r ∈ trials.getLast?, r.crowded = false →
      tail.head? ≠ some (.denied .poolExhausted))
    (rest : Course (n - trials.length) tail outcome) :
    Course n (Deed.ofTrials trials ++ tail) outcome := by
  have course := rest.after failed.timedOut failed.distinct apart room
  rwa [Nat.add_sub_cancel' (Nat.le_of_lt failed.few)] at course

theorem left (failed : Failed n trials s) : 0 < n - trials.length :=
  Nat.sub_pos_of_lt failed.few

theorem seeks (failed : Failed n trials s) : Course n (Deed.ofTrials trials) none := by
  have course : Course n (Deed.ofTrials trials ++ []) none :=
    failed.course nofun nofun (.seeks failed.left)
  rwa [List.append_nil] at course

theorem runs (d : Distinct s) (failed : Failed n trials s) {lease : Lease}
    (own : s.hand t = .lease lease) : Course n (Deed.ofTrials trials ++ [.got lease]) none := by
  refine failed.course (fun l hl => ?_) nofun (.runs failed.left lease)
  obtain rfl : l = lease := by simpa using hl
  exact failed.new d own

end Failed

/-! ## How things stand -/

/-- While a task takes no step it stays at its stage, or a permit comes for it, or it is cancelled,
and no job of it ends. -/
theorem stage?_move_of_still (tidy : Tidy v) {stage : Stage} (hs : v.stage? t = some stage)
    {m : Move ε} (still : m.stepper? = some t → v.step? W.backend t = none) :
    (v.move W m).outcomes t = v.outcomes t ∧
      ((∃ stage', (v.move W m).stage? t = some stage' ∧ stage.Handed stage') ∨
        (v.move W m).stage? t = some .cancelled) := by
  obtain ⟨task, hget, rfl⟩ := Option.map_eq_some_iff.mp hs
  rw [outcomes_of_get? hget]
  cases fate_move W tidy hget m with
  | spared stage' entry handed counts =>
    have houtcomes := outcomes_of_get? entry
    exact ⟨houtcomes, .inl ⟨stage', stage?_of_get? entry, handed⟩⟩
  | cancelled which entry counts =>
    have houtcomes := outcomes_of_get? entry
    exact ⟨houtcomes, .inr (stage?_of_get? entry)⟩
  | stepped which step =>
    rw [still (by rw [which]; rfl)] at step
    cases step

/-- How things stand with a task that had these outcomes when it began to have a call counted, and
that has done these deeds since. -/
inductive Trying (p : PoolSettings) (t : TaskId) (e : Evaluation) (past : List Outcome)
    (deeds : List Deed) (v : Limiter σ) : Prop
  /-- It looks for a connection. It stands in the line only if others stood there when its last
  command was over. -/
  | seeks {trials : List Trial} {stage : Stage} (failed : Failed p.attempts trials v)
    (seen : deeds = Deed.ofTrials trials) (hs : v.stage? t = some stage)
    (looks : stage.LooksFor e (trials.length + 1))
    (place : stage.hand = .place → ∀ r ∈ trials.getLast?, r.crowded = true)
    (outcomes : v.outcomes t = past) : Trying p t e past deeds v
  /-- A command is under way. -/
  | runs {trials : List Trial} {lease : Lease} {call : Call} (failed : Failed p.attempts trials v)
    (seen : deeds = Deed.ofTrials trials ++ [.got lease])
    (hs : v.stage? t = some (.evaluating e (trials.length + 1) lease call))
    (whole : lease.broken = false) (outcomes : v.outcomes t = past) : Trying p t e past deeds v
  /-- Its job has ended, and nothing of it is left in hand. -/
  | ended {outcome : Outcome} (course : Course p.attempts deeds (some outcome))
    (empty : v.hand t = .nothing) (outcomes : v.outcomes t = past ++ [outcome]) :
    Trying p t e past deeds v
  | cancelled (course : Course p.attempts deeds none) (hs : v.stage? t = some .cancelled)
    (outcomes : v.outcomes t = past) : Trying p t e past deeds v

namespace Trying

variable {p : PoolSettings} {past : List Outcome} {deeds : List Deed} {trials : List Trial}

/-- The deeds are a course, which has ended if the job has. -/
theorem course (d : Distinct v) (trying : Trying p t e past deeds v) :
    ∃ outcome, v.outcomes t = past ++ outcome.toList ∧ Course p.attempts deeds outcome := by
  cases trying with
  | seeks failed seen hs looks place outcomes =>
    exact ⟨none, outcomes.trans (List.append_nil past).symm, seen ▸ failed.seeks⟩
  | runs failed seen hs whole outcomes =>
    exact ⟨none, outcomes.trans (List.append_nil past).symm,
      seen ▸ failed.runs d (hand_of_stage? hs)⟩
  | @ended outcome course empty outcomes => exact ⟨some outcome, outcomes, course⟩
  | cancelled course hs outcomes =>
    exact ⟨none, outcomes.trans (List.append_nil past).symm, course⟩

/-- Until the job has ended the task looks for a connection or runs a command on the one it has,
unless it has been cancelled. -/
theorem standing (tidy : Tidy v) (trying : Trying p t e past deeds v)
    (lasts : v.outcomes t = past) : ∃ stage, v.stage? t = some stage ∧
      (stage.LooksFor e (deeds.countP Deed.isTried + 1) ∨ stage = .cancelled ∨
        ∃ lease call, stage = .evaluating e (deeds.countP Deed.isTried + 1) lease call ∧
          call.command = .count e.key e.limit e.windowMs) := by
  cases trying with
  | seeks failed seen hs looks place outcomes =>
    rw [seen, Deed.countP_isTried_ofTrials]
    exact ⟨_, hs, .inl looks⟩
  | runs failed seen hs whole outcomes =>
    rw [seen, List.countP_append, Deed.countP_isTried_ofTrials]
    exact ⟨_, hs, .inr (.inr ⟨_, _, rfl, (tidy.proper t _ hs).2⟩)⟩
  | ended course empty outcomes => simp [outcomes] at lasts
  | cancelled course hs outcomes => exact ⟨_, hs, .inr (.inl rfl)⟩

/-- Whoever has a connection runs a command. -/
theorem evaluating_of_lease (trying : Trying p t e past deeds v) {lease : Lease}
    (own : v.hand t = .lease lease) : ∃ n call, v.stage? t = some (.evaluating e n lease call) := by
  cases trying with
  | @seeks trials stage failed seen hs looks place outcomes =>
    rw [hand_of_stage? hs] at own
    cases stage with
    | evaluating | verifying | holding => exact looks.elim
    | _ => cases own
  | runs failed seen hs whole outcomes =>
    rw [hand_of_stage? hs] at own
    cases own
    exact ⟨_, _, hs⟩
  | ended course empty outcomes =>
    rw [empty] at own
    cases own
  | cancelled course hs outcomes =>
    rw [hand_of_stage? hs] at own
    cases own

/-- A command that is under way is to count the call, on a connection that is whole. -/
theorem of_evaluating (trying : Trying p t e past deeds v) {e' : Evaluation} {lease : Lease}
    {call : Call} (hs : v.stage? t = some (.evaluating e' n lease call)) :
    e' = e ∧ lease.broken = false := by
  cases trying with
  | seeks failed seen hs' looks place outcomes =>
    obtain rfl := Option.some.inj (hs.symm.trans hs')
    exact looks.elim
  | runs failed seen hs' whole outcomes =>
    cases hs.symm.trans hs'
    exact ⟨rfl, whole⟩
  | ended course empty outcomes =>
    rw [hand_of_stage? hs] at empty
    cases empty
  | cancelled course hs' outcomes => cases hs.symm.trans hs'

theorem of_settle (known : t ∈ Table.keys s.tasks) (ledger : u.ledger? t = s.ledger? t)
    {outcome : Outcome} (course : Course p.attempts deeds (some outcome)) :
    Trying p t e (s.outcomes t) deeds (u.settle t outcome) := by
  have known' := mem_keys_of_ledger ledger known
  refine .ended course (hand_settle_self ..) ?_
  rw [outcomes_settle known', outcomes_of_ledger ledger]

/-- Looking for a connection, perhaps after commands that have timed out, leads on. -/
theorem of_finds {denies : Fault → Prop} (known : t ∈ Table.keys s.tasks)
    (finds : Finds t e (trials.length + 1) denies s s') (failed : Failed p.attempts trials s')
    (kind : ∀ f, denies f → Denial (∀ r ∈ trials.getLast?, r.crowded = true) f)
    (seen : ∀ f, denies f → (s.trial? B t).any (·.reply = .error f) = false ∧
      (s.stage? t).any Stage.isOpening = false) :
    Trying p t e (s.outcomes t) (Deed.ofTrials trials ++ (s.sought? B s' t).toList) s' := by
  cases finds with
  | @parks u before stage looks hplace =>
    have hs := stage?_setStage_self (mem_keys_of_ledger before known) stage
    have outcomes : (u.setStage t stage).outcomes t = s.outcomes t :=
      (outcomes_setStage stage).trans (outcomes_of_ledger before)
    have place (h : stage.hand = .place) : ∀ r ∈ trials.getLast?, r.crowded = true :=
      ((kind _ (hplace h)).resolve_left nofun).2
    refine .seeks failed ?_ hs looks place outcomes
    rw [sought?_of_looks hs looks outcomes, Option.toList_none, List.append_nil]
  | @gets u before lease whole call =>
    have hs := stage?_setStage_self (mem_keys_of_ledger before known)
      (.evaluating e (trials.length + 1) lease call)
    refine .runs failed ?_ hs whole ((outcomes_setStage _).trans (outcomes_of_ledger before))
    rw [sought?_of_evaluating hs, Option.toList_some]
  | @denied u before f denial =>
    obtain ⟨untried, resting⟩ := seen f denial
    have hsought : s.sought? B (u.fail t f) t = some (.denied f) := by
      rw [fail, sought?_settle known before]
      simp only [untried, resting, Bool.false_eq_true, if_false]
    rw [hsought]
    refine of_settle known before (failed.course (by simp) (fun r hr uncrowded head => ?_)
      (.denied failed.left ((kind f denial).imp_right And.left)))
    -- whoever is told that the pool is exhausted has found others in the line before
    obtain rfl : f = .poolExhausted := by simpa using head
    rw [((kind _ denial).resolve_left nofun).2 r hr] at uncrowded
    cases uncrowded

/-- A step of a task that looks for a connection. -/
theorem step_seeking (d : Distinct s) {stage : Stage} (failed : Failed p.attempts trials s)
    (hs : s.stage? t = some stage) (looks : stage.LooksFor e (trials.length + 1))
    (place : stage.hand = .place → ∀ r ∈ trials.getLast?, r.crowded = true)
    (step : s.step? W.backend t = some s') :
    Trying p t e (s.outcomes t) (Deed.ofTrials trials ++ s.deedsOf W t (.step t)) s' := by
  have known := mem_keys_of_stage? hs
  have failed' : Failed p.attempts trials s' :=
    move_step_of_some step ▸ failed.move d (.step t)
  have untried : s.trial? W.backend t = none := by
    simp only [trial?, hs]
    cases stage with
    | evaluating => exact looks.elim
    | _ => rfl
  rw [deedsOf_of_step? step, untried]
  cases opening : stage.isOpening with
  | false =>
    have short : trials.length + 1 = 1 ∨ stage.hand = .place →
        ∀ r ∈ trials.getLast?, r.crowded = true := by
      rintro (first | atPlace)
      · -- there is no last command before the first attempt
        obtain rfl : trials = [] := List.length_eq_zero_iff.mp (Nat.succ.inj first)
        simp
      · exact place atPlace
    have finds : Finds t e (trials.length + 1)
        (Denial (∀ r ∈ trials.getLast?, r.crowded = true)) s s' :=
      finds_of_step? hs looks opening (.inl rfl) (fun h => .inr ⟨rfl, short h⟩) step
    exact of_finds known finds failed' (fun _ => id) fun f _ =>
      ⟨by rw [untried]; rfl, by rw [hs]; exact opening⟩
  | true =>
    cases stage with
    | opening goal call =>
      obtain rfl : goal = .evaluate e (trials.length + 1) := looks
      rcases finds_of_opening hs step with finds | ⟨u, f, before, rfl⟩
      · exact of_finds known finds failed' (fun _ => False.elim) fun _ => False.elim
      · have hsought : s.sought? W.backend (u.fail t f) t = some (.unopened f) := by
          rw [fail, sought?_settle known before, untried, hs]
          rfl
        rw [hsought]
        exact of_settle known before
          (failed.course (by simp) (by simp) (.unopened failed.left f))
    | _ => cases opening

/-- The job ends with a command that is over. -/
theorem of_last (known : t ∈ Table.keys s.tasks) (failed : Failed p.attempts trials s) {r : Trial}
    (seen : s.trial? B t = some r) (new : r.lease.conn ∉ trials.map (·.lease.conn))
    (final : r.timedOut = true → p.attempts ≤ trials.length + 1)
    (ledger : u.ledger? t = s.ledger? t) :
    Trying p t e (s.outcomes t) (Deed.ofTrials trials ++ [.got r.lease] ++
      (.tried r :: (s.sought? B (u.settle t r.outcome) t).toList)) (u.settle t r.outcome) := by
  have hsought : s.sought? B (u.settle t r.outcome) t = none := by
    rw [sought?_settle known ledger, seen]
    cases hreply : r.reply <;> simp [Trial.outcome, hreply]
  have course : Course (p.attempts - trials.length) [.got r.lease, .tried r] (some r.outcome) :=
    .ends failed.left fun timedOut => by
      have := final timedOut
      have := failed.few
      omega
  rw [hsought, List.append_assoc]
  refine of_settle known ledger (failed.course (fun l hl => ?_) (by simp) course)
  obtain rfl : l = r.lease := by simpa using hl
  exact new

/-- After a command that has timed out the task looks for another connection, with the permit that
it has given back if nobody stood in the line. -/
theorem of_timeout (known : t ∈ Table.keys s.tasks) {r : Trial} {f : Fault}
    (seen : s.trial? B t = some r) (resting : (s.stage? t).any Stage.isOpening = false)
    (hreply : r.reply = .error f) (timedOut : f.isTimeout = true)
    (uncrowded : r.crowded = false → u.pool.line = []) (ledger : u.ledger? t = s.ledger? t)
    {lease : Lease} (hs' : s' = (u.giveBack lease).want B t (.evaluate e (trials.length + 2)))
    (failed : Failed p.attempts (trials ++ [r]) s') :
    Trying p t e (s.outcomes t) (Deed.ofTrials trials ++ [.got r.lease] ++
      (.tried r :: (s.sought? B s' t).toList)) s' := by
  have exhausted : (u.giveBack lease).pool.free = 0 → r.crowded = true := by
    refine fun none => Decidable.byContradiction fun h => ?_
    rw [(free_giveBack (uncrowded (eq_false_of_ne_true h)) lease).2] at none
    cases none
  have finds : Finds t e ((trials ++ [r]).length + 1) (Denial (r.crowded = true)) s s' := by
    rw [hs', List.length_append, List.length_singleton]
    exact .after ((Steady.giveBack ..).ledger.trans ledger)
      (.want (.inl rfl) fun none => .inr ⟨rfl, exhausted none⟩)
  have hseen : ∀ g, Denial (r.crowded = true) g →
      (s.trial? B t).any (·.reply = .error g) = false ∧
        (s.stage? t).any Stage.isOpening = false := by
    refine fun g denial => ⟨?_, resting⟩
    -- the pool denies nobody a permit with a timeout
    have hne : f ≠ g := by
      rintro rfl
      rcases denial with rfl | ⟨rfl, -⟩ <;> cases timedOut
    simp [seen, hreply, hne]
  have trying := of_finds known finds failed
    (fun g denial => denial.imp_right fun h => ⟨h.1, by simpa using h.2⟩) hseen
  rw [List.append_assoc]
  simpa [Deed.ofTrials] using trying

/-- A step of a task whose command is over. -/
theorem step_running (d : Distinct s) (settings : s.settings = p) {lease : Lease} {call : Call}
    (failed : Failed p.attempts trials s)
    (hs : s.stage? t = some (.evaluating e (trials.length + 1) lease call))
    (step : s.step? W.backend t = some s') :
    Trying p t e (s.outcomes t)
      (Deed.ofTrials trials ++ [.got lease] ++ s.deedsOf W t (.step t)) s' := by
  have known := mem_keys_of_stage? hs
  have new := failed.new d (hand_of_stage? hs)
  obtain ⟨r, seen, rfl, hcrowded, answered, spends⟩ := spends_of_step? hs step
  have hdeeds : s.deedsOf W t (.step t) = .tried r :: (s.sought? W.backend s' t).toList := by
    rw [deedsOf_of_step? step, seen]
    rfl
  rw [hdeeds]
  cases spends with
  | counts ledger pool hsettings ok =>
    refine of_last known failed seen new (fun timedOut => ?_)
      ((Steady.giveBack ..).ledger.trans ledger)
    rw [Trial.timedOut, ok] at timedOut
    cases timedOut
  | gives ledger pool hsettings hreply last =>
    refine of_last known failed seen new (fun timedOut => ?_)
      ((Steady.giveBack ..).ledger.trans ledger)
    rw [Trial.timedOut, hreply] at timedOut
    exact settings ▸ last timedOut
  | again ledger pool hsettings hreply timedOut left =>
    have uncrowded (h : r.crowded = false) : s.pool.line = [] := by simpa [hcrowded] using h
    refine of_timeout known seen (by rw [hs]; rfl) hreply timedOut (pool ▸ uncrowded) ledger rfl ?_
    -- the connection of the command is gone by now
    have gone := Gone.of_discards d (Spoils.counting hs (hreply ▸ answered)).discards
    have failed' := failed.move d (W := W) (.step t)
    rw [move_step_of_some step] at gone failed'
    exact failed'.snoc (settings ▸ left) (by simpa [Trial.timedOut, hreply] using timedOut) new gone

/-- What others do does not change what the task has done. -/
theorem other (d : Distinct v) (trying : Trying p t e past deeds v)
    (lasts : (v.outcomes t).length = past.length) {m : Move ε}
    (still : m.stepper? = some t → v.step? W.backend t = none) :
    Trying p t e past deeds (v.move W m) := by
  cases trying with
  | seeks failed seen hs looks place outcomes =>
    obtain ⟨houtcomes, ⟨stage, hs', handed⟩ | hs'⟩ := stage?_move_of_still d.tidy hs still
    · refine .seeks (failed.move d m) seen hs' (handed.looksFor looks) (fun atPlace => ?_)
        (houtcomes.trans outcomes)
      cases handed with
      | same => exact place atPlace
      | permit => cases atPlace
    · exact .cancelled (seen ▸ failed.seeks) hs' (houtcomes.trans outcomes)
  | runs failed seen hs whole outcomes =>
    obtain ⟨houtcomes, ⟨stage, hs', handed⟩ | hs'⟩ := stage?_move_of_still d.tidy hs still
    · cases handed
      exact .runs (failed.move d m) seen hs' whole (houtcomes.trans outcomes)
    · exact .cancelled (seen ▸ failed.runs d (hand_of_stage? hs)) hs' (houtcomes.trans outcomes)
  | ended course empty outcomes =>
    rw [outcomes, List.length_append] at lasts
    exact absurd lasts (Nat.succ_ne_self _)
  | cancelled course hs outcomes =>
    obtain ⟨houtcomes, ⟨stage, hs', handed⟩ | hs'⟩ := stage?_move_of_still d.tidy hs still
    · rw [handed.eq_of_isOver rfl] at hs'
      exact .cancelled course hs' (houtcomes.trans outcomes)
    · exact .cancelled course hs' (houtcomes.trans outcomes)

/-- What a move does to a task whose job has not ended. -/
theorem move (d : Distinct v) (settings : v.settings = p) (trying : Trying p t e past deeds v)
    (lasts : (v.outcomes t).length = past.length) (m : Move ε) :
    Trying p t e past (deeds ++ v.deedsOf W t m) (v.move W m) := by
  by_cases own : m.stepper? = some t
  · obtain rfl := Move.eq_step own
    cases step : v.step? W.backend t with
    | none =>
      have hdeeds : v.deedsOf W t (.step t) = [] := by simp [deedsOf, step]
      rw [hdeeds, List.append_nil]
      exact trying.other d lasts fun _ => step
    | some s' =>
      rw [move_step_of_some step]
      cases trying with
      | seeks failed seen hs looks place outcomes =>
        rw [seen, ← outcomes]
        exact step_seeking d failed hs looks place step
      | runs failed seen hs whole outcomes =>
        rw [seen, ← outcomes]
        exact step_running d settings failed hs step
      | ended course empty outcomes =>
        rw [outcomes, List.length_append] at lasts
        exact absurd lasts (Nat.succ_ne_self _)
      | cancelled course hs outcomes => simp [step?, hs] at step
  · have hdeeds : v.deedsOf W t m = [] := if_neg own
    rw [hdeeds, List.append_nil]
    exact trying.other d lasts fun h => absurd h own

/-- What holds of the deeds holds after every run in which the job has not ended before. -/
theorem run {start : Limiter σ} (d : Distinct v) (checked : Checked start v)
    (trying : Trying start.settings t e past deeds v) {moves : List (Move ε)}
    (lasts : Lasts W t past.length v moves) :
    Trying start.settings t e past (deeds ++ v.deeds W t moves) (v.run W moves) := by
  induction moves generalizing v deeds with
  | nil => exact (List.append_nil deeds).symm ▸ trying
  | cons m rest ih =>
    have next := ih ((Distinct.invariant W).move d m) ((Checked.invariant W start).move checked m)
      (trying.move d checked.settings lasts.1 m) lasts.2
    rwa [List.append_assoc] at next

end Trying

/-! ## When a command is over -/

/-- Whoever has a command that is over has had it under way. -/
theorem exists_of_trial? {r : Trial} (seen : s.trial? B t = some r) :
    ∃ e n call, s.stage? t = some (.evaluating e n r.lease call) ∧ s.progress call ≠ .pending := by
  unfold trial? at seen
  split at seen
  · rename_i hs
    split at seen
    · cases seen
    · rename_i late
      cases seen
      exact ⟨_, _, _, hs, by simp [late]⟩
    · rename_i ripe
      cases seen
      exact ⟨_, _, _, hs, by simp [ripe]⟩
  · cases seen

theorem idle_giveBack (s : Limiter σ) (l : Lease) : (s.giveBack l).pool.idle =
    if s.refuses l then s.pool.idle else s.pool.idle ++ [⟨l.conn, l.checkedAt⟩] := by
  cases refused : s.refuses l with
  | true => simp [giveBack_of_refused refused]
  | false => simp [giveBack_of_kept refused]

/-- What somebody has in hand does not rest. -/
theorem not_resting_of_hand (d : Distinct s) {l : Lease} (own : s.hand t = .lease l) :
    l.conn ∉ s.pool.idle.map (·.conn) := by
  intro rests
  have once := d.count_places_le_one l.conn
  have hcount := count_places_eq d.tidy t l.conn
  have hrests : 0 < s.resting l.conn := List.count_pos_iff.mpr rests
  simp only [reach, own, Hand.conns, List.count_singleton_self] at hcount
  omega

/-- Nobody stands in the line if nobody has a place there in hand. -/
theorem line_eq_nil_of_hands {capacity : Nat} (b : Balanced capacity s)
    (alone : ∀ u, s.hand u ≠ .place) : s.pool.line = [] := by
  cases closed : s.pool.closed with
  | true => exact b.shut closed
  | false =>
    exact List.eq_nil_iff_forall_not_mem.mpr fun u hu => alone u ((b.line closed u).mp hu)

/-- What becomes of a command of a task, and of its connection, with the next step of the task. -/
structure Concludes (W : Surroundings σ ε) (t : TaskId) (e : Evaluation) (s : Limiter σ)
    (r : Trial) : Prop where
  /-- The command is to count the call. -/
  command : ∃ n call, s.stage? t = some (.evaluating e n r.lease call) ∧
    call.command = .count e.key e.limit e.windowMs
  /-- Lease and permit are given back before anything else is done. -/
  spends : ∃ n, Spends W.backend t e n r s (s.move W (.step t))
  /-- A connection that has answered goes to rest if connections are kept and the pool is open. -/
  kept : r.reply.isOk = true → r.lease.conn ∉ s.pool.idle.map (·.conn) ∧
    (s.move W (.step t)).pool.idle =
      if s.settings.keepalive = true ∧ s.pool.closed = false then
        s.pool.idle ++ [⟨r.lease.conn, r.lease.checkedAt⟩]
      else s.pool.idle
  /-- Any other is dropped for good. -/
  dropped : r.reply.isOk = false → ∀ later : List (Move ε),
    r.lease.conn ∉ ((s.move W (.step t)).run W later).places
  /-- Nobody stands in the line if nobody else has to do with the pool. -/
  uncrowded : (∀ u ≠ t, s.hand u = .nothing) → r.crowded = false

theorem concludes_of_trial? {capacity : Nat} (d : Distinct s) (b : Balanced capacity s)
    {p : PoolSettings} {past : List Outcome} {deeds : List Deed}
    (trying : Trying p t e past deeds s) {r : Trial} (seen : s.trial? W.backend t = some r) :
    Concludes W t e s r := by
  obtain ⟨e', n, call, hs, ended⟩ := exists_of_trial? seen
  obtain ⟨rfl, whole⟩ := trying.of_evaluating hs
  obtain ⟨s', step⟩ := Option.isSome_iff_exists.mp
    ((isSome_step?_iff W.backend hs rfl).mpr ended)
  obtain ⟨r', seen', -, hcrowded, answered, spends⟩ := spends_of_step? hs step
  obtain rfl : r' = r := Option.some.inj (seen'.symm.trans seen)
  have hmove := move_step_of_some step
  refine ⟨⟨n, call, hs, (d.tidy.proper t _ hs).2⟩, ⟨n, hmove.symm ▸ spends⟩,
    fun ok => ⟨not_resting_of_hand d (hand_of_stage? hs), ?_⟩, fun failed later => ?_,
    fun alone => ?_⟩
  · rw [hmove]
    cases spends with
    | @counts u ms ledger pool settings hreply =>
      simp only [settle_frame, idle_giveBack, refuses, whole, pool, settings]
      cases s.settings.keepalive <;> cases s.pool.closed <;> rfl
    | gives ledger pool settings hreply =>
      rw [hreply] at ok
      cases ok
    | again ledger pool settings hreply =>
      rw [hreply] at ok
      cases ok
  · have gone := Gone.of_discards d (Spoils.counting hs (failed ▸ answered)).discards
    exact (gone.run ((Distinct.invariant W).move d _) later).nowhere
  · have hands (u : TaskId) : s.hand u ≠ .place := by
      by_cases hu : u = t
      · rw [hu, hand_of_stage? hs]
        exact fun h => by cases h
      · rw [alone u hu]
        exact fun h => by cases h
    rw [hcrowded, line_eq_nil_of_hands b hands]
    rfl

/-! ## Whole runs -/

/-- What somebody does in a run who has a call counted. -/
structure Disciplined (W : Surroundings σ ε) (s : Limiter σ) (t : TaskId) (e : Evaluation)
    (moves : List (Move ε)) : Prop where
  /-- What it does is a course, and its job ends as the course does. -/
  course : ∃ outcome, (s.run W moves).outcomes t = s.outcomes t ++ outcome.toList ∧
    Course s.settings.attempts (s.deeds W t moves) outcome
  /-- While its job lasts it looks for a connection or runs a command on the one it has, unless it
  has been cancelled. It is at the attempt that follows the commands which are over. -/
  standing : (s.run W moves).outcomes t = s.outcomes t → ∃ stage,
    (s.run W moves).stage? t = some stage ∧
      (stage.LooksFor e ((s.deeds W t moves).countP Deed.isTried + 1) ∨ stage = .cancelled ∨
        ∃ lease call,
          stage = .evaluating e ((s.deeds W t moves).countP Deed.isTried + 1) lease call ∧
            call.command = .count e.key e.limit e.windowMs)
  /-- Whenever it has a connection in hand it runs a command on it. -/
  engaged : ∀ lease, (s.run W moves).hand t = .lease lease →
    ∃ n call, (s.run W moves).stage? t = some (.evaluating e n lease call)
  /-- It gets two connections at most, one for each command, and one if it is not to try again. -/
  few : ((s.deeds W t moves).filterMap Deed.got?).length ≤
    if s.settings.retryOnTimeout then 2 else 1
  /-- It runs a second command if it is to try again, the first one has timed out and it has got a
  connection again. That is another one. -/
  second : 1 < ((s.deeds W t moves).filterMap Deed.got?).length ↔
    s.settings.retryOnTimeout = true ∧ ∃ r l rest, r.timedOut = true ∧
      l.conn ≠ r.lease.conn ∧ s.deeds W t moves = .got r.lease :: .tried r :: .got l :: rest
  /-- If nobody else has to do with the pool whenever it goes on, there is a permit for the second
  attempt. -/
  ample : (∀ done rest, moves = done ++ .step t :: rest →
      ∀ u ≠ t, (s.run W done).hand u = .nothing) →
    ∀ r, ¬[.tried r, .denied .poolExhausted] <:+: s.deeds W t moves
  concludes : ∀ done rest r, moves = done ++ .step t :: rest →
    (s.run W done).trial? W.backend t = some r → Concludes W t e (s.run W done) r

/-- Whatever the store does and whatever happens in between, a task that has a call counted keeps
to the discipline until its job has ended. -/
theorem evaluate_disciplined (W : Surroundings σ ε) (backend : σ) (settings : PoolSettings)
    (before moves : List (Move ε)) {t : TaskId} {e : Evaluation} :
    let s := (fresh backend settings).run W before
    s.stage? t = some (.fresh (.evaluate e)) → Lasts W t (s.outcomes t).length s moves →
      Disciplined W s t e moves := by
  intro s hs lasts
  have d : Distinct s := distinct_run W backend settings before
  have checked : Checked s s := ((Checked.invariant W (fresh backend settings)).run
    (Checked.fresh backend settings) before).again
  have failed : Failed s.settings.attempts [] s :=
    ⟨by unfold PoolSettings.attempts; split <;> decide, nofun, List.nodup_nil, nofun⟩
  have first : Trying s.settings t e (s.outcomes t) [] s :=
    .seeks failed rfl hs ⟨rfl, rfl⟩ nofun rfl
  have hattempts : s.settings.attempts = if s.settings.retryOnTimeout then 2 else 1 := rfl
  have d' := (Distinct.invariant W).run d moves
  have trying := first.run d checked lasts
  rw [List.nil_append] at trying
  obtain ⟨outcome, houtcomes, course⟩ := trying.course d'
  have concludes : ∀ done rest r, moves = done ++ .step t :: rest →
      (s.run W done).trial? W.backend t = some r → Concludes W t e (s.run W done) r := by
    rintro done rest r rfl seen
    have lasts := lasts.before
    have hrun : (fresh backend settings).run W (before ++ done) = s.run W done := run_append ..
    exact concludes_of_trial? ((Distinct.invariant W).run d done)
      (hrun ▸ balanced_run W backend settings (before ++ done)) (first.run d checked lasts)
      seen
  refine ⟨⟨outcome, houtcomes, course⟩, trying.standing d'.tidy,
    fun lease => trying.evaluating_of_lease, hattempts ▸ course.length_le, ?_,
    fun alone r short => ?_, concludes⟩
  · rw [course.second_iff, hattempts]
    cases s.settings.retryOnTimeout <;> simp
  · obtain ⟨done, rest, heq, seen⟩ :=
      exists_of_tried_mem (short.subset (List.mem_cons_self ..))
    have uncrowded := (concludes done rest r heq seen).uncrowded (alone done rest heq)
    rw [course.crowded short] at uncrowded
    cases uncrowded

end Limiter

namespace Memory

/-- A pool with room for one connection. -/
def roomForOne : PoolSettings := { PoolSettings.standard with maxConnections := 1 }

def firstVisit : Evaluation := ⟨"visit", 2, 60000⟩

/-- A store that takes six seconds for a command is asked to count a call. -/
def slowStore : List (Move MemoryChange) :=
  [.tend (.turn (.latency 6000000)), .start [.evaluate firstVisit]]

/-- The store becomes quick while the first command is under way. -/
def quickAtLast : List (Move MemoryChange) :=
  [.step 0, .step 0, .pass 5000000, .tend (.turn (.latency 0)), .step 0, .step 0, .step 0]

/-- The only connection makes room for another one, on which the call is counted; where nothing is
to be tried again the job ends with the timeout. -/
theorem evaluate_disciplined_quickAtLast :
    let s := (Limiter.fresh fresh roomForOne).run surroundings slowStore
    let s' := s.run surroundings quickAtLast
    let w := (Limiter.fresh fresh { roomForOne with retryOnTimeout := false }).run surroundings
      slowStore
    let first : Lease := ⟨0, 0, false⟩
    let second : Lease := ⟨1, 5000000, false⟩
    ((s.stage? 0 = some (.fresh (.evaluate firstVisit)) ∧
        Limiter.Lasts surroundings 0 (s.outcomes 0).length s quickAtLast) ∧
      (s.deeds surroundings 0 quickAtLast =
          [.got first, .tried ⟨first, .error .commandTimeout, false⟩, .got second,
            .tried ⟨second, .ok 0, false⟩] ∧
        s'.outcomes 0 = [.ok (.verdict .admitted)] ∧ s'.pool = ⟨[⟨1, 5000000⟩], 1, [], false⟩) ∧
      Limiter.Disciplined surroundings s 0 firstVisit quickAtLast) ∧
    (w.deeds surroundings 0 (quickAtLast.take 5) =
        [.got first, .tried ⟨first, .error .commandTimeout, false⟩] ∧
      Limiter.Disciplined surroundings w 0 firstVisit (quickAtLast.take 5)) := by
  intro s s' w first second
  have begins : s.stage? 0 = some (.fresh (.evaluate firstVisit)) := rfl
  have lasts : Limiter.Lasts surroundings 0 (s.outcomes 0).length s quickAtLast := by
    decide +kernel
  exact ⟨⟨⟨begins, lasts⟩, by decide +kernel,
    Limiter.evaluate_disciplined surroundings fresh roomForOne slowStore quickAtLast begins lasts⟩,
    by decide +kernel, Limiter.evaluate_disciplined surroundings fresh _ slowStore
      (quickAtLast.take 5) rfl (by decide +kernel)⟩

end Memory

end Turnstile
