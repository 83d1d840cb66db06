import Mathlib.Data.Fintype.EquivFin
import Turnstile.Proofs.Runs.Frames
import Turnstile.Proofs.Runs.Move
import Turnstile.Proofs.Runs.Step

/-!
# Invariants of runs

What is true of a limiter between two moves need not be true while a task is under way: a permit is
then in nobody's stage. So an invariant has two forms, `J` for a limiter at rest and `I` for a task
in motion, and `Invariant` says how they hang together. From it every run keeps `J`
(`Invariant.run`).
-/

namespace Turnstile

namespace Limiter

variable {σ ε : Type} {W : Surroundings σ ε} {s s' : Limiter σ} {t : TaskId}

/-- What happens to a limiter while every task stands still. -/
inductive Outside (W : Surroundings σ ε) (s : Limiter σ) : Limiter σ → Prop where
  | arrange (ready : List TaskId) : Outside W s { s with ready }
  | shut : Outside W s { s with pool := s.pool.close.1 }
  | pass (us : Nat) : Outside W s { s with clock := s.clock + us }
  | tend (change : ε) : Outside W s { s with backend := W.tend s.clock s.backend change }
  | mark (name : String) :
    Outside W s { s with
      held := Table.modify s.held name fun lease => { lease with broken := true } }

/-- A condition `J` on limiters that every move keeps, with the condition `I` that it comes to while
a task is under way. -/
structure Invariant (W : Surroundings σ ε) (J : Limiter σ → Prop)
    (I : TaskId → Motion σ → Prop) : Prop where
  proper : ∀ {s t stage}, J s → s.stage? t = some stage → stage.Proper
  /-- A task sets out from its stage. -/
  takeUp : ∀ {s} (t : TaskId), J s → I t ⟨s.hand t, none, s⟩
  /-- A task has come to a stage that holds what it has in hand. -/
  layDown : ∀ {s t}, I t ⟨s.hand t, none, s⟩ → J s
  act : ∀ {t m m'}, Act W.backend t m m' → I t m → I t m'
  /-- The stage of a task that is under way does not matter. -/
  setStage : ∀ {s t h} {stage : Stage}, stage.Proper → I t ⟨h, none, s⟩ →
    I t ⟨h, none, s.setStage t stage⟩
  /-- What is owed is passed on when the job ends. -/
  settle : ∀ {s t o task outcome}, Table.get? s.tasks t = some task →
    Outcome.verdict? outcome = o.map Verdict.ofRemaining → I t ⟨.nothing, o, s⟩ →
    I t ⟨.nothing, none,
      { s with tasks := Table.put s.tasks t (task.settled s.clock outcome) }⟩
  outside : ∀ {s s'}, Outside W s s' → J s → J s'
  /-- Somebody who is no task takes a connection that is kept under a name. -/
  unkeep : ∀ {s t name lease}, Table.get? s.held name = some lease → t ∉ Table.keys s.tasks →
    J s → I t ⟨.lease lease, none, { s with held := Table.without s.held name }⟩

/-! ## Acts and tasks -/

/-- No act removes a task. -/
theorem Act.mem_keys {B : Backend σ} {u : TaskId} {m m' : Motion σ} (a : Act B u m m')
    (ht : t ∈ Table.keys m.state.tasks) : t ∈ Table.keys m'.state.tasks := by
  cases a with
  | start jobs => simp [ht]
  | free => simpa using ht
  | aside a => cases a <;> exact ht
  | _ => exact ht

/-- There is always a number that is no task's. -/
theorem exists_not_mem_keys (s : Limiter σ) : ∃ t, t ∉ Table.keys s.tasks := by
  obtain ⟨t, ht⟩ := Infinite.exists_notMem_finset (Table.keys s.tasks).toFinset
  exact ⟨t, by simpa using ht⟩

theorem mem_keys_of_stage? {stage : Stage} (hs : s.stage? t = some stage) :
    t ∈ Table.keys s.tasks := by
  refine Decidable.byContradiction fun hn => ?_
  rw [stage?_eq_none_iff.mpr hn] at hs
  cases hs

theorem hand_giveBack (l : Lease) (ht : s.hand t = .nothing) :
    (s.giveBack l).hand t = .nothing := by
  have hne : s.hand t ≠ .place := by simp [ht]
  exact (hand_freePermit
    (s := { s with pool := s.pool.takeBack s.settings.keepalive l }) hne).trans ht

theorem hand_reclaim (stage : Stage) (ht : s.hand t = .nothing) :
    (s.reclaim t stage).hand t = .nothing := by
  have hfree : s.freePermit.hand t = .nothing := (hand_freePermit (by simp [ht])).trans ht
  cases stage with
  | granted | probing | opening | sweeping => exact hfree
  | evaluating e attempt lease call => exact hand_giveBack lease ht
  | verifying lease call => exact hand_giveBack lease ht
  | holding lease broken since timer => exact hand_giveBack lease ht
  | _ => exact ht

/-- A task that has nothing in hand when it starts one has nothing in hand afterwards. -/
theorem hand_start (jobs : List Job) (ht : s.hand t = .nothing) :
    (s.start jobs).1.hand t = .nothing := by
  by_cases hn : t = s.nextTask
  · subst hn
    exact (hand_of_get? (by simp)).trans (Task.hand_ofJobs s.clock jobs)
  · simpa [hand, stage?, hn] using ht

namespace Invariant

variable {J : Limiter σ → Prop} {I : TaskId → Motion σ → Prop}

theorem wakeAll (inv : Invariant W J I) (h : J s) (ts : List TaskId) : J (s.wakeAll ts) := by
  obtain ⟨ready, hwake⟩ := s.wakeAll_eq ts
  rw [hwake]
  exact inv.outside (.arrange ready) h

/-- Acts carry the condition along until the task halts. -/
theorem leads (inv : Invariant W J I) {m : Motion σ} (path : Leads W.backend t m s')
    (ht : t ∈ Table.keys m.state.tasks) (hm : I t m) : J s' := by
  -- `I` holds after each act, and `t` stays a task, so both ends are reached with `I` at hand
  induction path with
  | act a rest ih => exact ih (a.mem_keys ht) (inv.act a hm)
  | park stage proper =>
    have hset := inv.setStage proper hm
    rw [← hand_setStage_self ht stage] at hset
    exact inv.layDown hset
  | @settle o s outcome passed =>
    obtain ⟨task, hget⟩ := Option.isSome_iff_exists.mp (Table.get?_isSome_iff.mpr ht)
    obtain ⟨ready, heq⟩ := settle_eq hget outcome
    have hset := inv.settle hget passed hm
    have hand : hand { s with
        tasks := Table.put s.tasks t (task.settled s.clock outcome) } t = .nothing := by
      simp [hand, stage?]
    rw [← hand] at hset
    rw [heq]
    exact inv.outside (.arrange ready) (inv.layDown hset)

/-- What somebody who is no task does. -/
theorem layDown_nothing (inv : Invariant W J I) (ht : s.hand t = .nothing)
    (hm : I t ⟨.nothing, none, s⟩) : J s :=
  inv.layDown (ht.symm ▸ hm)

theorem step? (inv : Invariant W J I) (h : J s) (hs : s.step? W.backend t = some s') : J s' := by
  cases hstage : s.stage? t with
  | none => simp [Limiter.step?, hstage] at hs
  | some stage =>
    have ht : t ∈ Table.keys s.tasks := mem_keys_of_stage? hstage
    have hm := inv.takeUp t h
    rw [hand_of_stage? hstage] at hm
    exact inv.leads (leads_of_step? hstage (inv.proper h hstage) hs) ht hm

theorem start (inv : Invariant W J I) (h : J s) (jobs : List Job) : J (s.start jobs).1 := by
  obtain ⟨t, ht⟩ := s.exists_not_mem_keys
  have hand : s.hand t = .nothing := hand_of_none (stage?_eq_none_iff.mpr ht)
  have hm := inv.takeUp t h
  rw [hand] at hm
  exact inv.layDown_nothing (hand_start jobs hand) (inv.act (.start jobs) hm)

/-- What a task does that touches neither the pool nor the tasks, anybody may do. -/
theorem aside (inv : Invariant W J I) (h : J s) (a : Aside) : J (s.aside W.backend a) := by
  obtain ⟨t, ht⟩ := s.exists_not_mem_keys
  have hand : (s.aside W.backend a).hand t = s.hand t := by cases a <;> rfl
  have hm := inv.act (.aside a) (inv.takeUp t h)
  rw [← hand] at hm
  exact inv.layDown hm

/-- A connection goes back, and its permit after it. -/
theorem giveBack (inv : Invariant W J I) {l : Lease} (hm : I t ⟨.lease l, none, s⟩) :
    I t ⟨.nothing, none, s.giveBack l⟩ := by
  refine inv.act .free ?_
  unfold Pool.takeBack
  split
  · exact inv.act (.drop rfl) hm
  · exact inv.act .rest hm

theorem reclaim (inv : Invariant W J I) (stage : Stage) (hm : I t ⟨stage.hand, none, s⟩) :
    I t ⟨.nothing, none, s.reclaim t stage⟩ := by
  cases stage with
  | queued goal expiry => exact inv.act .leave hm
  | granted goal => exact inv.act .free hm
  | probing goal call => exact inv.act .free (inv.act (.drop rfl) hm)
  | opening goal call => exact inv.act .free (inv.act (.drop rfl) hm)
  | sweeping sweep call => exact inv.act .free (inv.act (.drop rfl) hm)
  | evaluating e attempt lease call => exact inv.giveBack hm
  | verifying lease call => exact inv.giveBack hm
  | holding lease broken since timer => exact inv.giveBack hm
  | _ => exact hm

theorem cancel (inv : Invariant W J I) (h : J s) (t : TaskId) : J (s.cancel t) := by
  cases hstage : s.stage? t with
  | none => simpa [Limiter.cancel, hstage] using h
  | some stage =>
    simp only [Limiter.cancel, hstage]
    split
    · exact h
    · -- the task is in motion with what its stage held, but already stands at the last stage
      have ht : t ∈ Table.keys s.tasks := mem_keys_of_stage? hstage
      have hm := inv.takeUp t (inv.outside (.arrange (s.ready.erase t)) h)
      have hand : hand { s with ready := s.ready.erase t } t = stage.hand := hand_of_stage? hstage
      rw [hand] at hm
      have hset : I t ⟨stage.hand, none,
          { s with ready := s.ready.erase t }.setStage t .cancelled⟩ := inv.setStage trivial hm
      have hm := inv.reclaim stage hset
      have hnothing : ({ s with ready := s.ready.erase t }.setStage t .cancelled).hand t =
          .nothing := hand_setStage_self ht .cancelled
      exact inv.wakeAll (inv.layDown_nothing (hand_reclaim stage hnothing) hm) _

theorem close (inv : Invariant W J I) (h : J s) : J s.close :=
  inv.wakeAll (inv.outside .shut h) s.pool.close.2

theorem release (inv : Invariant W J I) (h : J s) (name : String) :
    J (s.move W (.release name)) := by
  simp only [move]
  split
  · -- whoever gives the connection back acts under a number that no task has
    rename_i lease hheld
    obtain ⟨t, ht⟩ := s.exists_not_mem_keys
    have hnothing : s.hand t = .nothing := hand_of_none (stage?_eq_none_iff.mpr ht)
    exact inv.layDown_nothing (hand_giveBack lease hnothing) (inv.giveBack (inv.unkeep hheld ht h))
  · exact h

/-- Every move keeps an invariant. -/
theorem move (inv : Invariant W J I) (h : J s) (m : Move ε) : J (s.move W m) := by
  cases m with
  | start jobs => exact inv.start h jobs
  | step t =>
    cases hs : s.step? W.backend t with
    | none => simpa [Limiter.move, hs] using h
    | some s' => simpa [Limiter.move, hs] using inv.step? h hs
  | cancel t => exact inv.cancel h t
  | close => exact inv.close h
  | release name => exact inv.release h name
  | markBroken name => exact inv.outside (.mark name) h
  | raise reason => exact inv.aside h (.raise reason)
  | clear => exact inv.aside h .clear
  | pass us => exact inv.outside (.pass us) h
  | tend change => exact inv.outside (.tend change) h
  | arrange ready => exact inv.outside (.arrange ready) h

/-- Every run keeps an invariant. -/
theorem run (inv : Invariant W J I) (h : J s) (moves : List (Move ε)) : J (s.run W moves) :=
  run_induction (P := J) (fun _ m hs => inv.move hs m) h moves

end Invariant

end Limiter

end Turnstile
