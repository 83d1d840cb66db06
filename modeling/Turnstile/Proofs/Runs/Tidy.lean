import Turnstile.Proofs.Runs.Invariant

/-!
# Tidy limiters

Every task has a number of its own, numbers yet to come are new, every name stands for one
connection, and a task waits for the request that its stage is for. All of this holds at first, is
kept by every act and so holds after every run.
-/

namespace Turnstile

namespace Limiter

variable {σ ε : Type} {s : Limiter σ} {t : TaskId}

/-- The tables of a limiter are in order. -/
structure Tidy (s : Limiter σ) : Prop where
  distinct : (Table.keys s.tasks).Nodup
  numbered : ∀ t ∈ Table.keys s.tasks, t < s.nextTask
  names : (Table.keys s.held).Nodup
  proper : ∀ t stage, s.stage? t = some stage → stage.Proper

namespace Tidy

theorem fresh (backend : σ) (settings : PoolSettings) : Tidy (Limiter.fresh backend settings) where
  distinct := by simp [Limiter.fresh, Table.keys]
  numbered := by simp [Limiter.fresh, Table.keys]
  names := by simp [Limiter.fresh, Table.keys]
  proper := by simp [Limiter.fresh, stage?]

theorem nextTask_not_mem (h : Tidy s) : s.nextTask ∉ Table.keys s.tasks := by
  intro hm
  exact Nat.lt_irrefl _ (h.numbered _ hm)

/-- Only the tables matter, and which number comes next. -/
theorem of_eq {s' : Limiter σ} (h : Tidy s) (tasks : s'.tasks = s.tasks)
    (nextTask : s'.nextTask = s.nextTask) (held : s'.held = s.held) : Tidy s' where
  distinct := tasks ▸ h.distinct
  numbered := by
    rw [tasks, nextTask]
    exact h.numbered
  names := held ▸ h.names
  proper t stage hs := h.proper t stage (by rwa [stage?, tasks] at hs)

/-- An entry for one task, under its number or the next one, leaves the tables in order. -/
theorem put (h : Tidy s) {task : Task} (proper : task.stage.Proper) {next : TaskId}
    (ht : t < next) (hnext : s.nextTask ≤ next) :
    Tidy { s with tasks := Table.put s.tasks t task, nextTask := next } where
  distinct := Table.nodup_keys_put h.distinct
  numbered u hu := by
    rcases Table.mem_keys_put hu with rfl | hu
    · exact ht
    · exact Nat.lt_of_lt_of_le (h.numbered u hu) hnext
  names := h.names
  proper u stage hs := by
    -- only the entry that was put has changed its stage
    by_cases hu : u = t
    · subst hu
      obtain rfl : task.stage = stage := by simpa [stage?] using hs
      exact proper
    · exact h.proper u stage (by simpa [stage?, hu] using hs)

theorem setStage (h : Tidy s) {stage : Stage} (proper : stage.Proper) :
    Tidy (s.setStage t stage) where
  distinct := by simpa using h.distinct
  numbered u hu := h.numbered u (by simpa using hu)
  names := h.names
  proper u stage' hs := by
    by_cases hu : u = t
    · subst hu
      have ht : u ∈ Table.keys s.tasks := by simpa using mem_keys_of_stage? hs
      obtain rfl : stage = stage' := by simpa [ht] using hs
      exact proper
    · exact h.proper u stage' (by simpa [hu] using hs)

theorem freePermit (h : Tidy s) : Tidy s.freePermit := by
  rcases s.freePermit_eq with ⟨pool, heq⟩ | ⟨u, goal, pool, ready, heq⟩
  · rw [heq]
    exact h.of_eq rfl rfl rfl
  · have hset : Tidy (s.setStage u (.granted goal)) := h.setStage trivial
    rw [heq]
    exact hset.of_eq rfl rfl rfl

theorem start (h : Tidy s) (jobs : List Job) : Tidy (s.start jobs).1 := by
  have hput := h.put (Task.proper_ofJobs s.clock jobs) (Nat.lt_succ_self s.nextTask)
    (Nat.le_succ s.nextTask)
  exact hput.of_eq (by simp) (by simp) (by simp)

theorem settle (h : Tidy s) {task : Task} (hget : Table.get? s.tasks t = some task)
    (outcome : Outcome) :
    Tidy { s with tasks := Table.put s.tasks t (task.settled s.clock outcome) } :=
  h.put (Task.proper_settled ..) (h.numbered t (Table.mem_keys_of_get? hget)) (Nat.le_refl _)

theorem unkeep (h : Tidy s) (name : String) :
    Tidy { s with held := Table.without s.held name } :=
  ⟨h.distinct, h.numbered, Table.nodup_keys_without h.names name, h.proper⟩

theorem act {B : Backend σ} {m m' : Motion σ} (a : Act B t m m') (h : Tidy m.state) :
    Tidy m'.state := by
  have hput : ∀ s : Limiter σ, Tidy s → ∀ name (l : Lease),
      Tidy { s with held := Table.put s.held name l } := fun s h name l =>
    ⟨h.distinct, h.numbered, Table.nodup_keys_put h.names, h.proper⟩
  cases a with
  | start jobs => exact h.start jobs
  | free => exact h.freePermit
  | keep name new => exact hput _ h name _
  | swap name had => exact hput _ h name _
  | aside a => cases a <;> exact h.of_eq rfl rfl rfl
  | _ => exact h.of_eq rfl rfl rfl

theorem outside {W : Surroundings σ ε} {s' : Limiter σ} (h : Outside W s s') (hs : Tidy s) :
    Tidy s' := by
  cases h with
  | mark name =>
    exact ⟨hs.distinct, hs.numbered, by simpa using hs.names, hs.proper⟩
  | _ => exact hs.of_eq rfl rfl rfl

theorem invariant (W : Surroundings σ ε) :
    Invariant W Tidy fun (_ : TaskId) (m : Motion σ) => Tidy m.state where
  proper h hs := h.proper _ _ hs
  takeUp _ h := h
  layDown h := h
  act := act
  setStage proper h := h.setStage proper
  settle hget _ h := h.settle hget _
  outside := outside
  unkeep _ _ h := h.unkeep _

end Tidy

end Limiter

end Turnstile
