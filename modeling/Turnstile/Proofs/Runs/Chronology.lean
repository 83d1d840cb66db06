import Turnstile.Proofs.Runs.Journal

/-!
# Counted calls in order of time

Calls are written down at the instant at which they are counted, and the clock does not go back. So
after every run the counted calls are in order of time, and none of them is yet to come
(`chronological_run`). This needs nothing of the store.
-/

namespace Turnstile

/-- A call is counted at the time of its answer. -/
theorem Call.time_of_counted? {call : Call} {now : Time} {t : TaskId} {reply : Reply} {c : Counted}
    (h : call.counted? now t reply = some c) : c.time = now := by
  unfold Call.counted? at h
  split at h
  · cases h
    rfl
  · cases h

/-- The calls of a list are in order of time. -/
def InOrder (calls : List Counted) : Prop := calls.Pairwise fun c d => c.time ≤ d.time

namespace Limiter

variable {σ ε : Type} {B : Backend σ} {s s' : Limiter σ} {t : TaskId}

/-- No act takes time. -/
theorem Act.clock {m m' : Motion σ} (a : Act B t m m') : m'.state.clock = m.state.clock := by
  cases a with
  | aside a => cases a <;> rfl
  | start jobs => simp
  | free => simp
  | _ => rfl

/-- The counted calls are in order of time, and all of them are past. -/
structure Chronological (s : Limiter σ) : Prop where
  tidy : Tidy s
  ordered : InOrder s.counts
  past : ∀ c ∈ s.counts, c.time ≤ s.clock

namespace Chronological

theorem fresh (backend : σ) (settings : PoolSettings) :
    Chronological (Limiter.fresh backend settings) where
  tidy := .fresh backend settings
  ordered := List.Pairwise.nil
  past c hc := by cases hc

/-- Only the counted calls and the clock matter, and the clock may go on. -/
theorem congr (h : Chronological s) (tidy : Tidy s') (hcounts : s'.counts = s.counts)
    (hclock : s.clock ≤ s'.clock) : Chronological s' where
  tidy := tidy
  ordered := hcounts ▸ h.ordered
  past c hc := by
    rw [hcounts] at hc
    exact Nat.le_trans (h.past c hc) hclock

/-- What is counted now comes after all that was counted before. -/
theorem extend (h : Chronological s) (tidy : Tidy s') {new : Option Counted}
    (now : ∀ c ∈ new, c.time = s.clock) (hcounts : s'.counts = s.counts ++ new.toList)
    (hclock : s'.clock = s.clock) : Chronological s' where
  tidy := tidy
  ordered := by
    rw [InOrder, hcounts, List.pairwise_append]
    refine ⟨h.ordered, ?_, fun c hc d hd => ?_⟩
    · cases new <;> simp
    · rw [now d (by simpa using hd)]
      exact h.past c hc
  past c hc := by
    rw [hcounts, List.mem_append] at hc
    rw [hclock]
    rcases hc with hc | hc
    · exact h.past c hc
    · exact Nat.le_of_eq (now c (by simpa using hc))

theorem act {m m' : Motion σ} (a : Act B t m m') (h : Chronological m.state) :
    Chronological m'.state := by
  have tidy := h.tidy.act a
  rcases a.still_or_finish h.tidy with ⟨-, hcounts, -⟩ | ⟨call, -, -, hstate⟩
  · exact h.congr tidy hcounts (Nat.le_of_eq a.clock.symm)
  · have hcounts : m'.state.counts = m.state.counts ++
        (call.counted? m.state.clock t (m.state.finishCall B t call).2).toList := by
      rw [hstate]
      exact counts_finishCall call
    exact h.extend tidy (fun _ hc => Call.time_of_counted? hc) hcounts a.clock

theorem outside {W : Surroundings σ ε} (ho : Outside W s s') (h : Chronological s) :
    Chronological s' := by
  have tidy := Tidy.outside ho h.tidy
  cases ho with
  | pass us => exact h.congr tidy rfl (Nat.le_add_right ..)
  | _ => exact h.congr tidy rfl (Nat.le_refl _)

theorem invariant (W : Surroundings σ ε) :
    Invariant W Chronological fun (_ : TaskId) (m : Motion σ) => Chronological m.state where
  proper h hs := h.tidy.proper _ _ hs
  takeUp _ h := h
  layDown h := h
  act := act
  setStage proper h := h.congr (h.tidy.setStage proper) rfl (Nat.le_refl _)
  settle hget _ h := h.congr (h.tidy.settle hget _) rfl (Nat.le_refl _)
  outside := outside
  unkeep _ _ h := h.congr (h.tidy.unkeep _) rfl (Nat.le_refl _)

end Chronological

/-- After every run, with any store, the counted calls are in order of time. -/
theorem chronological_run (W : Surroundings σ ε) (backend : σ) (settings : PoolSettings)
    (moves : List (Move ε)) : Chronological ((Limiter.fresh backend settings).run W moves) :=
  (Chronological.invariant W).run (.fresh backend settings) moves

/-! ## What is counted later -/

/-- What has been counted since a limiter was like that was counted no earlier. -/
structure Later (start s : Limiter σ) : Prop where
  tidy : Tidy s
  clock : start.clock ≤ s.clock
  counts : ∃ new, s.counts = start.counts ++ new ∧ ∀ c ∈ new, start.clock ≤ c.time

namespace Later

variable {start : Limiter σ}

theorem refl (tidy : Tidy s) : Later s s := ⟨tidy, Nat.le_refl _, [], by simp, by simp⟩

theorem congr (h : Later start s) (tidy : Tidy s') (counts : s'.counts = s.counts)
    (clock : s.clock ≤ s'.clock) : Later start s' :=
  ⟨tidy, Nat.le_trans h.clock clock, counts ▸ h.counts⟩

theorem extend (h : Later start s) (tidy : Tidy s') {more : List Counted}
    (now : ∀ c ∈ more, c.time = s.clock) (counts : s'.counts = s.counts ++ more)
    (clock : s'.clock = s.clock) : Later start s' := by
  obtain ⟨new, hnew, hlater⟩ := h.counts
  refine ⟨tidy, clock ▸ h.clock, new ++ more, by rw [counts, hnew, List.append_assoc], ?_⟩
  exact List.forall_mem_append.mpr ⟨hlater, fun c hc => now c hc ▸ h.clock⟩

theorem act {m m' : Motion σ} (a : Act B t m m') (h : Later start m.state) :
    Later start m'.state := by
  have tidy := h.tidy.act a
  rcases a.still_or_finish h.tidy with ⟨-, hcounts, -⟩ | ⟨call, -, -, hstate⟩
  · exact h.congr tidy hcounts (Nat.le_of_eq a.clock.symm)
  · refine h.extend tidy (fun c hc => ?_) (hstate ▸ counts_finishCall call) a.clock
    exact Call.time_of_counted? (Option.mem_toList.mp hc)

theorem invariant (W : Surroundings σ ε) (start : Limiter σ) :
    Invariant W (Later start) fun (_ : TaskId) (m : Motion σ) => Later start m.state where
  proper h hs := h.tidy.proper _ _ hs
  takeUp _ h := h
  layDown h := h
  act := act
  setStage proper h := h.congr (h.tidy.setStage proper) rfl (Nat.le_refl _)
  settle hget _ h := h.congr (h.tidy.settle hget _) rfl (Nat.le_refl _)
  outside ho h := by
    have tidy := Tidy.outside ho h.tidy
    cases ho with
    | pass us => exact h.congr tidy rfl (Nat.le_add_right ..)
    | _ => exact h.congr tidy rfl (Nat.le_refl _)
  unkeep _ _ h := h.congr (h.tidy.unkeep _) rfl (Nat.le_refl _)

theorem of_append (h : Later start s) {new : List Counted}
    (counts : s.counts = start.counts ++ new) : ∀ c ∈ new, start.clock ≤ c.time := by
  obtain ⟨_, hnew, hlater⟩ := h.counts
  rw [counts, List.append_cancel_left_eq] at hnew
  exact hnew ▸ hlater

end Later

end Limiter

end Turnstile
