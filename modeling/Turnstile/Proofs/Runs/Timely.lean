import Turnstile.Proofs.Degraded.Recovery

/-!
# How time passes

Where nothing else goes on, time passes only while every task has to wait, and never beyond the
next timer (`Timely`). A timer that is set at a whole millisecond rings when the wait is over, not
later, and whoever waits for it goes on at that instant. So a request ends with its patience at the
latest, and then there is all the time that was to be left (`Call.Ends`).
-/

namespace Turnstile

theorem Stage.timers_of_isOver {stage : Stage} (h : stage.isOver = true) : stage.timers = [] := by
  cases stage with
  | done time => rfl
  | cancelled => rfl
  | _ => cases h

namespace Limiter

variable {σ ε : Type} {B : Backend σ} {s s' u : Limiter σ} {t : TaskId}

/-! ## How time passes -/

/-- Every task has to wait, and no timer rings before the time has passed. -/
def MayPass (B : Backend σ) (s : Limiter σ) (us : Nat) : Prop :=
  (∀ e ∈ s.tasks, s.step? B e.1 = none) ∧ ∀ e ∈ s.timers, s.clock + us ≤ e.1.tick * usPerMs

/-- The move may happen now; only time may have to wait. -/
def MayMove (B : Backend σ) (s : Limiter σ) : Move ε → Prop
  | .pass us => s.MayPass B us
  | _ => True

/-- Time passes in the run only while every task has to wait, and never beyond the next timer. -/
def Timely (W : Surroundings σ ε) : Limiter σ → List (Move ε) → Prop
  | _, [] => True
  | s, m :: rest => s.MayMove W.backend m ∧ Timely W (s.move W m) rest

instance (B : Backend σ) (s : Limiter σ) (us : Nat) : Decidable (s.MayPass B us) :=
  inferInstanceAs (Decidable (_ ∧ _))

instance (B : Backend σ) (s : Limiter σ) : DecidablePred (s.MayMove B : Move ε → Prop)
  | .pass us => inferInstanceAs (Decidable (s.MayPass B us))
  | .start _ | .step _ | .cancel _ | .close | .release _ | .markBroken _ | .raise _ | .clear
  | .tend _ | .arrange _ => .isTrue trivial

instance decidableTimely (W : Surroundings σ ε) :
    (s : Limiter σ) → (moves : List (Move ε)) → Decidable (Timely W s moves)
  | _, [] => .isTrue trivial
  | s, m :: rest =>
    have := decidableTimely W (s.move W m) rest
    inferInstanceAs (Decidable (_ ∧ _))

theorem MayPass.blocked {us : Nat} (may : s.MayPass B us) (t : TaskId) : s.step? B t = none := by
  cases hget : Table.get? s.tasks t with
  | none => simp [step?, stage?, hget]
  | some task => exact may.1 _ (Table.mem_of_get? hget)

theorem mem_timers {task : Task} (hget : Table.get? s.tasks t = some task) {timer : Timer}
    (h : timer ∈ task.stage.timers) : (timer, t) ∈ s.timers :=
  List.mem_flatMap.mpr ⟨(t, task), Table.mem_of_get? hget, List.mem_map.mpr ⟨timer, h, rfl⟩⟩

theorem exists_of_mem_timers (tidy : Tidy s) {e : Timer × TaskId} (h : e ∈ s.timers) :
    ∃ task, Table.get? s.tasks e.2 = some task ∧ e.1 ∈ task.stage.timers := by
  obtain ⟨⟨t, task⟩, hmem, hmap⟩ := List.mem_flatMap.mp h
  obtain ⟨timer, htimer, rfl⟩ := List.mem_map.mp hmap
  exact ⟨task, Table.get?_of_mem tidy.distinct hmem, htimer⟩

theorem Timely.append {moves more : List (Move ε)} {W : Surroundings σ ε}
    (first : Timely W s moves) (second : Timely W (s.run W moves) more) :
    Timely W s (moves ++ more) := by
  induction moves generalizing s with
  | nil => exact second
  | cons m rest ih => exact ⟨first.1, ih first.2 second⟩

/-- When every task has to wait, time may pass up to the next timer. -/
theorem exists_mayPass (blocked : ∀ e ∈ s.tasks, s.step? B e.1 = none) (waits : s.timers ≠ [])
    (ahead : ∀ e ∈ s.timers, s.clock ≤ e.1.tick * usPerMs) :
    ∃ us, s.MayPass B us ∧ ∃ e ∈ s.timers, (s.pass us).rung e.1 = true := by
  obtain ⟨tick, htick⟩ : ∃ tick, s.nextTick? = some tick :=
    Option.ne_none_iff_exists'.mp fun hnone =>
      waits (List.map_eq_nil_iff.mp (List.min?_eq_none_iff.mp hnone))
  obtain ⟨hmem, least⟩ := List.min?_eq_some_iff.mp htick
  obtain ⟨next, hnext, rfl⟩ := List.mem_map.mp hmem
  have hclock : s.clock + (next.1.tick * usPerMs - s.clock) = next.1.tick * usPerMs :=
    Nat.add_sub_cancel' (ahead next hnext)
  refine ⟨next.1.tick * usPerMs - s.clock, ⟨blocked, fun e he => ?_⟩, next, hnext, ?_⟩
  · rw [hclock]
    exact Nat.mul_le_mul_right _ (least _ (List.mem_map_of_mem he))
  · rw [rung, pass, hclock, Nat.mul_div_cancel _ (by decide)]
    exact decide_eq_true (Nat.le_refl _)

/-! ## Timers -/

theorem le_tickOf_mul (time : Nat) : time ≤ tickOf time * usPerMs := by
  simp only [tickOf, usPerMs]
  omega

theorem tickOf_mul_of_whole {time : Nat} (whole : time % usPerMs = 0) :
    tickOf time * usPerMs = time := by
  simp only [tickOf, usPerMs] at whole ⊢
  omega

/-- A timer is never set for a time before. -/
theorem le_tick_setTimer {now : Nat} (clock : s.clock = now) (ms : Nat) :
    now ≤ (s.setTimer ms).2.tick * usPerMs := by
  rw [tick_setTimer, clock]
  exact Nat.le_trans (Nat.le_add_right ..) (le_tickOf_mul _)

/-- From a whole millisecond a timer rings when the wait is over. -/
theorem tick_setTimer_of_whole {now : Nat} (clock : s.clock = now) (whole : now % usPerMs = 0)
    (ms : Nat) : (s.setTimer ms).2.tick * usPerMs ≤ now + ms * usPerMs := by
  rw [tick_setTimer, clock, tickOf_mul_of_whole (by rw [Nat.add_mul_mod_self_right, whole])]
  exact Nat.add_le_add_left (Nat.mul_le_mul_right _ (Nat.min_le_left ..)) _

/-- A timer that has rung and was not run past has rung just now. -/
theorem clock_eq_of_rung {timer : Timer} (ahead : s.clock ≤ timer.tick * usPerMs)
    (rung : s.rung timer = true) : s.clock = timer.tick * usPerMs := by
  have hrung : timer.tick ≤ s.clock / usPerMs := by simpa [Limiter.rung] using rung
  exact Nat.le_antisymm ahead ((Nat.le_div_iff_mul_le (by decide)).mp hrung)

end Limiter

/-! ## Requests -/

/-- The request ends by itself, and then there are so many milliseconds left until the deadline. -/
structure Call.Ends (call : Call) (deadline now ms : Nat) : Prop where
  ahead : ∀ timer ∈ call.timers, now ≤ timer.tick * usPerMs
  whole : call.due = .now → now % usPerMs = 0
  expires : ∃ expiry, call.expiry = some expiry ∧ (expiry.tick + ms) * usPerMs ≤ deadline

namespace Call.Ends

variable {σ : Type} {B : Backend σ} {s : Limiter σ} {call : Call} {deadline now ms : Nat}

theorem expiry_mem {expiry : Timer} (h : call.expiry = some expiry) : expiry ∈ call.timers := by
  unfold timers
  split <;> simp [h]

theorem due_mem {due : Timer} (h : call.due = .on due) : due ∈ call.timers := by
  simp [timers, h]

/-- A request that is made at a whole millisecond. -/
theorem startCall (clock : s.clock = now) (whole : now % usPerMs = 0) (conn : ConnId)
    (command : Command) {wait : Nat} (time : now + (wait + ms) * usPerMs ≤ deadline) :
    (s.startCall B conn command (some wait)).2.Ends deadline now ms := by
  -- the patience is measured from the same instant, however long the answer takes
  have expires : ∀ u : Limiter σ, u.clock = now →
      now ≤ (u.setTimer wait).2.tick * usPerMs ∧
        ((u.setTimer wait).2.tick + ms) * usPerMs ≤ deadline := by
    intro u clock
    have htick := Limiter.tick_setTimer_of_whole clock whole wait
    refine ⟨Limiter.le_tick_setTimer clock wait, ?_⟩
    rw [Nat.add_mul] at time ⊢
    omega
  let u : Limiter σ := { s with backend := (B.start s.backend conn command).1 }
  simp only [Limiter.startCall]
  cases (B.start s.backend conn command).2 with
  | none =>
    obtain ⟨hle, hend⟩ := expires u clock
    exact ⟨by simpa [timers, Limiter.dueAfter] using hle, fun _ => whole, _, rfl, hend⟩
  | ms n =>
    obtain ⟨hle, hend⟩ := expires (u.setTimer n).1 clock
    have hdue := Limiter.le_tick_setTimer (s := u) clock n
    exact ⟨by simpa [timers, Limiter.dueAfter] using ⟨hdue, hle⟩, (fun due => by cases due), _, rfl,
      hend⟩
  | never =>
    obtain ⟨hle, hend⟩ := expires u clock
    exact ⟨by simpa [timers, Limiter.dueAfter] using hle, (fun due => by cases due), _, rfl, hend⟩

/-- When a request ends there is the time that was to be left. -/
theorem of_progress (clock : s.clock = now) (ends : call.Ends deadline now ms)
    (ended : s.progress call ≠ .pending) : now % usPerMs = 0 ∧ now + ms * usPerMs ≤ deadline := by
  obtain ⟨expiry, hexpiry, hend⟩ := ends.expires
  have hle := ends.ahead expiry (expiry_mem hexpiry)
  rw [Nat.add_mul] at hend
  refine ⟨?_, by omega⟩
  have rung : ∀ timer ∈ call.timers, s.rung timer = true → now % usPerMs = 0 := by
    intro timer htimer hrung
    have ahead := ends.ahead timer htimer
    rw [← clock] at ahead ⊢
    rw [Limiter.clock_eq_of_rung ahead hrung]
    exact Nat.mul_mod_left ..
  cases hdue : call.due with
  | now => exact ends.whole hdue
  | on due =>
    cases hd : s.rung due with
    | true => exact rung due (due_mem hdue) hd
    | false =>
      refine rung expiry (expiry_mem hexpiry) ?_
      simpa [Limiter.progress, hdue, hd, hexpiry] using ended
  | never =>
    refine rung expiry (expiry_mem hexpiry) ?_
    simpa [Limiter.progress, hdue, hexpiry] using ended

/-- While a request is waited for, time passes up to the next timer. -/
theorem pass (ends : call.Ends deadline s.clock ms) (waits : s.progress call = .pending) {us : Nat}
    (ahead : ∀ timer ∈ call.timers, s.clock + us ≤ timer.tick * usPerMs) :
    call.Ends deadline (s.clock + us) ms where
  ahead := ahead
  whole due := by simp [Limiter.progress, due] at waits
  expires := ends.expires

/-- The next timer of a request ends it. -/
theorem progress_of_rung {timer : Timer} (h : timer ∈ call.timers) (rung : s.rung timer = true) :
    s.progress call ≠ .pending := by
  have late : call.expiry = some timer → s.progress call ≠ .pending := by
    intro hexpiry
    cases hdue : call.due with
    | on due => cases hd : s.rung due <;> simp [Limiter.progress, hdue, hd, hexpiry, rung]
    | _ => simp [Limiter.progress, hdue, hexpiry, rung]
  unfold timers at h
  split at h
  · rename_i due hdue
    rcases List.mem_cons.mp h with rfl | hexpiry
    · simp [Limiter.progress, hdue, rung]
    · exact late (by simpa using hexpiry)
  · exact late (by simpa using h)

end Call.Ends

end Turnstile
