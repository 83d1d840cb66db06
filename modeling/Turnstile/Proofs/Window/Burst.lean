import Turnstile.Limit
import Turnstile.Proofs.Runs.Chronology
import Turnstile.Proofs.Window.Admission

/-!
# Bursts

A window starts with a call and not at a fixed time, so a stretch of time that is as long as a
window may meet two of them, with the end of one and the beginning of the next. It never meets
three: the windows of a key are all of full length and do not overlap. So at most twice the limit
passes in any such stretch (`Memory.admitted_le_twice`), wherever it begins.
-/

namespace Turnstile

/-- How many calls passed from `start` on and before `stop`. -/
def admittedIn (calls : List Counted) (start stop : Time) : Nat :=
  calls.countP fun c => c.verdict = .admitted ∧ start ≤ c.time ∧ c.time < stop

section

variable {calls : List Counted} {start stop : Time} {times windowMs : Nat}

theorem admittedIn_append (calls more : List Counted) (start stop : Time) :
    admittedIn (calls ++ more) start stop =
      admittedIn calls start stop + admittedIn more start stop :=
  List.countP_append

theorem admittedIn_eq_zero (outside : ∀ c ∈ calls, c.time < start ∨ stop ≤ c.time) :
    admittedIn calls start stop = 0 := by
  rw [admittedIn, List.countP_eq_zero]
  intro c hc
  simp only [decide_eq_true_eq, not_and, Nat.not_lt]
  intro _ hstart
  exact (outside c hc).resolve_left (Nat.not_lt.mpr hstart)

/-- A rationed window lets no more calls pass than the limit allows, in whatever time. -/
theorem Rationed.admittedIn_le (rationed : Rationed times calls) (start stop : Time) :
    admittedIn calls start stop ≤ times := by
  have hle : admittedIn calls start stop ≤ calls.countP fun c => c.verdict = .admitted := by
    refine List.countP_mono_left fun c _ hc => ?_
    simp only [decide_eq_true_eq] at hc ⊢
    exact hc.1
  have hnumber := rationed.number
  omega

/-! ## Windows do not overlap -/

/-- What the first call is not before, no later one is before. -/
theorem InOrder.le_of_head? (ordered : InOrder calls) {bound : Time}
    (first : ∀ c ∈ calls.head?, bound ≤ c.time) : ∀ c ∈ calls, bound ≤ c.time := by
  cases calls with
  | nil => simp
  | cons c rest =>
    have hc : bound ≤ c.time := first c (by simp)
    have hrest := (List.pairwise_cons.mp ordered).1
    refine List.forall_mem_cons.mpr ⟨hc, fun d hd => ?_⟩
    exact Nat.le_trans hc (hrest d hd)

/-- The calls after a window come at its end or later. -/
theorem InOrder.ends_le_of_mem_dropWhile {c : Counted} (ordered : InOrder calls) :
    ∀ d ∈ calls.dropWhile (fun d => d.time < c.ends), c.ends ≤ d.time := by
  have hlater : InOrder (calls.dropWhile fun d => d.time < c.ends) :=
    List.Pairwise.sublist (List.dropWhile_sublist _) ordered
  exact hlater.le_of_head? fun d hd => ends_le_of_head?_dropWhile hd

/-- The calls of a window come before its end. -/
theorem time_lt_ends_of_mem_window {c : Counted} (length_pos : 0 < c.windowMs) :
    ∀ d ∈ c :: calls.takeWhile (fun d => d.time < c.ends), d.time < c.ends := by
  refine List.forall_mem_cons.mpr ⟨?_, fun d hd => time_lt_of_mem_takeWhile hd⟩
  exact Nat.lt_add_of_pos_right (Nat.mul_pos length_pos (by decide))

/-- A stretch that starts before all of the calls, and is no longer than a window, meets only the
first window. -/
theorem admittedIn_le_once (ordered : InOrder calls)
    (rationed : ∀ window ∈ windows calls, Rationed times window)
    (same : ∀ c ∈ calls, c.windowMs = windowMs)
    (before : ∀ c ∈ calls, stop ≤ c.time + windowMs * usPerMs) :
    admittedIn calls start stop ≤ times := by
  cases calls with
  | nil => simp [admittedIn]
  | cons c rest =>
    rw [windows] at rationed
    have hlater : admittedIn (rest.dropWhile fun d => d.time < c.ends) start stop = 0 := by
      refine admittedIn_eq_zero fun d hd => .inr ?_
      have hends : c.ends ≤ d.time :=
        InOrder.ends_le_of_mem_dropWhile (List.pairwise_cons.mp ordered).2 d hd
      have hstop := before c (List.mem_cons_self ..)
      rw [Counted.ends, same c (List.mem_cons_self ..)] at hends
      exact Nat.le_trans hstop hends
    rw [cons_eq_window_append, admittedIn_append, hlater, Nat.add_zero]
    exact (rationed _ (List.mem_cons_self ..)).admittedIn_le start stop

/-- A stretch as long as a window meets at most two windows. -/
theorem admittedIn_le_twice (ordered : InOrder calls)
    (rationed : ∀ window ∈ windows calls, Rationed times window)
    (same : ∀ c ∈ calls, c.windowMs = windowMs) (length_pos : 0 < windowMs) :
    admittedIn calls start (start + windowMs * usPerMs) ≤ 2 * times := by
  -- windows that are over before the stretch starts are left out one by one
  fun_induction windows calls with
  | case1 => simp [admittedIn]
  | case2 c rest ih =>
    obtain ⟨hwindow, hwindows⟩ := List.forall_mem_cons.mp rationed
    have hrest : InOrder rest := (List.pairwise_cons.mp ordered).2
    have hsub : (rest.dropWhile fun d => d.time < c.ends).Sublist rest := List.dropWhile_sublist _
    have hordered : InOrder (rest.dropWhile fun d => d.time < c.ends) :=
      List.Pairwise.sublist hsub hrest
    have hsame : ∀ d ∈ rest.dropWhile (fun d => d.time < c.ends), d.windowMs = windowMs :=
      fun d hd => same d (List.mem_cons_of_mem _ (hsub.subset hd))
    have hlength : c.windowMs = windowMs := same c (List.mem_cons_self ..)
    rw [cons_eq_window_append, admittedIn_append]
    by_cases hover : c.ends ≤ start
    · have hzero : admittedIn (c :: rest.takeWhile fun d => d.time < c.ends) start
          (start + windowMs * usPerMs) = 0 := by
        refine admittedIn_eq_zero fun d hd => .inl ?_
        have hends : d.time < c.ends := time_lt_ends_of_mem_window (hlength ▸ length_pos) d hd
        exact Nat.lt_of_lt_of_le hends hover
      rw [hzero, Nat.zero_add]
      exact ih hordered hwindows hsame
    · have hfirst := hwindow.admittedIn_le start (start + windowMs * usPerMs)
      have hsecond : admittedIn (rest.dropWhile fun d => d.time < c.ends) start
          (start + windowMs * usPerMs) ≤ times := by
        refine admittedIn_le_once hordered hwindows hsame fun d hd => ?_
        have hends : c.ends ≤ d.time := InOrder.ends_le_of_mem_dropWhile hrest d hd
        exact Nat.add_le_add_right (Nat.le_trans (Nat.le_of_not_le hover) hends) _
      omega

end

namespace Memory

/-- After every run, if all calls that the store has counted on a key were under one limit of
`times` calls in so many seconds, then in any stretch of so many seconds at most `2 * times` of them
passed. -/
theorem admitted_le_twice (settings : PoolSettings) (moves : List (Move MemoryChange))
    (key : String) (times seconds : Nat)
    (same : ∀ c ∈ ((Limiter.fresh fresh settings).run surroundings moves).countsOn key,
      c.limit = times ∧ c.windowMs = seconds * Limit.msPerSecond) (start : Time) :
    let s := (Limiter.fresh fresh settings).run surroundings moves
    admittedIn (s.countsOn key) start (start + seconds * usPerSecond) ≤ 2 * times := by
  intro s
  have counting : Limiter.Counting s := Limiter.Counting.invariant.run (.fresh settings) moves
  have rationed : ∀ window ∈ windows (s.countsOn key), Rationed times window :=
    (counting.told key).rationed (fun _ hspan => by cases hspan) fun c hc => (same c hc).1
  have ordered : InOrder (s.countsOn key) :=
    (Limiter.chronological_run surroundings fresh settings moves).ordered.filter _
  have hlength : seconds * Limit.msPerSecond * usPerMs = seconds * usPerSecond := by
    simp only [Limit.msPerSecond, usPerMs, usPerSecond]
    omega
  rw [← hlength]
  rcases Nat.eq_zero_or_pos seconds with rfl | hpos
  · -- no time at all
    have hzero : admittedIn (s.countsOn key) start start = 0 :=
      admittedIn_eq_zero fun c _ => Nat.lt_or_ge c.time start
    simp [hzero]
  · exact admittedIn_le_twice ordered rationed (fun c hc => (same c hc).2)
      (Nat.mul_pos hpos (by decide))

/-- Five calls on one key with room for two a second: two come in the first window, at its beginning
and just before its end, and three in the second one. -/
def callsAcrossWindows : List (Move MemoryChange) :=
  let call : Job := .evaluate ⟨"k", 2, 1000⟩
  [.start [call], .step 0, .step 0, .step 0, .pass 900000, .start [call], .step 1, .step 1,
    .pass 100000, .start [call], .step 2, .step 2, .tend .cleanup, .pass 100000, .start [call],
    .start [call], .step 4, .step 4, .step 3, .step 3]

theorem admitted_le_twice_callsAcrossWindows :
    let s := (Limiter.fresh fresh .standard).run surroundings callsAcrossWindows
    (∀ c ∈ s.countsOn "k", c.limit = 2 ∧ c.windowMs = 1 * Limit.msPerSecond) ∧
      admittedIn (s.countsOn "k") 500000 (500000 + 1 * usPerSecond) = 3 ∧
      admittedIn (s.countsOn "k") 500000 (500000 + 1 * usPerSecond) ≤ 2 * 2 := by
  intro s
  have hcounts : s.countsOn "k" = [⟨0, "k", 2, 1000, 0, 0⟩, ⟨1, "k", 2, 1000, 900000, 0⟩,
      ⟨2, "k", 2, 1000, 1000000, 0⟩, ⟨4, "k", 2, 1000, 1100000, 0⟩,
      ⟨3, "k", 2, 1000, 1100000, 900⟩] := by decide +kernel
  have same : ∀ c ∈ s.countsOn "k", c.limit = 2 ∧ c.windowMs = 1 * Limit.msPerSecond := by
    simp [hcounts, Limit.msPerSecond]
  refine ⟨same, ?_, admitted_le_twice .standard callsAcrossWindows "k" 2 1 same 500000⟩
  rw [hcounts]
  decide

end Memory

end Turnstile
