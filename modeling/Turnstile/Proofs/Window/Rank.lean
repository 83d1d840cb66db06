import Turnstile.Proofs.Window.Waiting

/-!
# The rank of a call in its window

Where a call stands in its window decides what it is told (`Told.rank`). So a call that is blocked
came in a window in which as many calls as the limit allows had come before, and the time that it is
told to wait is what was left of this window (`Told.overLimit`). The calls in the window that is
still open decide on the next call (`Told.decision_concat`); they are the ones that a store keeps
(`Counting.counter?_eq_openWindow`).
-/

namespace Turnstile

section

variable {calls pre post : List Counted} {first c d : Counted} {w : Option Span}

/-- The call that comes after some others in the window that the first of them has opened. -/
theorem Told.rank_first (told : Told w (pre ++ c :: post))
    (ended : ∀ span, w = some span → ∀ x ∈ (pre ++ c :: post).head?, span.ends ≤ x.time)
    (hfirst : first ∈ (pre ++ [c]).head?)
    (inside : ∀ x ∈ (pre ++ c :: post).tail, x.time < first.ends) :
    (pre ≠ [] → c.time < first.ends) ∧
      c.remainingMs = Span.answer ⟨first.time, first.windowMs, pre.length + 1⟩ c.time c.limit := by
  obtain ⟨-, hc, -⟩ := told.append
  cases pre with
  | nil =>
    obtain rfl : c = first := by simpa using hfirst
    rw [List.map_nil, Span.after, List.foldl_nil,
      next_of_ended fun span hw => ended span hw c (by simp)] at hc
    exact ⟨fun hnil => absurd rfl hnil, hc⟩
  | cons d pre =>
    obtain rfl : d = first := by simpa using hfirst
    have hbefore : ∀ x ∈ pre, x.time < d.ends := fun x hx => inside x (by simp [hx])
    have hin : c.time < d.ends := inside c (by simp)
    -- the calls before this one have only raised the rank
    rw [after_window (fun span hw => ended span hw d (by simp)) hbefore,
      Span.next_of_open (w := ⟨d.time, d.windowMs, _⟩) (a := c.arrival) hin] at hc
    exact ⟨fun _ => hin, hc⟩

/-- A call is told what its rank in its window says. -/
theorem Told.rank (told : Told w calls)
    (ended : ∀ span, w = some span → ∀ x ∈ calls.head?, span.ends ≤ x.time)
    (hwindow : pre ++ c :: post ∈ windows calls) (hfirst : first ∈ (pre ++ [c]).head?) :
    (pre ≠ [] → c.time < first.ends) ∧
      c.remainingMs = Span.answer ⟨first.time, first.windowMs, pre.length + 1⟩ c.time c.limit := by
  fun_induction windows calls generalizing w with
  | case1 => cases hwindow
  | case2 d others ih =>
    rw [cons_eq_window_append] at told
    obtain ⟨hhere, hmore⟩ := told.append
    have hended : ∀ span, w = some span → span.ends ≤ d.time := fun span hw =>
      ended span hw d (by simp)
    have hinside : ∀ x ∈ others.takeWhile fun x => x.time < d.ends, x.time < d.ends := fun x hx =>
      time_lt_of_mem_takeWhile hx
    rcases List.mem_cons.mp hwindow with heq | hlater
    · have hopener : first = d := by
        have hhead := congrArg List.head? heq
        cases pre <;> simp_all
      subst hopener
      rw [← heq] at hhere
      refine hhere.rank_first (fun span hw x hx => ?_) hfirst fun x hx => ?_
      · rw [heq] at hx
        obtain rfl : first = x := by simpa using hx
        exact hended span hw
      · rw [heq] at hx
        exact hinside x hx
    · rw [after_window hended hinside] at hmore
      refine ih hmore ?_ hlater
      rintro span ⟨⟩ x hx
      exact ends_le_of_head?_dropWhile hx

end

/-- A call that was over its limit: `before` are the calls before it in its window, which the first
of them had opened and which was still open; they are at least as many as the limit allows; and the
call was told what was left of the window. -/
structure OverLimit (calls : List Counted) (c : Counted) (before : List Counted) : Prop where
  window : ∃ after, before ++ c :: after ∈ windows calls
  full : c.limit < before.length + 1
  left : ∃ first ∈ before.head?, c.time < first.ends ∧
    c.remainingMs = max 1 ((first.ends - c.time) / usPerMs)

/-- Who is blocked under a limit that lets any call pass at all is over the limit. -/
theorem Told.overLimit {calls : List Counted} {c : Counted} (told : Told none calls)
    (hc : c ∈ calls) (room : 0 < c.limit) (blocked : c.remainingMs ≠ 0) :
    ∃ before, OverLimit calls c before := by
  rw [← flatten_windows calls, List.mem_flatten] at hc
  obtain ⟨window, hwindow, hc⟩ := hc
  obtain ⟨before, after, rfl⟩ := List.append_of_mem hc
  obtain ⟨first, hfirst⟩ : ∃ first, first ∈ (before ++ [c]).head? := by
    cases before <;> simp
  obtain ⟨hin, hanswer⟩ := told.rank (fun _ hw => by cases hw) hwindow hfirst
  have hfull : c.limit < before.length + 1 := by
    refine Nat.lt_of_not_le fun hle => blocked ?_
    rw [hanswer, Span.answer, if_pos hle]
  have hbefore : before ≠ [] := by
    rintro rfl
    exact absurd hfull (Nat.not_lt.mpr room)
  rw [Span.answer, if_neg (Nat.not_le.mpr hfull)] at hanswer
  refine ⟨before, ⟨after, hwindow⟩, hfull, first, ?_, hin hbefore, hanswer⟩
  rwa [List.head?_append_of_ne_nil _ hbefore] at hfirst

/-! ## The open window -/

/-- The calls in the last window, if it is still open at that time. -/
def openWindow (calls : List Counted) (now : Time) : List Counted :=
  ((windows calls).getLast?.filter fun window => window.head?.any fun c => now < c.ends).getD []

theorem ne_nil_of_mem_windows {calls window : List Counted} (h : window ∈ windows calls) :
    window ≠ [] := by
  fun_induction windows calls with
  | case1 => cases h
  | case2 c rest ih =>
    rcases List.mem_cons.mp h with rfl | h
    · exact List.cons_ne_nil _ _
    · exact ih h

/-- The rank in the window that the calls lead to, while it is open. -/
theorem rank_openWindow (calls : List Counted) (now : Time) :
    (((Span.current (calls.map Counted.arrival)).filter fun w => w.isOpen now).map
      (·.rank)).getD 0 = (openWindow calls now).length := by
  cases hlast : (windows calls).getLast? with
  | none =>
    have hnil : calls = [] := by
      rw [← flatten_windows calls, List.getLast?_eq_none_iff.mp hlast, List.flatten_nil]
    subst hnil
    rw [openWindow, hlast]
    rfl
  | some window =>
    cases window with
    | nil => exact absurd rfl (ne_nil_of_mem_windows (List.mem_of_getLast? hlast))
    | cons first rest =>
      have hspan : Span.current (calls.map Counted.arrival) =
          some ⟨first.time, first.windowMs, rest.length + 1⟩ :=
        after_of_getLast? (fun _ hw => by cases hw) hlast
      rw [hspan, openWindow, hlast]
      by_cases hin : now < first.ends
      · have hopen : now < Span.ends ⟨first.time, first.windowMs, rest.length + 1⟩ := hin
        simp [Option.filter, Span.isOpen, hin, hopen]
      · have hopen : ¬ now < Span.ends ⟨first.time, first.windowMs, rest.length + 1⟩ := hin
        simp [Option.filter, Span.isOpen, hin, hopen]

theorem Span.rank_next (w : Option Span) (a : Arrival) :
    (next w a).rank = ((w.filter fun w => w.isOpen a.time).map (·.rank)).getD 0 + 1 := by
  cases h : w.filter fun w => w.isOpen a.time <;> simp [next, h]

/-- A call is decided on by how many calls are in the open window with it. -/
theorem Told.decision_concat {calls : List Counted} {c : Counted}
    (told : Told none (calls ++ [c])) :
    c.verdict.decision = if (openWindow calls c.time).length + 1 ≤ c.limit then .admitted
      else .rejected (Verdict.retryAfterSeconds c.remainingMs) := by
  have hanswer := (told_concat.mp told).2
  have hrank : (Span.next (Span.after none (calls.map Counted.arrival)) c.arrival).rank =
      (openWindow calls c.time).length + 1 := by
    rw [Span.rank_next, ← rank_openWindow]
    rfl
  rw [Span.answer, hrank] at hanswer
  by_cases hle : (openWindow calls c.time).length + 1 ≤ c.limit
  · rw [if_pos hle] at hanswer ⊢
    simp [Counted.verdict, hanswer, Verdict.ofRemaining, Verdict.decision]
  · rw [if_neg hle] at hanswer ⊢
    have hms : c.remainingMs ≠ 0 := by omega
    simp [Counted.verdict, Verdict.ofRemaining, hms, Verdict.decision]

/-- What a store keeps for a key at any later time, as long as it counts no other call on it. -/
theorem Limiter.Counting.counter?_eq_openWindow {s : Limiter Memory} (h : Counting s)
    {key : String} {now : Time} (later : s.clock ≤ now) :
    (s.backend.store.counter? now key).getD 0 = (openWindow (s.countsOn key) now).length := by
  rw [(h.agrees.later later).counter? key, History.span?, on_history, rank_openWindow]

end Turnstile
