import Mathlib.Data.List.TakeWhile
import Turnstile.Proofs.Window.FixedWindow
import Turnstile.Verdict

/-!
# Counted calls and their windows

The calls that a store has counted on one key, each with what it was told, cut into windows by their
times (`windows`). If every call was told what its rank says, then a window lets as many calls pass
as the limit allows, and these are the first ones (`Told.rationed`).
-/

namespace Turnstile

/-- A call that the store counted for a task, and what it answered. -/
structure Counted where
  task : TaskId
  key : String
  limit : Nat
  windowMs : Nat
  time : Time
  remainingMs : Nat
deriving DecidableEq, Repr

namespace Counted

def arrival (c : Counted) : Arrival := ⟨c.time, c.windowMs⟩

def verdict (c : Counted) : Verdict := .ofRemaining c.remainingMs

/-- The end of the window that the call opens if it opens one. -/
def ends (c : Counted) : Time := c.time + c.windowMs * usPerMs

end Counted

/-! ## Cutting -/

/-- Cuts calls into windows. A window has the call that opens it and those that come before its
end. -/
def windows : List Counted → List (List Counted)
  | [] => []
  | c :: rest =>
    (c :: rest.takeWhile fun d => d.time < c.ends) ::
      windows (rest.dropWhile fun d => d.time < c.ends)
termination_by calls => calls.length
decreasing_by exact Nat.lt_succ_of_le (List.dropWhile_sublist _).length_le

/-- Every call is in one window, and the windows keep the order. -/
theorem flatten_windows (calls : List Counted) : (windows calls).flatten = calls := by
  fun_induction windows calls with
  | case1 => rfl
  | case2 c rest ih => rw [List.flatten_cons, ih, List.cons_append, List.takeWhile_append_dropWhile]

theorem sublist_of_mem_windows {calls window : List Counted} (hwindow : window ∈ windows calls) :
    window.Sublist calls := by
  have hsub := List.sublist_flatten_of_mem hwindow
  rwa [flatten_windows] at hsub

section

variable {w : Option Span} {c : Counted} {calls : List Counted}

/-- Calls that come before the end of the window only raise its rank. -/
theorem after_inside {span : Span} (inside : ∀ d ∈ calls, d.time < span.ends) :
    Span.after (some span) (calls.map Counted.arrival) =
      some { span with rank := span.rank + calls.length } := by
  induction calls generalizing span with
  | nil => rfl
  | cons d rest ih =>
    have hd : d.time < span.ends := inside d (List.mem_cons_self ..)
    have hrest : ∀ e ∈ rest, e.time < ({ span with rank := span.rank + 1 } : Span).ends := by
      intro e he
      exact inside e (List.mem_cons_of_mem _ he)
    rw [List.map_cons, Span.after_cons, Span.next_of_open (a := d.arrival) hd, ih hrest,
      List.length_cons]
    simp only [Nat.add_assoc, Nat.add_comm 1]

theorem next_of_ended (ended : ∀ span, w = some span → span.ends ≤ c.time) :
    Span.next w c.arrival = ⟨c.time, c.windowMs, 1⟩ := by
  cases w with
  | none => rfl
  | some span => exact Span.next_of_over (a := c.arrival) (ended span rfl)

/-- The window that a call opens, after all the calls that come in it. -/
theorem after_window (ended : ∀ span, w = some span → span.ends ≤ c.time)
    (inside : ∀ d ∈ calls, d.time < c.ends) :
    Span.after w ((c :: calls).map Counted.arrival) =
      some ⟨c.time, c.windowMs, calls.length + 1⟩ := by
  rw [List.map_cons, Span.after_cons, next_of_ended ended, after_inside inside, Nat.add_comm]

/-- Calls fall apart into the first window and those from its end on. -/
theorem cons_eq_window_append (c : Counted) (rest : List Counted) :
    c :: rest = (c :: rest.takeWhile fun d => d.time < c.ends) ++
      rest.dropWhile fun d => d.time < c.ends := by
  rw [List.cons_append, List.takeWhile_append_dropWhile]

theorem time_lt_of_mem_takeWhile {d : Counted}
    (hd : d ∈ calls.takeWhile fun d => d.time < c.ends) : d.time < c.ends := by
  simpa using List.mem_takeWhile_imp hd

theorem ends_le_of_head?_dropWhile {d : Counted}
    (hd : d ∈ (calls.dropWhile fun d => d.time < c.ends).head?) : c.ends ≤ d.time := by
  have hhead := List.head?_dropWhile_not (fun d : Counted => decide (d.time < c.ends)) calls
  rw [Option.mem_def.mp hd] at hhead
  simpa using hhead

/-- The last of the windows is the one that all the calls lead to, and as many calls came in it as
its rank says. -/
theorem rank_after (ended : ∀ span, w = some span → ∀ c ∈ calls.head?, span.ends ≤ c.time)
    {span : Span} (hspan : Span.after w (calls.map Counted.arrival) = some span) :
    w = some span ∧ calls = [] ∨ ∃ window, (windows calls).getLast? = some window ∧
      window.length = span.rank := by
  fun_induction windows calls generalizing w with
  | case1 => exact .inl ⟨hspan, rfl⟩
  | case2 c rest ih =>
    have hended : ∀ span, w = some span → span.ends ≤ c.time := fun span hw =>
      ended span hw c (by simp)
    have hinside : ∀ d ∈ rest.takeWhile fun d => d.time < c.ends, d.time < c.ends := fun d hd =>
      time_lt_of_mem_takeWhile hd
    rw [cons_eq_window_append, List.map_append, Span.after_append,
      after_window hended hinside] at hspan
    refine .inr ?_
    have hrest := ih ?_ hspan
    · rcases hrest with ⟨hw, hnil⟩ | ⟨window, hlast, hlength⟩
      · cases hw
        refine ⟨c :: rest.takeWhile fun d => d.time < c.ends, ?_, List.length_cons⟩
        rw [hnil, windows]
        rfl
      · refine ⟨window, ?_, hlength⟩
        rw [List.getLast?_cons, hlast]
        rfl
    · rintro span ⟨⟩ d hd
      exact ends_le_of_head?_dropWhile hd

end

/-! ## Who passes -/

/-- A window that lets the first calls pass, as many as the limit allows, and no others. -/
structure Rationed (times : Nat) (window : List Counted) : Prop where
  number : (window.countP fun c => c.verdict = .admitted) = min times window.length
  first : ∀ c ∈ window.take times, c.verdict = .admitted
  later : ∀ c ∈ window.drop times, ∃ ms, c.verdict = .blocked ms

/-- Every call is told what its rank says, given the window before the calls. -/
def Told (w : Option Span) : List Counted → Prop
  | [] => True
  | c :: rest =>
    c.remainingMs = (Span.next w c.arrival).answer c.time c.limit ∧
      Told (some (Span.next w c.arrival)) rest

theorem told_concat {w : Option Span} {calls : List Counted} {c : Counted} :
    Told w (calls ++ [c]) ↔ Told w calls ∧
      c.remainingMs =
        (Span.next (Span.after w (calls.map Counted.arrival)) c.arrival).answer c.time c.limit := by
  induction calls generalizing w with
  | nil => simp [Told, Span.after]
  | cons d rest ih =>
    rw [List.cons_append, Told, ih, Told, List.map_cons, Span.after_cons, and_assoc]

/-- A call passes exactly if its rank is within the limit. -/
theorem verdict_of_answer {c : Counted} {w : Span}
    (h : c.remainingMs = w.answer c.time c.limit) :
    if w.rank ≤ c.limit then c.verdict = .admitted else ∃ ms, c.verdict = .blocked ms := by
  by_cases hr : w.rank ≤ c.limit
  · rw [Span.answer, if_pos hr] at h
    simpa [hr, Counted.verdict] using Verdict.ofRemaining_eq_admitted_iff.mpr h
  · rw [Span.answer, if_neg hr] at h
    have hms : c.remainingMs ≠ 0 := by omega
    rw [if_neg hr]
    exact ⟨c.remainingMs, if_neg hms⟩

theorem Rationed.of_first_later {times : Nat} {window : List Counted}
    (first : ∀ c ∈ window.take times, c.verdict = .admitted)
    (later : ∀ c ∈ window.drop times, ∃ ms, c.verdict = .blocked ms) : Rationed times window := by
  refine ⟨?_, first, later⟩
  have htake : ((window.take times).countP fun c => c.verdict = .admitted) =
      (window.take times).length := List.countP_eq_length.mpr (by simpa using first)
  have hdrop : ((window.drop times).countP fun c => c.verdict = .admitted) = 0 := by
    rw [List.countP_eq_zero]
    intro c hc
    obtain ⟨ms, hblocked⟩ := later c hc
    simp [hblocked]
  have hsplit : ((window.take times ++ window.drop times).countP fun c => c.verdict = .admitted) =
      _ := List.countP_append
  rw [List.take_append_drop, htake, hdrop, List.length_take] at hsplit
  exact hsplit

namespace Told

variable {times : Nat} {w : Option Span} {c : Counted} {calls : List Counted}

theorem append {more : List Counted} (told : Told w (calls ++ more)) :
    Told w calls ∧ Told (Span.after w (calls.map Counted.arrival)) more := by
  induction calls generalizing w with
  | nil => exact ⟨trivial, told⟩
  | cons d rest ih =>
    obtain ⟨hd, hrest⟩ := told
    obtain ⟨hcalls, hmore⟩ := ih hrest
    exact ⟨⟨hd, hcalls⟩, hmore⟩

/-- In an open window the calls that come next pass until the limit is reached. -/
theorem inside {span : Span} (told : Told (some span) calls)
    (inside : ∀ d ∈ calls, d.time < span.ends) (same : ∀ d ∈ calls, d.limit = times) :
    (∀ d ∈ calls.take (times - span.rank), d.verdict = .admitted) ∧
      ∀ d ∈ calls.drop (times - span.rank), ∃ ms, d.verdict = .blocked ms := by
  induction calls generalizing span with
  | nil => simp
  | cons d rest ih =>
    obtain ⟨hd, hrest⟩ := told
    rw [Span.next_of_open (a := d.arrival) (inside d (List.mem_cons_self ..))] at hd hrest
    have hverdict := verdict_of_answer hd
    have hlater := ih hrest (fun e he => inside e (List.mem_cons_of_mem _ he))
      fun e he => same e (List.mem_cons_of_mem _ he)
    rw [same d (List.mem_cons_self ..)] at hverdict
    by_cases hr : span.rank + 1 ≤ times
    · -- this call passes and leaves room for one call less
      obtain ⟨left, hleft⟩ : ∃ left, times - span.rank = left + 1 :=
        ⟨times - (span.rank + 1), by omega⟩
      have hsub : times - (span.rank + 1) = left := by omega
      rw [if_pos hr] at hverdict
      rw [hsub] at hlater
      rw [hleft, List.take_succ_cons, List.drop_succ_cons]
      exact ⟨List.forall_mem_cons.mpr ⟨hverdict, hlater.1⟩, hlater.2⟩
    · -- there is no room left, for this call or any later one
      have hleft : times - span.rank = 0 := by omega
      have hsub : times - (span.rank + 1) = 0 := by omega
      rw [if_neg hr] at hverdict
      rw [hsub, List.drop_zero] at hlater
      rw [hleft, List.take_zero, List.drop_zero]
      exact ⟨by simp, List.forall_mem_cons.mpr ⟨hverdict, hlater.2⟩⟩

/-- The window that a call opens is rationed. -/
theorem window (told : Told w (c :: calls)) (ended : ∀ span, w = some span → span.ends ≤ c.time)
    (inside : ∀ d ∈ calls, d.time < c.ends) (same : ∀ d ∈ c :: calls, d.limit = times) :
    Rationed times (c :: calls) := by
  obtain ⟨hc, hrest⟩ := told
  rw [next_of_ended ended] at hc hrest
  obtain ⟨hlimit, hsame⟩ := List.forall_mem_cons.mp same
  have hverdict := verdict_of_answer hc
  have hcalls := Told.inside hrest inside hsame
  rw [hlimit] at hverdict
  by_cases hr : 1 ≤ times
  · obtain ⟨left, rfl⟩ : ∃ left, times = left + 1 := ⟨times - 1, by omega⟩
    rw [if_pos hr] at hverdict
    refine Rationed.of_first_later ?_ hcalls.2
    rw [List.take_succ_cons]
    exact List.forall_mem_cons.mpr ⟨hverdict, hcalls.1⟩
  · obtain rfl : times = 0 := by omega
    rw [if_neg hr] at hverdict
    exact Rationed.of_first_later (by simp) (List.forall_mem_cons.mpr ⟨hverdict, hcalls.2⟩)

/-- Every window of calls under one limit is rationed, if the calls were told their ranks. -/
theorem rationed (told : Told w calls)
    (ended : ∀ span, w = some span → ∀ c ∈ calls.head?, span.ends ≤ c.time)
    (same : ∀ c ∈ calls, c.limit = times) : ∀ window ∈ windows calls, Rationed times window := by
  fun_induction windows calls generalizing w with
  | case1 => simp
  | case2 c rest ih =>
    rw [cons_eq_window_append] at told same
    obtain ⟨hfirst, hmore⟩ := told.append
    have hended : ∀ span, w = some span → span.ends ≤ c.time := fun span hw =>
      ended span hw c (by simp)
    have hinside : ∀ d ∈ rest.takeWhile fun d => d.time < c.ends, d.time < c.ends := fun d hd =>
      time_lt_of_mem_takeWhile hd
    rw [after_window hended hinside] at hmore
    refine List.forall_mem_cons.mpr ⟨?_, ih hmore ?_ ?_⟩
    · exact window hfirst hended hinside fun d hd => same d (List.mem_append_left _ hd)
    · rintro span ⟨⟩ d hd
      exact ends_le_of_head?_dropWhile hd
    · exact fun d hd => same d (List.mem_append_right _ hd)

end Told

end Turnstile
