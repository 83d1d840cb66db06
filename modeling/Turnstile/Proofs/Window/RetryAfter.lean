import Turnstile.Proofs.Runs.Attendance
import Turnstile.Proofs.Runs.Chronology
import Turnstile.Proofs.Window.Waiting

/-!
# How long a rejection asks to wait

What a rejected call is told depends on the call that opened its window: it is what is left of that
window, cut to whole milliseconds, at least one, and rounded up to seconds. So it is at least one
second and no more than the window has, and it does not grow from one rejection in a window to the
next (`Memory.retryAfter_shrinks`), whatever limits the calls were made under.

`Limit.wait?` computes the same with every step checked against the numbers of sixty-four bits and
the instants that a clock can name. No step fails under any limit, unless the clock has come within
the longest window of the last instant (`Limit.wait?_eq`). The longest window is a thousandth of all
the time that a clock can name, so this is the case only after some 290 billion years.
-/

namespace Turnstile

/-! ## The arithmetic of machines -/

/-- The number, if it is no larger than the largest one. -/
def checked? (largest n : Nat) : Option Nat := if n ≤ largest then some n else none

theorem checked?_eq_some {largest n : Nat} (h : n ≤ largest) : checked? largest n = some n :=
  if_pos h

/-- The instant so many milliseconds after another one, if it can be named. -/
def instantAfter? (now : Time) (ms : Nat) : Option Time :=
  if now / usPerSecond + ms / 1000 < Limiter.horizonSeconds then some (now + ms * usPerMs) else none

/-- It is the one that a limiter names. -/
theorem Limiter.after?_eq_instantAfter? {σ : Type} (s : Limiter σ) (ms : Nat) :
    s.after? ms = instantAfter? s.clock ms := rfl

namespace Limit

variable {l : Limit} {opened now : Time} {ms ms' : Nat}

/-- The number of seconds in the longest window. -/
def longestSeconds : Nat := 9223372036854775

theorem seconds_le_longestSeconds (l : Limit) : l.seconds ≤ longestSeconds := by
  have hfits := l.window_fits
  simp only [Text.maxI64] at hfits
  simp only [longestSeconds]
  omega

/-- The longest window is one that a limit may have, and it is the last. -/
example : (ofInts 1 9223372036854775).isOk = true ∧ (ofInts 1 9223372036854776).isOk = false := by
  decide

/-- The seconds that a call is told to wait which is rejected in a window that was opened under the
limit, with every step checked: the length of the window in milliseconds, which may have to be a
signed number, the end of the window, the milliseconds that are left, and rounding up. -/
def wait? (l : Limit) (opened now : Time) : Option Nat := do
  let unsigned ← checked? Text.maxU64 (l.seconds * msPerSecond)
  let windowMs ← checked? Text.maxI64.toNat unsigned
  let ends ← instantAfter? opened windowMs
  let left ← checked? Text.maxU64 ((ends - now) / usPerMs)
  let padded ← checked? Text.maxU64 (max 1 left + 999)
  return max 1 (padded / 1000)

/-- What is left of a window in milliseconds, and at least one. -/
def leftMs (l : Limit) (opened now : Time) : Nat :=
  max 1 ((opened + l.windowMs * usPerMs - now) / usPerMs)

/-- There is no more left of a window than it is long. -/
theorem leftMs_le (started : opened ≤ now) : l.leftMs opened now ≤ l.windowMs := by
  have hpos := l.windowMs_pos
  have hleft : opened + l.windowMs * usPerMs - now ≤ l.windowMs * usPerMs :=
    Nat.sub_le_of_le_add (Nat.add_comm .. ▸ Nat.add_le_add_left started _)
  exact Nat.max_le.mpr ⟨hpos, Nat.div_le_of_le_mul (Nat.mul_comm .. ▸ hleft)⟩

theorem retryAfterSeconds_mono (le : ms ≤ ms') :
    Verdict.retryAfterSeconds ms ≤ Verdict.retryAfterSeconds ms' := by
  unfold Verdict.retryAfterSeconds
  omega

/-- Whoever waits waits no longer than a whole window. -/
theorem retryAfterSeconds_le (le : ms ≤ l.windowMs) : Verdict.retryAfterSeconds ms ≤ l.seconds := by
  have hpos := l.seconds_pos
  simp only [windowMs, msPerSecond] at le
  unfold Verdict.retryAfterSeconds
  omega

theorem windowMs_le_maxI64 (l : Limit) : l.windowMs ≤ Text.maxI64.toNat := by
  have hfits := l.window_fits
  have hwindow : l.windowMs = l.seconds * 1000 := rfl
  omega

/-- The end of a window can be named unless the clock is within the longest window of the last
instant. -/
theorem instantAfter?_windowMs (l : Limit)
    (early : opened / usPerSecond + longestSeconds < Limiter.horizonSeconds) :
    instantAfter? opened l.windowMs = some (opened + l.windowMs * usPerMs) := by
  have hseconds := l.seconds_le_longestSeconds
  have hwhole : l.windowMs / 1000 = l.seconds := Nat.mul_div_cancel _ (by decide)
  refine if_pos ?_
  rw [hwhole]
  exact Nat.lt_of_le_of_lt (Nat.add_le_add_left hseconds _) early

/-- No step of the computation fails, unless the clock is within the longest window of the last
instant. -/
theorem wait?_eq (l : Limit) (started : opened ≤ now)
    (early : opened / usPerSecond + longestSeconds < Limiter.horizonSeconds) :
    l.wait? opened now = some (Verdict.retryAfterSeconds (l.leftMs opened now)) := by
  have hwindow := l.windowMs_le_maxI64
  have hleft : l.leftMs opened now ≤ Text.maxI64.toNat := Nat.le_trans (leftMs_le started) hwindow
  have hcut : (opened + l.windowMs * usPerMs - now) / usPerMs ≤ l.leftMs opened now :=
    Nat.le_max_right ..
  have hroom : Text.maxI64.toNat + 999 ≤ Text.maxU64 := by decide
  have unsigned : checked? Text.maxU64 (l.seconds * msPerSecond) = some l.windowMs :=
    checked?_eq_some (n := l.windowMs) (by omega)
  have signed : checked? Text.maxI64.toNat l.windowMs = some l.windowMs := checked?_eq_some hwindow
  have left : checked? Text.maxU64 ((opened + l.windowMs * usPerMs - now) / usPerMs) =
      some ((opened + l.windowMs * usPerMs - now) / usPerMs) :=
    checked?_eq_some (Nat.le_trans hcut (by omega))
  have padded : checked? Text.maxU64 (l.leftMs opened now + 999) =
      some (l.leftMs opened now + 999) := checked?_eq_some (by omega)
  simp only [wait?, Option.bind_eq_bind, unsigned, signed, l.instantAfter?_windowMs early, left,
    Option.bind_some]
  exact congrArg (Option.bind · fun padded => some (max 1 (padded / 1000))) padded

end Limit

/-! ## Rejections in one window -/

section

variable {calls window : List Counted} {first c : Counted}

/-- No call in a window comes before the one that opened it. -/
theorem InOrder.opened_le (ordered : InOrder calls) (hwindow : window ∈ windows calls)
    (hfirst : first ∈ window.head?) (hc : c ∈ window) : first.time ≤ c.time := by
  obtain ⟨rest, rfl⟩ := List.head?_eq_some_iff.mp hfirst
  have hordered : InOrder (first :: rest) :=
    List.Pairwise.sublist (sublist_of_mem_windows hwindow) ordered
  rcases List.mem_cons.mp hc with rfl | hc
  · exact Nat.le_refl _
  · exact (List.pairwise_cons.mp hordered).1 c hc

end

namespace Limiter

variable {σ : Type} {s : Limiter σ} {d d' : Decided} {c c' : Counted} {r r' : Nat}

/-- The decision is to reject, with so many seconds to wait, and the call that it is about is the
only one that was counted for it. -/
structure Rejection (s : Limiter σ) (d : Decided) (c : Counted) (r : Nat) : Prop where
  made : d ∈ s.decisions
  rejected : d.decision = .rejected r
  counted : s.countsOf d.child = [c]

/-- Every rejection is about one counted call. -/
theorem exists_rejection (attended : Attended s) (founded : Founded s) (made : d ∈ s.decisions)
    (rejected : d.decision = .rejected r) : ∃ c, s.Rejection d c r := by
  obtain ⟨c, hc, -⟩ := founded.counted d made (by simp [rejected])
  obtain ⟨charge, limit, counts⟩ := attended.decided d made
  exact ⟨c, made, rejected, (counts.eq_of_mem hc).1⟩

namespace Rejection

/-- The seconds are those that the store has told the call. -/
theorem told (h : s.Rejection d c r) (founded : Founded s) :
    r = Verdict.retryAfterSeconds c.remainingMs ∧ c.remainingMs ≠ 0 := by
  obtain ⟨count, hcount, heq⟩ := founded.counted d h.made (by simp [h.rejected])
  rw [h.counted, List.mem_singleton] at hcount
  subst hcount
  rw [h.rejected] at heq
  exact (Counted.of_rejected heq).2

theorem mem_countsOn (h : s.Rejection d c r) : c ∈ s.countsOn c.key := by
  have hc : c ∈ s.countsOf d.child := by simp [h.counted]
  rw [countsOf, List.mem_filter] at hc
  rw [countsOn, List.mem_filter]
  exact ⟨hc.1, decide_eq_true rfl⟩

theorem exists_window (h : s.Rejection d c r) :
    ∃ window ∈ windows (s.countsOn c.key), c ∈ window := by
  have hc := h.mem_countsOn
  rwa [← flatten_windows (s.countsOn c.key), List.mem_flatten] at hc

end Rejection

end Limiter

namespace Memory

section

variable {s : Limiter Memory} {d d' : Decided} {c c' first : Counted} {r r' : Nat} {key : String}
  {window : List Counted}

/-- Who is rejected is told what is left of the window, in seconds. -/
theorem retryAfter_eq (counting : Limiter.Counting s) (founded : Limiter.Founded s)
    (h : s.Rejection d c r) (hwindow : window ∈ windows (s.countsOn key)) (hc : c ∈ window)
    (hfirst : first ∈ window.head?) :
    r = Verdict.retryAfterSeconds (max 1 ((first.ends - c.time) / usPerMs)) := by
  obtain ⟨hr, hblocked⟩ := h.told founded
  rw [hr, (counting.told key).left (fun _ hw => by cases hw) hwindow hfirst hc hblocked]

/-- If the window was opened under a limit then what is left of it is computed without any step that
fails, and is at most as long as the limit says. -/
theorem retryAfter_within (counting : Limiter.Counting s) (founded : Limiter.Founded s)
    (ordered : InOrder (s.countsOn key)) (h : s.Rejection d c r)
    (hwindow : window ∈ windows (s.countsOn key)) (hc : c ∈ window) (hfirst : first ∈ window.head?)
    {l : Limit} (opened : first.windowMs = l.windowMs) :
    1 ≤ r ∧ r ≤ l.seconds ∧
      (first.time / usPerSecond + Limit.longestSeconds < Limiter.horizonSeconds →
        l.wait? first.time c.time = some r) := by
  have hstarted := ordered.opened_le hwindow hfirst hc
  have hleft : r = Verdict.retryAfterSeconds (l.leftMs first.time c.time) := by
    rw [retryAfter_eq counting founded h hwindow hc hfirst, Counted.ends, opened, Limit.leftMs]
  subst hleft
  exact ⟨Verdict.retryAfterSeconds_pos _, Limit.retryAfterSeconds_le (Limit.leftMs_le hstarted),
    l.wait?_eq hstarted⟩

/-- What is left of a window does not grow. -/
theorem retryAfter_antitone (counting : Limiter.Counting s) (founded : Limiter.Founded s)
    (ordered : InOrder (s.countsOn key)) (h : s.Rejection d c r) (h' : s.Rejection d' c' r')
    (hwindow : window ∈ windows (s.countsOn key)) (later : [c, c'].Sublist window) : r' ≤ r := by
  have hc : c ∈ window := later.subset (by simp)
  have hc' : c' ∈ window := later.subset (by simp)
  have hordered : InOrder window := List.Pairwise.sublist (sublist_of_mem_windows hwindow) ordered
  have hle : c.time ≤ c'.time := List.pairwise_iff_forall_sublist.mp hordered later
  obtain ⟨first, hfirst⟩ : ∃ first, first ∈ window.head? := by
    cases window with
    | nil => cases hc
    | cons first rest => exact ⟨first, rfl⟩
  rw [retryAfter_eq counting founded h hwindow hc hfirst,
    retryAfter_eq counting founded h' hwindow hc' hfirst]
  apply Limit.retryAfterSeconds_mono
  have hleft : (first.ends - c'.time) / usPerMs ≤ (first.ends - c.time) / usPerMs :=
    Nat.div_le_div_right (Nat.sub_le_sub_left hle _)
  exact Nat.max_le.mpr ⟨Nat.le_max_left .., Nat.le_trans hleft (Nat.le_max_right ..)⟩

end

/-- In every run each rejection is about one call, which the store has counted in some window. If
that window was opened under a limit then the rejection asks to wait for a second at least and for
no longer than the limit says, however few calls the rejected one was allowed and however long a
window it asked for, and of two rejections in a window the later one does not ask for more than the
earlier. Under every limit, up to that with the longest window, the wait is computed without any
step that fails, as long as the clock is not within the longest window of the last instant. -/
theorem retryAfter_shrinks (settings : PoolSettings) (moves : List (Move MemoryChange)) :
    let s := (Limiter.fresh fresh settings).run surroundings moves
    (∀ d ∈ s.decisions, ∀ r, d.decision = .rejected r → ∃ c, s.Rejection d c r ∧
      ∃ window ∈ windows (s.countsOn c.key), c ∈ window) ∧
    (∀ (d : Decided) (c first : Counted) (r : Nat) (key : String) (window : List Counted)
      (l : Limit), s.Rejection d c r → window ∈ windows (s.countsOn key) → c ∈ window →
      first ∈ window.head? → first.windowMs = l.windowMs →
      1 ≤ r ∧ r ≤ l.seconds ∧
        (first.time / usPerSecond + Limit.longestSeconds < Limiter.horizonSeconds →
          l.wait? first.time c.time = some r)) ∧
    (∀ (d d' : Decided) (c c' : Counted) (r r' : Nat) (key : String) (window : List Counted),
      s.Rejection d c r → s.Rejection d' c' r' → window ∈ windows (s.countsOn key) →
      [c, c'].Sublist window → r' ≤ r) ∧
    ∀ (l : Limit) (opened now : Time), opened ≤ now →
      opened / usPerSecond + Limit.longestSeconds < Limiter.horizonSeconds →
      l.wait? opened now = some (Verdict.retryAfterSeconds (l.leftMs opened now)) := by
  intro s
  have counting : Limiter.Counting s := Limiter.Counting.invariant.run (.fresh settings) moves
  have founded : Limiter.Founded s := Limiter.decision_of_count surroundings fresh settings moves
  have attended : Limiter.Attended s := Limiter.attended_run surroundings fresh settings moves
  have chronological : Limiter.Chronological s :=
    Limiter.chronological_run surroundings fresh settings moves
  have ordered : ∀ key, InOrder (s.countsOn key) := fun key => chronological.ordered.filter _
  refine ⟨?_, ?_, ?_, ?_⟩
  · intro d made r rejected
    obtain ⟨c, h⟩ := Limiter.exists_rejection attended founded made rejected
    exact ⟨c, h, h.exists_window⟩
  · intro d c first r key window l h hwindow hc hfirst opened
    exact retryAfter_within counting founded (ordered key) h hwindow hc hfirst opened
  · intro d d' c c' r r' key window h h' hwindow later
    exact retryAfter_antitone counting founded (ordered key) h h' hwindow later
  · intro l opened now started early
    exact l.wait?_eq started early

/-- After a while a check is made under these numbers. -/
def checkUnder (times seconds : Int) (us : Nat) (t : TaskId) : List (Move MemoryChange) :=
  [.pass us, .start [.check "u" "svc" (some (times, seconds))], .step t, .step (t + 1),
    .step (t + 1), .step (t + 1), .step t]

/-- A window of three seconds in which two calls are rejected, the first of which asks for the
longest window there is. -/
theorem retryAfter_shrinks_longestWindow :
    let s := (Limiter.fresh fresh .standard).run surroundings
      (checkUnder 1 3 0 0 ++ checkUnder 1 9223372036854775 500 2 ++ checkUnder 2 5 2000000 4)
    let opener : Counted := ⟨1, "rl:u:svc", 1, 3000, 0, 0⟩
    let earlier : Counted := ⟨3, "rl:u:svc", 1, 9223372036854775000, 500, 2999⟩
    let later : Counted := ⟨5, "rl:u:svc", 2, 5000, 2000500, 999⟩
    let l : Limit := ⟨1, 3, by decide, by decide, by decide⟩
    (s.Rejection ⟨2, 3, "svc", .rejected 3⟩ earlier 3 ∧
      s.Rejection ⟨4, 5, "svc", .rejected 1⟩ later 1 ∧
      windows (s.countsOn "rl:u:svc") = [[opener, earlier, later]]) ∧
    1 ≤ 3 ∧ 3 ≤ l.seconds ∧ l.wait? opener.time earlier.time = some 3 := by
  intro s opener earlier later l
  have hwindows : windows (s.countsOn "rl:u:svc") = [[opener, earlier, later]] := by
    have hon : s.countsOn "rl:u:svc" = [opener, earlier, later] := by decide +kernel
    rw [hon]
    simp [windows, Counted.ends, usPerMs, opener, earlier, later]
  have h : s.Rejection ⟨2, 3, "svc", .rejected 3⟩ earlier 3 :=
    ⟨by decide +kernel, rfl, by decide +kernel⟩
  have h' : s.Rejection ⟨4, 5, "svc", .rejected 1⟩ later 1 :=
    ⟨by decide +kernel, rfl, by decide +kernel⟩
  obtain ⟨-, within, shrinks, -⟩ := retryAfter_shrinks .standard
    (checkUnder 1 3 0 0 ++ checkUnder 1 9223372036854775 500 2 ++ checkUnder 2 5 2000000 4)
  have hmem : [opener, earlier, later] ∈ windows (s.countsOn "rl:u:svc") := by simp [hwindows]
  have opened : opener.windowMs = l.windowMs := by decide
  obtain ⟨-, hle, hwait⟩ := within _ earlier opener 3 "rl:u:svc" _ l h hmem (by simp) rfl opened
  exact ⟨⟨h, h', hwindows⟩, shrinks _ _ earlier later 3 1 "rl:u:svc" _ h h' hmem (by simp), hle,
    hwait (by decide)⟩

end Memory

end Turnstile
