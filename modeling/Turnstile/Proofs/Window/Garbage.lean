import Turnstile.Proofs.Window.Refinement

/-!
# What a store in memory keeps too long

Windows that are over stay in the store until a sweep takes them out. A call that is counted sweeps
if the last sweep was a minute ago, whatever its key is, so when a call has been counted no window
has been over for a minute (`Memory.garbage_bounded`). The invariant behind it ties every window to
the last sweep: it ends after it (`Store.Kempt`).
-/

namespace Turnstile

namespace StoreCall

/-- Whether a window that the call opens lasts. -/
def Lasting : StoreCall → Prop
  | .count _ _ windowMs => 0 < windowMs
  | .counter _ | .cleanup => True

instance : DecidablePred Lasting
  | .count _ _ windowMs => inferInstanceAs (Decidable (0 < windowMs))
  | .counter _ | .cleanup => .isTrue trivial

end StoreCall

theorem Window.lt_expiresAt_bump (w : Option Window) (now : Time) {windowMs : Nat}
    (lasting : 0 < windowMs) : now < (Window.bump w now windowMs).expiresAt := by
  have opened : now < now + windowMs * usPerMs :=
    Nat.lt_add_of_pos_right (Nat.mul_pos lasting (by decide))
  cases w with
  | none => exact opened
  | some w =>
    by_cases live : w.isLive now = true
    · rw [Window.bump, if_pos live]
      exact of_decide_eq_true live
    · rw [Window.bump, if_neg live]
      exact opened

namespace Store

variable {s : Store} {now : Time}

/-! ## One sweep and one call -/

/-- What is kept in a store that was last used at that time or before: before the first sweep
nothing, and then windows that end after the last sweep. -/
structure Kempt (s : Store) (now : Time) : Prop where
  unswept : s.lastPruned = none → s.windows = []
  ends : ∀ last, s.lastPruned = some last → ∀ e ∈ s.windows, last < e.2.expiresAt
  past : ∀ last, s.lastPruned = some last → last ≤ now

theorem kempt_empty (now : Time) : empty.Kempt now := ⟨fun _ => rfl, nofun, nofun⟩

theorem kempt_prune (s : Store) (now : Time) : (s.prune now).Kempt now where
  unswept := nofun
  ends := by
    rintro last ⟨⟩ e he
    exact (mem_windows_prune.mp he).2
  past := by
    rintro last ⟨⟩
    exact Nat.le_refl now

theorem Kempt.later {later : Time} (h : s.Kempt now) (le : now ≤ later) : s.Kempt later :=
  ⟨h.unswept, h.ends, fun last hlast => Nat.le_trans (h.past last hlast) le⟩

theorem Kempt.pruneIfDue (h : s.Kempt now) : (s.pruneIfDue now).Kempt now := by
  unfold Store.pruneIfDue
  split
  · exact kempt_prune s now
  · exact h

theorem isPruneDue_iff : s.isPruneDue now = true ↔
    ∀ last, s.lastPruned = some last → last + pruneEvery ≤ now := by
  have shift (last : Nat) : pruneEvery ≤ now - last ↔ last + pruneEvery ≤ now := by
    simp only [pruneEvery, usPerSecond]
    omega
  unfold isPruneDue
  split
  · rename_i never
    simp [never]
  · rename_i last hlast
    simp [hlast, shift]

/-- Once a call has had its sweep the last one was less than a minute ago. -/
theorem Kempt.recent (h : s.Kempt now) : ∃ last, (s.pruneIfDue now).lastPruned = some last ∧
    last ≤ now ∧ now < last + pruneEvery := by
  unfold Store.pruneIfDue
  by_cases due : s.isPruneDue now = true
  · rw [if_pos due]
    exact ⟨now, rfl, Nat.le_refl now, Nat.lt_add_of_pos_right (by decide)⟩
  · rw [if_neg due]
    obtain ⟨last, hlast⟩ := Classical.not_forall.mp (mt isPruneDue_iff.mpr due)
    obtain ⟨swept, soon⟩ := Classical.not_imp.mp hlast
    exact ⟨last, swept, h.past last swept, Nat.lt_of_not_le soon⟩

/-- The window of the call ends later than now, and so after the last sweep like all others. -/
theorem Kempt.count (h : s.Kempt now) (key : String) (limit : Nat) {windowMs : Nat}
    (lasting : 0 < windowMs) : (s.count now key limit windowMs).1.Kempt now := by
  have swept := h.pruneIfDue
  refine ⟨fun never => ?_, fun last hlast e he => ?_, swept.past⟩
  · obtain ⟨last, hlast, -⟩ := h.recent
    cases hlast.symm.trans never
  · rcases Table.mem_of_mem_put he with rfl | he
    · exact Nat.lt_of_le_of_lt (swept.past last hlast) (Window.lt_expiresAt_bump _ now lasting)
    · exact swept.ends last hlast e he

/-- What a cleanup removes are the windows that are over. -/
theorem removed_cleanup (s : Store) (now : Time) :
    (s.cleanup now).2 = s.windows.countP fun e => e.2.expiresAt ≤ now := by
  have ended : (fun e : String × Window => decide (e.2.expiresAt ≤ now)) =
      fun e => !e.2.isLive now := by
    funext e
    rw [Window.isLive, ← decide_not, decide_eq_decide, Nat.not_lt]
  have parts : s.windows.length = (s.windows.countP fun e => e.2.isLive now) +
      s.windows.countP fun e => !e.2.isLive now := by
    simpa using List.length_eq_countP_add_countP (fun e : String × Window => e.2.isLive now)
  rw [ended, cleanup, prune, ← List.countP_eq_length_filter, parts, Nat.add_sub_cancel_left]

/-- What a call that is made at that time leaves in the store. -/
structure Tended (s : Store) (now : Time) (c : StoreCall) (s' : Store) : Prop where
  /-- Every window ends after the last sweep, which is past. -/
  kempt : s'.Kempt now
  /-- When a call has been counted the last sweep was less than a minute ago, and no window has been
  over for a minute. -/
  recent : ∀ key limit windowMs, c = .count key limit windowMs →
    (∃ last, s'.lastPruned = some last ∧ last ≤ now ∧ now < last + pruneEvery) ∧
      ∀ e ∈ s'.windows, now < e.2.expiresAt + pruneEvery
  /-- A sweep leaves a live window as it is, and no call removes one or moves its end. -/
  live : ∀ e ∈ s.windows, now < e.2.expiresAt → e ∈ (s.prune now).windows ∧
    ∃ w, Table.get? s'.windows e.1 = some w ∧ w.expiresAt = e.2.expiresAt
  /-- A cleanup leaves the live windows and tells how many were over. -/
  cleaned : c = .cleanup → s' = (s.cleanup now).1 ∧ (∀ e ∈ s'.windows, now < e.2.expiresAt) ∧
    (s.cleanup now).2 = s.windows.countP fun e => e.2.expiresAt ≤ now

end Store

/-! ## Calls one after another -/

namespace Memory

variable {m : Memory} {calls : List (Time × StoreCall)}

/-- Whether the call sweeps before it is counted. -/
def sweepsFor (m : Memory) (now : Time) : StoreCall → Bool
  | .count .. => m.store.isPruneDue now
  | .counter _ | .cleanup => false

/-- The times of the calls that sweep before they are counted. -/
def lazySweeps (m : Memory) : List (Time × StoreCall) → List Time
  | [] => []
  | (now, c) :: rest =>
    (if m.sweepsFor now c then [now] else []) ++ lazySweeps (m.serve now c).1 rest

theorem Works.store_serve_count (works : m.Works) (now : Time) (key : String)
    (limit windowMs : Nat) : (m.serve now (.count key limit windowMs)).1.store =
      (m.store.count now key limit windowMs).1 := by
  rw [Memory.serve, works.answer_count]

theorem Works.kempt_serve (works : m.Works) {now : Time} (kempt : m.store.Kempt now)
    {c : StoreCall} (lasting : c.Lasting) : (m.serve now c).1.store.Kempt now := by
  cases c with
  | count key limit windowMs =>
    rw [works.store_serve_count]
    exact kempt.count key limit lasting
  | counter key => exact kempt
  | cleanup => exact Store.kempt_prune m.store now

theorem Works.tended_serve (works : m.Works) (distinct : (Table.keys m.store.windows).Nodup)
    {now : Time} (kempt : m.store.Kempt now) {c : StoreCall} (lasting : c.Lasting) :
    Store.Tended m.store now c (m.serve now c).1.store where
  kempt := works.kempt_serve kempt lasting
  recent := by
    rintro key limit windowMs rfl
    have after := works.kempt_serve kempt lasting
    rw [works.store_serve_count] at after ⊢
    obtain ⟨last, swept, past, soon⟩ := kempt.recent
    refine ⟨⟨last, swept, past, soon⟩, fun e he => ?_⟩
    -- less than a minute since the sweep, which was before the end of the window
    have ends : last < e.2.expiresAt := after.ends last swept e he
    exact Nat.lt_trans soon (Nat.add_lt_add_right ends _)
  live e he alive :=
    ⟨Store.mem_windows_prune.mpr ⟨he, alive⟩,
      expiresAt_serve distinct (Table.get?_of_mem distinct he) alive c⟩
  cleaned := by
    rintro rfl
    exact ⟨rfl, fun e he => (Store.mem_windows_prune.mp he).2, m.store.removed_cleanup now⟩

/-- Whatever is kept after calls ends after the last sweep. -/
theorem Works.kempt_after (works : m.Works) {start now : Time} (kempt : m.store.Kempt start)
    (ordered : (calls.map (·.1)).Pairwise (· ≤ ·)) (lasting : ∀ c ∈ calls, c.2.Lasting)
    (notBefore : ∀ c ∈ calls, start ≤ c.1) (past : ∀ c ∈ calls, c.1 ≤ now) (le : start ≤ now) :
    (m.after calls).store.Kempt now := by
  induction calls generalizing m start with
  | nil => exact kempt.later le
  | cons call rest ih =>
    obtain ⟨time, c⟩ := call
    obtain ⟨hlasting, lasting⟩ := List.forall_mem_cons.mp lasting
    obtain ⟨htime, -⟩ := List.forall_mem_cons.mp notBefore
    obtain ⟨hpast, past⟩ := List.forall_mem_cons.mp past
    rw [List.map_cons, List.pairwise_cons] at ordered
    exact ih (works.serve time c) (works.kempt_serve (kempt.later htime) hlasting) ordered.2 lasting
      (fun d hd => ordered.1 d.1 (List.mem_map_of_mem hd)) past hpast

/-- A call that does not sweep leaves the time of the last sweep or makes it later. -/
theorem Works.lastPruned_serve (works : m.Works) {now last : Time} (kempt : m.store.Kempt now)
    (swept : m.store.lastPruned = some last) (c : StoreCall) :
    ∃ last', (m.serve now c).1.store.lastPruned = some last' ∧ last ≤ last' := by
  have past := kempt.past last swept
  cases c with
  | count key limit windowMs =>
    rw [works.store_serve_count, Store.count, Store.pruneIfDue]
    by_cases due : m.store.isPruneDue now = true
    · rw [if_pos due]
      exact ⟨now, rfl, past⟩
    · rw [if_neg due]
      exact ⟨last, swept, Nat.le_refl last⟩
  | counter key => exact ⟨last, swept, Nat.le_refl last⟩
  | cleanup => exact ⟨now, rfl, past⟩

/-- A call that sweeps is at least a minute after the last sweep. -/
theorem Works.lazySweeps_later (works : m.Works) {start last : Time} (kempt : m.store.Kempt start)
    (swept : m.store.lastPruned = some last) (ordered : (calls.map (·.1)).Pairwise (· ≤ ·))
    (lasting : ∀ c ∈ calls, c.2.Lasting) (notBefore : ∀ c ∈ calls, start ≤ c.1) :
    ∀ t ∈ m.lazySweeps calls, last + Store.pruneEvery ≤ t := by
  induction calls generalizing m start last with
  | nil => nofun
  | cons call rest ih =>
    obtain ⟨now, c⟩ := call
    obtain ⟨hlasting, lasting⟩ := List.forall_mem_cons.mp lasting
    obtain ⟨hnow, -⟩ := List.forall_mem_cons.mp notBefore
    rw [List.map_cons, List.pairwise_cons] at ordered
    have kempt := kempt.later hnow
    refine List.forall_mem_append.mpr ⟨fun t ht => ?_, fun t ht => ?_⟩
    · split at ht
      · rename_i sweeps
        obtain rfl := List.mem_singleton.mp ht
        cases c with
        | count key limit windowMs => exact Store.isPruneDue_iff.mp sweeps last swept
        | counter key => cases sweeps
        | cleanup => cases sweeps
      · cases ht
    · obtain ⟨last', swept', le⟩ := works.lastPruned_serve kempt swept c
      exact Nat.le_trans (Nat.add_le_add_right le _)
        (ih (works.serve now c) (works.kempt_serve kempt hlasting) swept' ordered.2 lasting
          (fun d hd => ordered.1 d.1 (List.mem_map_of_mem hd)) t ht)

theorem Works.pairwise_lazySweeps (works : m.Works) {start : Time} (kempt : m.store.Kempt start)
    (ordered : (calls.map (·.1)).Pairwise (· ≤ ·)) (lasting : ∀ c ∈ calls, c.2.Lasting)
    (notBefore : ∀ c ∈ calls, start ≤ c.1) :
    (m.lazySweeps calls).Pairwise fun t t' => t + Store.pruneEvery ≤ t' := by
  induction calls generalizing m start with
  | nil => exact .nil
  | cons call rest ih =>
    obtain ⟨now, c⟩ := call
    obtain ⟨hlasting, lasting⟩ := List.forall_mem_cons.mp lasting
    obtain ⟨hnow, -⟩ := List.forall_mem_cons.mp notBefore
    rw [List.map_cons, List.pairwise_cons] at ordered
    have kempt' := works.kempt_serve (kempt.later hnow) hlasting
    have later : ∀ d ∈ rest, now ≤ d.1 := fun d hd => ordered.1 d.1 (List.mem_map_of_mem hd)
    have hrest := ih (works.serve now c) kempt' ordered.2 lasting later
    by_cases sweeps : m.sweepsFor now c = true
    · -- the sweep is the last one for the calls that follow
      have swept : (m.serve now c).1.store.lastPruned = some now := by
        cases c with
        | count key limit windowMs =>
          rw [works.store_serve_count, Store.count, Store.pruneIfDue,
            if_pos (show m.store.isPruneDue now = true from sweeps)]
          rfl
        | counter key => cases sweeps
        | cleanup => cases sweeps
      rw [lazySweeps, if_pos sweeps]
      exact hrest.cons
        ((works.serve now c).lazySweeps_later kempt' swept ordered.2 lasting later)
    · rw [lazySweeps, if_neg sweeps]
      exact hrest

/-- Calls are made on a store in memory that works and is empty at first, at times that do not go
back, and every window that they open lasts for a while. After each of them every window that is
kept ends after the last sweep. When a call has been counted the last sweep was less than a minute
ago, so no window has been over for a minute; a live window is never removed; a cleanup leaves the
live windows and tells how many others there were. And from one sweep for a call to the next it is
at least a minute. -/
theorem garbage_bounded (m : Memory) (works : m.Works) (new : m.store = .empty)
    (calls : List (Time × StoreCall)) (ordered : (calls.map (·.1)).Pairwise (· ≤ ·))
    (lasting : ∀ c ∈ calls, c.2.Lasting) :
    (∀ before now c after, calls = before ++ (now, c) :: after →
      Store.Tended (m.after before).store now c (m.after (before ++ [(now, c)])).store) ∧
    (m.lazySweeps calls).Pairwise fun t t' => t + Store.pruneEvery ≤ t' := by
  have kempt : m.store.Kempt 0 := new ▸ Store.kempt_empty 0
  refine ⟨?_, works.pairwise_lazySweeps kempt ordered lasting fun c _ => Nat.zero_le c.1⟩
  rintro before now c after rfl
  rw [List.map_append, List.pairwise_append, List.map_cons] at ordered
  obtain ⟨ordered, -, past⟩ := ordered
  obtain ⟨lasting, later⟩ := List.forall_mem_append.mp lasting
  have kempt' : (m.after before).store.Kempt now :=
    works.kempt_after kempt ordered lasting (fun d _ => Nat.zero_le d.1)
      (fun d hd => past d.1 (List.mem_map_of_mem hd) now List.mem_cons_self) (Nat.zero_le now)
  have distinct : (Table.keys m.store.windows).Nodup := new ▸ List.nodup_nil
  rw [show m.after (before ++ [(now, c)]) = ((m.after before).serve now c).1 from
    List.foldl_append]
  exact (works.after before).tended_serve (nodup_keys_after distinct before) kempt'
    (List.forall_mem_cons.mp later).1

/-- Two short windows and a long one. The first call on `c` comes just too early to sweep, the
second one sweeps; a cleanup in between counts as a sweep, so the call that follows it does not. -/
def callsOverMinutes : List (Time × StoreCall) :=
  [(0, .count "a" 1 1000), (500000, .count "b" 1 90000), (59999999, .count "c" 1 1000),
    (60000000, .count "c" 1 1000), (70000000, .cleanup), (125000000, .count "a" 1 1000),
    (131000000, .count "b" 1 1)]

theorem garbage_bounded_callsOverMinutes :
    (fresh.Works ∧ fresh.store = .empty ∧ (callsOverMinutes.map (·.1)).Pairwise (· ≤ ·) ∧
      ∀ c ∈ callsOverMinutes, c.2.Lasting) ∧
    fresh.lazySweeps callsOverMinutes = [0, 60000000, 131000000] ∧
    (fresh.lazySweeps callsOverMinutes).Pairwise (fun t t' => t + Store.pruneEvery ≤ t') ∧
    (fresh.after (callsOverMinutes.take 3)).store.size = 3 ∧
    (∀ e ∈ (fresh.after (callsOverMinutes.take 3)).store.windows,
      59999999 < e.2.expiresAt + Store.pruneEvery) ∧
    ((fresh.after (callsOverMinutes.take 4)).store.cleanup 70000000).2 = 1 := by
  have ordered : (callsOverMinutes.map (·.1)).Pairwise (· ≤ ·) := by decide
  have lasting : ∀ c ∈ callsOverMinutes, c.2.Lasting := by decide
  obtain ⟨tended, apart⟩ :=
    garbage_bounded fresh ⟨rfl, rfl⟩ rfl callsOverMinutes ordered lasting
  have early := tended (callsOverMinutes.take 2) 59999999 (.count "c" 1 1000)
    (callsOverMinutes.drop 3) rfl
  have cleanup := tended (callsOverMinutes.take 4) 70000000 .cleanup (callsOverMinutes.drop 5) rfl
  refine ⟨⟨⟨rfl, rfl⟩, rfl, ordered, lasting⟩, by decide +kernel, apart, by decide +kernel,
    (early.recent _ _ _ rfl).2, (cleanup.cleaned rfl).2.2.trans (by decide +kernel)⟩

end Memory

end Turnstile
