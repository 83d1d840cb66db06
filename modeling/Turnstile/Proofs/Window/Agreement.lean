import Turnstile.Proofs.Table
import Turnstile.Proofs.Window.FixedWindow

/-!
# A store and the history behind it

A store agrees with a history if, for every key, the window that the store keeps is the last one of
the history, as long as that one is open. What the store keeps of windows that are over does not
matter, so sweeping changes nothing. Counting a call keeps the agreement and is answered by the rank
of the call.
-/

namespace Turnstile

/-- The window as a store keeps it. -/
def Span.window (w : Span) : Window := ⟨w.rank, w.ends⟩

namespace Store

/-- For every key the store and the history have the same open window, or neither has one. -/
structure Agrees (s : Store) (h : History) (now : Time) : Prop where
  nodup : (Table.keys s.windows).Nodup
  same : ∀ key, (Table.get? s.windows key).filter (fun w => w.isLive now) =
    ((h.span? key).filter fun w => w.isOpen now).map Span.window

theorem agrees_empty (now : Time) : empty.Agrees [] now :=
  ⟨List.nodup_nil, fun _ => rfl⟩

/-- What is open later is open now. -/
theorem filter_isLive_later (w : Option Window) {now later : Time} (h : now ≤ later) :
    (w.filter fun w => w.isLive now).filter (fun w => w.isLive later) =
      w.filter fun w => w.isLive later := by
  cases w with
  | none => rfl
  | some w =>
    by_cases hl : later < w.expiresAt
    · have hn : now < w.expiresAt := Nat.lt_of_le_of_lt h hl
      simp [Option.filter, Window.isLive, hl, hn]
    · by_cases hn : now < w.expiresAt <;> simp [Option.filter, Window.isLive, hl, hn]

theorem filter_isOpen_later (w : Option Span) {now later : Time} (h : now ≤ later) :
    (w.filter fun w => w.isOpen now).filter (fun w => w.isOpen later) =
      w.filter fun w => w.isOpen later := by
  cases w with
  | none => rfl
  | some w =>
    by_cases hl : later < w.ends
    · have hn : now < w.ends := Nat.lt_of_le_of_lt h hl
      simp [Option.filter, Span.isOpen, hl, hn]
    · by_cases hn : now < w.ends <;> simp [Option.filter, Span.isOpen, hl, hn]

/-- A span is open as long as its window is live. -/
theorem map_window_filter (w : Option Span) (now : Time) :
    (w.map Span.window).filter (fun w => w.isLive now) =
      (w.filter fun w => w.isOpen now).map Span.window := by
  cases w with
  | none => rfl
  | some w => by_cases h : now < w.ends <;>
      simp [Option.filter, Window.isLive, Span.isOpen, Span.window, h]

theorem Agrees.later {s : Store} {h : History} {now later : Time} (ha : s.Agrees h now)
    (hle : now ≤ later) : s.Agrees h later := by
  refine ⟨ha.nodup, fun key => ?_⟩
  rw [← filter_isLive_later _ hle, ha.same key, map_window_filter, filter_isOpen_later _ hle]

theorem get?_prune {s : Store} (hn : (Table.keys s.windows).Nodup) (now : Time) (key : String) :
    Table.get? (s.prune now).windows key =
      (Table.get? s.windows key).filter fun w => w.isLive now :=
  Table.get?_filter hn _ key

theorem Agrees.prune {s : Store} {h : History} {now : Time} (ha : s.Agrees h now) :
    (s.prune now).Agrees h now := by
  refine ⟨Table.nodup_keys_filter ha.nodup _, fun key => ?_⟩
  rw [get?_prune ha.nodup, filter_isLive_later _ (Nat.le_refl now), ha.same key]

theorem Agrees.pruneIfDue {s : Store} {h : History} {now : Time} (ha : s.Agrees h now) :
    (s.pruneIfDue now).Agrees h now := by
  unfold Store.pruneIfDue
  split
  · exact ha.prune
  · exact ha

/-! ## What is kept -/

theorem nodup_keys_pruneIfDue {s : Store} (hn : (Table.keys s.windows).Nodup) (now : Time) :
    (Table.keys (s.pruneIfDue now).windows).Nodup := by
  unfold Store.pruneIfDue
  split
  · exact Table.nodup_keys_filter hn _
  · exact hn

theorem nodup_keys_count {s : Store} (hn : (Table.keys s.windows).Nodup) (now : Time)
    (key : String) (limit windowMs : Nat) :
    (Table.keys (s.count now key limit windowMs).1.windows).Nodup :=
  Table.nodup_keys_put (nodup_keys_pruneIfDue hn now)

theorem get?_prune_of_live {s : Store} (hn : (Table.keys s.windows).Nodup) {now : Time}
    {key : String} {w : Window} (hw : Table.get? s.windows key = some w)
    (hlive : now < w.expiresAt) : Table.get? (s.prune now).windows key = some w := by
  rw [get?_prune hn, hw]
  simp [Option.filter, Window.isLive, hlive]

theorem get?_pruneIfDue_of_live {s : Store} (hn : (Table.keys s.windows).Nodup) {now : Time}
    {key : String} {w : Window} (hw : Table.get? s.windows key = some w)
    (hlive : now < w.expiresAt) : Table.get? (s.pruneIfDue now).windows key = some w := by
  unfold Store.pruneIfDue
  split
  · exact get?_prune_of_live hn hw hlive
  · exact hw

/-- Counting a call, on whatever key, leaves the end of a live window where it is. -/
theorem expiresAt_count {s : Store} (hn : (Table.keys s.windows).Nodup) {now : Time}
    {key : String} {w : Window} (hw : Table.get? s.windows key = some w)
    (hlive : now < w.expiresAt) (other : String) (limit windowMs : Nat) :
    ∃ w', Table.get? (s.count now other limit windowMs).1.windows key = some w' ∧
      w'.expiresAt = w.expiresAt := by
  have hkept := get?_pruneIfDue_of_live hn hw hlive
  by_cases hk : key = other
  · subst hk
    have hopen : w.isLive now = true := decide_eq_true hlive
    refine ⟨⟨w.count + 1, w.expiresAt⟩, ?_, rfl⟩
    rw [get?_count, hkept, Window.bump, if_pos hopen]
  · exact ⟨w, (Table.get?_put_ne _ _ hk).trans hkept, rfl⟩

/-! ## Counting -/

/-- A window that is over counts as none. -/
theorem bump_eq_filter (w : Option Window) (now : Time) (windowMs : Nat) :
    Window.bump w now windowMs = Window.bump (w.filter fun w => w.isLive now) now windowMs := by
  cases w with
  | none => rfl
  | some w => by_cases h : now < w.expiresAt <;>
      simp [Window.bump, Option.filter, Window.isLive, h]

/-- Bumping a kept window is what the next call does to the span. -/
theorem bump_window (w : Option Span) (a : Arrival) :
    Window.bump ((w.filter fun w => w.isOpen a.time).map Span.window) a.time a.windowMs =
      (Span.next w a).window := by
  cases w with
  | none => rfl
  | some w =>
    by_cases h : a.time < w.ends
    · have hopen : (some w).filter (fun w => w.isOpen a.time) = some w := by
        simp [Option.filter, Span.isOpen, h]
      have hlive : w.window.isLive a.time = true := decide_eq_true h
      rw [hopen, Span.next_of_open h, Option.map_some, Window.bump, if_pos hlive]
      rfl
    · have hover : (some w).filter (fun w => w.isOpen a.time) = none := by
        simp [Option.filter, Span.isOpen, h]
      rw [hover, Span.next_of_over (Nat.le_of_not_lt h)]
      rfl

theorem answer_window (w : Span) (now : Time) (limit : Nat) :
    w.window.answer now limit = w.answer now limit := by
  by_cases h : w.rank ≤ limit
  · simp [Window.answer, Span.answer, Span.window, h, Nat.not_lt.mpr h]
  · simp [Window.answer, Span.answer, Span.window, Window.remainingMs, h, Nat.lt_of_not_le h]

/-- The window of the key after a call is counted. -/
theorem Agrees.bump {s : Store} {h : History} {now : Time} (ha : s.Agrees h now) (key : String)
    (windowMs : Nat) :
    Window.bump (Table.get? (s.pruneIfDue now).windows key) now windowMs =
      (Span.next (h.span? key) ⟨now, windowMs⟩).window := by
  rw [bump_eq_filter, ha.pruneIfDue.same key]
  exact bump_window (h.span? key) ⟨now, windowMs⟩

/-- A call is answered by its rank in the window that it comes in. -/
theorem Agrees.count_answer {s : Store} {h : History} {now : Time} (ha : s.Agrees h now)
    (key : String) (limit windowMs : Nat) :
    (s.count now key limit windowMs).2 =
      (Span.next (h.span? key) ⟨now, windowMs⟩).answer now limit := by
  rw [← answer_window, ← ha.bump key windowMs]
  rfl

theorem Agrees.count {s : Store} {h : History} {now : Time} (ha : s.Agrees h now) (key : String)
    (limit windowMs : Nat) :
    (s.count now key limit windowMs).1.Agrees (h ++ [(key, ⟨now, windowMs⟩)]) now := by
  refine ⟨Table.nodup_keys_put ha.pruneIfDue.nodup, fun other => ?_⟩
  -- the window of the key is bumped; the others are only swept, if at all
  by_cases hk : other = key
  · subst hk
    rw [get?_count, ha.bump other windowMs, History.span?_concat_self]
    exact map_window_filter (some _) now
  · have hget : Table.get? (s.count now key limit windowMs).1.windows other =
        Table.get? (s.pruneIfDue now).windows other := Table.get?_put_ne _ _ hk
    rw [hget, History.span?_concat_ne h _ hk]
    exact ha.pruneIfDue.same other

/-- The counter of a key is the rank that its last call got, while the window is open. -/
theorem Agrees.counter? {s : Store} {h : History} {now : Time} (ha : s.Agrees h now)
    (key : String) :
    s.counter? now key = ((h.span? key).filter fun w => w.isOpen now).map (·.rank) := by
  rw [Store.counter?, ha.same key, Option.map_map]
  rfl

end Store

end Turnstile
