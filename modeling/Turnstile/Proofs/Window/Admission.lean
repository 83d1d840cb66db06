import Turnstile.Proofs.Runs.Journal
import Turnstile.Proofs.Window.Refinement

/-!
# No call too many

Runs of a limiter over a store in memory, whose switches may be turned and whose windows may be
cleaned up at any time. However tasks take turns, the store agrees with the journal, and every
counted call was told its rank (`Counting`). So each window of a key lets exactly the first calls
pass, as many as the limit allows (`Memory.first_calls_admitted`).
-/

namespace Turnstile

namespace Memory

theorem store_turn (m : Memory) (switch : Switch) : (m.turn switch).store = m.store := by
  cases switch <;> rfl

/-- A request changes the store only if it is a call that gets counted. -/
theorem answer_cases (m : Memory) (now : Time) (command : Command) :
    ((m.answer now command).1 = m ∧ command.counted? (m.answer now command).2 = none) ∨
    ∃ key limit windowMs, command = .count key limit windowMs ∧
      m.answer now command = ({ m with store := (m.store.count now key limit windowMs).1 },
        .ok (m.store.count now key limit windowMs).2) := by
  cases command with
  | connect =>
    left
    unfold answer
    split <;> exact ⟨rfl, rfl⟩
  | ping =>
    left
    unfold answer
    split
    · exact ⟨rfl, rfl⟩
    · exact ⟨rfl, rfl⟩
  | count key limit windowMs =>
    by_cases hr : m.reachable = true
    · by_cases hf : m.failScripts = true
      · left
        simp [answer, hr, hf, Command.counted?]
      · have hw : m.Works := ⟨hr, by simpa using hf⟩
        exact .inr ⟨key, limit, windowMs, rfl, hw.answer_count now key limit windowMs⟩
    · left
      simp [answer, hr, Command.counted?]

end Memory

theorem Call.counted?_eq_none {call : Call} {reply : Reply}
    (h : call.command.counted? reply = none) (now : Time) (t : TaskId) :
    call.counted? now t reply = none := by
  cases hc : call.command <;> cases reply <;> simp [Call.counted?, Command.counted?, hc] at h ⊢

namespace Limiter

/-- The counted calls as a history. -/
def history {σ : Type} (s : Limiter σ) : History := s.counts.map fun c => (c.key, c.arrival)

theorem on_history {σ : Type} (s : Limiter σ) (key : String) :
    s.history.on key = (s.countsOn key).map Counted.arrival := by
  unfold history History.on countsOn
  induction s.counts with
  | nil => rfl
  | cons c rest ih => by_cases hk : c.key = key <;> simp_all

section

variable {σ : Type} {s s' : Limiter σ} {count : Counted}

theorem history_concat (counts : s'.counts = s.counts ++ [count]) :
    s'.history = s.history ++ [(count.key, count.arrival)] := by
  rw [history, counts, List.map_append]
  rfl

theorem countsOn_concat_self (counts : s'.counts = s.counts ++ [count]) :
    s'.countsOn count.key = s.countsOn count.key ++ [count] := by
  rw [countsOn, counts, List.filter_append]
  simp [countsOn]

theorem countsOn_concat_ne (counts : s'.counts = s.counts ++ [count]) {key : String}
    (hne : count.key ≠ key) : s'.countsOn key = s.countsOn key := by
  rw [countsOn, counts, List.filter_append]
  simp [countsOn, hne]

end

variable {s s' : Limiter Memory} {t : TaskId}

/-- The store agrees with the journal, and every counted call was told its rank. -/
structure Counting (s : Limiter Memory) : Prop where
  tidy : Tidy s
  agrees : s.backend.store.Agrees s.history s.clock
  told : ∀ key, Told none (s.countsOn key)

namespace Counting

theorem fresh (settings : PoolSettings) : Counting (Limiter.fresh Memory.fresh settings) where
  tidy := .fresh Memory.fresh settings
  agrees := Store.agrees_empty 0
  told _ := trivial

/-- Only the store, the clock and the counted calls matter. -/
theorem congr (h : Counting s) (tidy : Tidy s') (hstore : s'.backend.store = s.backend.store)
    (hclock : s'.clock = s.clock) (hcounts : s'.counts = s.counts) : Counting s' := by
  refine ⟨tidy, ?_, fun key => ?_⟩
  · rw [hstore, hclock, history, hcounts]
    exact h.agrees
  · rw [countsOn, hcounts]
    exact h.told key

/-- Counting a call appends it to the history, and its answer is its rank's. -/
theorem count (h : Counting s) (tidy : Tidy s') {key : String} {limit windowMs : Nat}
    (hstore : s'.backend.store = (s.backend.store.count s.clock key limit windowMs).1)
    (hclock : s'.clock = s.clock)
    (hcounts : s'.counts = s.counts ++ [⟨t, key, limit, windowMs, s.clock,
      (s.backend.store.count s.clock key limit windowMs).2⟩]) : Counting s' := by
  refine ⟨tidy, ?_, fun other => ?_⟩
  · rw [hstore, hclock, history_concat hcounts]
    exact h.agrees.count key limit windowMs
  · by_cases hk : key = other
    · subst hk
      rw [countsOn_concat_self hcounts, told_concat]
      refine ⟨h.told key, ?_⟩
      have hanswer := h.agrees.count_answer key limit windowMs
      rw [History.span?, on_history] at hanswer
      exact hanswer
    · rw [countsOn_concat_ne hcounts hk]
      exact h.told other

theorem finishCall (h : Counting s) (call : Call)
    (tidy : Tidy (s.finishCall Memory.backend t call).1) :
    Counting (s.finishCall Memory.backend t call).1 := by
  have hcounts := counts_finishCall (B := Memory.backend) (s := s) (t := t) call
  rcases s.backend.answer_cases s.clock call.command with
    ⟨hsame, hnone⟩ | ⟨key, limit, windowMs, hcommand, hanswer⟩
  · have hcounted : call.counted? s.clock t (s.finishCall Memory.backend t call).2 = none :=
      Call.counted?_eq_none hnone s.clock t
    rw [hcounted, Option.toList_none, List.append_nil] at hcounts
    exact h.congr tidy (congrArg Memory.store hsame) rfl hcounts
  · -- the call is counted: store and journal grow by the same call
    have hstore : (s.finishCall Memory.backend t call).1.backend.store =
        (s.backend.store.count s.clock key limit windowMs).1 :=
      congrArg (fun r => r.1.store) hanswer
    have hreply : (s.finishCall Memory.backend t call).2 =
        .ok (s.backend.store.count s.clock key limit windowMs).2 := congrArg Prod.snd hanswer
    have hcounted : call.counted? s.clock t
        (.ok (s.backend.store.count s.clock key limit windowMs).2) =
          some ⟨t, key, limit, windowMs, s.clock,
            (s.backend.store.count s.clock key limit windowMs).2⟩ := by
      simp [Call.counted?, hcommand]
    rw [hreply, hcounted] at hcounts
    exact h.count tidy hstore rfl hcounts

theorem act {m m' : Motion Memory} (a : Act Memory.backend t m m') (h : Counting m.state) :
    Counting m'.state := by
  have tidy := h.tidy.act a
  cases a with
  | aside a =>
    refine h.congr tidy ?_ ?_ (counts_aside a)
    · cases a <;> rfl
    · cases a <;> rfl
  | emit e own => exact h.congr tidy rfl rfl (counts_emit own)
  | @start s jobs => exact h.congr tidy (by simp) (by simp) (counts_start s jobs)
  | @free o s => exact h.congr tidy (by simp) (by simp) (counts_freePermit s)
  | finish call fits => exact h.finishCall call tidy
  | _ => exact h.congr tidy rfl rfl rfl

theorem outside (ho : Outside Memory.surroundings s s') (h : Counting s) : Counting s' := by
  have tidy := Tidy.outside ho h.tidy
  cases ho with
  | pass us => exact ⟨tidy, h.agrees.later (Nat.le_add_right ..), h.told⟩
  | tend change =>
    cases change with
    | turn switch => exact h.congr tidy (Memory.store_turn ..) rfl rfl
    | cleanup => exact ⟨tidy, h.agrees.prune, h.told⟩
  | _ => exact h.congr tidy rfl rfl rfl

theorem invariant : Invariant Memory.surroundings Counting
    fun (_ : TaskId) (m : Motion Memory) => Counting m.state where
  proper h hs := h.tidy.proper _ _ hs
  takeUp _ h := h
  layDown h := h
  act := act
  setStage proper h := h.congr (h.tidy.setStage proper) rfl rfl rfl
  settle hget _ h := h.congr (h.tidy.settle hget _) rfl rfl rfl
  outside := outside
  unkeep _ _ h := h.congr (h.tidy.unkeep _) rfl rfl rfl

end Counting

end Limiter

namespace Limiter.Counting

/-- What the store has counted in the open window of a key are the calls in the last window. -/
theorem counter_eq_length {s : Limiter Memory} (h : Counting s) {key : String} {n : Nat}
    (hn : s.backend.store.counter? s.clock key = some n) :
    ∃ window, (windows (s.countsOn key)).getLast? = some window ∧ window.length = n := by
  rw [h.agrees.counter? key] at hn
  obtain ⟨span, hspan, rfl⟩ := Option.map_eq_some_iff.mp hn
  have hlast : Span.after none ((s.countsOn key).map Counted.arrival) = some span := by
    rw [← on_history]
    exact (Option.filter_eq_some_iff.mp hspan).1
  rcases rank_after (fun _ hw => by cases hw) hlast with ⟨hnone, -⟩ | hwindow
  · cases hnone
  · exact hwindow

end Limiter.Counting

namespace Memory

/-- After every run, if all calls that the store has counted on a key were under one limit, then of
the calls in each window the first ones passed, as many as the limit allows, and all later ones were
blocked. Every counted call is in one of the windows, the last of which is the one that the store
keeps; and every task has brought back the verdicts on the calls counted for it. -/
theorem first_calls_admitted (settings : PoolSettings) (moves : List (Move MemoryChange))
    (key : String) (times : Nat)
    (same : ∀ c ∈ ((Limiter.fresh fresh settings).run surroundings moves).countsOn key,
      c.limit = times) :
    let s := (Limiter.fresh fresh settings).run surroundings moves
    (∀ window ∈ windows (s.countsOn key), Rationed times window) ∧
      (windows (s.countsOn key)).flatten = s.countsOn key ∧
      (∀ n, s.backend.store.counter? s.clock key = some n →
        ∃ window, (windows (s.countsOn key)).getLast? = some window ∧ window.length = n) ∧
      ∀ t, s.verdicts t = (s.countsOf t).map Counted.verdict := by
  intro s
  have counting : Limiter.Counting s := Limiter.Counting.invariant.run (.fresh settings) moves
  refine ⟨?_, flatten_windows _, fun n hn => counting.counter_eq_length hn, ?_⟩
  · exact (counting.told key).rationed (fun _ hspan => by cases hspan) same
  · exact Limiter.verdicts_eq_counts surroundings fresh settings moves

/-- Three calls on one key with room for one. Two connections are opened, and the call that started
first is counted second; the third waits for a permit and is counted when the window is over. -/
def threeCalls : List (Move MemoryChange) :=
  let call : Job := .evaluate ⟨"k", 1, 1000⟩
  [.start [call], .start [call], .start [call], .tend (.turn (.latency 2000)), .step 0, .step 1,
    .step 2, .step 0, .step 1, .pass 2000, .step 1, .step 0, .pass 1000000, .step 2, .tend .cleanup,
    .pass 2000, .step 2]

theorem first_calls_admitted_threeCalls :
    let s := (Limiter.fresh fresh ⟨2, 5000, 1000, true, true, 30000⟩).run surroundings threeCalls
    (∀ c ∈ s.countsOn "k", c.limit = 1) ∧
      (windows (s.countsOn "k")).map (fun window => window.map fun c => (c.task, c.verdict)) =
        [[(1, .admitted), (0, .blocked 1000)], [(2, .admitted)]] ∧
      (∀ window ∈ windows (s.countsOn "k"), Rationed 1 window) ∧
      s.verdicts 0 = [.blocked 1000] := by
  intro s
  have hcounts : s.countsOn "k" = [⟨1, "k", 1, 1000, 2000, 0⟩, ⟨0, "k", 1, 1000, 2000, 1000⟩,
      ⟨2, "k", 1, 1000, 1004000, 0⟩] := by decide +kernel
  have hof : s.countsOf 0 = [⟨0, "k", 1, 1000, 2000, 1000⟩] := by decide +kernel
  have same : ∀ c ∈ s.countsOn "k", c.limit = 1 := by simp [hcounts]
  obtain ⟨rationed, -, -, returned⟩ := first_calls_admitted _ threeCalls "k" 1 same
  refine ⟨same, ?_, rationed, ?_⟩
  · rw [hcounts]
    cbv
  · rw [returned 0, hof]
    rfl

end Memory

end Turnstile
