import Turnstile.Memory
import Turnstile.Proofs.Window.Agreement

/-!
# The store in memory is a fixed-window counter

A sequence of calls is made on a store in memory that works: calls are counted, counters are read,
and windows that are over are cleaned up. The reference answers each of them from the calls counted
on its key before. `Memory.answers_eq_reference` says that the two answer alike.
-/

namespace Turnstile

/-- Something that is asked of a store. -/
inductive StoreCall where
  | count (key : String) (limit windowMs : Nat)
  | counter (key : String)
  | cleanup
deriving DecidableEq, Repr

namespace StoreCall

/-- Whether the answer is about that key. -/
def concerns (key : String) : StoreCall → Bool
  | .count k _ _ => k = key
  | .counter k => k = key
  | .cleanup => false

end StoreCall

/-- What a store tells about a key. How many windows a cleanup removes is told about no key: it
depends on when the store last swept. -/
inductive StoreAnswer where
  | counted (reply : Reply)
  | counter (n : Option Nat)

namespace Reference

/-- The answer to a call, from what was counted before. -/
def answer (past : History) (now : Time) : StoreCall → Option StoreAnswer
  | .count key limit windowMs =>
    some (.counted (.ok ((Span.next (past.span? key) ⟨now, windowMs⟩).answer now limit)))
  | .counter key =>
    some (.counter (((past.span? key).filter fun w => w.isOpen now).map (·.rank)))
  | .cleanup => none

/-- What has been counted after a call. -/
def extend (past : History) (now : Time) : StoreCall → History
  | .count key _ windowMs => past ++ [(key, ⟨now, windowMs⟩)]
  | .counter _ | .cleanup => past

/-- The answers to calls, each made at its time, after what was counted before. -/
def answers (past : History) : List (Time × StoreCall) → List (Option StoreAnswer)
  | [] => []
  | (now, c) :: rest => answer past now c :: answers (extend past now c) rest

/-- An answer is told from the calls on its key alone. -/
theorem answer_congr {past other : History} {key : String} {c : StoreCall} (now : Time)
    (hc : c.concerns key = true) (h : past.on key = other.on key) :
    answer past now c = answer other now c := by
  cases c with
  | count k limit windowMs =>
    obtain rfl : k = key := of_decide_eq_true hc
    simp [answer, History.span?, h]
  | counter k =>
    obtain rfl : k = key := of_decide_eq_true hc
    simp [answer, History.span?, h]
  | cleanup => cases hc

theorem on_extend_of_not_concerns {past : History} {key : String} {c : StoreCall} (now : Time)
    (hc : c.concerns key = false) : (extend past now c).on key = past.on key := by
  cases c with
  | count k limit windowMs =>
    exact History.on_concat_ne past _ (Ne.symm (of_decide_eq_false hc))
  | counter k => rfl
  | cleanup => rfl

theorem on_extend_congr {past other : History} {key : String} {c : StoreCall} (now : Time)
    (h : past.on key = other.on key) :
    (extend past now c).on key = (extend other now c).on key := by
  cases c with
  | count k limit windowMs =>
    by_cases hk : k = key
    · subst hk
      simp only [extend, History.on_concat_self, h]
    · simp only [extend, History.on_concat_ne _ _ (Ne.symm hk), h]
  | counter k => exact h
  | cleanup => exact h

/-- Of the answers, those about a key are the ones that the calls about the key would get if there
were no others. -/
theorem answers_filter {past other : History} (key : String) (calls : List (Time × StoreCall))
    (h : past.on key = other.on key) :
    ((calls.zip (answers past calls)).filter fun e => e.1.2.concerns key).map (·.2) =
      answers other (calls.filter fun c => c.2.concerns key) := by
  induction calls generalizing past other with
  | nil => rfl
  | cons call rest ih =>
    obtain ⟨now, c⟩ := call
    cases hc : c.concerns key with
    | false =>
      -- a call on another key is left out and changes nothing that this key can tell
      have hext : (extend past now c).on key = other.on key :=
        (on_extend_of_not_concerns now hc).trans h
      simpa [answers, hc] using ih hext
    | true =>
      have hans : answer past now c = answer other now c := answer_congr now hc h
      simpa [answers, hc, hans] using ih (on_extend_congr now h)

end Reference

namespace Memory

/-- Carries out a call. -/
def serve (m : Memory) (now : Time) : StoreCall → Memory × Option StoreAnswer
  | .count key limit windowMs =>
    let (m, reply) := m.answer now (.count key limit windowMs)
    (m, some (.counted reply))
  | .counter key => (m, some (.counter (m.store.counter? now key)))
  | .cleanup => ({ m with store := (m.store.cleanup now).1 }, none)

/-- The store after calls, each made at its time. -/
def after (m : Memory) (calls : List (Time × StoreCall)) : Memory :=
  calls.foldl (fun m c => (m.serve c.1 c.2).1) m

/-- The answers to calls, each made at its time. -/
def answers (m : Memory) : List (Time × StoreCall) → List (Option StoreAnswer)
  | [] => []
  | (now, c) :: rest => (m.serve now c).2 :: answers (m.serve now c).1 rest

/-- The answers to those calls that are about a key. -/
def answersOn (m : Memory) (key : String) (calls : List (Time × StoreCall)) :
    List (Option StoreAnswer) :=
  ((calls.zip (m.answers calls)).filter fun e => e.1.2.concerns key).map (·.2)

/-- Whether the store is in reach and runs scripts. -/
def Works (m : Memory) : Prop := m.reachable = true ∧ m.failScripts = false

theorem Works.answer_count {m : Memory} (hw : m.Works) (now : Time) (key : String)
    (limit windowMs : Nat) :
    m.answer now (.count key limit windowMs) =
      ({ m with store := (m.store.count now key limit windowMs).1 },
        .ok (m.store.count now key limit windowMs).2) := by
  simp [answer, hw.1, hw.2]

theorem Works.serve {m : Memory} (hw : m.Works) (now : Time) (c : StoreCall) :
    (m.serve now c).1.Works := by
  cases c with
  | count key limit windowMs =>
    rw [Memory.serve, hw.answer_count]
    exact hw
  | counter key => exact hw
  | cleanup => exact hw

/-- One call keeps store and history in agreement, and is answered as the reference answers it. -/
theorem serve_eq_reference {m : Memory} (hw : m.Works) {past : History} {now : Time}
    (ha : m.store.Agrees past now) (c : StoreCall) :
    (m.serve now c).2 = Reference.answer past now c ∧
      (m.serve now c).1.store.Agrees (Reference.extend past now c) now := by
  cases c with
  | count key limit windowMs =>
    rw [serve, hw.answer_count]
    refine ⟨?_, ha.count key limit windowMs⟩
    rw [ha.count_answer]
    rfl
  | counter key =>
    refine ⟨?_, ha⟩
    rw [serve, ha.counter?]
    rfl
  | cleanup => exact ⟨rfl, ha.prune⟩

theorem answers_eq_of_agrees {m : Memory} (hw : m.Works) {past : History} {start : Time}
    (ha : m.store.Agrees past start) (calls : List (Time × StoreCall))
    (hle : ∀ c ∈ calls, start ≤ c.1) (ho : (calls.map (·.1)).Pairwise (· ≤ ·)) :
    m.answers calls = Reference.answers past calls := by
  induction calls generalizing m past start with
  | nil => rfl
  | cons call rest ih =>
    obtain ⟨now, c⟩ := call
    simp only [List.map_cons, List.pairwise_cons, List.mem_map, forall_exists_index, and_imp,
      forall_apply_eq_imp_iff₂] at ho
    have hnow : m.store.Agrees past now := ha.later (hle _ (List.mem_cons_self ..))
    obtain ⟨hans, hnext⟩ := serve_eq_reference hw hnow c
    simp only [answers, Reference.answers, hans]
    rw [ih (hw.serve now c) hnext ho.1 ho.2]

theorem Works.after {m : Memory} (hw : m.Works) (calls : List (Time × StoreCall)) :
    (m.after calls).Works := by
  induction calls generalizing m with
  | nil => exact hw
  | cons call rest ih => exact ih (hw.serve call.1 call.2)

/-- A call that is not refused is counted in the store; one that is refused leaves no trace. -/
theorem store_answer_count (m : Memory) (now : Time) (key : String) (limit windowMs : Nat) :
    (m.answer now (.count key limit windowMs)).1.store = m.store ∨
      (m.answer now (.count key limit windowMs)).1.store =
        (m.store.count now key limit windowMs).1 := by
  unfold Memory.answer
  split
  · exact .inl rfl
  · simp only
    split
    · exact .inl rfl
    · exact .inr rfl

/-- The windows of a store have distinct keys. -/
theorem nodup_keys_serve {m : Memory} (hn : (Table.keys m.store.windows).Nodup) (now : Time)
    (c : StoreCall) : (Table.keys (m.serve now c).1.store.windows).Nodup := by
  cases c with
  | count key limit windowMs =>
    change (Table.keys (m.answer now (.count key limit windowMs)).1.store.windows).Nodup
    rcases m.store_answer_count now key limit windowMs with h | h <;> rw [h]
    · exact hn
    · exact Store.nodup_keys_count hn now key limit windowMs
  | counter key => exact hn
  | cleanup => exact Table.nodup_keys_filter hn _

theorem nodup_keys_after {m : Memory} (hn : (Table.keys m.store.windows).Nodup)
    (calls : List (Time × StoreCall)) : (Table.keys (m.after calls).store.windows).Nodup := by
  induction calls generalizing m with
  | nil => exact hn
  | cons call rest ih => exact ih (nodup_keys_serve hn call.1 call.2)

/-- No call moves the end of a live window. -/
theorem expiresAt_serve {m : Memory} (hn : (Table.keys m.store.windows).Nodup) {now : Time}
    {key : String} {w : Window} (hw : Table.get? m.store.windows key = some w)
    (hlive : now < w.expiresAt) (c : StoreCall) :
    ∃ w', Table.get? (m.serve now c).1.store.windows key = some w' ∧
      w'.expiresAt = w.expiresAt := by
  cases c with
  | count other limit windowMs =>
    change ∃ w', Table.get? (m.answer now (.count other limit windowMs)).1.store.windows key =
      some w' ∧ w'.expiresAt = w.expiresAt
    rcases m.store_answer_count now other limit windowMs with h | h <;> rw [h]
    · exact ⟨w, hw, rfl⟩
    · exact Store.expiresAt_count hn hw hlive other limit windowMs
  | counter other => exact ⟨w, hw, rfl⟩
  | cleanup => exact ⟨w, Store.get?_prune_of_live hn hw hlive, rfl⟩

/-- A store in memory that works and starts empty answers calls, made at times that do not go back,
as the reference does, which looks for each call at the earlier counted calls on its key. So the
answers about a key are what they would be without the calls on other keys and without cleanups,
and no call moves the end of a live window. -/
theorem answers_eq_reference (m : Memory) (works : m.Works) (new : m.store = .empty)
    (calls : List (Time × StoreCall)) (ordered : (calls.map (·.1)).Pairwise (· ≤ ·)) :
    m.answers calls = Reference.answers [] calls ∧
      (∀ key, m.answersOn key calls = m.answers (calls.filter fun c => c.2.concerns key)) ∧
      ∀ now call key w, Table.get? (m.after calls).store.windows key = some w →
        now < w.expiresAt →
          ∃ w', Table.get? ((m.after calls).serve now call).1.store.windows key = some w' ∧
            w'.expiresAt = w.expiresAt := by
  have ha : m.store.Agrees [] 0 := new ▸ Store.agrees_empty 0
  have heq : ∀ cs : List (Time × StoreCall), (cs.map (·.1)).Pairwise (· ≤ ·) →
      m.answers cs = Reference.answers [] cs :=
    fun cs ho => answers_eq_of_agrees works ha cs (fun c _ => Nat.zero_le c.1) ho
  refine ⟨heq calls ordered, fun key => ?_, fun now call key w hw hlive => ?_⟩
  · have hsub : ((calls.filter fun c => c.2.concerns key).map (·.1)).Pairwise (· ≤ ·) :=
      ordered.sublist (List.filter_sublist.map _)
    rw [answersOn, heq calls ordered, heq _ hsub]
    exact Reference.answers_filter key calls rfl
  · exact expiresAt_serve (nodup_keys_after ha.nodup calls) hw hlive call

/-- Calls on two keys: the third call on `a` comes at the very end of the first window, a cleanup
follows at once, and a lazy sweep more than a minute after the first call. -/
def callsOnTwoKeys : List (Time × StoreCall) :=
  [(0, .count "a" 1 1000), (600000, .count "a" 1 5000), (600500, .count "b" 0 90000),
    (1000000, .counter "a"), (1000000, .count "a" 1 70000), (1000000, .cleanup),
    (61000000, .count "a" 1 1000), (61000000, .counter "b")]

theorem answers_callsOnTwoKeys :
    (fresh.Works ∧ fresh.store = .empty ∧ (callsOnTwoKeys.map (·.1)).Pairwise (· ≤ ·)) ∧
      fresh.answers callsOnTwoKeys =
        [some (.counted (.ok 0)), some (.counted (.ok 400)), some (.counted (.ok 90000)),
          some (.counter none), some (.counted (.ok 0)), none,
          some (.counted (.ok 10000)), some (.counter (some 1))] ∧
      fresh.answersOn "b" callsOnTwoKeys =
        [some (.counted (.ok 90000)), some (.counter (some 1))] := by
  have ordered : (callsOnTwoKeys.map (·.1)).Pairwise (· ≤ ·) := by decide
  obtain ⟨heq, hon, -⟩ := answers_eq_reference fresh ⟨rfl, rfl⟩ rfl callsOnTwoKeys ordered
  refine ⟨⟨⟨rfl, rfl⟩, rfl, ordered⟩, heq.trans ?_, (hon "b").trans ?_⟩
  · simp [callsOnTwoKeys, Reference.answers, Reference.answer, Reference.extend, History.span?,
      History.on, Span.current, Span.after, Span.next, Span.isOpen, Span.ends, Span.answer,
      usPerMs, Option.filter]
  · simp [callsOnTwoKeys, StoreCall.concerns, answers, serve, answer, fresh, Store.count,
      Store.empty, Store.pruneIfDue, Store.isPruneDue, Store.prune, Store.counter?, Window.bump,
      Window.isLive, Window.answer, Window.remainingMs, Table.get?, Table.put, usPerMs,
      Option.filter]

end Memory

end Turnstile
