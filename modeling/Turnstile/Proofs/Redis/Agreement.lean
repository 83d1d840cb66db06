import Turnstile.Proofs.Text.Numeral
import Turnstile.Proofs.Window.Agreement
import Turnstile.Redis.Script

/-!
# A server and the history behind it

A server that counts by the script agrees with a history if, for every key, it has the last window
of the key as long as that one is open: the rank in text, and the end as the deadline. At whole
milliseconds counting a call keeps the agreement and is answered by the rank of the call
(`Keyspace.Agrees.countCall`).
-/

namespace Turnstile

namespace Span

/-- The window as a server keeps it. -/
def entry (w : Span) : Redis.Entry := ⟨toString (w.rank : Int), some (w.ends / usPerMs)⟩

/-- The window after one more call in it. -/
def more (w : Span) : Span := { w with rank := w.rank + 1 }

/-- The window that a call opens at a millisecond. -/
def first (ms windowMs : Nat) : Span := ⟨ms * usPerMs, windowMs, 1⟩

theorem ends_first (ms windowMs : Nat) : (first ms windowMs).ends = (ms + windowMs) * usPerMs :=
  (Nat.add_mul ..).symm

theorem entry_first (ms windowMs : Nat) :
    (first ms windowMs).entry = ⟨"1", some (ms + windowMs)⟩ := by
  have hone : toString ((1 : Nat) : Int) = "1" := by decide
  rw [entry, ends_first, Nat.mul_div_cancel _ (by decide), first, hone]

theorem whole_first (ms windowMs : Nat) : usPerMs ∣ (first ms windowMs).ends :=
  ⟨ms + windowMs, by rw [ends_first, Nat.mul_comm]⟩

theorem isOpen_first {ms windowMs : Nat} (hpos : 1 ≤ windowMs) :
    (first ms windowMs).isOpen (ms * usPerMs) = true := by
  rw [isOpen, ends_first]
  exact decide_eq_true (Nat.mul_lt_mul_of_pos_right (by omega) (by decide))

end Span

namespace Redis

namespace Keyspace

/-- For every key the server and the history have the same open window, or neither has one. Keys go
when their deadline is reached, windows end at whole milliseconds, and no window has more calls than
there are. -/
structure Agrees (k : Keyspace) (h : History) (now : Nat) : Prop where
  expiry : k.expiry = .reached
  whole : ∀ key w, h.span? key = some w → usPerMs ∣ w.ends
  ranks : ∀ key w, h.span? key = some w → 1 ≤ w.rank ∧ w.rank ≤ h.length
  same : ∀ key, k.get? now key =
    ((h.span? key).filter fun w => w.isOpen (now * usPerMs)).map Span.entry

variable {k : Keyspace} {h : History} {now limit windowMs : Nat} {key : String} {w : Span}

theorem agrees_empty (now : Nat) : (empty .reached).Agrees [] now where
  expiry := rfl
  whole _ _ hw := by cases hw
  ranks _ _ hw := by cases hw
  same _ := rfl

/-- At whole milliseconds a key is there as long as its window is open. -/
theorem isLive_entry (hk : k.expiry = .reached) (whole : usPerMs ∣ w.ends) (now : Nat) :
    k.isLive now w.entry = w.isOpen (now * usPerMs) := by
  have hends : w.ends / usPerMs * usPerMs = w.ends := Nat.div_mul_cancel whole
  have hopen : now * usPerMs < w.ends ↔ now < w.ends / usPerMs := by
    rw [← hends, Nat.mul_div_cancel _ (by decide)]
    exact Nat.mul_lt_mul_right (by decide)
  simp [isLive, Span.entry, hk, Span.isOpen, hopen]

/-- What is there later is there now. -/
theorem get?_later {later : Nat} (hle : now ≤ later) (key : String) :
    k.get? later key = (k.get? now key).filter (k.isLive later) := by
  unfold get?
  cases hget : Table.get? k.entries key with
  | none => rfl
  | some e =>
    have hlive : k.isLive later e = true → k.isLive now e = true := by
      unfold isLive
      cases e.deadline with
      | none => simp
      | some deadline => cases k.expiry <;> simp <;> omega
    by_cases hl : k.isLive later e = true
    · simp [Option.filter, hl, hlive hl]
    · by_cases hn : k.isLive now e = true <;> simp [Option.filter, hl, hn]

theorem Agrees.later {later : Nat} (ha : k.Agrees h now) (hle : now ≤ later) :
    k.Agrees h later where
  expiry := ha.expiry
  whole := ha.whole
  ranks := ha.ranks
  same key := by
    rw [get?_later hle, ha.same key]
    have hle : now * usPerMs ≤ later * usPerMs := Nat.mul_le_mul_right _ hle
    rw [← Store.filter_isOpen_later (h.span? key) hle]
    cases hw : (h.span? key).filter fun w => w.isOpen (now * usPerMs) with
    | none => rfl
    | some w =>
      have whole := ha.whole key w (Option.filter_eq_some_iff.mp hw).1
      have hlive := isLive_entry ha.expiry whole later
      by_cases ho : w.isOpen (later * usPerMs) = true
      · simp [Option.filter, hlive, ho]
      · simp [Option.filter, hlive, ho]

/-! ## One call -/

@[simp] theorem get?_put_self (k : Keyspace) (now : Nat) (key : String) (e : Entry) :
    (k.put key e).get? now key = (some e).filter (k.isLive now) := by
  simp only [get?, put, Table.get?_put_self]
  rfl

/-- The counter of an open window is there. -/
theorem get?_put_of_open (hk : k.expiry = .reached) (whole : usPerMs ∣ w.ends)
    (hopen : w.isOpen (now * usPerMs) = true) (key : String) :
    (k.put key w.entry).get? now key = some w.entry := by
  have hlive : k.isLive now w.entry = true := (isLive_entry hk whole now).trans hopen
  rw [get?_put_self]
  exact if_pos hlive

/-- A counter is read as the number that it was written as. -/
theorem incr?_of_entry (hget : k.get? now key = some w.entry)
    (hmost : (w.rank : Int) < Text.maxI64) :
    k.incr? now key = some (k.put key w.more.entry, (w.more.rank : Int)) := by
  have hread : integer? w.entry.text = some (w.rank : Int) :=
    Text.integer?_toString (Int.le_trans (by decide) (Int.natCast_nonneg _)) (Int.le_of_lt hmost)
  simp only [incr?, hget, hread, if_pos hmost]
  rfl

/-- The milliseconds that the counter of a window has left are those until the end of the window. -/
theorem ttl_of_entry (hget : k.get? now key = some w.entry) :
    k.ttl now key = (((w.ends - now * usPerMs) / usPerMs : Nat) : Int) := by
  rw [ttl, hget, Nat.mul_comm, Nat.sub_mul_div]
  rfl

theorem not_ttl_neg_of_entry (hget : k.get? now key = some w.entry) : ¬ k.ttl now key < 0 := by
  rw [ttl_of_entry hget]
  exact Int.not_lt.mpr (Int.natCast_nonneg _)

/-- A call over the limit is told how long its window still is. -/
theorem overLimit_of_entry (hget : k.get? now key = some w.entry) (hover : ¬ w.rank ≤ limit) :
    k.overLimit now key windowMs = (k, (w.answer (now * usPerMs) limit : Int)) := by
  simp only [overLimit, if_neg (not_ttl_neg_of_entry hget)]
  rw [ttl_of_entry hget, Span.answer, if_neg hover]
  generalize (w.ends - now * usPerMs) / usPerMs = left
  congr 1
  split <;> omega

/-- A call whose counter has a deadline already is answered by its rank. -/
theorem countCall_of_incr {k' : Keyspace} (hincr : k.incr? now key = some (k', (w.rank : Int)))
    (hget : k'.get? now key = some w.entry) (hlater : w.rank ≠ 1) :
    k.countCall now key limit windowMs = (k', some (w.answer (now * usPerMs) limit : Int)) := by
  have hsecond : ¬ (w.rank : Int) = 1 := by omega
  have hset : ¬ ((w.rank : Int) = 1 ∨ ((limit : Int) < w.rank ∧ k'.ttl now key < 0)) := by
    rintro (h | h)
    · exact hsecond h
    · exact not_ttl_neg_of_entry hget h.2
  unfold countCall
  rw [hincr]
  dsimp only
  rw [if_neg fun hc => hset hc.1, if_neg hsecond]
  by_cases hover : w.rank ≤ limit
  · rw [if_neg (by omega), Span.answer, if_pos hover]
    rfl
  · rw [if_pos (by omega), overLimit_of_entry hget hover]

/-- A call that comes in an open window raises the counter and is answered by its rank. -/
theorem countCall_of_open (hk : k.expiry = .reached) (whole : usPerMs ∣ w.ends)
    (hget : k.get? now key = some w.entry) (hopen : w.isOpen (now * usPerMs) = true)
    (hrank : 1 ≤ w.rank) (hmost : (w.rank : Int) < Text.maxI64) :
    k.countCall now key limit windowMs =
      (k.put key w.more.entry, some (w.more.answer (now * usPerMs) limit : Int)) := by
  have hthere : (k.put key w.more.entry).get? now key = some w.more.entry :=
    get?_put_of_open (w := w.more) hk whole hopen key
  have hlater : w.more.rank ≠ 1 := by
    have hmore : w.more.rank = w.rank + 1 := rfl
    omega
  exact countCall_of_incr (incr?_of_entry hget hmost) hthere hlater

/-- The first call of a counter sets the deadline. -/
theorem expire_of_new (k : Keyspace) (now : Nat) (key : String) (hpos : 1 ≤ windowMs) :
    (k.put key ⟨"1", none⟩).expire now key windowMs =
      (k.put key ⟨"1", none⟩).put key (Span.first now windowMs).entry := by
  have hget : (k.put key ⟨"1", none⟩).get? now key = some ⟨"1", none⟩ := by
    rw [get?_put_self]
    rfl
  rw [expire, hget, Span.entry_first]
  exact if_neg (Nat.pos_iff_ne_zero.mp hpos)

/-- A call that comes when there is no counter makes one that goes at the end of the window which
the call opens. -/
theorem countCall_of_none (hk : k.expiry = .reached) (hget : k.get? now key = none)
    (hpos : 1 ≤ windowMs) (hmost : windowMs ≤ longest now) :
    k.countCall now key limit windowMs =
      ((k.put key ⟨"1", none⟩).put key (Span.first now windowMs).entry,
        some ((Span.first now windowMs).answer (now * usPerMs) limit : Int)) := by
  have hincr : k.incr? now key = some (k.put key ⟨"1", none⟩, 1) := by rw [incr?, hget]
  have hthere : ((k.put key ⟨"1", none⟩).put key (Span.first now windowMs).entry).get? now key =
      some (Span.first now windowMs).entry :=
    get?_put_of_open (k := k.put key ⟨"1", none⟩) hk (Span.whole_first now windowMs)
      (Span.isOpen_first hpos) key
  have hrange : ¬ longest now < windowMs := Nat.not_lt.mpr hmost
  unfold countCall
  rw [hincr]
  dsimp only
  rw [if_neg fun hc => hrange hc.2, if_pos rfl, expire_of_new k now key hpos]
  by_cases hover : (Span.first now windowMs).rank ≤ limit
  · have hwithin : ¬ (limit : Int) < 1 := by
      have hle : 1 ≤ limit := hover
      omega
    rw [if_neg hwithin, Span.answer, if_pos hover]
    rfl
  · have hbeyond : (limit : Int) < 1 := by
      have hlt : ¬ 1 ≤ limit := hover
      omega
    rw [if_pos hbeyond, overLimit_of_entry hthere hover]

/-- A server that has the window of the key after one more call, and all else as it was, agrees with
the history after that call. -/
theorem Agrees.extend {k' : Keyspace} {a : Arrival} (ha : k.Agrees h now)
    (hnext : Span.next (h.span? key) a = w) (whole : usPerMs ∣ w.ends)
    (hrank : 1 ≤ w.rank ∧ w.rank ≤ h.length + 1) (hopen : w.isOpen (now * usPerMs) = true)
    (hk : k'.expiry = .reached) (hself : k'.get? now key = some w.entry)
    (hother : ∀ other, other ≠ key → k'.get? now other = k.get? now other) :
    k'.Agrees (h ++ [(key, a)]) now := by
  have hspan : ∀ other v, History.span? (h ++ [(key, a)]) other = some v →
      v = w ∨ h.span? other = some v := by
    intro other v hv
    by_cases hkey : other = key
    · subst hkey
      rw [History.span?_concat_self, hnext] at hv
      exact .inl (Option.some.inj hv).symm
    · rw [History.span?_concat_ne h a hkey] at hv
      exact .inr hv
  have hlength : (h ++ [(key, a)]).length = h.length + 1 := List.length_append
  refine ⟨hk, fun other v hv => ?_, fun other v hv => ?_, fun other => ?_⟩
  · rcases hspan other v hv with rfl | hv
    · exact whole
    · exact ha.whole other v hv
  · rw [hlength]
    rcases hspan other v hv with rfl | hv
    · exact hrank
    · have hranks := ha.ranks other v hv
      exact ⟨hranks.1, Nat.le_succ_of_le hranks.2⟩
  · by_cases hkey : other = key
    · subst hkey
      rw [hself, History.span?_concat_self, hnext]
      simp [Option.filter, hopen]
    · rw [hother other hkey, History.span?_concat_ne h a hkey]
      exact ha.same other

/-- A call is answered by its rank in the window that it comes in, and counted. -/
theorem Agrees.countCall (ha : k.Agrees h now) (key : String) (limit : Nat) (hpos : 1 ≤ windowMs)
    (hmost : windowMs ≤ longest now) (hroom : (h.length : Int) < Text.maxI64) :
    ∃ k' : Keyspace, k.countCall now key limit windowMs = (k',
        some ((Span.next (h.span? key) ⟨now * usPerMs, windowMs⟩).answer (now * usPerMs) limit :
          Int)) ∧
      k'.Agrees (h ++ [(key, ⟨now * usPerMs, windowMs⟩)]) now := by
  have hsame := ha.same key
  cases hw : (h.span? key).filter fun w => w.isOpen (now * usPerMs) with
  | some w =>
    -- the call comes in an open window
    obtain ⟨hspan, hopen⟩ := Option.filter_eq_some_iff.mp hw
    have whole := ha.whole key w hspan
    obtain ⟨hrank, hle⟩ := ha.ranks key w hspan
    rw [hw, Option.map_some] at hsame
    have hnext : Span.next (h.span? key) ⟨now * usPerMs, windowMs⟩ = w.more := by
      rw [hspan]
      exact Span.next_of_open (a := ⟨now * usPerMs, windowMs⟩) (of_decide_eq_true hopen)
    refine ⟨k.put key w.more.entry, ?_, ?_⟩
    · rw [hnext]
      exact countCall_of_open ha.expiry whole hsame hopen hrank (by omega)
    · exact ha.extend hnext whole ⟨Nat.le_add_left .., Nat.succ_le_succ hle⟩ hopen ha.expiry
        (get?_put_of_open (w := w.more) ha.expiry whole hopen key)
        fun other hne => get?_put_ne k now _ hne
  | none =>
    -- the call opens a window
    rw [hw, Option.map_none] at hsame
    have hnext : Span.next (h.span? key) ⟨now * usPerMs, windowMs⟩ = Span.first now windowMs := by
      rw [Span.next, hw]
      rfl
    have whole : usPerMs ∣ (Span.first now windowMs).ends := Span.whole_first now windowMs
    have hopen : (Span.first now windowMs).isOpen (now * usPerMs) = true := Span.isOpen_first hpos
    refine ⟨(k.put key ⟨"1", none⟩).put key (Span.first now windowMs).entry, ?_, ?_⟩
    · rw [hnext]
      exact countCall_of_none ha.expiry hsame hpos hmost
    · refine ha.extend hnext whole ⟨Nat.le_refl 1, Nat.le_add_left ..⟩ hopen ha.expiry
        (get?_put_of_open (k := k.put key ⟨"1", none⟩) ha.expiry whole hopen key)
        fun other hne => ?_
      rw [get?_put_ne _ _ _ hne, get?_put_ne _ _ _ hne]

end Keyspace

end Redis

end Turnstile
