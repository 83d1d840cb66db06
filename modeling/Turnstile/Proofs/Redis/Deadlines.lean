import Turnstile.Proofs.Redis.Refinement

/-!
# Counters that go by themselves

A server may hold anything when a call is counted: a counter that has no deadline, or one that
somebody else wrote with a deadline of their own. Whatever it holds, a call that is told to wait
leaves a counter with a deadline, and the wait lasts until that deadline
(`Client.incrWindow_leaves_deadline`). So nobody waits for a counter that stays for ever.
-/

namespace Turnstile

namespace Redis

namespace Keyspace

/-- The number under a key. -/
def counter? (k : Keyspace) (now : Nat) (key : String) : Option Int :=
  (k.get? now key).bind fun e => integer? e.text

def deadline? (k : Keyspace) (now : Nat) (key : String) : Option Nat :=
  (k.get? now key).bind (·.deadline)

/-- Under the key there is a number, with a deadline or with none. -/
def Holds (k : Keyspace) (now : Nat) (key : String) (n : Int) (deadline : Option Nat) : Prop :=
  ∃ text, k.get? now key = some ⟨text, deadline⟩ ∧ integer? text = some n

/-- Nothing but what is under the key differs. -/
structure SameBut (key : String) (k k' : Keyspace) : Prop where
  expiry : k'.expiry = k.expiry
  others : ∀ other, other ≠ key → ∀ instant, k'.get? instant other = k.get? instant other

/-- Whether one can be added to what is under the key. -/
def Countable (k : Keyspace) (now : Nat) (key : String) : Prop :=
  ∀ e, k.get? now key = some e → ∃ n, integer? e.text = some n ∧ n < Text.maxI64

variable {k k' k'' : Keyspace} {now limit windowMs : Nat} {key : String} {n : Int}
  {deadline : Option Nat}

theorem Holds.counter? (h : k.Holds now key n deadline) : k.counter? now key = some n := by
  obtain ⟨text, hget, hn⟩ := h
  rw [Keyspace.counter?, hget, Option.bind_some, hn]

theorem Holds.deadline? (h : k.Holds now key n deadline) : k.deadline? now key = deadline := by
  obtain ⟨text, hget, -⟩ := h
  rw [Keyspace.deadline?, hget, Option.bind_some]

/-! ## Time that is left -/

theorem ttl_of_deadline? {d : Nat} (h : k.deadline? now key = some d) :
    k.ttl now key = ((d - now : Nat) : Int) := by
  unfold deadline? at h
  unfold ttl
  cases hget : k.get? now key with
  | none => rw [hget] at h; cases h
  | some e =>
    obtain ⟨text, deadline⟩ := e
    rw [hget, Option.bind_some] at h
    obtain rfl : deadline = some d := h
    rfl

theorem ttl_neg_iff : k.ttl now key < 0 ↔ k.deadline? now key = none := by
  unfold ttl deadline?
  cases k.get? now key with
  | none => simp
  | some e =>
    obtain ⟨text, deadline⟩ := e
    cases deadline <;> simp

theorem ttl_congr (h : k'.deadline? now key = k.deadline? now key)
    (hruns : 0 ≤ k.ttl now key) : k'.ttl now key = k.ttl now key := by
  cases hd : k.deadline? now key with
  | none => exact absurd (ttl_neg_iff.mpr hd) (Int.not_lt.mpr hruns)
  | some d => rw [ttl_of_deadline? hd, ttl_of_deadline? (h.trans hd)]

/-- A key that goes when its deadline is reached is there before, and not from then on. -/
theorem Holds.get?_eq_none_iff {d later : Nat} (h : k.Holds now key n (some d))
    (reached : k.expiry = .reached) : k.get? later key = none ↔ d ≤ later := by
  obtain ⟨text, hget, -⟩ := h
  have hentry : Table.get? k.entries key = some ⟨text, some d⟩ :=
    (Option.filter_eq_some_iff.mp hget).1
  simp [get?, hentry, Option.filter, Keyspace.isLive, reached]

/-- The deadline of a key that is there, and goes when it is reached, lies ahead. -/
theorem Holds.lt_deadline {d : Nat} (h : k.Holds now key n (some d))
    (reached : k.expiry = .reached) : now < d := by
  refine Nat.lt_of_not_le fun hle => ?_
  have hgone := (h.get?_eq_none_iff reached).mpr hle
  obtain ⟨text, hget, -⟩ := h
  rw [hget] at hgone
  cases hgone

/-! ## The other keys -/

theorem SameBut.refl (key : String) (k : Keyspace) : k.SameBut key k := ⟨rfl, fun _ _ _ => rfl⟩

theorem SameBut.trans (h : SameBut key k k') (h' : SameBut key k' k'') : SameBut key k k'' :=
  ⟨h'.expiry.trans h.expiry, fun other hne instant =>
    (h'.others other hne instant).trans (h.others other hne instant)⟩

theorem sameBut_put (k : Keyspace) (key : String) (e : Entry) : SameBut key k (k.put key e) :=
  ⟨rfl, fun _ hne instant => get?_put_ne k instant e hne⟩

theorem sameBut_expire (k : Keyspace) (now : Nat) (key : String) (ms : Nat) :
    SameBut key k (k.expire now key ms) := by
  unfold expire
  split
  · exact .refl key k
  · split
    · exact ⟨rfl, fun _ hne instant => get?_without_ne k instant hne⟩
    · exact sameBut_put k key _

theorem sameBut_incr? (h : k.incr? now key = some (k', n)) : SameBut key k k' := by
  unfold incr? at h
  split at h
  · cases h
    exact sameBut_put k key _
  · split at h
    · cases h
    · split at h
      · cases h
        exact sameBut_put k key _
      · cases h

theorem sameBut_overLimit (k : Keyspace) (now : Nat) (key : String) (windowMs : Nat) :
    SameBut key k (k.overLimit now key windowMs).1 := by
  unfold overLimit
  by_cases h : k.ttl now key < 0
  · simp only [h, if_true]
    exact sameBut_expire k now key windowMs
  · simp only [h, if_false]
    exact .refl key k

/-- A call touches the counter of its own key only, whether it is answered or not. -/
theorem sameBut_countCall (k : Keyspace) (now : Nat) (key : String) (limit windowMs : Nat) :
    SameBut key k (k.countCall now key limit windowMs).1 := by
  unfold countCall
  cases hincr : k.incr? now key with
  | none => exact .refl key k
  | some counted =>
    obtain ⟨k', n⟩ := counted
    have hcounted := sameBut_incr? hincr
    have hopened : SameBut key k (if n = 1 then k'.expire now key windowMs else k') := by
      split
      · exact hcounted.trans (sameBut_expire k' now key windowMs)
      · exact hcounted
    dsimp only
    split
    · exact hcounted
    · split
      · exact hopened.trans (sameBut_overLimit _ now key windowMs)
      · exact hopened

/-! ## One call, command by command -/

/-- One more than a number is read back from how it is written. -/
theorem integer?_toString_succ {text : String} {n : Int} (hn : integer? text = some n)
    (hmost : n < Text.maxI64) : integer? (toString (n + 1)) = some (n + 1) :=
  Text.integer?_toString (Int.le_add_one (Text.range_of_integer? hn).1) hmost

theorem holds_put {text : String} (hn : integer? text = some n)
    (hlive : k.isLive now ⟨text, deadline⟩ = true) :
    (k.put key ⟨text, deadline⟩).Holds now key n deadline :=
  ⟨text, by rw [get?_put_self, Option.filter, if_pos hlive], hn⟩

/-- Adding one leaves the deadline. -/
theorem holds_incr? (h : k.incr? now key = some (k', n)) :
    k'.Holds now key n (k.deadline? now key) ∧ n = (k.counter? now key).getD 0 + 1 := by
  unfold incr? at h
  cases hget : k.get? now key with
  | none =>
    simp only [hget] at h
    cases h
    have hone : integer? "1" = some 1 := by decide
    simp only [deadline?, counter?, hget]
    exact ⟨holds_put hone rfl, rfl⟩
  | some e =>
    simp only [hget] at h
    split at h
    · cases h
    · rename_i m hm
      split at h
      · rename_i hmost
        cases h
        have hlive : k.isLive now ⟨toString (m + 1), e.deadline⟩ = true :=
          (Option.filter_eq_some_iff.mp hget).2
        simp only [deadline?, counter?, hget, Option.bind_some, hm]
        exact ⟨holds_put (integer?_toString_succ hm hmost) hlive, rfl⟩
      · cases h

theorem Holds.expire (h : k.Holds now key n deadline) (hpos : 1 ≤ windowMs) :
    (k.expire now key windowMs).Holds now key n (some (now + windowMs)) := by
  obtain ⟨text, hget, hn⟩ := h
  have hlive : k.isLive now ⟨text, some (now + windowMs)⟩ = true := by
    -- whether it goes when the deadline is reached or only when it is past
    unfold Keyspace.isLive
    cases k.expiry with
    | reached => exact decide_eq_true (Nat.lt_add_of_pos_right hpos)
    | passed => exact decide_eq_true (Nat.le_add_right ..)
  rw [Keyspace.expire, hget]
  dsimp only
  rw [if_neg (by omega)]
  exact holds_put hn hlive

/-- A call over the limit is told the time until the deadline, and a counter that has none is given
one. -/
theorem Holds.overLimit (h : k.Holds now key n deadline) (hpos : 1 ≤ windowMs) :
    (k.overLimit now key windowMs).1.Holds now key n (some (deadline.getD (now + windowMs))) ∧
      (k.overLimit now key windowMs).2 =
        max 1 (((deadline.getD (now + windowMs) - now : Nat) : Int)) := by
  unfold Keyspace.overLimit
  cases hd : deadline with
  | none =>
    have hneg : k.ttl now key < 0 := ttl_neg_iff.mpr (h.deadline?.trans hd)
    simp only [hneg, if_true, Option.getD_none]
    refine ⟨h.expire hpos, ?_⟩
    split <;> omega
  | some d =>
    have httl := ttl_of_deadline? (h.deadline?.trans hd)
    simp only [httl, Int.not_lt.mpr (Int.natCast_nonneg _), if_false, Option.getD_some]
    refine ⟨hd ▸ h, ?_⟩
    split <;> omega

/-! ## One call as a whole -/

/-- What an answered call has left of the counter: it is one more than it was, and its deadline is
the old one, or a new one if it had none or was the first. -/
structure Left (k k' : Keyspace) (now : Nat) (key : String) (limit windowMs : Nat) (n : Int)
    (deadline : Option Nat) (answer : Int) : Prop where
  holds : k'.Holds now key n deadline
  succ : n = (k.counter? now key).getD 0 + 1
  /-- A new deadline is set by the first call, and for a call over the limit where there is none. -/
  deadline_eq : deadline = if n = 1 ∨ (limit < n ∧ k.deadline? now key = none)
    then some (now + windowMs) else k.deadline? now key
  answer_eq : answer = if limit < n then max 1 (k'.ttl now key) else 0

theorem left_of_countCall (hpos : 1 ≤ windowMs) {answer : Int}
    (h : k.countCall now key limit windowMs = (k', some answer)) :
    ∃ n deadline, Left k k' now key limit windowMs n deadline answer := by
  unfold countCall at h
  cases hincr : k.incr? now key with
  | none => simp only [hincr] at h; cases h
  | some counted =>
    obtain ⟨k₁, n⟩ := counted
    obtain ⟨hcounted, hsucc⟩ := holds_incr? hincr
    simp only [hincr] at h
    split at h
    · cases h
    · -- the deadline as the first call leaves it
      have hopened : (if n = 1 then k₁.expire now key windowMs else k₁).Holds now key n
          (if n = 1 then some (now + windowMs) else k.deadline? now key) := by
        split
        · exact hcounted.expire hpos
        · exact hcounted
      by_cases hover : limit < n
      · obtain ⟨hleft, hanswer⟩ := hopened.overLimit hpos
        simp only [hover, if_true] at h
        cases h
        refine ⟨n, _, hleft, hsucc, ?_, ?_⟩
        · by_cases hfirst : n = 1
          · simp [hfirst]
          · cases hd : k.deadline? now key <;> simp [hfirst, hover]
        · rw [if_pos hover, ttl_of_deadline? hleft.deadline?]
          exact hanswer
      · simp only [hover, if_false] at h
        cases h
        refine ⟨n, _, hopened, hsucc, ?_, by rw [if_neg hover]⟩
        simp [hover]

theorem Left.answer_nonneg {answer : Int}
    (h : Left k k' now key limit windowMs n deadline answer) : 0 ≤ answer := by
  rw [h.answer_eq]
  split <;> omega

/-- A call is answered if one can be added to the counter and the server can set the deadline. -/
theorem exists_answer (limit : Nat) (hcountable : k.Countable now key)
    (hmost : windowMs ≤ longest now) :
    ∃ k' answer, k.countCall now key limit windowMs = (k', some answer) := by
  have hincr : ∃ k₁ n, k.incr? now key = some (k₁, n) := by
    unfold incr?
    cases hget : k.get? now key with
    | none => exact ⟨_, _, rfl⟩
    | some e =>
      obtain ⟨n, hn, hlt⟩ := hcountable e hget
      simp only [hn, if_pos hlt]
      exact ⟨_, _, rfl⟩
  obtain ⟨k₁, n, hincr⟩ := hincr
  unfold countCall
  rw [hincr]
  dsimp only
  rw [if_neg fun hc => Nat.not_lt.mpr hmost hc.2]
  split <;> exact ⟨_, _, rfl⟩

/-! ## What a caller is told -/

/-- A call was told to wait: the counter has a deadline, and the wait is the time until then. It is
no longer than the window or than the time that the counter had left before. -/
structure Rejected (k k' : Keyspace) (now : Nat) (key : String) (limit windowMs wait : Nat) :
    Prop where
  count : ∃ n, k'.counter? now key = some n ∧ n = (k.counter? now key).getD 0 + 1 ∧ limit < n
  runs : 0 ≤ k'.ttl now key
  wait_eq : (wait : Int) = max 1 (k'.ttl now key)
  wait_le : (wait : Int) ≤ max (windowMs : Int) (k.ttl now key)
  gone : k'.expiry = .reached → ∀ later, k'.get? later key = none ↔ now + wait ≤ later

/-- A call was let through: the counter is within the limit, and a deadline that was running is as
it was unless this call is the counter's first. -/
structure Admitted (k k' : Keyspace) (now : Nat) (key : String) (limit : Nat) : Prop where
  count : ∃ n, k'.counter? now key = some n ∧ n = (k.counter? now key).getD 0 + 1 ∧ n ≤ limit
  kept : 0 ≤ k.ttl now key → k'.counter? now key ≠ some 1 →
    k'.ttl now key = k.ttl now key ∧ k'.deadline? now key = k.deadline? now key

theorem Left.rejected {wait : Nat}
    (h : Left k k' now key limit windowMs n deadline (wait : Int)) (hpos : 1 ≤ windowMs)
    (hwait : 0 < wait) : Rejected k k' now key limit windowMs wait := by
  have hover : (limit : Int) < n := by
    refine Int.lt_of_not_ge fun hle => ?_
    have hanswer := h.answer_eq
    rw [if_neg (Int.not_lt.mpr hle)] at hanswer
    omega
  obtain ⟨d, hd⟩ : ∃ d, deadline = some d := by
    rw [h.deadline_eq]
    cases hd : k.deadline? now key with
    | none => exact ⟨_, if_pos (.inr ⟨hover, rfl⟩)⟩
    | some d => split <;> exact ⟨_, rfl⟩
  have hholds : k'.Holds now key n (some d) := hd ▸ h.holds
  have hanswer := h.answer_eq
  rw [if_pos hover] at hanswer
  have httl := ttl_of_deadline? hholds.deadline?
  refine ⟨⟨n, h.holds.counter?, h.succ, hover⟩, by omega, hanswer, ?_, fun reached later => ?_⟩
  · -- the deadline is a window away, or the one that was there
    have hcases := h.deadline_eq
    rw [hd] at hcases
    split at hcases
    · obtain rfl := Option.some.inj hcases
      omega
    · rw [ttl_of_deadline? hcases.symm]
      omega
  · have hahead := hholds.lt_deadline reached
    rw [hholds.get?_eq_none_iff reached]
    omega

theorem Left.admitted (h : Left k k' now key limit windowMs n deadline 0) :
    Admitted k k' now key limit := by
  have hwithin : ¬ (limit : Int) < n := by
    intro hover
    have hanswer := h.answer_eq
    rw [if_pos hover] at hanswer
    omega
  refine ⟨⟨n, h.holds.counter?, h.succ, Int.not_lt.mp hwithin⟩, fun hruns hlater => ?_⟩
  have hfirst : n ≠ 1 := fun hn => hlater (hn ▸ h.holds.counter?)
  have hsame : k'.deadline? now key = k.deadline? now key := by
    rw [h.holds.deadline?, h.deadline_eq, if_neg (by rintro (hn | hn) <;> simp_all)]
  exact ⟨ttl_congr hsame hruns, hsame⟩

end Keyspace

/-! ## Calls over a connection -/

/-- What the counters are after the script was to be run, and the response: either it did not run
and there is no number, or it ran once. -/
def Server.Ran (before after : Server) (key : String) (limit windowMs : Nat) (r : Response) :
    Prop :=
  (after.keys = before.keys ∧ ∀ answer, r ≠ .ok ∧ r ≠ .number answer) ∨
    after.keys = (before.keys.countCall before.clock key limit windowMs).1 ∧
      r = match (before.keys.countCall before.clock key limit windowMs).2 with
        | some answer => .number answer
        | none => .refused

namespace Client

open Keyspace

variable {c : Client} {call : CountedCall}

theorem send_evalSha_ran (c : Client) (trusted : Bool) (key : String) (limit windowMs : Nat) :
    c.server.Ran (c.send trusted (.evalSha key limit windowMs)).1.server key limit windowMs
      (c.send trusted (.evalSha key limit windowMs)).2 := by
  unfold send Server.receive
  dsimp only
  split
  · exact .inl ⟨rfl, by simp⟩
  · split
    · exact .inl ⟨rfl, by simp⟩
    · unfold Server.execute
      dsimp only
      split
      · exact .inl ⟨rfl, by simp⟩
      · split
        · exact .inl ⟨rfl, by simp⟩
        · unfold Server.Ran
          rcases c.server.keys.countCall c.server.clock key limit windowMs with ⟨keys, _ | answer⟩
          · exact .inr ⟨rfl, rfl⟩
          · exact .inr ⟨rfl, rfl⟩

theorem clock_send_evalSha (c : Client) (trusted : Bool) (key : String) (limit windowMs : Nat) :
    (c.send trusted (.evalSha key limit windowMs)).1.server.clock = c.server.clock := by
  unfold send Server.receive Server.execute
  dsimp only
  repeat' split
  all_goals rfl

/-- Giving the script to the server leaves the counters. -/
theorem send_scriptLoad (c : Client) (trusted : Bool) :
    (c.send trusted .scriptLoad).1.server.keys = c.server.keys ∧
      (c.send trusted .scriptLoad).1.server.clock = c.server.clock ∧
      ∀ answer, (c.send trusted .scriptLoad).2 ≠ .number answer := by
  unfold send Server.receive Server.execute
  dsimp only
  repeat' split
  all_goals exact ⟨rfl, rfl, by simp⟩

/-- However often it was sent, the script runs at most once for a call. -/
theorem count_ran (c : Client) (trusted : Bool) (key : String) (limit windowMs : Nat) :
    c.server.Ran (c.count trusted key limit windowMs).1.server key limit windowMs
      (c.count trusted key limit windowMs).2 := by
  have hsent := send_evalSha_ran c trusted key limit windowMs
  have hclock := clock_send_evalSha c trusted key limit windowMs
  unfold count
  split
  · rename_i asked hasked
    rw [hasked] at hsent hclock
    -- the server said that it does not have the script, so it did not run
    have hkeys : asked.server.keys = c.server.keys := by
      rcases hsent with ⟨hkeys, -⟩ | ⟨-, hanswer⟩
      · exact hkeys
      · split at hanswer <;> cases hanswer
    obtain ⟨hloadKeys, hloadClock, hloadAnswer⟩ := send_scriptLoad asked trusted
    split
    · rename_i loaded hloaded
      rw [hloaded] at hloadKeys hloadClock
      have hran := send_evalSha_ran loaded trusted key limit windowMs
      unfold Server.Ran at hran ⊢
      rwa [hloadKeys, hloadClock, hkeys, hclock] at hran
    · rename_i hnotOk
      exact .inl ⟨hloadKeys.trans hkeys, fun answer => ⟨fun hok => hnotOk _ (Prod.ext rfl hok),
        hloadAnswer answer⟩⟩
  · exact hsent

theorem server_settle (c : Client) (conn : ConnId) (r : Response) :
    (c.settle conn r).1.server = c.server := by
  cases r <;> rfl

theorem reply_settle_number (c : Client) (conn : ConnId) (answer : Int) :
    ((c.settle conn (.number answer)).1.finish conn).2 = .ok (remainingMs answer) := by
  simp [settle, note, finish]

theorem reply_settle_fault (c : Client) (conn : ConnId) {r : Response}
    (hr : ∀ answer, r ≠ .ok ∧ r ≠ .number answer) :
    ∃ fault, ((c.settle conn r).1.finish conn).2 = .error fault := by
  cases r with
  | ok => exact absurd rfl (hr 0).1
  | number answer => exact absurd rfl (hr answer).2
  | noScript | refused | silence =>
    exact ⟨_, by simp [settle, note, finish]; rfl⟩

/-- A call whose answer is awaited was not counted and failed, or it was counted once. It succeeded
if the script had an answer. -/
theorem incrWindow_cases (c : Client) (call : CountedCall) :
    let after := (c.incrWindow call).1.server.keys
    let counted := c.server.keys.countCall c.server.clock call.key call.limit call.windowMs
    (after = c.server.keys ∧ ∃ fault, (c.incrWindow call).2 = .error fault) ∨
      (after = counted.1 ∧ ((∃ answer, counted.2 = some answer ∧
          (c.incrWindow call).2 = .ok (remainingMs answer)) ∨
        ∃ fault, (c.incrWindow call).2 = .error fault)) := by
  unfold incrWindow start
  cases Table.get? c.connections call.conn with
  | none => exact .inl ⟨rfl, refused, by simp [finish, note]⟩
  | some trusted =>
    have hran := count_ran c trusted call.key call.limit call.windowMs
    dsimp only
    generalize c.count trusted call.key call.limit call.windowMs = counted at hran ⊢
    obtain ⟨after, response⟩ := counted
    have hafter : ((after.settle call.conn response).1.finish call.conn).1.server.keys =
        after.server.keys := congrArg Server.keys (server_settle after call.conn response)
    dsimp only
    rw [hafter]
    rcases hran with ⟨hkeys, hfault⟩ | ⟨hkeys, hresponse⟩
    · exact .inl ⟨hkeys, reply_settle_fault after call.conn hfault⟩
    · refine .inr ⟨hkeys, ?_⟩
      dsimp only at hresponse
      subst hresponse
      cases (c.server.keys.countCall c.server.clock call.key call.limit call.windowMs).2 with
      | none => exact .inr (reply_settle_fault after call.conn (by simp))
      | some answer => exact .inl ⟨answer, rfl, reply_settle_number after call.conn answer⟩

/-- A call that was answered was counted, and answered by the script. -/
theorem countCall_of_answered {wait : Nat} (hpos : 1 ≤ call.windowMs)
    (h : (c.incrWindow call).2 = .ok wait) :
    c.server.keys.countCall c.server.clock call.key call.limit call.windowMs =
      ((c.incrWindow call).1.server.keys, some (wait : Int)) := by
  rcases incrWindow_cases c call with ⟨-, fault, hfault⟩ | ⟨hkeys, hanswer⟩
  · rw [h] at hfault
    cases hfault
  · rcases hanswer with ⟨answer, hsome, hanswer⟩ | ⟨fault, hfault⟩
    · have hcounted : c.server.keys.countCall c.server.clock call.key call.limit call.windowMs =
        ((c.incrWindow call).1.server.keys, some answer) := Prod.ext hkeys.symm hsome
      obtain ⟨n, deadline, hleft⟩ := left_of_countCall hpos hcounted
      have hwait : wait = remainingMs answer := Except.ok.inj (h.symm.trans hanswer)
      rw [hcounted, hwait, remainingMs, Int.toNat_of_nonneg hleft.answer_nonneg]
    · rw [h] at hfault
      cases hfault

/-- Whatever a server holds, and whatever it does with the commands, one call leaves the other keys
as they are. If it is answered by a wait, the counter has a deadline then, at which it is gone, and
the wait is the time until it; a call answered without a wait is within the limit, and leaves a
deadline that is running. A call is answered wherever one can be added to the counter. -/
theorem incrWindow_leaves_deadline (c : Client) (call : CountedCall) (pos : 1 ≤ call.windowMs) :
    let before := c.server.keys
    let now := c.server.clock
    let after := (c.incrWindow call).1.server.keys
    (∀ wait, (c.incrWindow call).2 = .ok wait → 0 < wait →
      before.Rejected after now call.key call.limit call.windowMs wait) ∧
    ((c.incrWindow call).2 = .ok 0 → before.Admitted after now call.key call.limit) ∧
    before.SameBut call.key after ∧
    (c.Ready [call.conn] → before.Countable now call.key → call.windowMs ≤ longest now →
      ∃ wait, (c.incrWindow call).2 = .ok wait) := by
  intro before now after
  refine ⟨fun wait hwait hpositive => ?_, fun hzero => ?_, ?_, fun ready countable settable => ?_⟩
  · obtain ⟨n, deadline, hleft⟩ := left_of_countCall pos (countCall_of_answered pos hwait)
    exact hleft.rejected pos hpositive
  · obtain ⟨n, deadline, hleft⟩ := left_of_countCall pos (countCall_of_answered pos hzero)
    exact hleft.admitted
  · rcases incrWindow_cases c call with ⟨hkeys, -⟩ | ⟨hkeys, -⟩
    · rw [show after = before from hkeys]
      exact .refl call.key before
    · rw [show after = _ from hkeys]
      exact sameBut_countCall before now call.key call.limit call.windowMs
  · obtain ⟨keys, answer, hcount⟩ := exists_answer call.limit countable settable
    obtain ⟨n, deadline, hleft⟩ := left_of_countCall pos hcount
    have hnat : answer = (answer.toNat : Int) := (Int.toNat_of_nonneg hleft.answer_nonneg).symm
    rw [hnat] at hcount
    exact ⟨_, (ready.incrWindow (List.mem_singleton_self _) hcount).1⟩

/-- A server that does not have the script, on which one counter was left without a deadline and
another was given one by somebody else. -/
def leftovers : Client := { twoConnections with server := { twoConnections.server with
  keys := ⟨.reached, [("stuck", ⟨"7", none⟩), ("foreign", ⟨"7", some 900000⟩)]⟩
  clock := 1000 } }

theorem incrWindow_leaves_deadline_leftovers :
    let stuck : CountedCall := ⟨0, 1000, "stuck", 3, 5000⟩
    let foreign : CountedCall := ⟨1, 1000, "foreign", 3, 5000⟩
    let generous : CountedCall := ⟨1, 1000, "foreign", 8, 5000⟩
    let before := leftovers.server.keys
    (1 ≤ stuck.windowMs ∧ 1 ≤ foreign.windowMs ∧ leftovers.Ready [stuck.conn] ∧
      before.Countable 1000 "stuck" ∧ stuck.windowMs ≤ longest 1000) ∧
    ((leftovers.incrWindow stuck).2 = .ok 5000 ∧
      before.Rejected (leftovers.incrWindow stuck).1.server.keys 1000 "stuck" 3 5000 5000) ∧
    ((leftovers.incrWindow foreign).2 = .ok 899000 ∧
      before.Rejected (leftovers.incrWindow foreign).1.server.keys 1000 "foreign" 3 5000 899000) ∧
    ((leftovers.incrWindow generous).2 = .ok 0 ∧
      before.Admitted (leftovers.incrWindow generous).1.server.keys 1000 "foreign" 8) ∧
    before.SameBut "stuck" (leftovers.incrWindow stuck).1.server.keys ∧
    ∃ wait, (leftovers.incrWindow stuck).2 = .ok wait := by
  intro stuck foreign generous before
  have ready : leftovers.Ready [stuck.conn] := ⟨by decide, by decide, by decide⟩
  have countable : before.Countable 1000 "stuck" := by
    intro e he
    obtain rfl : (⟨"7", none⟩ : Entry) = e := Option.some.inj he
    exact ⟨7, by decide, by decide⟩
  have settable : stuck.windowMs ≤ longest 1000 := by decide
  have hstuck : (leftovers.incrWindow stuck).2 = .ok 5000 := rfl
  have hforeign : (leftovers.incrWindow foreign).2 = .ok 899000 := rfl
  have hgenerous : (leftovers.incrWindow generous).2 = .ok 0 := rfl
  obtain ⟨rejected, -, others, answered⟩ := incrWindow_leaves_deadline leftovers stuck (by decide)
  exact ⟨⟨by decide, by decide, ready, countable, settable⟩,
    ⟨hstuck, rejected 5000 hstuck (by decide)⟩,
    ⟨hforeign, (incrWindow_leaves_deadline leftovers foreign (by decide)).1 899000 hforeign
      (by decide)⟩,
    ⟨hgenerous, (incrWindow_leaves_deadline leftovers generous (by decide)).2.1 hgenerous⟩,
    others, answered ready countable settable⟩

end Client

end Redis

end Turnstile
