import Turnstile.Proofs.Redis.Agreement
import Turnstile.Proofs.Window.Refinement
import Turnstile.Redis.Client

/-!
# The script and the store in memory

Calls are counted over connections to a server, by the script, which a server that does not have it
is given. The server answers them as the store in memory does (`Client.answers_eq_memory`), although
the one keeps numbers in text under keys that go by themselves, and the other windows that it sweeps
out now and then. Either forgets a window at the very instant at which it is over.
-/

namespace Turnstile

namespace Redis

/-- A call on a key, made on a connection at a millisecond. -/
structure CountedCall where
  conn : ConnId
  ms : Nat
  key : String
  limit : Nat
  windowMs : Nat
deriving DecidableEq, Repr

/-- The same call on a store in memory. -/
def CountedCall.inMemory (call : CountedCall) : Time × StoreCall :=
  (call.ms * usPerMs, .count call.key call.limit call.windowMs)

namespace Server

/-- Whether the server carries out what a client needs to have calls counted. -/
structure Willing (s : Server) : Prop where
  evalSha : s.stalled.contains "EVALSHA" = false ∧ s.failing.contains "EVALSHA" = false
  scriptLoad : s.stalled.contains "SCRIPT" = false ∧ s.failing.contains "SCRIPT" = false

variable {s : Server}

theorem Willing.receive_evalSha (hs : s.Willing) (trusted : Bool) (key : String)
    (limit windowMs : Nat) :
    s.receive trusted (.evalSha key limit windowMs) =
      { s with received := .evalSha key limit windowMs :: s.received }.execute trusted
        (.evalSha key limit windowMs) := by
  simp only [receive, Request.name, hs.evalSha, Bool.false_eq_true, if_false]

theorem Willing.receive_scriptLoad (hs : s.Willing) (trusted : Bool) :
    s.receive trusted .scriptLoad =
      { s with received := .scriptLoad :: s.received }.execute trusted .scriptLoad := by
  simp only [receive, Request.name, hs.scriptLoad, Bool.false_eq_true, if_false]

end Server

namespace Client

/-- Has a call counted and waits for the answer. -/
def incrWindow (c : Client) (call : CountedCall) : Client × Reply :=
  ((c.start call.conn (.count call.key call.limit call.windowMs)).1).finish call.conn

/-- The answers to calls, each made when the server's clock shows its time. -/
def answers (c : Client) : List CountedCall → List Reply
  | [] => []
  | call :: rest =>
    let c := { c with server := { c.server with clock := call.ms } }
    (c.incrWindow call).2 :: answers (c.incrWindow call).1 rest

/-- Whether calls can be counted on the connections: the password was shown on them, and the server
is willing. -/
structure Ready (c : Client) (conns : List ConnId) : Prop where
  trusted : ∀ conn ∈ conns, Table.get? c.connections conn = some true
  willing : c.server.Willing

variable {c : Client} {conns : List ConnId}

/-- A server that has the script runs it. -/
theorem send_evalSha (hs : c.server.Willing) (hscript : c.server.hasScript = true) {key : String}
    {limit windowMs : Nat} {n : Int} {keys : Keyspace}
    (hcount : c.server.keys.countCall c.server.clock key limit windowMs = (keys, some n)) :
    c.send true (.evalSha key limit windowMs) = ({ c with server := { c.server with
      keys, received := .evalSha key limit windowMs :: c.server.received } }, .number n) := by
  simp [send, hs.receive_evalSha, Server.execute, hscript, hcount]

/-- A server that does not have the script is given it, so a call is counted in any case. -/
theorem count_eq (hs : c.server.Willing) {key : String} {limit windowMs : Nat} {n : Int}
    {keys : Keyspace}
    (hcount : c.server.keys.countCall c.server.clock key limit windowMs = (keys, some n)) :
    ∃ received, c.count true key limit windowMs =
      ({ c with server := { c.server with keys, hasScript := true, received } }, .number n) := by
  let run : Request := .evalSha key limit windowMs
  cases hscript : c.server.hasScript with
  | true =>
    refine ⟨run :: c.server.received, ?_⟩
    rw [count, send_evalSha hs hscript hcount, ← hscript]
  | false =>
    let asked : Client := { c with
      server := { c.server with received := run :: c.server.received } }
    let loaded : Client := { asked with server := { asked.server with
      hasScript := true, received := .scriptLoad :: asked.server.received } }
    have hasked : c.send true run = (asked, .noScript) := by
      simp [send, run, asked, hs.receive_evalSha, Server.execute, hscript]
    have hwilling : asked.server.Willing := ⟨hs.evalSha, hs.scriptLoad⟩
    have hload : asked.send true .scriptLoad = (loaded, .ok) := by
      simp [send, loaded, hwilling.receive_scriptLoad, Server.execute]
    have hrun := send_evalSha (c := loaded) ⟨hs.evalSha, hs.scriptLoad⟩ rfl hcount
    refine ⟨run :: loaded.server.received, ?_⟩
    rw [count, hasked]
    dsimp only
    rw [hload]
    exact hrun

/-- What a call leads to that is made on a connection which is ready. -/
theorem Ready.incrWindow (ready : c.Ready conns) {call : CountedCall} (hconn : call.conn ∈ conns)
    {n : Nat} {keys : Keyspace}
    (hcount : c.server.keys.countCall c.server.clock call.key call.limit call.windowMs =
      (keys, some (n : Int))) :
    (c.incrWindow call).2 = .ok n ∧ (c.incrWindow call).1.server.keys = keys ∧
      (c.incrWindow call).1.Ready conns := by
  obtain ⟨received, heq⟩ := count_eq ready.willing hcount
  have hstart : c.start call.conn (.count call.key call.limit call.windowMs) =
      (({ c with server := { c.server with keys, hasScript := true, received } } : Client).note
        call.conn (.ok n), .none) := by
    simp only [start, ready.trusted call.conn hconn, heq, settle]
    rfl
  rw [Client.incrWindow, hstart]
  refine ⟨?_, rfl, ready.trusted, ready.willing.evalSha, ready.willing.scriptLoad⟩
  simp [finish, note]

/-- Whether the deadline that a call may set is one that a server can set. -/
def Settable (call : CountedCall) : Prop :=
  1 ≤ call.windowMs ∧ call.windowMs ≤ Keyspace.longest call.ms

/-- As long as no counter can overflow, calls are answered as the reference answers them, and every
one of them is answered. -/
theorem answers_of_agrees (ready : c.Ready conns) {past : History} {start : Nat}
    (ha : c.server.keys.Agrees past start) (calls : List CountedCall)
    (hconns : ∀ call ∈ calls, call.conn ∈ conns) (hset : ∀ call ∈ calls, Settable call)
    (hroom : (past.length + calls.length : Int) ≤ Text.maxI64)
    (hle : ∀ call ∈ calls, start ≤ call.ms) (ordered : (calls.map (·.ms)).Pairwise (· ≤ ·)) :
    ∃ values : List Nat, c.answers calls = values.map .ok ∧
      Reference.answers past (calls.map CountedCall.inMemory) =
        values.map fun n => some (.counted (.ok n)) := by
  induction calls generalizing c past start with
  | nil => exact ⟨[], rfl, rfl⟩
  | cons call rest ih =>
    simp only [List.map_cons, List.pairwise_cons, List.mem_map, forall_exists_index, and_imp,
      forall_apply_eq_imp_iff₂] at ordered
    simp only [List.forall_mem_cons] at hconns hset hle
    rw [List.length_cons] at hroom
    let now : Client := { c with server := { c.server with clock := call.ms } }
    have hnow : now.Ready conns := ⟨ready.trusted, ready.willing.evalSha, ready.willing.scriptLoad⟩
    have hagrees : now.server.keys.Agrees past call.ms := Keyspace.Agrees.later ha hle.1
    obtain ⟨keys, hcount, hnext⟩ :=
      hagrees.countCall call.key call.limit hset.1.1 hset.1.2 (by omega)
    obtain ⟨hreply, hkeys, hready⟩ := hnow.incrWindow hconns.1 hcount
    -- the rest of the calls find the history with this call at its end
    obtain ⟨values, hvalues, hreference⟩ := ih hready (hkeys ▸ hnext) hconns.2 hset.2
      (by rw [List.length_append, List.length_singleton]; omega) ordered.1 ordered.2
    refine ⟨(Span.next (past.span? call.key) ⟨call.ms * usPerMs, call.windowMs⟩).answer
      (call.ms * usPerMs) call.limit :: values, ?_, ?_⟩
    · rw [answers, List.map_cons, ← hvalues, ← hreply]
    · rw [List.map_cons, List.map_cons, ← hreference]
      rfl

/-- A server on which keys go when their deadline is reached, and a store in memory that works, both
with nothing in them, have the same calls counted: on whatever keys and connections, at whole
milliseconds that do not go back. The deadlines are such as a server can set, and there are no more
calls than a counter can count. Then both answer every call, and they answer alike. -/
theorem answers_eq_memory (c : Client) (m : Memory) (calls : List CountedCall)
    (ready : c.Ready (calls.map (·.conn))) (works : m.Works)
    (newServer : c.server.keys = .empty .reached) (newStore : m.store = .empty)
    (ordered : (calls.map (·.ms)).Pairwise (· ≤ ·)) (settable : ∀ call ∈ calls, Settable call)
    (few : (calls.length : Int) ≤ Text.maxI64) :
    ∃ values : List Nat, c.answers calls = values.map .ok ∧
      m.answers (calls.map CountedCall.inMemory) =
        values.map fun n => some (.counted (.ok n)) := by
  have hserver : c.server.keys.Agrees [] 0 := newServer ▸ Keyspace.agrees_empty 0
  have hstore : m.store.Agrees [] 0 := newStore ▸ Store.agrees_empty 0
  have htimes : ((calls.map CountedCall.inMemory).map (·.1)).Pairwise (· ≤ ·) := by
    rw [List.map_map]
    rw [List.pairwise_map] at ordered ⊢
    exact ordered.imp fun h => Nat.mul_le_mul_right _ h
  obtain ⟨values, hvalues, hreference⟩ := answers_of_agrees ready hserver calls
    (fun call hcall => List.mem_map_of_mem hcall) settable (by simpa using few)
    (fun call _ => Nat.zero_le call.ms) ordered
  refine ⟨values, hvalues, Eq.trans ?_ hreference⟩
  exact Memory.answers_eq_of_agrees works hstore _ (fun call _ => Nat.zero_le call.1) htimes

/-- Calls on two keys over two connections: the last one comes at the very end of a window, under
another limit and with another length than those before. -/
def callsOnTwoKeys : List CountedCall :=
  [⟨0, 0, "a", 1, 1000⟩, ⟨1, 400, "a", 1, 5000⟩, ⟨0, 400, "b", 0, 500⟩, ⟨1, 1000, "a", 2, 2000⟩]

/-- A client with two connections to a server that does not have the script. -/
def twoConnections : Client where
  server := { Server.fresh none with keys := .empty .reached }
  linked := true
  url := ⟨"localhost", 6379, 0, "", none⟩
  connectTimeoutMs := 1000
  commandTimeoutMs := 1000
  connections := [(0, true), (1, true)]
  replies := []

theorem answers_eq_memory_callsOnTwoKeys :
    (twoConnections.Ready (callsOnTwoKeys.map (·.conn)) ∧ Memory.fresh.Works ∧
      (callsOnTwoKeys.map (·.ms)).Pairwise (· ≤ ·) ∧ (∀ call ∈ callsOnTwoKeys, Settable call) ∧
      (callsOnTwoKeys.length : Int) ≤ Text.maxI64) ∧
    twoConnections.answers callsOnTwoKeys = [.ok 0, .ok 600, .ok 500, .ok 0] ∧
      Memory.fresh.answers (callsOnTwoKeys.map CountedCall.inMemory) =
        [0, 600, 500, 0].map fun n => some (.counted (.ok n)) := by
  have ready : twoConnections.Ready (callsOnTwoKeys.map (·.conn)) :=
    ⟨by decide, by decide, by decide⟩
  have ordered : (callsOnTwoKeys.map (·.ms)).Pairwise (· ≤ ·) := by decide
  have settable : ∀ call ∈ callsOnTwoKeys, Settable call := by
    simp [callsOnTwoKeys, Settable, Keyspace.longest]
  have few : (callsOnTwoKeys.length : Int) ≤ Text.maxI64 := by decide
  obtain ⟨values, hserver, hmemory⟩ := answers_eq_memory twoConnections Memory.fresh callsOnTwoKeys
    ready ⟨rfl, rfl⟩ rfl rfl ordered settable few
  have hvalues : values.map .ok = ([0, 600, 500, 0].map .ok : List Reply) :=
    hserver.symm.trans rfl
  obtain rfl : values = [0, 600, 500, 0] :=
    (List.map_inj_right fun _ _ h => Except.ok.inj h).mp hvalues
  exact ⟨⟨ready, ⟨rfl, rfl⟩, ordered, settable, few⟩, hserver, hmemory⟩

end Client

end Redis

end Turnstile
