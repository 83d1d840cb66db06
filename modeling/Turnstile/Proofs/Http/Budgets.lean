import Turnstile.Proofs.Address
import Turnstile.Proofs.Http.Answers

/-!
# Who shares a budget

Two requests draw on one budget if they are counted under one key. A key is three texts with colons
between them, and an identity may have colons of its own; a service has none, so the last colon of a
key tells where the service begins (`counterKey_inj`). Hence every identity has a budget of its own
for reading and one for writing on every route (`Policy.routes_separate`), and since an address is
known by its text, so does every peer (`Request.peers_separate`). Callers who are known by name are
apart from the peers as long as nobody's name begins as the identity of an address does
(`Request.shares_key_iff`).
-/

namespace Turnstile

/-! ## Keys -/

theorem toList_counterKey (identity service : String) : (counterKey identity service).toList =
    "rl:".toList ++ (identity.toList ++ ':' :: service.toList) := by
  simp [counterKey]

/-- On one service, a key stands for one identity. -/
theorem counterKey_left_inj {i j service : String} :
    counterKey i service = counterKey j service ↔ i = j := by
  rw [counterKey, counterKey, String.append_left_inj, String.append_left_inj,
    String.append_right_inj]

/-- If no separator comes after it, the last one tells two parts apart. -/
theorem append_cons_inj_of_last {α : Type} [DecidableEq α] {sep : α} {xs xs' ys ys' : List α}
    (hys : sep ∉ ys) (hys' : sep ∉ ys') (heq : xs ++ sep :: ys = xs' ++ sep :: ys') :
    xs = xs' ∧ ys = ys' := by
  have hsplit := congrArg (List.splitOn sep) heq
  rw [List.splitOn_append_cons_self, List.splitOn_append_cons_self, List.splitOn_eq_singleton hys,
    List.splitOn_eq_singleton hys'] at hsplit
  obtain rfl : ys = ys' := List.singleton_inj.mp (List.append_inj_right' hsplit rfl)
  exact ⟨List.append_cancel_right heq, rfl⟩

/-- A key stands for one identity and one service, unless the service has a colon in it. -/
theorem counterKey_inj {i j a b : String} (ha : ':' ∉ a.toList) (hb : ':' ∉ b.toList) :
    counterKey i a = counterKey j b ↔ i = j ∧ a = b := by
  constructor
  · intro heq
    have hchars := congrArg String.toList heq
    rw [toList_counterKey, toList_counterKey] at hchars
    obtain ⟨hidentity, hservice⟩ :=
      append_cons_inj_of_last ha hb (List.append_cancel_left hchars)
    exact ⟨String.toList_inj.mp hidentity, String.toList_inj.mp hservice⟩
  · rintro ⟨rfl, rfl⟩
    rfl

/-! ## Routes -/

namespace Policy

/-- The end of the name of the service that a method belongs to. -/
def suffix (method : String) : String := if isReading method then "_read" else "_write"

/-- The key under which a call of an identity is counted. -/
def keyFor (p : Policy) (identity method : String) : String :=
  counterKey identity (p.forMethod method).1

theorem forMethod_perMinute {route : String} {limits : LimitSettings} {p : Policy}
    (accepted : perMinute route limits = .ok p) (method : String) :
    (p.forMethod method).1 = route ++ suffix method := by
  unfold perMinute at accepted
  cases hread : Limit.perMinute limits.readPerMin with
  | error e => simp [hread, bind, Except.bind] at accepted
  | ok read =>
    cases hwrite : Limit.perMinute limits.writePerMin with
    | error e => simp [hread, hwrite, bind, Except.bind] at accepted
    | ok write =>
      simp only [hread, hwrite, bind, Except.bind, pure, Except.pure, Except.ok.injEq] at accepted
      subst accepted
      unfold forMethod suffix
      split <;> rfl

theorem colon_not_mem_suffix (method : String) : ':' ∉ (suffix method).toList := by
  unfold suffix
  split <;> decide

/-- The services of two routes are the same only if the routes are, and only for methods of one
kind: their ends are of different letters. -/
theorem append_suffix_inj {a b m n : String} : a ++ suffix m = b ++ suffix n ↔
    a = b ∧ (isReading m = true ↔ isReading n = true) := by
  constructor
  · intro heq
    have hlast := congrArg (fun s : String => s.toList.getLast?) heq
    have hkind : isReading m = true ↔ isReading n = true := by
      cases hm : isReading m <;> cases hn : isReading n <;>
        simp [suffix, hm, hn] at hlast ⊢
    have hsuffix : suffix m = suffix n := by simp only [suffix, hkind]
    rw [hsuffix] at heq
    exact ⟨(String.append_left_inj (suffix n)).mp heq, hkind⟩
  · rintro ⟨rfl, hkind⟩
    simp only [suffix, hkind]

/-- The budget that a call is charged to says who has made it, on which route, and whether to read
or to write, whatever characters the identities are made of and whatever limits are set. -/
theorem routes_separate {a b : String} {limits limits' : LimitSettings} {p q : Policy}
    (ha : ':' ∉ a.toList) (hb : ':' ∉ b.toList) (accepted : perMinute a limits = .ok p)
    (accepted' : perMinute b limits' = .ok q) (i j m n : String) :
    p.keyFor i m = q.keyFor j n ↔
      i = j ∧ a = b ∧ (m ∈ ["GET", "HEAD", "OPTIONS"] ↔ n ∈ ["GET", "HEAD", "OPTIONS"]) := by
  have hcolon : ∀ {route : String}, ':' ∉ route.toList → ∀ method,
      ':' ∉ (route ++ suffix method).toList := by
    intro route hroute method
    rw [String.toList_append, List.mem_append]
    rintro (hmem | hmem)
    · exact hroute hmem
    · exact colon_not_mem_suffix method hmem
  rw [keyFor, keyFor, forMethod_perMinute accepted, forMethod_perMinute accepted',
    counterKey_inj (hcolon ha m) (hcolon hb n), append_suffix_inj]
  simp only [isReading, decide_eq_true_eq]

/-- The name of one route may be the name of a service of another. -/
theorem routes_separate_nested :
    ∃ p q, perMinute "todo" ⟨1, 1, false⟩ = .ok p ∧ perMinute "todo_read" ⟨9, 5, true⟩ = .ok q ∧
      ':' ∉ "todo".toList ∧ ':' ∉ "todo_read".toList ∧
      p.keyFor "ip:::1" "GET" ≠ q.keyFor "ip:::1" "PUT" ∧
      p.keyFor "ip:::1" "GET" = p.keyFor "ip:::1" "OPTIONS" := by
  have hroute : ':' ∉ "todo".toList := by decide
  have hnested : ':' ∉ "todo_read".toList := by decide
  obtain ⟨p, hp⟩ : ∃ p, perMinute "todo" ⟨1, 1, false⟩ = .ok p := ⟨_, rfl⟩
  obtain ⟨q, hq⟩ : ∃ q, perMinute "todo_read" ⟨9, 5, true⟩ = .ok q := ⟨_, rfl⟩
  refine ⟨p, q, hp, hq, hroute, hnested, ?_, ?_⟩
  · intro heq
    have hsame := (routes_separate hroute hnested hp hq "ip:::1" "ip:::1" "GET" "PUT").mp heq
    exact absurd hsame.2.1 (by decide)
  · exact (routes_separate hroute hroute hp hp "ip:::1" "ip:::1" "GET" "OPTIONS").mpr
      ⟨rfl, rfl, by decide⟩

end Policy

/-- For a request that a site limits, a task is started to count the call under the key of the
site's policy. -/
theorem Site.begin_serve {σ : Type} {site : Site} {r : Request} (routed : site.routes r = true)
    (B : Backend σ) (s : Limiter σ) (t : TaskId) :
    ∃ e, e.key = site.policy.keyFor (r.identity site.policy.trustProxyHeaders) r.method ∧
      s.begin B t (.serve (.ok site) r) =
        (s.start [.evaluate e]).1.setStage t (.awaiting (site.charge r) s.nextTask) := by
  refine ⟨(site.charge r).evaluation (site.limit r), rfl, ?_⟩
  rw [Limiter.begin_of_charge? (Site.charge?_serve routed), Limiter.charge_eq]

/-! ## Callers and peers -/

namespace Request

/-- A known caller shares its budgets with those requests of nobody known whose identity is its own
name, and so with none if its name does not begin as the identity of an address does. -/
theorem shares_key_iff {r r' : Request} {caller : String} (known : r.caller = some caller)
    (unknown : r'.caller = none) (trust trust' : Bool) (service : String) :
    (counterKey (r.identity trust) service = counterKey (r'.identity trust') service ↔
      caller = addressIdentity (r'.chargedAddress trust')) ∧
    (¬ "ip:".toList <+: caller.toList →
      counterKey (r.identity trust) service ≠ counterKey (r'.identity trust') service) := by
  have hiff : counterKey (r.identity trust) service = counterKey (r'.identity trust') service ↔
      caller = addressIdentity (r'.chargedAddress trust') := by
    rw [counterKey_left_inj, identity_of_caller known]
    simp only [identity, unknown]
  refine ⟨hiff, ?_⟩
  intro hname heq
  apply hname
  rw [hiff.mp heq, addressIdentity, String.toList_append]
  exact List.prefix_append ..

/-- A caller whose name is an address is not taken for the peer with that address. -/
theorem shares_key_iff_dottedName :
    let r := { Memory.statusRequest "GET" with caller := some "10.0.0.1" }
    let r' := { Memory.statusRequest "GET" with peer := some (.v4 10 0 0 1) }
    r.caller = some "10.0.0.1" ∧ r'.caller = none ∧ ¬ "ip:".toList <+: "10.0.0.1".toList ∧
      counterKey (r.identity true) "todo_read" ≠ counterKey (r'.identity false) "todo_read" := by
  have hname : ¬ "ip:".toList <+: "10.0.0.1".toList := by decide
  exact ⟨rfl, rfl, hname, (shares_key_iff rfl rfl true false "todo_read").2 hname⟩

/-- A caller whose name is the identity of an address is counted under the keys of the peer with
that address. Once it has used up the budget, the peer is refused without having called before. -/
theorem shares_key_addressedName :
    let r := { Memory.statusRequest "GET" with caller := some "ip:10.0.0.1" }
    let r' := { Memory.statusRequest "GET" with peer := some (.v4 10 0 0 1) }
    let s := (Limiter.fresh Memory.fresh .standard).run Memory.surroundings
      (.start [.serve (.ok Memory.strictSite) r, .serve (.ok Memory.strictSite) r'] ::
        Memory.askThreeTimes)
    r.caller = some "ip:10.0.0.1" ∧ r'.caller = none ∧
      counterKey (r.identity false) "status_read" = counterKey (r'.identity false) "status_read" ∧
      (s.outcomes 0)[1]? = some (.ok (.response ((Response.tooManyRequests 59).sent "GET"))) := by
  intro r r' s
  have refused : (s.outcomes 0)[1]? =
      some (.ok (.response ((Response.tooManyRequests 59).sent "GET"))) := by decide +kernel
  exact ⟨rfl, rfl, by decide +kernel, refused⟩

theorem identity_of_peer {r : Request} {a : Address} (unknown : r.caller = none)
    (peer : r.peer = some a) : r.identity false = addressIdentity a.text := by
  simp [identity, chargedAddress, unknown, peer, Address.trim_text]

theorem addressIdentity_injective : Function.Injective addressIdentity := by
  intro address address' heq
  exact (String.append_right_inj "ip:").mp heq

/-- Where proxies are not believed, requests of nobody known have the same identity if and only if
their peers have the same address, and a peer is never taken for one that is not known. -/
theorem peers_separate {r r' : Request} {a a' : Address} (unknown : r.caller = none)
    (unknown' : r'.caller = none) (peer : r.peer = some a) (peer' : r'.peer = some a') :
    (r.identity false = r'.identity false ↔ a = a') ∧
    ∀ q : Request, q.caller = none → q.peer = none →
      q.identity false = "ip:unknown" ∧ r.identity false ≠ q.identity false := by
  rw [identity_of_peer unknown peer, identity_of_peer unknown' peer']
  constructor
  · constructor
    · intro heq
      exact Address.text_injective (addressIdentity_injective heq)
    · rintro rfl
      rfl
  · intro q hcaller hpeer
    have hq : q.identity false = addressIdentity unknownAddress := by
      simp [identity, chargedAddress, hcaller, hpeer]
    refine ⟨hq, ?_⟩
    rw [hq]
    intro heq
    -- an address is written without the letter `u`
    have hletter : ∀ c ∈ a.text.toList, 'u' ≠ c :=
      Address.forall_mem_text (by decide) (by decide) (by decide) a
    rw [addressIdentity_injective heq] at hletter
    exact hletter 'u' (by decide) rfl

/-- An address of the fourth version and the address of the sixth that carries it have budgets of
their own. -/
theorem peers_separate_mapped :
    let r := { Memory.statusRequest "GET" with peer := some (.v4 1 2 3 4) }
    let r' := { Memory.statusRequest "GET" with peer := some (.v6 0 0 0 0 0 0xFFFF 0x102 0x304) }
    r.caller = none ∧ r'.caller = none ∧ r.peer = some (.v4 1 2 3 4) ∧
      r'.peer = some (.v6 0 0 0 0 0 0xFFFF 0x102 0x304) ∧
      r.identity false ≠ r'.identity false ∧ r.identity false ≠ "ip:unknown" := by
  intro r r'
  have hpeers := peers_separate (show r.caller = none from rfl) (show r'.caller = none from rfl)
    rfl rfl
  refine ⟨rfl, rfl, rfl, rfl, ?_, (hpeers.2 (Memory.statusRequest "GET") rfl rfl).2⟩
  intro heq
  cases hpeers.1.mp heq

end Request

end Turnstile
