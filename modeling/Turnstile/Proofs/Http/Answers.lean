import Turnstile.Proofs.Runs.Conclusions
import Turnstile.Proofs.Window.Rank

/-!
# Faults do not block requests

A request that is limited is answered by the status route itself or refused. It is refused only if
the store has counted its call and found it over the limit, and then the response says how long to
wait; whatever else becomes of the call, the request passes (`Memory.passed_or_refused`). A response
to `HEAD` has no body, so there only the header says it.
-/

namespace Turnstile

namespace Site

/-- Who is charged for a request. -/
def charge (site : Site) (r : Request) : Charge :=
  ⟨r.identity site.policy.trustProxyHeaders, (site.policy.forMethod r.method).1, some r⟩

/-- The limit that a request is under. -/
def limit (site : Site) (r : Request) : Limit := (site.policy.forMethod r.method).2

/-- The response of the status route itself, as it is without a limiter. -/
def own (r : Request) (status : Status) : Response :=
  (Response.ofStatus r.method status).sent r.method

theorem charge?_serve {site : Site} {r : Request} (routed : site.routes r = true) :
    (Job.serve (.ok site) r).charge? = some (site.charge r, site.limit r) := by
  simp only [Job.charge?, if_pos routed]
  rfl

/-- The route has no limits of its own. -/
theorem status_own_ne (r : Request) (status : Status) : (own r status).status ≠ 429 := by
  by_cases h : Response.isServed r.method = true <;>
    simp [own, Response.sent, Response.ofStatus, h]

end Site

/-- A response that refuses a request and says how many seconds to wait: in a header, and in the
body unless it is a response to `HEAD`. -/
structure Response.Refuses (response : Response) (method : String) (seconds : Nat) : Prop where
  status : response.status = 429
  header : ("retry-after", toString seconds) ∈ response.headers
  body : response.body = if method = "HEAD" then "" else (Envelope.failure 429
    ("Rate limit exceeded. Try again in " ++ toString seconds ++ " seconds.")).text

theorem Site.refuses_respond (r : Request) (status : Status) (seconds : Nat) :
    (respond r status (.rejected seconds)).Refuses r.method seconds where
  status := rfl
  header := by
    by_cases h : Response.isServed r.method = true <;>
      simp [respond, Response.sent, Response.tooManyRequests, h]
  body := rfl

namespace Limiter

/-- The verdict that a decision is made from is the last one that the other task has brought. -/
theorem lastOutcome?_eq {σ : Type} (s : Limiter σ) (t : TaskId) :
    s.lastOutcome? t = (s.outcomes t).getLast? := by
  cases h : Table.get? s.tasks t <;> simp [lastOutcome?, outcomes, h]

variable {σ : Type} {s s' : Limiter σ} {t child : TaskId} {c : Charge} {d : Decision}

/-- A task that counts a call and is over has counted it, and the decision is the one that the
verdict asks for; or it has no verdict, and the call passes uncounted. -/
theorem Concluded.cases_evaluation (h : Concluded s s' t child c d) {e : Evaluation}
    {done : List (Job × Outcome)} {undone : List Job}
    (does : s.Does child [.evaluate e] done undone) :
    (∃ count, s.outcomes child = [.ok (.verdict count.verdict)] ∧ s.countsOf child = [count] ∧
      count.key = e.key ∧ count.limit = e.limit ∧ count.windowMs = e.windowMs ∧
      d = count.verdict.decision) ∨
    ((∀ v, s.outcomes child ≠ [.ok (.verdict v)]) ∧ d = .degraded) := by
  have hd := h.decision
  rw [lastOutcome?_eq] at hd
  rcases does.evaluation_cases with ⟨hnone, -⟩ | ⟨count, hcount, hof, hkey, hlimit, hwindow⟩ |
    ⟨f, hfault, -⟩
  · rw [hnone] at hd ⊢
    exact .inr ⟨by simp, hd⟩
  · rw [hcount] at hd
    exact .inl ⟨count, hcount, hof, hkey, hlimit, hwindow, hd.trans (decision_decideOn_ok ..)⟩
  · rw [hfault] at hd ⊢
    exact .inr ⟨by simp, hd⟩

/-- The store has counted the call of a task, found it over the limit, and said how long to wait. -/
structure Exceeded (s : Limiter σ) (child : TaskId) (e : Evaluation) (seconds : Nat) : Prop where
  count : ∃ c earlier, s.countsOf child = [c] ∧ c.key = e.key ∧ c.limit = e.limit ∧
    c.windowMs = e.windowMs ∧ OverLimit (s.countsOn e.key) c earlier ∧
    seconds = max 1 ((c.remainingMs + 999) / 1000)

/-- Who is rejected has been counted and was over the limit. -/
theorem Concluded.exceeded {s s' : Limiter Memory} {n : Nat}
    (h : Concluded s s' t child c (.rejected n)) (counting : Counting s) {limit : Limit}
    {done : List (Job × Outcome)} {undone : List Job}
    (does : s.Does child [.evaluate (c.evaluation limit)] done undone) :
    Exceeded s child (c.evaluation limit) n := by
  rcases h.cases_evaluation does with
    ⟨count, -, hof, hkey, hlimit, hwindow, hdecision⟩ | ⟨-, hdegraded⟩
  · obtain ⟨-, hseconds, hblocked⟩ := Counted.of_rejected hdecision
    have hmem : count ∈ s.countsOf child := hof ▸ List.mem_singleton_self _
    have hon : count ∈ s.countsOn (c.evaluation limit).key := by
      rw [countsOn, List.mem_filter]
      exact ⟨List.mem_of_mem_filter hmem, decide_eq_true hkey⟩
    have room : 0 < count.limit := hlimit ▸ limit.times_pos
    obtain ⟨earlier, hover⟩ := (counting.told _).overLimit hon room hblocked
    exact ⟨count, earlier, hof, hkey, hlimit, hwindow, hover, hseconds⟩
  · cases hdegraded

end Limiter

namespace Memory

/-- In every run, take a request that is limited and has been answered at any later time. Then in
some step its task has concluded. Either the response is the route's own, with the status as it was
after the conclusion, or the store had counted the call for this very request under the key and the
limit of its caller and service, had found it over the limit in an open window, and the response
refuses the request for as many seconds as were left of the window. If no verdict came back, for
whatever reason, the call passed as a degraded one and was recorded as such. -/
theorem passed_or_refused (settings : PoolSettings) (moves more : List (Move MemoryChange))
    {t : TaskId} {now : Time} {jobs : List Job} {i : Nat} {site : Site} {r : Request} {o : Outcome}
    (begun : Table.get? ((Limiter.fresh fresh settings).run surroundings moves).tasks t =
      some (.ofJobs now jobs))
    (request : jobs[i]? = some (.serve (.ok site) r)) (routed : site.routes r = true)
    (answered : ((((Limiter.fresh fresh settings).run surroundings moves).run surroundings
      more).outcomes t)[i]? = some o) :
    ∃ before after child d, more = before ++ .step t :: after ∧
      let s := ((Limiter.fresh fresh settings).run surroundings moves).run surroundings before
      let s' := s.move surroundings (.step t)
      (s.outcomes t).length = i ∧ Limiter.Concluded s s' t child (site.charge r) d ∧
      ((d.isAdmitted = true ∧ o = .ok (.response (Site.own r s'.status)) ∧
          (Site.own r s'.status).status ≠ 429) ∨
        ∃ seconds response, d = .rejected seconds ∧ o = .ok (.response response) ∧
          response.Refuses r.method seconds ∧
          Limiter.Exceeded s child ((site.charge r).evaluation (site.limit r)) seconds) ∧
      ((∀ v, s.outcomes child ≠ [.ok (.verdict v)]) → d = .degraded) := by
  have returned : Limiter.Returned ((Limiter.fresh fresh settings).run surroundings moves) :=
    (Limiter.Returned.invariant surroundings).run (.fresh fresh settings) moves
  obtain ⟨before, after, child, d, hmore, hlength, concluded, rfl, done, undone, hchild⟩ :=
    Limiter.Attends.concluded returned begun more request (Site.charge?_serve routed) answered
  have counting : Limiter.Counting
      (((Limiter.fresh fresh settings).run surroundings moves).run surroundings before) := by
    have whole := Limiter.Counting.invariant.run (.fresh settings) (moves ++ before)
    rwa [Limiter.run_append] at whole
  refine ⟨before, after, child, d, hmore, hlength, concluded, ?_, fun failed => ?_⟩
  · cases d with
    | rejected n =>
      exact .inr ⟨n, _, rfl, rfl, Site.refuses_respond .., concluded.exceeded counting hchild⟩
    | admitted | degraded => exact .inl ⟨rfl, rfl, Site.status_own_ne r _⟩
  · rcases concluded.cases_evaluation hchild with ⟨count, hcount, -⟩ | ⟨-, hdegraded⟩
    · exact absurd hcount (failed _)
    · exact hdegraded

/-- The status route under a base, with one call to read and one to write in a minute. -/
def strictSite : Site where
  route := "/api/rate-limit/status".toList.map .char
  policy :=
    let once : Limit := { Limit.standard with times := 1, times_pos := Nat.one_pos }
    ⟨"status_read", "status_write", once, once, false⟩

/-- A request for the status from somebody who is not known. -/
def statusRequest (method : String) : Request := ⟨method, "/api/rate-limit/status", [], none, none⟩

/-- Somebody asks three times. The second time a second and a half has passed, and the third time
the store is out of reach. -/
def askThreeTimes : List (Move MemoryChange) :=
  [.step 0, .step 1, .step 1, .step 1, .step 0, .pass 1500000, .step 0, .step 2, .step 2, .step 0,
    .tend (.turn (.reachable false)), .step 0, .step 3, .step 3, .step 0]

/-- The second of three requests is refused. -/
theorem passed_or_refused_secondRequest :
    let jobs := List.replicate 3 (Job.serve (.ok strictSite) (statusRequest "GET"))
    let response := (Response.tooManyRequests 59).sent "GET"
    let s := (Limiter.fresh fresh .standard).run surroundings [.start jobs]
    Table.get? s.tasks 0 = some (.ofJobs 0 jobs) ∧
      jobs[1]? = some (.serve (.ok strictSite) (statusRequest "GET")) ∧
      strictSite.routes (statusRequest "GET") = true ∧
      ((s.run surroundings askThreeTimes).outcomes 0)[1]? = some (.ok (.response response)) ∧
      ∃ before after child seconds, askThreeTimes = before ++ .step 0 :: after ∧
        response.Refuses "GET" seconds ∧
        Limiter.Exceeded (s.run surroundings before) child
          ⟨"rl:ip:unknown:status_read", 1, 60000⟩ seconds := by
  intro jobs response s
  have routed : strictSite.routes (statusRequest "GET") = true := by decide +kernel
  have answered : ((s.run surroundings askThreeTimes).outcomes 0)[1]? =
      some (.ok (.response response)) := by decide +kernel
  obtain ⟨before, after, child, d, hmoves, -, -, hcases, -⟩ :=
    passed_or_refused .standard [.start jobs] askThreeTimes (i := 1) rfl rfl routed answered
  refine ⟨rfl, rfl, routed, answered, before, after, child, ?_⟩
  rcases hcases with ⟨-, hown, hstatus⟩ | ⟨seconds, response', -, hresponse, refuses, exceeded⟩
  · -- the route itself does not answer that way
    have hsame : response = _ := Answer.response.inj (Except.ok.inj hown)
    exact absurd (congrArg Response.status hsame).symm hstatus
  · obtain rfl : response = response' := Answer.response.inj (Except.ok.inj hresponse)
    exact ⟨seconds, hmoves, refuses, exceeded⟩

/-- The second of two requests of method `HEAD` is refused by a response that has no number in its
body. -/
theorem refused_without_number :
    let jobs := List.replicate 2 (Job.serve (.ok strictSite) (statusRequest "HEAD"))
    let s := (Limiter.fresh fresh .standard).run surroundings (.start jobs :: askThreeTimes)
    ∃ response, (s.outcomes 0)[1]? = some (.ok (.response response)) ∧
      response.status = 429 ∧ ("retry-after", "59") ∈ response.headers ∧
      ∀ c ∈ response.body.toList, c.isDigit = false := by
  intro jobs s
  have answered : (s.outcomes 0)[1]? = some (.ok (.response
      ⟨429, [Response.jsonType, ("retry-after", "59")], ""⟩)) := by decide +kernel
  exact ⟨_, answered, rfl, by simp, by simp⟩

end Memory

end Turnstile
