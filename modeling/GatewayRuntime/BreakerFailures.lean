import GatewayRuntime.OutboundClient

/-!
# Calls that fail before anything is sent

A call of the client stack can fail before a request leaves the gateway: the body
cannot be marshalled, the request cannot be built, or the token source has no
token for the session.  `unsentError` reads this error off the arguments of the
call and off what its first attempt meets, and `unsent_failure_iff` shows that
these are exactly such failures.

The breaker takes such an error for a failure of the upstream unless
`isCircuitFailure` says otherwise.  `unsent_failures_spare_breaker_iff` says in
which runs of a stack the failures of this kind leave the breaker alone, and that
in these they reject nobody.
-/

namespace GatewayRuntime
namespace Outbound

section Unsent

variable {c : Client} {env : Env} {call : Call} {body : Bytes} {n : Nat} {e : Err}

/-- No request was sent. -/
def Unsent (t : Traced Action Err Unit) : Prop :=
  ∀ req, Action.send req ∉ t.calls

/-- The error of `newRequest` in attempt `n`. -/
def newRequestError (c : Client) (env : Env) (call : Call) (n : Nat) : Option Err :=
  match env.buildError call.method (requestPath c call.path) with
  | some e => some e
  | none =>
      if usesToken c call then
        match (env.exchange n).token with
        | .error e => some e
        | .ok _ => none
      else none

/-- The error with which a call fails before anything is sent. -/
def unsentError (c : Client) (env : Env) (call : Call) : Option Err :=
  match call.input with
  | some (.error e) => some e
  | _ => newRequestError c env call 0

theorem newRequest_result_error_iff (body : Bytes) :
    (newRequest c env call body n).result = .error e ↔ newRequestError c env call n = some e := by
  unfold newRequest newRequestError
  cases env.buildError call.method (requestPath c call.path) with
  | some e' =>
      simp [Traced.stop]
  | none =>
      cases huses : usesToken c call with
      | false =>
          simp [Traced.done]
      | true =>
          cases (env.exchange n).token with
          | error e' =>
              simp [Traced.stop]
          | ok token =>
              simp [Traced.done]

/-- Building a request sends nothing. -/
theorem send_notMem_newRequest (req : Request) :
    Action.send req ∉ (newRequest c env call body n).calls := by
  unfold newRequest
  cases env.buildError call.method (requestPath c call.path) with
  | some e' =>
      simp [Traced.stop]
  | none =>
      cases huses : usesToken c call with
      | false =>
          simp [Traced.done]
      | true =>
          cases (env.exchange n).token <;> simp [Traced.stop, Traced.done]

/-- The loop fails without a request sent exactly if its first `newRequest`
fails. -/
theorem unsent_loop_iff {remaining : Nat} :
    (Unsent (attemptLoop c env call body (remaining + 1) n none) ∧
        (attemptLoop c env call body (remaining + 1) n none).result = .error e) ↔
      newRequestError c env call n = some e := by
  rw [← newRequest_result_error_iff body]
  unfold attemptLoop
  cases hreq : (newRequest c env call body n).result with
  | error e' =>
      rw [Traced.bind_of_error hreq]
      constructor
      · rintro ⟨-, hresult⟩
        cases hresult
        rfl
      · intro hresult
        cases hresult
        exact ⟨fun req => send_notMem_newRequest req, rfl⟩
  | ok req =>
      rw [Traced.bind_of_ok hreq]
      refine iff_of_false ?_ (by simp)
      rintro ⟨hunsent, -⟩
      apply hunsent req
      simp

/-- **The failures before anything is sent**, for a client that makes at least
one attempt. -/
theorem unsent_failure_iff (hattempts : 0 < (attempts c call.method).toInt) :
    (Unsent (doJSON c env call) ∧ (doJSON c env call).result = .error e) ↔
      unsentError c env call = some e := by
  obtain ⟨remaining, hremaining⟩ : ∃ k, (attempts c call.method).toInt.toNat = k + 1 :=
    ⟨(attempts c call.method).toInt.toNat - 1, by omega⟩
  unfold doJSON unsentError
  rw [hremaining]
  cases call.input with
  | none =>
      exact unsent_loop_iff
  | some marshalled =>
      cases marshalled with
      | error e' =>
          simp [Unsent, Traced.stop]
      | ok body =>
          exact unsent_loop_iff

/-- The observed client returns what the client returns. -/
theorem upstream_result (s : JSONClient) :
    (s.upstream env call).result = (doJSON s.client env call).result := by
  unfold JSONClient.upstream observedDoJSON
  split_ifs <;> rfl

/-- The observed client sends what the client sends. -/
theorem unsent_upstream_iff (s : JSONClient) :
    Unsent (s.upstream env call) ↔ Unsent (doJSON s.client env call) := by
  unfold JSONClient.upstream observedDoJSON Unsent
  split_ifs <;> simp

/-- `outbound.New` allows one retry, so a stack always makes an attempt. -/
theorem attempts_pos_of_new
    {parse : String → Option BaseURL} {deps : RouterDeps} {serviceName baseURL : String}
    {opts : ClientOptions} {s : JSONClient}
    (hnew : newJSONClient parse deps serviceName baseURL opts = .ok s) (method : String) :
    0 < (attempts s.client method).toInt := by
  have hretries : s.client.maxRetries = 1 := by
    unfold newJSONClient newClient at hnew
    cases hparse : parse (GoText.trimRight baseURL '/') with
    | none =>
        rw [hparse] at hnew
        cases hnew
    | some u =>
        simp only [hparse] at hnew
        split_ifs at hnew
        · cases hnew
        · cases hnew
          rfl
  unfold attempts
  rw [hretries]
  split_ifs <;> decide

end Unsent

section Harm

/-- The breaker counts no further failure, does not open, and does not reopen
when it is half open. -/
structure Unharmed (b b' : Breaker) : Prop where
  failures : b'.failures ≤ b.failures
  closed : b.opened = false → b'.opened = false
  halfOpen : b.halfOpen = true → b'.opened = true → b'.halfOpen = true

/-- A result spares the breaker if it is not a circuit failure.  The other case
is a failed probe at the zero Time, which the breaker takes for closed. -/
theorem afterResult_unharmed_iff
    (p : Protection) (now : Int) (b : Breaker) (err : Option Err) :
    Unharmed b (afterResult p now b err) ↔
      isCircuitFailure err = false ∨
        (b.halfOpen = true ∧ now = 0 ∧ p.threshold ≤ b.failures) := by
  cases hfailure : isCircuitFailure err with
  | false =>
      rw [afterResult_of_not_failure hfailure]
      refine iff_of_true ⟨?_, ?_, ?_⟩ (Or.inl rfl)
      · exact Nat.zero_le _
      · intro _
        rfl
      · intro _ hopen
        cases hopen
  | true =>
      cases hhalf : b.halfOpen with
      | true =>
          rw [afterResult_of_failed_probe hfailure hhalf]
          constructor
          · intro hunharmed
            refine Or.inr ⟨rfl, ?_, hunharmed.failures⟩
            by_contra hnow
            have hreopened :=
              hunharmed.halfOpen hhalf (by simp [Breaker.opened, GoTime.isZero, hnow])
            cases hreopened
          · rintro (hfalse | ⟨-, rfl, hle⟩)
            · cases hfalse
            · refine ⟨hle, ?_, ?_⟩
              · intro _
                rfl
              · intro _ hopen
                cases hopen
      | false =>
          refine iff_of_false ?_ (by simp)
          intro hunharmed
          have hcount := hunharmed.failures
          rw [failures_afterResult_of_failure hfailure hhalf] at hcount
          omega

end Harm

section Runs

variable {s : JSONClient} {sw sw' : StackWorld} {e : StackEvent}

/-- Call `i` has its answer, and failed before anything was sent. -/
def FailedUnsent (s : JSONClient) (sw : StackWorld) (i : Nat) : Prop :=
  ∃ env call err, sw.asked i = some (env, call) ∧
    Unsent (s.upstream env call) ∧ (s.upstream env call).result = .error err

/-- In every step of the run, the report of a call that failed before anything
was sent leaves the breaker unharmed. -/
def BreakerSpared (s : JSONClient) (sw₀ : StackWorld) (es : List StackEvent) : Prop :=
  Run.Guarded (stackStep s)
    (fun sw e => ∀ i sw', e = .finish i → stackStep s sw e = some sw' → FailedUnsent s sw i →
      Unharmed sw.world.breaker sw'.world.breaker) sw₀ es

/-- Every call that reports in the run failed before anything was sent. -/
def OnlyUnsentFailures (s : JSONClient) (sw₀ : StackWorld) (es : List StackEvent) : Prop :=
  Run.Guarded (stackStep s) (fun sw e => ∀ i, e = .finish i → FailedUnsent s sw i) sw₀ es

/-- The error of the token source, of marshalling or of building the request is
not a circuit failure; or a probe ends at the zero Time with the failures at the
threshold. -/
def sparesCircuit (s : JSONClient) (sw : StackWorld) : StackEvent → Bool
  | .finish i =>
      match sw.asked i with
      | some (env, call) =>
          !isCircuitFailure (unsentError s.client env call) ||
            (sw.world.breaker.halfOpen && GoTime.isZero sw.world.now &&
              decide (s.protection.threshold ≤ sw.world.breaker.failures))
      | none => true
  | _ => true

theorem sparesCircuit_finish_iff
    {i : Nat} {env : Env} {call : Call} (hasked : sw.asked i = some (env, call)) :
    sparesCircuit s sw (.finish i) = true ↔
      isCircuitFailure (unsentError s.client env call) = false ∨
        (sw.world.breaker.halfOpen = true ∧ sw.world.now = 0 ∧
          s.protection.threshold ≤ sw.world.breaker.failures) := by
  simp [sparesCircuit, hasked, GoTime.isZero, and_assoc]

/-- The effect of a report on the breaker. -/
theorem finish_breaker
    {i : Nat} {env : Env} {call : Call}
    (hrecorded : Recorded s sw)
    (hasked : sw.asked i = some (env, call))
    (h : stackStep s sw (.finish i) = some sw') :
    sw'.world.breaker =
      afterResult s.protection sw.world.now sw.world.breaker
        (errorOf (s.upstream env call).result) := by
  cases step_effect (stackStep_success h).1 with
  | finish _ err probe hpc _ hbreaker =>
      obtain ⟨env', call', hasked', rfl⟩ := hrecorded i probe err hpc
      rw [hasked] at hasked'
      cases hasked'
      exact hbreaker

/-- **One report** spares the breaker exactly under the condition, if it is that
of a call that failed before anything was sent; for other calls the condition
holds. -/
theorem spared_iff_sparesCircuit
    (hattempts : ∀ method, 0 < (attempts s.client method).toInt)
    (hrecorded : Recorded s sw)
    (h : stackStep s sw e = some sw') :
    (∀ i sw', e = .finish i → stackStep s sw e = some sw' → FailedUnsent s sw i →
        Unharmed sw.world.breaker sw'.world.breaker) ↔
      sparesCircuit s sw e = true := by
  cases e with
  | finish i =>
      obtain ⟨env, call, hasked⟩ : ∃ env call, sw.asked i = some (env, call) := by
        cases step_effect (stackStep_success h).1 with
        | finish _ err probe hpc _ _ =>
            obtain ⟨env, call, hasked, -⟩ := hrecorded i probe err hpc
            exact ⟨env, call, hasked⟩
      have hbreaker := finish_breaker hrecorded hasked h
      rw [sparesCircuit_finish_iff hasked]
      have hunsent : ∀ err, (Unsent (s.upstream env call) ∧
          (s.upstream env call).result = .error err) ↔
            unsentError s.client env call = some err := by
        intro err
        rw [unsent_upstream_iff, upstream_result]
        exact unsent_failure_iff (hattempts call.method)
      cases herror : unsentError s.client env call with
      | none =>
          refine iff_of_true ?_ (Or.inl rfl)
          rintro j sw'' hj - ⟨env', call', err, hasked', hfailed⟩
          cases hj
          rw [hasked] at hasked'
          cases hasked'
          rw [(hunsent err).mp hfailed] at herror
          cases herror
      | some err =>
          obtain ⟨hnothing, hresult⟩ := (hunsent err).mpr herror
          rw [hresult] at hbreaker
          rw [← show errorOf (.error err) = some err from rfl, ← afterResult_unharmed_iff,
            ← hbreaker]
          constructor
          · intro hspared
            exact hspared i sw' rfl h ⟨env, call, err, hasked, hnothing, hresult⟩
          · rintro hunharmed j sw'' hj hstep -
            cases hj
            rw [h] at hstep
            cases hstep
            exact hunharmed
  | enter i | before i | answer i env call | leave i | tick t =>
      refine iff_of_true ?_ rfl
      intro j sw'' hj
      cases hj

/-- A step keeps a closed circuit closed unless it reports something harmful. -/
theorem closed_of_stackStep
    (hspared : ∀ i sw', e = .finish i → stackStep s sw e = some sw' → FailedUnsent s sw i →
      Unharmed sw.world.breaker sw'.world.breaker)
    (hunsent : ∀ i, e = .finish i → FailedUnsent s sw i)
    (hclosed : sw.world.breaker.opened = false)
    (h : stackStep s sw e = some sw') :
    sw'.world.breaker.opened = false := by
  have heffect := step_effect (stackStep_success h).1
  cases e with
  | enter i =>
      cases heffect with
      | enter _ _ _ _ _ hbreaker =>
          rwa [hbreaker]
  | before i =>
      cases heffect with
      | pass _ _ hpass _ hbreaker =>
          rcases beforeRequest_admits hpass with ⟨-, hsame⟩ | ⟨hopen, -⟩
          · rwa [hbreaker, hsame]
          · rw [hclosed] at hopen
            cases hopen
      | reject _ _ _ _ _ hbreaker =>
          rwa [hbreaker]
  | answer i env call =>
      cases heffect with
      | answer _ _ _ _ _ hbreaker =>
          rwa [hbreaker]
  | finish i =>
      exact (hspared i sw' rfl h (hunsent i rfl)).closed hclosed
  | leave i =>
      cases heffect with
      | leave _ _ _ _ hbreaker =>
          rwa [hbreaker]
  | tick t =>
      cases heffect with
      | tick _ _ _ hbreaker =>
          rwa [hbreaker]

/-- **When failures before anything is sent spare the breaker.**  In a run of a
stack built by `NewJSONClient`, from any state of the breaker, they do so if and
only if at each of their reports the condition `sparesCircuit` holds; and a run
whose only failures are of this kind, and spare the breaker, leaves a closed
circuit ready for the next caller. -/
theorem unsent_failures_spare_breaker_iff
    (parse : String → Option BaseURL) (deps : RouterDeps) (serviceName baseURL : String)
    (opts : ClientOptions) (s : JSONClient)
    (hnew : newJSONClient parse deps serviceName baseURL opts = .ok s)
    (sw₀ sw₁ : StackWorld) (es : List StackEvent)
    (hidle : ∀ i, sw₀.world.calls i = .idle)
    (hrun : Run.exec (stackStep s) sw₀ es = some sw₁) :
    (BreakerSpared s sw₀ es ↔
      Run.Guarded (stackStep s) (fun sw e => sparesCircuit s sw e = true) sw₀ es) ∧
      (BreakerSpared s sw₀ es →
        OnlyUnsentFailures s sw₀ es →
        sw₀.world.breaker.opened = false →
        (beforeRequest s.protection sw₁.world.now sw₁.world.breaker).2 = none) := by
  refine ⟨?_, ?_⟩
  · apply Run.Guarded.iff_of_invariant (I := Recorded s) _ _ (recorded_of_idle hidle) hrun
    · intro sw e sw' hrecorded hstep
      exact hrecorded.step hstep
    · intro sw e sw' hrecorded hstep
      exact spared_iff_sparesCircuit (attempts_pos_of_new hnew) hrecorded hstep
  · intro hspared honly hclosed
    have hend : sw₁.world.breaker.opened = false :=
      Run.invariant_of_guarded (I := fun sw : StackWorld => sw.world.breaker.opened = false)
        (fun _ _ _ hsw hg hstep => closed_of_stackStep hg.1 hg.2 hsw hstep)
        hclosed (Run.Guarded.and hspared honly) hrun
    have hzero : GoTime.isZero sw₁.world.breaker.openedAt = true := by
      simpa [Breaker.opened] using hend
    simp [beforeRequest, hzero]

end Runs

section Sample

/-- A client with default options and a token source. -/
def exampleClient : JSONClient where
  client := ⟨⟨"https", "api.example.org", ""⟩, true, 1, 1048576⟩
  observation := ⟨true, "items"⟩
  protection := ⟨true, 0, 0, 0⟩

theorem exampleClient_new :
    newJSONClient (fun _ => some ⟨"https", "api.example.org", ""⟩) ⟨true, true⟩ "items"
      "https://api.example.org" ⟨0, 0, 0⟩ = .ok exampleClient := by
  rfl

/-- The token source fails for the caller's session. -/
def tokenFails (e : Err) : Env where
  requestID := ""
  traceID := ""
  buildError _ _ := none
  statusText _ := ""
  exchange _ := ⟨.error e, .error (.text "unreachable"), none, none⟩

def exampleCall : Call :=
  ⟨"sid", "GET", "/api/managed-items", none, none⟩

/-- A cancelled wait for the refresh lock. -/
def lockCanceled : Err :=
  .wrap "acquire refresh lock: " "" (.leaf .canceled)

theorem tokenFails_unsent (e : Err) :
    Unsent (exampleClient.upstream (tokenFails e) exampleCall) := by
  intro req hreq
  have hactions : (exampleClient.upstream (tokenFails e) exampleCall).calls =
      [.token "sid", .record "items" "GET" (outboundMetricOutcome (some e))] := rfl
  rw [hactions] at hreq
  simp at hreq

def newStackWorld : StackWorld :=
  ⟨newWorld 1, fun _ => none⟩

/-- A whole call `i` for which the token source fails. -/
def tokenFailsCall (e : Err) (i : Nat) : List StackEvent :=
  [.enter i, .before i, .answer i (tokenFails e) exampleCall, .finish i, .leave i]

/-- A caller cancels while waiting for the refresh lock: the breaker is spared. -/
theorem unsent_failure_canceled_spares_breaker :
    BreakerSpared exampleClient newStackWorld (tokenFailsCall lockCanceled 0) := by
  obtain ⟨sw, hrun⟩ :
      ∃ sw, Run.exec (stackStep exampleClient) newStackWorld (tokenFailsCall lockCanceled 0) =
        some sw :=
    ⟨_, rfl⟩
  exact (unsent_failures_spare_breaker_iff _ _ _ _ _ exampleClient exampleClient_new
    newStackWorld sw _ (fun _ => rfl) hrun).1.mpr (by decide)

/-- Five calls of a caller whose session has no tokens. -/
def tokenlessCalls : List StackEvent :=
  [0, 1, 2, 3, 4].flatMap (tokenFailsCall (.leaf .tokenNotFound))

/-- None of these calls sends anything, the first report already counts as a
failure, after the fifth the circuit is open, and the next caller is rejected. -/
theorem tokenless_calls_open_circuit :
    newJSONClient (fun _ => some ⟨"https", "api.example.org", ""⟩) ⟨true, true⟩ "items"
        "https://api.example.org" ⟨0, 0, 0⟩ = .ok exampleClient ∧
      Unsent (exampleClient.upstream (tokenFails (.leaf .tokenNotFound)) exampleCall) ∧
      ¬BreakerSpared exampleClient newStackWorld tokenlessCalls ∧
      ∃ sw sw',
        Run.exec (stackStep exampleClient) newStackWorld tokenlessCalls = some sw ∧
          sw.world.breaker.opened = true ∧
          Run.exec (stackStep exampleClient) sw [.enter 5, .before 5] = some sw' ∧
          sw'.world.calls 5 = .leaving (some (Err.unavailable "circuit open")) := by
  refine ⟨rfl, tokenFails_unsent _, ?_, _, _, rfl, rfl, rfl, rfl⟩
  intro hspared
  -- the report of call 0 is the fourth event of the run
  have hreport := (((hspared.2 _ rfl).2 _ rfl).2 _ rfl).1 0 _ rfl rfl
    ⟨_, _, _, rfl, tokenFails_unsent _, rfl⟩
  exact absurd hreport.failures (by decide)

end Sample

end Outbound
end GatewayRuntime
