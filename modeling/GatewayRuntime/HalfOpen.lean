import GatewayRuntime.ProtectedClient

/-!
# The half-open protocol of the circuit breaker

Once the circuit has opened, only the result of a probe that found the upstream
available should close it, and at most one probe should be in flight.

`afterResult` does not know which call it reports for, so this is a matter of the
order in which results reach an open circuit.  `reportsInOrder` is the condition
under which they do no harm: a probe reports for itself and was not cancelled, or
no probe is in flight and a call admitted earlier reports a failure.  Every run
that meets it follows the protocol (`half_open_protocol`).
-/

namespace GatewayRuntime
namespace Outbound

section Protocol

variable {p : Protection} {w w' : World} {e : Event}

/-- The caller cancelled the call. -/
def isCanceled : Option Err → Bool
  | none => false
  | some e => GoError.is e .canceled

/-- The upstream answered: neither an availability or transport failure nor a
cancellation. -/
def showsAvailable (err : Option Err) : Bool :=
  !isCircuitFailure err && !isCanceled err

/-- The event is the report of a probe that found the upstream available. -/
def ProbeSucceeds (w : World) (e : Event) : Prop :=
  ∃ i err, e = .finish i ∧ w.calls i = .answered true err ∧ showsAvailable err = true

/-- At most one probe is in flight. -/
def AtMostOneProbe (w : World) : Prop :=
  ∀ i j, (w.calls i).probing = true → (w.calls j).probing = true → i = j

/-- In every state of the run at most one probe is in flight, and a step that
closes the circuit is the report of a probe that found the upstream available. -/
def HalfOpenProtocol (p : Protection) (w₀ : World) (es : List Event) : Prop :=
  ∀ before after w,
    es = before ++ after →
    Run.exec (step p) w₀ before = some w →
    AtMostOneProbe w ∧
      ∀ e rest w',
        after = e :: rest →
        step p w e = some w' →
        w.breaker.opened = true →
        w'.breaker.opened = false →
        ProbeSucceeds w e

/-- A result may reach an open circuit if it is that of the probe and not a
cancellation, or if it is a failure and no probe is in flight. -/
def reportsInOrder (w : World) : Event → Bool
  | .finish i =>
      match w.calls i with
      | .answered probe err =>
          !w.breaker.opened ||
            (!GoTime.isZero w.now &&
              ((probe && !isCanceled err) || (!w.breaker.halfOpen && isCircuitFailure err)))
      | _ => true
  | _ => true

theorem reportsInOrder_finish
    {i : Nat} {probe : Bool} {err : Option Err}
    (hpc : w.calls i = .answered probe err)
    (hguard : reportsInOrder w (.finish i) = true)
    (hopen : w.breaker.opened = true) :
    w.now ≠ 0 ∧
      ((probe = true ∧ isCanceled err = false) ∨
        (w.breaker.halfOpen = false ∧ isCircuitFailure err = true)) := by
  simpa [reportsInOrder, hpc, hopen, GoTime.isZero] using hguard

/-- A probe in flight holds the circuit half open, and it is the only one. -/
structure ProbeHeld (w : World) : Prop where
  held : ∀ i, (w.calls i).probing = true →
    w.breaker.opened = true ∧ w.breaker.halfOpen = true
  unique : AtMostOneProbe w

theorem ProbeHeld.nobody
    (hinv : ProbeHeld w) (h : w.breaker.opened = false ∨ w.breaker.halfOpen = false) (i : Nat) :
    (w.calls i).probing = false := by
  cases hprobing : (w.calls i).probing with
  | false =>
      rfl
  | true =>
      obtain ⟨hopen, hhalf⟩ := hinv.held i hprobing
      rcases h with h | h
      · rw [hopen] at h
        cases h
      · rw [hhalf] at h
        cases h

theorem ProbeHeld.of_nobody
    (hnobody : ∀ i, (w.calls i).probing = false) :
    ProbeHeld w := by
  refine ⟨?_, ?_⟩
  · intro i hi
    rw [hnobody i] at hi
    cases hi
  · intro i j hi
    rw [hnobody i] at hi
    cases hi

/-- A step that leaves the breaker and starts no probe. -/
theorem ProbeHeld.keep
    {i : Nat} {pc : Pc}
    (hinv : ProbeHeld w)
    (hcalls : w'.calls = Function.update w.calls i pc)
    (hprobing : pc.probing = true → (w.calls i).probing = true)
    (hbreaker : w'.breaker = w.breaker) :
    ProbeHeld w' := by
  have hback : ∀ j, (w'.calls j).probing = true → (w.calls j).probing = true := by
    intro j hj
    rcases Run.update_cases hcalls j with ⟨rfl, hself⟩ | ⟨-, hother⟩
    · rw [hself] at hj
      exact hprobing hj
    · rwa [hother] at hj
  refine ⟨?_, ?_⟩
  · intro j hj
    rw [hbreaker]
    exact hinv.held j (hback j hj)
  · intro j k hj hk
    exact hinv.unique j k (hback j hj) (hback k hk)

/-- Call `i` becomes the probe of a circuit that is not half open. -/
theorem ProbeHeld.probe
    {i : Nat} {pc : Pc}
    (hinv : ProbeHeld w)
    (hopen : w.breaker.opened = true)
    (hhalf : w.breaker.halfOpen = false)
    (hcalls : w'.calls = Function.update w.calls i pc)
    (hbreaker : w'.breaker = { w.breaker with halfOpen := true }) :
    ProbeHeld w' := by
  have honly : ∀ j, (w'.calls j).probing = true → j = i := by
    intro j hj
    rcases Run.update_cases hcalls j with ⟨hji, -⟩ | ⟨-, hother⟩
    · exact hji
    · rw [hother, hinv.nobody (Or.inr hhalf) j] at hj
      cases hj
  refine ⟨?_, ?_⟩
  · intro j _
    rw [hbreaker]
    exact ⟨hopen, rfl⟩
  · intro j k hj hk
    rw [honly j hj, honly k hk]

/-- Call `i` reports, and no other call is a probe. -/
theorem ProbeHeld.report
    {i : Nat} {err : Option Err}
    (hothers : ∀ j, j ≠ i → (w.calls j).probing = false)
    (hcalls : w'.calls = Function.update w.calls i (.leaving err)) :
    ProbeHeld w' := by
  apply ProbeHeld.of_nobody
  intro j
  rcases Run.update_cases hcalls j with ⟨rfl, hself⟩ | ⟨hji, hother⟩
  · rw [hself]
    rfl
  · rw [hother]
    exact hothers j hji

/-- **One step** that reports in order keeps the probe alone. -/
theorem ProbeHeld.step
    (hinv : ProbeHeld w)
    (hguard : reportsInOrder w e = true)
    (h : step p w e = some w') :
    ProbeHeld w' := by
  cases step_effect h with
  | enter i pc hpc hentered hcalls hbreaker =>
      have hprobing : pc.probing = false := by
        rcases hentered with rfl | ⟨result, rfl⟩ <;> rfl
      exact hinv.keep hcalls (by simp [hprobing]) hbreaker
  | pass i hpc hpass hcalls hbreaker =>
      rcases beforeRequest_admits hpass with ⟨hclosed, hsame⟩ | ⟨hopen, hhalf, -, hset⟩
      · rw [hsame] at hbreaker
        exact hinv.keep hcalls (by simp [Pc.probing, hclosed]) hbreaker
      · rw [hset] at hbreaker
        exact hinv.probe hopen hhalf hcalls hbreaker
  | reject i err hpc hreject hcalls hbreaker =>
      exact hinv.keep hcalls (by simp [Pc.probing]) hbreaker
  | answer i err probe hpc hcalls hbreaker =>
      exact hinv.keep hcalls (by simp [Pc.probing, hpc]) hbreaker
  | finish i err probe hpc hcalls hbreaker =>
      apply ProbeHeld.report (i := i) _ hcalls
      intro j hji
      cases hopen : w.breaker.opened with
      | false =>
          exact hinv.nobody (Or.inl hopen) j
      | true =>
          obtain ⟨-, ⟨rfl, -⟩ | ⟨hhalf, -⟩⟩ := reportsInOrder_finish hpc hguard hopen
          · cases hprobing : (w.calls j).probing with
            | false =>
                rfl
            | true =>
                exact absurd (hinv.unique j i hprobing (by rw [hpc]; rfl)) hji
          · exact hinv.nobody (Or.inr hhalf) j
  | leave i result hpc hcalls hbreaker =>
      exact hinv.keep hcalls (by simp [Pc.probing]) hbreaker
  | tick t hle hcalls hbreaker =>
      refine ⟨?_, ?_⟩
      · rw [hcalls, hbreaker]
        exact hinv.held
      · unfold AtMostOneProbe
        rw [hcalls]
        exact hinv.unique

/-- **One step** that reports in order closes the circuit only for a probe that
found the upstream available. -/
theorem probeSucceeds_of_closing
    (hguard : reportsInOrder w e = true)
    (h : step p w e = some w')
    (hopen : w.breaker.opened = true)
    (hclosed : w'.breaker.opened = false) :
    ProbeSucceeds w e := by
  have hchanged : w'.breaker ≠ w.breaker := by
    intro hsame
    rw [hsame, hopen] at hclosed
    cases hclosed
  cases step_effect h with
  | enter i pc hpc hentered hcalls hbreaker =>
      exact absurd hbreaker hchanged
  | pass i hpc hpass hcalls hbreaker =>
      exfalso
      rcases beforeRequest_admits hpass with ⟨-, hsame⟩ | ⟨-, -, -, hset⟩
      · exact hchanged (hbreaker.trans hsame)
      · have hstays : w'.breaker.opened = w.breaker.opened := by
          rw [hbreaker, hset]
          rfl
        rw [hstays, hopen] at hclosed
        cases hclosed
  | reject i err hpc hreject hcalls hbreaker =>
      exact absurd hbreaker hchanged
  | answer i err probe hpc hcalls hbreaker =>
      exact absurd hbreaker hchanged
  | finish i err probe hpc hcalls hbreaker =>
      obtain ⟨hnow, hreport⟩ := reportsInOrder_finish hpc hguard hopen
      have hok : isCircuitFailure err = false := by
        by_contra hfailure
        have hstays := opened_afterResult_of_failure (p := p) (by simpa using hfailure) hnow hopen
        rw [hbreaker, hstays] at hclosed
        cases hclosed
      rcases hreport with ⟨rfl, hcanceled⟩ | ⟨-, hfailure⟩
      · exact ⟨i, err, rfl, hpc, by simp [showsAvailable, hok, hcanceled]⟩
      · rw [hok] at hfailure
        cases hfailure
  | leave i result hpc hcalls hbreaker =>
      exact absurd hbreaker hchanged
  | tick t hle hcalls hbreaker =>
      exact absurd hbreaker hchanged

/-- **The half-open protocol** holds in every run in which the results that reach
an open circuit are in order. -/
theorem half_open_protocol
    (p : Protection) (w₀ : World) (es : List Event)
    (hidle : ∀ i, w₀.calls i = .idle)
    (hguard : Run.Guarded (step p) (fun w e => reportsInOrder w e = true) w₀ es) :
    HalfOpenProtocol p w₀ es := by
  rintro before after w rfl hrun
  have hinit : ProbeHeld w₀ := by
    apply ProbeHeld.of_nobody
    intro i
    rw [hidle i]
    rfl
  have hinv : ProbeHeld w :=
    Run.invariant_of_guarded (I := ProbeHeld) (fun _ _ _ hs hg hstep => hs.step hg hstep) hinit
      hguard.append_left hrun
  refine ⟨hinv.unique, ?_⟩
  rintro e rest w' rfl hstep hopen hclosed
  exact probeSucceeds_of_closing (hguard.append_right hrun).1 hstep hopen hclosed

end Protocol

section Runs

/-- A client whose circuit opens with the first failure, for fifteen seconds. -/
def firstFailureOpens : Protection where
  hasNext := true
  maxConcurrent := 0
  failureThreshold := 1
  openFor := 0

def refused : Err :=
  .wrap "outbound request: " "" (.text "connection refused")

def canceled : Err :=
  .wrap "outbound request: " "" (.leaf .canceled)

/-- The circuit opens, and after fifteen seconds a probe gets a 404: the upstream
is available and the circuit closes. -/
theorem half_open_protocol_probe :
    HalfOpenProtocol firstFailureOpens (newWorld 1)
        (begins 0 ++ ends 0 (some refused) ++ [.tick 15000000001] ++ begins 1 ++
          ends 1 (some (.leaf (.outbound .notFound 404 "Not Found")))) ∧
      ∃ w,
        Run.exec (step firstFailureOpens) (newWorld 1)
            (begins 0 ++ ends 0 (some refused) ++ [.tick 15000000001] ++ begins 1 ++
              ends 1 (some (.leaf (.outbound .notFound 404 "Not Found")))) = some w ∧
          w.breaker = Breaker.closed :=
  ⟨half_open_protocol firstFailureOpens (newWorld 1) _ (fun _ => rfl) (by decide), _, rfl, rfl⟩

/-- The protocol fails in three ways: the late success of a call admitted before
the circuit opened closes it; a cancelled probe closes it; and after the late
failure of such a call a second probe is admitted next to the first. -/
theorem half_open_protocol_broken :
    ¬HalfOpenProtocol firstFailureOpens (newWorld 1)
        (begins 0 ++ begins 1 ++ ends 0 (some refused) ++ ends 1 none) ∧
      ¬HalfOpenProtocol firstFailureOpens (newWorld 1)
        (begins 0 ++ ends 0 (some refused) ++ [.tick 15000000001] ++ begins 1 ++
          ends 1 (some canceled)) ∧
      ¬HalfOpenProtocol firstFailureOpens (newWorld 1)
        (begins 0 ++ begins 1 ++ ends 0 (some refused) ++ [.tick 15000000001] ++ begins 2 ++
          ends 1 (some refused) ++ [.tick 30000000001] ++ begins 3) := by
  refine ⟨?_, ?_, ?_⟩
  · intro hprotocol
    obtain ⟨-, hclosing⟩ :=
      hprotocol (begins 0 ++ begins 1 ++ ends 0 (some refused) ++ [.answer 1 none]) [.finish 1] _
        rfl rfl
    obtain ⟨i, err, hi, hpc, -⟩ := hclosing _ _ _ rfl rfl rfl rfl
    cases hi
    cases hpc
  · intro hprotocol
    obtain ⟨-, hclosing⟩ :=
      hprotocol (begins 0 ++ ends 0 (some refused) ++ [.tick 15000000001] ++ begins 1 ++
        [.answer 1 (some canceled)]) [.finish 1] _ rfl rfl
    obtain ⟨i, err, hi, hpc, havailable⟩ := hclosing _ _ _ rfl rfl rfl rfl
    cases hi
    cases hpc
    cases havailable
  · intro hprotocol
    obtain ⟨honly, -⟩ := hprotocol _ [] _ (List.append_nil _).symm rfl
    have hsame := honly 2 3 rfl rfl
    cases hsame

end Runs

end Outbound
end GatewayRuntime
