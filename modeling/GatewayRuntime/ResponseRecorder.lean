import GatewayRuntime.HttpMetrics
import GatewayRuntime.Lib.ResponseWriter
import GatewayRuntime.SessionCookie

/-!
# The recorded status of a response

The `responseRecorder` of `internal/httpx/middleware/access_log.go`, which `AccessLog`,
`HTTPMetrics` and `BusinessAudit` put around the writer they are given, and what they record
from it.

A recorder passes every call on, so recorders may be nested: each of them sees the calls of
the handler and so does the server.  It keeps the last status it was given, while the server
sends the first one that decides (`recorded_status_iff`).
-/

namespace GatewayRuntime
namespace Middleware

open ResponseWriter GoText Observability

universe u

section Recorder

variable {σ : Type u}

/-- `responseRecorder` around a writer with states in `σ`. -/
structure ResponseRecorder (σ : Type u) where
  inner : σ
  status : Nat
  bytes : Nat

/-- A new recorder. -/
def ResponseRecorder.start (inner : σ) : ResponseRecorder σ :=
  ⟨inner, 0, 0⟩

/-- `responseRecorder.WriteHeader` and `responseRecorder.Write`. -/
def responseRecorder (w : Writer σ) : Writer (ResponseRecorder σ) where
  writeHeader r status := { r with status := status, inner := w.writeHeader r.inner status }
  write r taken :=
    { inner := w.write r.inner taken
      status := if r.status = 0 then 200 else r.status
      bytes := r.bytes + taken }

/-- The status that is recorded once the handler has returned. -/
def ResponseRecorder.recorded (r : ResponseRecorder σ) : Nat :=
  if r.status = 0 then 200 else r.status

/-- A recorder passes on what it is given. -/
theorem run_inner (w : Writer σ) (r : ResponseRecorder σ) (calls : List Call) :
    ((responseRecorder w).run r calls).inner = w.run r.inner calls := by
  induction calls generalizing r with
  | nil =>
      rfl
  | cons call calls ih =>
      rw [Writer.run_cons, Writer.run_cons, ih]
      cases call <;> rfl

/-- A recorder keeps the last status, whatever it wraps. -/
theorem run_recorded
    (w : Writer σ) (r : ResponseRecorder σ)
    {calls : List Call} (h : Wellformed calls) :
    ((responseRecorder w).run r calls).recorded = (headers calls).getLast?.getD r.recorded := by
  induction calls generalizing r with
  | nil =>
      rfl
  | cons call calls ih =>
      rw [Writer.run_cons]
      cases call with
      | writeHeader status =>
          have hstatus := h status (by simp)
          have hne : status ≠ 0 := by omega
          rw [ih _ fun s hs => h s (by simp [hs]), headers_writeHeader, List.getLast?_cons]
          simp [Writer.step, responseRecorder, ResponseRecorder.recorded, hne]
      | write taken =>
          rw [ih _ h, headers_write]
          congr 1
          simp only [Writer.step, responseRecorder, ResponseRecorder.recorded]
          split_ifs <;> simp_all

end Recorder

section Consumers

variable {σ : Type u}

/-- `successfulHealthCheck`. -/
def successfulHealthCheck (path : String) (status : Nat) : Bool :=
  if status < 200 ∨ 400 ≤ status then false
  else hasSuffix path "/health/live" || hasSuffix path "/health/ready"

/-- The status and the size that `AccessLog` writes; a successful health check is left out. -/
def accessLog (path : String) (r : ResponseRecorder σ) : Option (Nat × Nat) :=
  if successfulHealthCheck path r.recorded then none else some (r.recorded, r.bytes)

/-- The status and the outcome in the event of `BusinessAudit`. -/
def businessAudit (r : ResponseRecorder σ) : Nat × String :=
  (r.recorded, Core.auditOutcome r.recorded)

/-- A handler behind the three of them has answered. -/
def answered (calls : List Call) :
    ResponseRecorder (ResponseRecorder (ResponseRecorder Response)) :=
  (responseRecorder (responseRecorder (responseRecorder server))).run
    (.start (.start (.start .start))) calls

/-- The status that the client gets. -/
def sentStatus (calls : List Call) : Nat :=
  (answered calls).inner.inner.inner.finish.status

/-- What is recorded is what the client gets. -/
structure RecordsSent (calls : List Call) : Prop where
  audit : businessAudit (answered calls) = (sentStatus calls, Core.auditOutcome (sentStatus calls))
  metrics : ∀ letters m method pattern d,
    httpMetrics letters m method pattern (answered calls).inner.status d =
      m.recordHTTPRequest letters method (routeLabel pattern) (sentStatus calls) d
  access : ∀ path, (accessLog path (answered calls).inner.inner).map Prod.fst =
    if successfulHealthCheck path (sentStatus calls) then none else some (sentStatus calls)

/-- Below the recorders the server sees the calls of the handler. -/
theorem sentStatus_eq (calls : List Call) :
    sentStatus calls = finalStatus calls := by
  unfold sentStatus answered
  rw [run_inner, run_inner, run_inner]
  rfl

/-- The recorders record the same status. -/
theorem answered_recorded {calls : List Call} (h : Wellformed calls) :
    (answered calls).recorded = (headers calls).getLast?.getD 200 ∧
      (answered calls).inner.recorded = (headers calls).getLast?.getD 200 ∧
      (answered calls).inner.inner.recorded = (headers calls).getLast?.getD 200 := by
  unfold answered
  refine ⟨run_recorded _ _ h, ?_, ?_⟩
  · rw [run_inner]
    exact run_recorded _ _ h
  · rw [run_inner, run_inner]
    exact run_recorded _ _ h

theorem httpMetrics_recorded
    (letters : LetterTables) (m : HttpMetrics) (method pattern : String)
    (r : ResponseRecorder σ) (d : Duration) :
    httpMetrics letters m method pattern r.status d =
      m.recordHTTPRequest letters method (routeLabel pattern) r.recorded d := by
  unfold httpMetrics ResponseRecorder.recorded
  by_cases hzero : r.status = 0 <;> simp [hzero]

theorem recordsSent_iff (calls : List Call) (h : Wellformed calls) :
    RecordsSent calls ↔ (headers calls).getLast?.getD 200 = sentStatus calls := by
  obtain ⟨haudit, hmetrics, haccess⟩ := answered_recorded h
  constructor
  · intro hrecords
    rw [← haudit]
    exact congrArg Prod.fst hrecords.audit
  · intro hlast
    rw [hlast] at haudit hmetrics haccess
    refine ⟨?_, ?_, ?_⟩
    · unfold businessAudit
      rw [haudit]
    · intro letters m method pattern d
      rw [httpMetrics_recorded, hmetrics]
    · intro path
      unfold accessLog
      rw [haccess]
      split_ifs <;> rfl

/-- **The recorded status** is the one sent exactly if the last status passed to `WriteHeader`, if
there is one, is the status that the calls decide for. -/
theorem recorded_status_iff (calls : List Call) (h : Wellformed calls) :
    RecordsSent calls ↔ ∀ status ∈ (headers calls).getLast?, status = decidedStatus calls := by
  rw [recordsSent_iff calls h, sentStatus_eq, finalStatus_eq h]
  cases hlast : (headers calls).getLast? with
  | none =>
      have hdecided := decidedStatus_of_headers_eq_nil (List.getLast?_eq_none_iff.mp hlast)
      simp [hdecided]
  | some status =>
      simp

/-- One status, and a body after it. -/
theorem recorded_status_once :
    RecordsSent [.writeHeader 404, .write 10] :=
  (recorded_status_iff [.writeHeader 404, .write 10] (by decide)).mpr (by decide)

/-- A handler that answers 200 and then reports 500: the client gets 200, and all three record 500,
a failure. -/
theorem late_status_recorded :
    sentStatus [.writeHeader 200, .writeHeader 500] = 200 ∧
      businessAudit (answered [.writeHeader 200, .writeHeader 500]) = (500, "failure") ∧
      (answered [.writeHeader 200, .writeHeader 500]).inner.status = 500 ∧
      accessLog "/api/items" (answered [.writeHeader 200, .writeHeader 500]).inner.inner =
        some (500, 0) := by
  decide

end Consumers

end Middleware
end GatewayRuntime
