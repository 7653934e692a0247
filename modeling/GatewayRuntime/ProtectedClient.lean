import GatewayRuntime.Errors
import GatewayRuntime.Lib.GoTime
import GatewayRuntime.Lib.Run

/-!
# The protected outbound client

`ProtectedClient` of `internal/outbound/protected.go`: a bulkhead and a circuit
breaker around another client, as a transition system with any number of
overlapping `DoJSON` calls.

A call takes a slot of the bulkhead, asks `beforeRequest`, waits for the client
it wraps, reports to `afterResult` and gives the slot back; each of these is one
step, and the wrapped client may return anything at any time.  The methods of the
breaker hold its mutex, so each of them is one step too.

`failures`, an `int` of the source, is a natural number: along a run it stays within the
threshold and the number of calls in flight (`failures_le_of_exec` of
`BreakerInvariants`), so it does not come near the end of the type.
-/

namespace GatewayRuntime
namespace Outbound

section Breaker

/-- The fields of a `ProtectedClient` that its owner sets; `hasNext` says that
`Next` is not nil. -/
structure Protection where
  hasNext : Bool
  maxConcurrent : Int
  failureThreshold : Int
  openFor : Duration

namespace Protection

/-- `FailureThreshold` after `init`, which makes it positive. -/
def threshold (p : Protection) : Nat :=
  if p.failureThreshold ≤ 0 then 5 else p.failureThreshold.toNat

/-- `OpenFor` after `init`. -/
def effectiveOpenFor (p : Protection) : Duration :=
  if p.openFor ≤ 0 then 15 * Duration.second else p.openFor

/-- `init` makes the semaphore. -/
def hasBulkhead (p : Protection) : Bool :=
  decide (0 < p.maxConcurrent)

end Protection

/-- The fields under the mutex of a `ProtectedClient`. -/
structure Breaker where
  failures : Nat
  openedAt : Int
  halfOpen : Bool
deriving DecidableEq

namespace Breaker

/-- A new breaker. -/
def closed : Breaker :=
  ⟨0, 0, false⟩

/-- The circuit is open or half open. -/
def opened (b : Breaker) : Bool :=
  !GoTime.isZero b.openedAt

end Breaker

/-- `isCircuitFailure`; `none` is the nil error. -/
def isCircuitFailure : Option Err → Bool
  | none => false
  | some e =>
      if GoError.is e .canceled then false
      else if e.isKind .unavailable then true
      else (GoError.as e ErrorValue.outboundKind).isNone

variable (p : Protection) (now : Int) (b : Breaker)

/-- `ProtectedClient.beforeRequest`. -/
def beforeRequest : Breaker × Option Err :=
  if GoTime.isZero b.openedAt then (b, none)
  else if GoTime.sub now b.openedAt < p.effectiveOpenFor then
    (b, some (Err.unavailable "circuit open"))
  else if b.halfOpen then (b, some (Err.unavailable "circuit half-open"))
  else ({ b with halfOpen := true }, none)

/-- `ProtectedClient.afterResult`. -/
def afterResult (err : Option Err) : Breaker :=
  if isCircuitFailure err = false then Breaker.closed
  else if b.halfOpen then ⟨p.threshold, now, false⟩
  else if p.threshold ≤ b.failures + 1 then { b with failures := b.failures + 1, openedAt := now }
  else { b with failures := b.failures + 1 }

variable {p now b}

/-- A request is admitted because the circuit is closed, or as the probe of a
circuit that has been open long enough. -/
theorem beforeRequest_admits
    (h : (beforeRequest p now b).2 = none) :
    (b.opened = false ∧ (beforeRequest p now b).1 = b) ∨
      (b.opened = true ∧ b.halfOpen = false ∧
        p.effectiveOpenFor ≤ GoTime.sub now b.openedAt ∧
        (beforeRequest p now b).1 = { b with halfOpen := true }) := by
  unfold beforeRequest at h ⊢
  split_ifs at h ⊢ with hzero hearly hhalf
  · left
    simp [Breaker.opened, hzero]
  · right
    exact ⟨by simp [Breaker.opened, hzero], by simpa using hhalf, Int64.not_lt.mp hearly, rfl⟩

/-- A rejected request leaves the breaker as it is. -/
theorem beforeRequest_rejects
    {e : Err} (h : (beforeRequest p now b).2 = some e) :
    (beforeRequest p now b).1 = b := by
  unfold beforeRequest at h ⊢
  split_ifs at h ⊢ <;> rfl

/-- After a failure at a clock reading other than the zero Time an open circuit
is open. -/
theorem opened_afterResult_of_failure
    {err : Option Err}
    (hfailure : isCircuitFailure err = true) (hnow : now ≠ 0) (hopen : b.opened = true) :
    (afterResult p now b err).opened = true := by
  have hset : (GoTime.isZero now) = false := by
    simp [GoTime.isZero, hnow]
  unfold afterResult
  split_ifs with hok hhalf hreached
  · rw [hfailure] at hok
    cases hok
  · simp [Breaker.opened, hset]
  · simp [Breaker.opened, hset]
  · exact hopen

/-- Outside a probe a failure is counted. -/
theorem failures_afterResult_of_failure
    {err : Option Err}
    (hfailure : isCircuitFailure err = true) (hhalf : b.halfOpen = false) :
    (afterResult p now b err).failures = b.failures + 1 := by
  unfold afterResult
  simp only [hfailure, hhalf, Bool.true_eq_false, Bool.false_eq_true, if_false]
  split_ifs <;> rfl

/-- A failed probe opens the circuit again. -/
theorem afterResult_of_failed_probe
    {err : Option Err}
    (hfailure : isCircuitFailure err = true) (hhalf : b.halfOpen = true) :
    afterResult p now b err = ⟨p.threshold, now, false⟩ := by
  simp [afterResult, hfailure, hhalf]

theorem afterResult_of_not_failure
    {err : Option Err} (hok : isCircuitFailure err = false) :
    afterResult p now b err = Breaker.closed := by
  simp [afterResult, hok]

end Breaker

/-- Where a call stands.  `probe` says that `beforeRequest` admitted it while the
circuit was open. -/
inductive Pc where
  | idle
  | entered
  | upstream (probe : Bool)
  | answered (probe : Bool) (err : Option Err)
  | leaving (result : Option Err)
  | done (result : Option Err)
deriving DecidableEq

/-- A probe between `beforeRequest` and `afterResult`. -/
def Pc.probing : Pc → Bool
  | .upstream probe => probe
  | .answered probe _ => probe
  | _ => false

/-- After `beforeRequest`. -/
def afterAdmission (probe : Bool) : Option Err → Pc
  | none => .upstream probe
  | some err => .leaving (some err)

/-- The events: the parts of the calls, and the clock. -/
inductive Event where
  | enter (i : Nat)
  | before (i : Nat)
  | answer (i : Nat) (err : Option Err)
  | finish (i : Nat)
  | leave (i : Nat)
  | tick (t : Int)

/-- The state: the clock, the breaker, the slots taken and the calls. -/
structure World where
  now : Int
  breaker : Breaker
  inUse : Nat
  calls : Nat → Pc

/-- Move call `i`. -/
def World.goto (w : World) (i : Nat) (pc : Pc) : World :=
  { w with calls := Function.update w.calls i pc }

section Steps

variable (p : Protection)

/-- The start of `DoJSON`: without a client to wrap, or without a free slot, the
call returns at once. -/
def enter (w : World) (i : Nat) : World :=
  if p.hasNext = false then
    w.goto i (.done (some (Err.unavailable "outbound client unavailable")))
  else if p.hasBulkhead = false then w.goto i .entered
  else if w.inUse < p.maxConcurrent then { w with inUse := w.inUse + 1 }.goto i .entered
  else w.goto i (.done (some (Err.unavailable "bulkhead full")))

/-- One event. -/
def step (w : World) : Event → Option World
  | .enter i =>
      match w.calls i with
      | .idle => some (enter p w i)
      | _ => none
  | .before i =>
      match w.calls i with
      | .entered =>
          some ({ w with breaker := (beforeRequest p w.now w.breaker).1 }.goto i
            (afterAdmission w.breaker.opened (beforeRequest p w.now w.breaker).2))
      | _ => none
  | .answer i err =>
      match w.calls i with
      | .upstream probe => some (w.goto i (.answered probe err))
      | _ => none
  | .finish i =>
      match w.calls i with
      | .answered _ err =>
          some ({ w with breaker := afterResult p w.now w.breaker err }.goto i (.leaving err))
      | _ => none
  | .leave i =>
      match w.calls i with
      | .leaving result =>
          some ({ w with inUse := if p.hasBulkhead then w.inUse - 1 else w.inUse }.goto i
            (.done result))
      | _ => none
  | .tick t => if w.now ≤ t then some { w with now := t } else none

end Steps

section Effects

variable {p : Protection} {w w' : World} {i : Nat}

/-- What one event does to the breaker and to the calls. -/
inductive Effect (p : Protection) (w w' : World) : Event → Prop where
  | enter (i : Nat) (pc : Pc) (hpc : w.calls i = .idle)
      (hentered : pc = .entered ∨ ∃ result, pc = .done result)
      (hcalls : w'.calls = Function.update w.calls i pc)
      (hbreaker : w'.breaker = w.breaker) : Effect p w w' (.enter i)
  | pass (i : Nat) (hpc : w.calls i = .entered)
      (hpass : (beforeRequest p w.now w.breaker).2 = none)
      (hcalls : w'.calls = Function.update w.calls i (.upstream w.breaker.opened))
      (hbreaker : w'.breaker = (beforeRequest p w.now w.breaker).1) : Effect p w w' (.before i)
  | reject (i : Nat) (err : Err) (hpc : w.calls i = .entered)
      (hreject : (beforeRequest p w.now w.breaker).2 = some err)
      (hcalls : w'.calls = Function.update w.calls i (.leaving (some err)))
      (hbreaker : w'.breaker = w.breaker) : Effect p w w' (.before i)
  | answer (i : Nat) (err : Option Err) (probe : Bool) (hpc : w.calls i = .upstream probe)
      (hcalls : w'.calls = Function.update w.calls i (.answered probe err))
      (hbreaker : w'.breaker = w.breaker) : Effect p w w' (.answer i err)
  | finish (i : Nat) (err : Option Err) (probe : Bool) (hpc : w.calls i = .answered probe err)
      (hcalls : w'.calls = Function.update w.calls i (.leaving err))
      (hbreaker : w'.breaker = afterResult p w.now w.breaker err) : Effect p w w' (.finish i)
  | leave (i : Nat) (result : Option Err) (hpc : w.calls i = .leaving result)
      (hcalls : w'.calls = Function.update w.calls i (.done result))
      (hbreaker : w'.breaker = w.breaker) : Effect p w w' (.leave i)
  | tick (t : Int) (hle : w.now ≤ t)
      (hcalls : w'.calls = w.calls)
      (hbreaker : w'.breaker = w.breaker) : Effect p w w' (.tick t)

theorem enter_effect (hpc : w.calls i = .idle) :
    Effect p w (enter p w i) (.enter i) := by
  unfold enter
  split_ifs
  · exact .enter i _ hpc (Or.inr ⟨_, rfl⟩) rfl rfl
  · exact .enter i _ hpc (Or.inl rfl) rfl rfl
  · exact .enter i _ hpc (Or.inl rfl) rfl rfl
  · exact .enter i _ hpc (Or.inr ⟨_, rfl⟩) rfl rfl

/-- **Every enabled event has its effect.** -/
theorem step_effect
    {e : Event} (h : step p w e = some w') :
    Effect p w w' e := by
  cases e with
  | enter i =>
      cases hpc : w.calls i <;> simp only [step, hpc, reduceCtorEq] at h
      cases h
      exact enter_effect hpc
  | before i =>
      cases hpc : w.calls i <;> simp only [step, hpc, reduceCtorEq] at h
      cases h
      cases hr : (beforeRequest p w.now w.breaker).2 with
      | none =>
          exact .pass i hpc hr rfl rfl
      | some err =>
          exact .reject i err hpc hr rfl (beforeRequest_rejects hr)
  | answer i err =>
      cases hpc : w.calls i <;> simp only [step, hpc, reduceCtorEq] at h
      cases h
      exact .answer i err _ hpc rfl rfl
  | finish i =>
      cases hpc : w.calls i <;> simp only [step, hpc, reduceCtorEq] at h
      cases h
      exact .finish i _ _ hpc rfl rfl
  | leave i =>
      cases hpc : w.calls i <;> simp only [step, hpc, reduceCtorEq] at h
      cases h
      exact .leave i _ hpc rfl rfl
  | tick t =>
      simp only [step] at h
      split_ifs at h with hle
      cases h
      exact .tick t hle rfl rfl

end Effects

section Sample

/-- A new client at the given time. -/
def newWorld (now : Int) : World where
  now := now
  breaker := Breaker.closed
  inUse := 0
  calls _ := .idle

/-- Call `i` is made and goes to the upstream. -/
def begins (i : Nat) : List Event :=
  [.enter i, .before i]

/-- The upstream's result for call `i` comes in. -/
def ends (i : Nat) (err : Option Err) : List Event :=
  [.answer i err, .finish i]

end Sample

end Outbound
end GatewayRuntime
