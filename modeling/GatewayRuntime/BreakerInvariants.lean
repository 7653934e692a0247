import GatewayRuntime.Lib.Census
import GatewayRuntime.ProtectedClient

/-!
# Invariants of the breaker and the bulkhead

What holds in every state of a `ProtectedClient` with a positive threshold, for any
overlapping calls: the fields of the breaker agree with each other and with the
results reported so far, the circuit is half open only while the call that made it
so is in flight, and no more calls are past the bulkhead than it has slots.

A report is a completion that has reached `afterResult`; `reported` is the list of
the results reported in a run.  Every report clears `halfOpen`, whichever call it
is for, which is why the flag cannot outlive the call that set it.

An open circuit lets no call in but the probe, so the failures that are counted
beyond the threshold are those of calls that were in flight when it opened
(`failures_le_of_exec`).
-/

namespace GatewayRuntime
namespace Outbound

section Reports

variable (p : Protection)

/-- The result that an event reports to `afterResult`. -/
def report (w : World) : Event → List (Option Err)
  | .finish i =>
      match w.calls i with
      | .answered _ err => [err]
      | _ => []
  | _ => []

/-- The results reported in a run, in order. -/
def reported (w : World) : List Event → List (Option Err)
  | [] => []
  | e :: es =>
      match step p w e with
      | none => []
      | some w' => report w e ++ reported w' es

/-- The number of failures since the last result that is not one. -/
def failuresSince (results : List (Option Err)) : Nat :=
  (results.reverse.takeWhile isCircuitFailure).length

variable {p} {w w₀ w' : World} {e : Event}

theorem reported_snoc
    {es : List Event}
    (hrun : Run.exec (step p) w₀ es = some w) (h : step p w e = some w') :
    reported p w₀ (es ++ [e]) = reported p w₀ es ++ report w e := by
  induction es generalizing w₀ with
  | nil =>
      cases hrun
      simp [reported, h]
  | cons e' es ih =>
      obtain ⟨w₁, hstep, hrest⟩ := Run.exec_cons_success hrun
      simp only [List.cons_append, reported, hstep, ih hrest, List.append_assoc]

theorem failuresSince_snoc_failure
    {results : List (Option Err)} {err : Option Err} (h : isCircuitFailure err = true) :
    failuresSince (results ++ [err]) = failuresSince results + 1 := by
  simp [failuresSince, h]

end Reports

section Breaker

variable {p : Protection} {w w' : World} {e : Event} {results : List (Option Err)}

/-- The fields of the breaker agree with each other and with the results reported
so far. -/
structure Counted (p : Protection) (b : Breaker) (results : List (Option Err)) : Prop where
  opened_iff : b.opened = true ↔ p.threshold ≤ b.failures
  closed_failures : b.opened = false → b.failures = failuresSince results
  halfOpen_opened : b.halfOpen = true → b.opened = true

theorem Protection.threshold_pos (p : Protection) : 0 < p.threshold := by
  unfold Protection.threshold
  split_ifs <;> omega

theorem Counted.closed (p : Protection) : Counted p Breaker.closed [] := by
  have hpos := p.threshold_pos
  refine ⟨?_, fun _ => rfl, fun h => by cases h⟩
  exact iff_of_false (by decide) (Nat.not_le.mpr hpos)

theorem opened_of_ne_zero
    {b : Breaker} (h : b.openedAt ≠ 0) : b.opened = true := by
  simp [Breaker.opened, GoTime.isZero, h]

/-- A report keeps the count. -/
theorem Counted.afterResult
    {b : Breaker} {now : Int} {err : Option Err}
    (hcounted : Counted p b results) (hnow : now ≠ 0) :
    Counted p (afterResult p now b err) (results ++ [err]) := by
  have hpos := p.threshold_pos
  unfold Outbound.afterResult
  split_ifs with hok hhalf hreached
  · refine ⟨iff_of_false (by decide) (Nat.not_le.mpr hpos), ?_, fun h => by cases h⟩
    intro _
    simp [failuresSince, hok, Breaker.closed]
  · refine ⟨iff_of_true (opened_of_ne_zero hnow) le_rfl, ?_, fun h => by cases h⟩
    intro hclosed
    rw [opened_of_ne_zero hnow] at hclosed
    cases hclosed
  · refine ⟨iff_of_true (opened_of_ne_zero hnow) hreached, ?_, fun _ => opened_of_ne_zero hnow⟩
    intro hclosed
    rw [opened_of_ne_zero hnow] at hclosed
    cases hclosed
  · -- below the threshold the circuit was closed, so the failures were counted
    have hclosed : b.opened = false := by
      rw [← Bool.not_eq_true, hcounted.opened_iff]
      omega
    refine ⟨iff_of_false ?_ hreached, ?_, fun h => absurd h hhalf⟩
    · show ¬b.opened = true
      rw [hclosed]
      decide
    · intro _
      rw [failuresSince_snoc_failure (by simpa using hok), ← hcounted.closed_failures hclosed]

/-- Opening a circuit for a probe keeps the count. -/
theorem Counted.halfOpen
    {b : Breaker} (hcounted : Counted p b results) (hopen : b.opened = true) :
    Counted p { b with halfOpen := true } results :=
  ⟨hcounted.opened_iff, hcounted.closed_failures, fun _ => hopen⟩

/-- **One step** keeps the count, with the results it reports. -/
theorem Counted.step
    (hcounted : Counted p w.breaker results) (hnow : w.now ≠ 0)
    (h : step p w e = some w') :
    Counted p w'.breaker (results ++ report w e) := by
  cases step_effect h with
  | enter i pc hpc hentered hcalls hbreaker =>
      simpa [report, hbreaker] using hcounted
  | pass i hpc hpass hcalls hbreaker =>
      rcases beforeRequest_admits hpass with ⟨-, hsame⟩ | ⟨hopen, -, -, hset⟩
      · simpa [report, hbreaker, hsame] using hcounted
      · simpa [report, hbreaker, hset] using hcounted.halfOpen hopen
  | reject i err hpc hreject hcalls hbreaker =>
      simpa [report, hbreaker] using hcounted
  | answer i err probe hpc hcalls hbreaker =>
      simpa [report, hbreaker] using hcounted
  | finish i err probe hpc hcalls hbreaker =>
      simpa [report, hbreaker, hpc] using hcounted.afterResult hnow
  | leave i result hpc hcalls hbreaker =>
      simpa [report, hbreaker] using hcounted
  | tick t hle hcalls hbreaker =>
      simpa [report, hbreaker] using hcounted

/-- Every report clears `halfOpen`. -/
theorem halfOpen_afterResult (p : Protection) (now : Int) (b : Breaker) (err : Option Err) :
    (afterResult p now b err).halfOpen = false := by
  unfold afterResult
  split_ifs with hok hhalf
  · rfl
  · rfl
  · simpa using hhalf
  · simpa using hhalf

end Breaker

section Probe

variable {p : Protection} {w₀ w w' : World} {e : Event} {es : List Event}

/-- The circuit is half open. -/
def HalfOpen (w : World) : Prop :=
  w.breaker.halfOpen = true

theorem HalfOpen.of_same
    (hhalf : HalfOpen w') (hbreaker : w'.breaker = w.breaker) : HalfOpen w := by
  unfold HalfOpen at hhalf ⊢
  rwa [← hbreaker]

/-- Call `i` made the circuit half open, it has been so ever since, and the call is
still in flight. -/
def ProbeInFlight (p : Protection) (w₀ : World) (es : List Event) (w : World) (i : Nat) : Prop :=
  Run.EstablishedBy (step p) HalfOpen w₀ es (.before i) ∧ (w.calls i).probing = true

/-- A call in flight stays there while another one moves. -/
theorem probing_of_other
    {i j : Nat} {pc : Pc}
    (hcalls : w'.calls = Function.update w.calls j pc)
    (hj : (w.calls j).probing = false)
    (hi : (w.calls i).probing = true) :
    (w'.calls i).probing = true := by
  rcases Run.update_cases hcalls i with ⟨rfl, -⟩ | ⟨-, hother⟩
  · rw [hi] at hj
    cases hj
  · rwa [hother]

/-- **One step** into a half-open state keeps the probe in flight, or is the
admission of a new one. -/
theorem ProbeInFlight.step
    (ih : HalfOpen w → ∃ i, ProbeInFlight p w₀ es w i)
    (hrun : Run.exec (step p) w₀ es = some w)
    (h : step p w e = some w')
    (hhalf : HalfOpen w') :
    ∃ i, ProbeInFlight p w₀ (es ++ [e]) w' i := by
  have hkeep : HalfOpen w → (∀ i, (w.calls i).probing = true → (w'.calls i).probing = true) →
      ∃ i, ProbeInFlight p w₀ (es ++ [e]) w' i := by
    intro hbefore hprobing
    obtain ⟨i, hset, hi⟩ := ih hbefore
    exact ⟨i, hset.snoc hrun h hhalf, hprobing i hi⟩
  cases step_effect h with
  | enter i pc hpc hentered hcalls hbreaker =>
      exact hkeep (hhalf.of_same hbreaker) fun j => probing_of_other hcalls (by rw [hpc]; rfl)
  | pass i hpc hpass hcalls hbreaker =>
      rcases beforeRequest_admits hpass with ⟨-, hsame⟩ | ⟨hopen, hnot, -, -⟩
      · rw [hsame] at hbreaker
        exact hkeep (hhalf.of_same hbreaker) fun j => probing_of_other hcalls (by rw [hpc]; rfl)
      · refine ⟨i, .last hrun (by simp [HalfOpen, hnot]) h hhalf, ?_⟩
        simp [hcalls, Pc.probing, hopen]
  | reject i err hpc hreject hcalls hbreaker =>
      exact hkeep (hhalf.of_same hbreaker) fun j => probing_of_other hcalls (by rw [hpc]; rfl)
  | answer i err probe hpc hcalls hbreaker =>
      refine hkeep (hhalf.of_same hbreaker) fun j hj => ?_
      rcases Run.update_cases hcalls j with ⟨rfl, hself⟩ | ⟨-, hother⟩
      · rw [hpc] at hj
        rw [hself]
        exact hj
      · rwa [hother]
  | finish i err probe hpc hcalls hbreaker =>
      unfold HalfOpen at hhalf
      rw [hbreaker, halfOpen_afterResult] at hhalf
      cases hhalf
  | leave i result hpc hcalls hbreaker =>
      exact hkeep (hhalf.of_same hbreaker) fun j => probing_of_other hcalls (by rw [hpc]; rfl)
  | tick t hle hcalls hbreaker =>
      exact hkeep (hhalf.of_same hbreaker) fun j hj => hcalls ▸ hj

end Probe

section Bulkhead

variable {p : Protection} {w w' : World} {e : Event}

/-- The call is past the bulkhead and has not given its slot back. -/
def Pc.pastBulkhead : Pc → Bool
  | .entered | .upstream _ | .answered _ _ | .leaving _ => true
  | .idle | .done _ => false

/-- What one event does to the slots of a bulkhead. -/
inductive SlotEffect (p : Protection) (w w' : World) : Prop where
  | keep (hcalls : ∀ i, (w'.calls i).pastBulkhead = (w.calls i).pastBulkhead)
      (hinUse : w'.inUse = w.inUse)
  | take (i : Nat) (pc : Pc) (houtside : (w.calls i).pastBulkhead = false)
      (hpc : pc.pastBulkhead = true) (hcalls : w'.calls = Function.update w.calls i pc)
      (hroom : (w.inUse : Int) < p.maxConcurrent) (hinUse : w'.inUse = w.inUse + 1)
  | give (i : Nat) (pc : Pc) (hinside : (w.calls i).pastBulkhead = true)
      (hpc : pc.pastBulkhead = false) (hcalls : w'.calls = Function.update w.calls i pc)
      (hinUse : w'.inUse = w.inUse - 1)

theorem SlotEffect.of_update
    {i : Nat} {pc : Pc}
    (hcalls : w'.calls = Function.update w.calls i pc)
    (hinUse : w'.inUse = w.inUse)
    (hpc : pc.pastBulkhead = (w.calls i).pastBulkhead) :
    SlotEffect p w w' := by
  refine .keep (fun j => ?_) hinUse
  rcases Run.update_cases hcalls j with ⟨rfl, hself⟩ | ⟨-, hother⟩
  · rw [hself, hpc]
  · rw [hother]

theorem slotEffect_of_step
    (hbulkhead : p.hasBulkhead = true) (h : step p w e = some w') :
    SlotEffect p w w' := by
  cases e with
  | enter i =>
      cases hpc : w.calls i <;> simp only [step, hpc, reduceCtorEq] at h
      cases h
      unfold enter
      rw [hbulkhead]
      simp only [Bool.true_eq_false, if_false]
      split_ifs with hnext hroom
      · exact .of_update rfl rfl (by rw [hpc]; rfl)
      · exact .take i .entered (by rw [hpc]; rfl) rfl rfl hroom rfl
      · exact .of_update rfl rfl (by rw [hpc]; rfl)
  | before i =>
      cases hpc : w.calls i <;> simp only [step, hpc, reduceCtorEq] at h
      cases h
      refine .of_update rfl rfl ?_
      cases (beforeRequest p w.now w.breaker).2 <;> simp [afterAdmission, hpc, Pc.pastBulkhead]
  | answer i err =>
      cases hpc : w.calls i <;> simp only [step, hpc, reduceCtorEq] at h
      cases h
      exact .of_update rfl rfl (by rw [hpc]; rfl)
  | finish i =>
      cases hpc : w.calls i <;> simp only [step, hpc, reduceCtorEq] at h
      cases h
      exact .of_update rfl rfl (by rw [hpc]; rfl)
  | leave i =>
      cases hpc : w.calls i <;> simp only [step, hpc, reduceCtorEq] at h
      cases h
      exact .give i _ (by rw [hpc]; rfl) rfl rfl (by simp [hbulkhead, World.goto])
  | tick t =>
      simp only [step] at h
      split_ifs at h
      cases h
      exact .keep (fun _ => rfl) rfl

/-- The calls past the bulkhead are as many as the slots in use, and these are no
more than there are. -/
structure SlotsCounted (p : Protection) (w : World) : Prop where
  card : ∃ s : Finset Nat, (∀ i, i ∈ s ↔ (w.calls i).pastBulkhead = true) ∧ s.card = w.inUse
  bound : (w.inUse : Int) ≤ p.maxConcurrent

/-- **One step** keeps the count of the slots. -/
theorem SlotsCounted.step
    (hbulkhead : p.hasBulkhead = true) (hslots : SlotsCounted p w) (h : step p w e = some w') :
    SlotsCounted p w' := by
  obtain ⟨⟨s, hmem, hcard⟩, hbound⟩ := hslots
  cases slotEffect_of_step hbulkhead h with
  | keep hcalls hinUse =>
      refine ⟨⟨s, fun i => ?_, by rw [hcard, hinUse]⟩, by rwa [hinUse]⟩
      rw [hmem, hcalls]
  | take i pc houtside hpc hcalls hroom hinUse =>
      have hi : i ∉ s := by
        rw [hmem, houtside]
        decide
      refine ⟨⟨insert i s, fun j => ?_, ?_⟩, by omega⟩
      · rw [Finset.mem_insert, hmem]
        rcases Run.update_cases hcalls j with ⟨rfl, hself⟩ | ⟨hji, hother⟩
        · simp [hself, hpc]
        · simp [hother, hji]
      · rw [Finset.card_insert_of_notMem hi, hcard, hinUse]
  | give i pc hinside hpc hcalls hinUse =>
      have hi : i ∈ s := (hmem i).mpr hinside
      refine ⟨⟨s.erase i, fun j => ?_, ?_⟩, by omega⟩
      · rw [Finset.mem_erase, hmem]
        rcases Run.update_cases hcalls j with ⟨rfl, hself⟩ | ⟨hji, hother⟩
        · simp [hself, hpc]
        · simp [hother, hji]
      · rw [Finset.card_erase_of_mem hi, hcard, hinUse]

theorem SlotsCounted.encard_le (hslots : SlotsCounted p w) :
    {i | (w.calls i).pastBulkhead = true}.encard ≤ p.maxConcurrent.toNat := by
  obtain ⟨⟨s, hmem, hcard⟩, hbound⟩ := hslots
  have hs : {i | (w.calls i).pastBulkhead = true} = (s : Set Nat) := by
    ext i
    exact (hmem i).symm
  rw [hs, Set.encard_coe_eq_coe_finsetCard, hcard]
  exact Nat.cast_le.mpr (by omega)

end Bulkhead

section Rejections

variable {p : Protection} {w w' : World} {e : Event}

/-- The place of a call in the order of its steps. -/
def Pc.stage : Pc → Nat
  | .idle => 0
  | .entered => 1
  | .upstream _ => 2
  | .answered _ _ => 3
  | .leaving _ => 4
  | .done _ => 5

/-- The call has been given to the wrapped client. -/
def Pc.reachedUpstream : Pc → Bool
  | .upstream _ | .answered _ _ => true
  | _ => false

/-- In this step call `i` is turned away: by the bulkhead, or by the circuit. -/
def Rejected (w w' : World) (i : Nat) : Prop :=
  (w.calls i = .idle ∧ ∃ result, w'.calls i = .done result) ∨
    (w.calls i = .entered ∧ ∃ result, w'.calls i = .leaving result)

/-- No call goes back. -/
theorem stage_le_of_step (h : step p w e = some w') (i : Nat) :
    (w.calls i).stage ≤ (w'.calls i).stage := by
  have hmove : ∀ {j : Nat} {pc : Pc}, w'.calls = Function.update w.calls j pc →
      (w.calls j).stage ≤ pc.stage → (w.calls i).stage ≤ (w'.calls i).stage := by
    intro j pc hcalls hle
    rcases Run.update_cases hcalls i with ⟨rfl, hself⟩ | ⟨-, hother⟩
    · rwa [hself]
    · rw [hother]
  cases step_effect h with
  | enter j pc hpc hentered hcalls hbreaker =>
      exact hmove hcalls (by simp [hpc, Pc.stage])
  | pass j hpc hpass hcalls hbreaker =>
      exact hmove hcalls (by simp [hpc, Pc.stage])
  | reject j err hpc hreject hcalls hbreaker =>
      exact hmove hcalls (by simp [hpc, Pc.stage])
  | answer j err probe hpc hcalls hbreaker =>
      exact hmove hcalls (by simp [hpc, Pc.stage])
  | finish j err probe hpc hcalls hbreaker =>
      exact hmove hcalls (by simp [hpc, Pc.stage])
  | leave j result hpc hcalls hbreaker =>
      exact hmove hcalls (by simp [hpc, Pc.stage])
  | tick t hle hcalls hbreaker =>
      rw [hcalls]

theorem stage_le_of_exec
    {es : List Event} (hrun : Run.exec (step p) w es = some w') (i : Nat) :
    (w.calls i).stage ≤ (w'.calls i).stage :=
  Run.exec_invariant (I := fun v => (w.calls i).stage ≤ (v.calls i).stage)
    (fun _ _ _ hle hstep => hle.trans (stage_le_of_step hstep i)) le_rfl hrun

theorem not_reachedUpstream_of_stage
    {pc : Pc} (h : pc.stage ≤ 1 ∨ 4 ≤ pc.stage) :
    pc.reachedUpstream = false := by
  cases pc <;> simp [Pc.stage, Pc.reachedUpstream] at h ⊢

/-- **One step** that turns a call away leaves the breaker alone. -/
theorem breaker_of_rejected
    {i : Nat} (h : step p w e = some w') (hrejected : Rejected w w' i) :
    w'.breaker = w.breaker := by
  -- the steps that touch the breaker move a call elsewhere
  have hno : ∀ {j : Nat} {pc : Pc}, w'.calls = Function.update w.calls j pc →
      (w.calls j).stage + 1 = pc.stage → ¬Rejected w w' i := by
    intro j pc hcalls hstage
    rcases Run.update_cases hcalls i with ⟨rfl, hself⟩ | ⟨-, hother⟩
    · rintro (⟨hpc, result, hto⟩ | ⟨hpc, result, hto⟩) <;>
        simp [hpc, ← hself, hto, Pc.stage] at hstage
    · rintro (⟨hpc, result, hto⟩ | ⟨hpc, result, hto⟩) <;>
        simp [hother, hpc] at hto
  cases step_effect h with
  | enter j pc hpc hentered hcalls hbreaker =>
      exact hbreaker
  | pass j hpc hpass hcalls hbreaker =>
      exact absurd hrejected (hno hcalls (by simp [hpc, Pc.stage]))
  | reject j err hpc hreject hcalls hbreaker =>
      exact hbreaker
  | answer j err probe hpc hcalls hbreaker =>
      exact hbreaker
  | finish j err probe hpc hcalls hbreaker =>
      exact absurd hrejected (hno hcalls (by simp [hpc, Pc.stage]))
  | leave j result hpc hcalls hbreaker =>
      exact hbreaker
  | tick t hle hcalls hbreaker =>
      exact hbreaker

/-- A call that is turned away leaves the breaker alone, and in no state of the run
has it been given to the wrapped client. -/
def RejectionsHarmless (p : Protection) (w₀ : World) (es : List Event) : Prop :=
  ∀ before e after w w' i,
    es = before ++ e :: after →
    Run.exec (step p) w₀ before = some w →
    step p w e = some w' →
    Rejected w w' i →
    w'.breaker = w.breaker ∧
      ∀ visited rest v,
        es = visited ++ rest →
        Run.exec (step p) w₀ visited = some v →
        (v.calls i).reachedUpstream = false

theorem rejections_harmless (p : Protection) (w₀ : World) (es : List Event) :
    RejectionsHarmless p w₀ es := by
  rintro before e after w w' i rfl hbefore hstep hrejected
  refine ⟨breaker_of_rejected hstep hrejected, ?_⟩
  intro visited rest v hsplit hvisited
  have hstages : (w.calls i).stage ≤ 1 ∧ 4 ≤ (w'.calls i).stage := by
    rcases hrejected with ⟨hpc, result, hto⟩ | ⟨hpc, result, hto⟩ <;>
      simp [hpc, hto, Pc.stage]
  apply not_reachedUpstream_of_stage
  rcases List.append_eq_append_iff.mp hsplit with ⟨gap, rfl, hgap⟩ | ⟨gap, rfl, -⟩
  · -- the state is that of the rejection or a later one
    cases gap with
    | nil =>
        rw [List.append_nil, hbefore] at hvisited
        cases hvisited
        exact Or.inl hstages.1
    | cons e' gap =>
        obtain ⟨rfl, -⟩ := List.cons.inj hgap
        obtain ⟨w₁, hw₁, hrest⟩ := Run.exec_append_success hvisited
        rw [hbefore] at hw₁
        cases hw₁
        obtain ⟨w₂, hw₂, hlater⟩ := Run.exec_cons_success hrest
        rw [hstep] at hw₂
        cases hw₂
        exact Or.inr (hstages.2.trans (stage_le_of_exec hlater i))
  · obtain ⟨w₁, hw₁, hrest⟩ := Run.exec_append_success hbefore
    rw [hvisited] at hw₁
    cases hw₁
    exact Or.inl ((stage_le_of_exec hrest i).trans hstages.1)

end Rejections

section Invariants

variable {p : Protection}

/-- What holds in the state `w` that the run `es` from `w₀` has led to. -/
structure Sound (p : Protection) (w₀ : World) (es : List Event) (w : World) : Prop where
  opened_iff : w.breaker.openedAt ≠ 0 ↔ p.failureThreshold ≤ w.breaker.failures
  counted : w.breaker.openedAt = 0 → w.breaker.failures = failuresSince (reported p w₀ es)
  halfOpen : w.breaker.halfOpen = true →
    w.breaker.openedAt ≠ 0 ∧ ∃ i, ProbeInFlight p w₀ es w i
  reportClears : ∀ i w', step p w (.finish i) = some w' → w'.breaker.halfOpen = false
  bulkhead : 0 < p.maxConcurrent →
    {i | (w.calls i).pastBulkhead = true}.encard ≤ p.maxConcurrent.toNat

theorem now_ne_zero_of_exec
    {w₀ w : World} {es : List Event}
    (hnow : w₀.now ≠ 0) (hclock : ∀ t, Event.tick t ∈ es → t ≠ 0)
    (hrun : Run.exec (step p) w₀ es = some w) :
    w.now ≠ 0 := by
  revert hclock
  refine Run.history_rule (P := fun es w => (∀ t, Event.tick t ∈ es → t ≠ 0) → w.now ≠ 0)
    (fun _ => hnow) ?_ hrun
  intro es v e v' _ ih hstep hclock
  have hv := ih fun t ht => hclock t (List.mem_append_left _ ht)
  cases e with
  | tick t =>
      simp only [step] at hstep
      split_ifs at hstep
      cases hstep
      exact hclock t (by simp)
  | enter i =>
      cases hpc : v.calls i <;> simp only [step, hpc, reduceCtorEq] at hstep
      cases hstep
      unfold enter
      split_ifs <;> exact hv
  | before i | answer i _ | finish i | leave i =>
      cases hpc : v.calls i <;> simp only [step, hpc, reduceCtorEq] at hstep
      cases hstep
      exact hv

/-- The count of the failures and the probe in flight, along a run. -/
theorem counted_of_exec
    {now : Int} {es : List Event} {w : World}
    (hnow : now ≠ 0) (hclock : ∀ t, Event.tick t ∈ es → t ≠ 0)
    (hrun : Run.exec (step p) (newWorld now) es = some w) :
    Counted p w.breaker (reported p (newWorld now) es) ∧
      (HalfOpen w → ∃ i, ProbeInFlight p (newWorld now) es w i) := by
  revert hclock
  refine Run.history_rule (P := fun es w => (∀ t, Event.tick t ∈ es → t ≠ 0) →
    Counted p w.breaker (reported p (newWorld now) es) ∧
      (HalfOpen w → ∃ i, ProbeInFlight p (newWorld now) es w i)) ?_ ?_ hrun
  · intro _
    exact ⟨.closed p, fun h => by cases h⟩
  · intro es v e v' hes ih hstep hclock
    have hclock' : ∀ t, Event.tick t ∈ es → t ≠ 0 := fun t ht =>
      hclock t (List.mem_append_left _ ht)
    obtain ⟨hcounted, hprobe⟩ := ih hclock'
    refine ⟨?_, ProbeInFlight.step hprobe hes hstep⟩
    rw [reported_snoc hes hstep]
    exact hcounted.step (now_ne_zero_of_exec hnow hclock' hes) hstep

/-- How far the counter of failures can still go: in an open circuit each call in flight may
add one. -/
structure Capped (p : Protection) (m : Nat) (w : World) : Prop where
  failures : w.breaker.failures ≤ p.threshold + m
  inFlight : ∃ n, Census.Counts Pc.reachedUpstream w.calls n ∧
    (w.breaker.opened = true → w.breaker.halfOpen = false →
      w.breaker.failures + n ≤ p.threshold + m)

/-- A call moves outside the upstream, or stays there, and the breaker is not touched. -/
theorem Capped.keep
    {m i : Nat} {pc : Pc} {w w' : World}
    (hcap : Capped p m w) (hcalls : w'.calls = Function.update w.calls i pc)
    (hpc : pc.reachedUpstream = (w.calls i).reachedUpstream)
    (hbreaker : w'.breaker = w.breaker) :
    Capped p m w' := by
  obtain ⟨n, hcount, hopen⟩ := hcap.inFlight
  exact ⟨hbreaker ▸ hcap.failures, n, hcount.stay hcalls hpc, hbreaker ▸ hopen⟩

/-- A report lowers the number of calls in flight by one, and counts at most one failure. -/
theorem Capped.afterResult
    {m n : Nat} {b : Breaker} {results : List (Option Err)} (now : Int) (err : Option Err)
    (hcounted : Counted p b results) (hpos : 0 < n) (hfew : n ≤ m)
    (hopen : b.opened = true → b.halfOpen = false → b.failures + n ≤ p.threshold + m) :
    (afterResult p now b err).failures ≤ p.threshold + m ∧
      ((afterResult p now b err).opened = true →
        (afterResult p now b err).failures + (n - 1) ≤ p.threshold + m) := by
  have hopened := hcounted.opened_iff
  unfold Outbound.afterResult
  split_ifs with hok hhalf hreached
  · exact ⟨Nat.zero_le _, fun h => by cases h⟩
  · exact ⟨Nat.le_add_right _ _, fun _ => by simp only; omega⟩
  · have hfailures : b.failures + n ≤ p.threshold + m := by
      cases hcircuit : b.opened with
      | true => exact hopen hcircuit (by simpa using hhalf)
      | false =>
          -- a closed circuit has not reached the threshold
          rw [hcircuit] at hopened
          have hbelow : ¬p.threshold ≤ b.failures := fun h => by cases hopened.mpr h
          omega
    exact ⟨by simp only; omega, fun _ => by simp only; omega⟩
  · exact ⟨by simp only; omega, fun _ => by simp only; omega⟩

/-- **One step** keeps the cap, while no more than `m` calls are in flight. -/
theorem Capped.step
    {m : Nat} {w w' : World} {e : Event} {results : List (Option Err)}
    (hcap : Capped p m w) (hcounted : Counted p w.breaker results)
    (hfew : {i | (w.calls i).reachedUpstream = true}.encard ≤ m) (h : step p w e = some w') :
    Capped p m w' := by
  cases step_effect h with
  | enter i pc hpc hentered hcalls hbreaker =>
      refine hcap.keep hcalls ?_ hbreaker
      rw [hpc]
      rcases hentered with rfl | ⟨result, rfl⟩ <;> rfl
  | pass i hpc hpass hcalls hbreaker =>
      obtain ⟨n, hcount, -⟩ := hcap.inFlight
      have hcount' := hcount.enter hcalls (by rw [hpc]; rfl) rfl
      rcases beforeRequest_admits hpass with ⟨hclosed, hsame⟩ | ⟨-, -, -, hset⟩
      · rw [hsame] at hbreaker
        refine ⟨hbreaker ▸ hcap.failures, _, hcount', fun hopen => ?_⟩
        rw [hbreaker, hclosed] at hopen
        cases hopen
      · rw [hset] at hbreaker
        refine ⟨by rw [hbreaker]; exact hcap.failures, _, hcount', fun _ hhalf => ?_⟩
        rw [hbreaker] at hhalf
        cases hhalf
  | reject i err hpc hreject hcalls hbreaker =>
      exact hcap.keep hcalls (by rw [hpc]; rfl) hbreaker
  | answer i err probe hpc hcalls hbreaker =>
      exact hcap.keep hcalls (by rw [hpc]; rfl) hbreaker
  | finish i err probe hpc hcalls hbreaker =>
      obtain ⟨n, hcount, hopen⟩ := hcap.inFlight
      have hpos : 0 < n := hcount.pos (i := i) (by rw [hpc]; rfl)
      rw [hcount.encard_eq] at hfew
      obtain ⟨hfailures, hopen'⟩ :=
        Capped.afterResult w.now err hcounted hpos (Nat.cast_le.mp hfew) hopen
      rw [← hbreaker] at hfailures hopen'
      exact ⟨hfailures, n - 1, hcount.leave hcalls (by rw [hpc]; rfl) rfl, fun h _ => hopen' h⟩
  | leave i result hpc hcalls hbreaker =>
      exact hcap.keep hcalls (by rw [hpc]; rfl) hbreaker
  | tick t hle hcalls hbreaker =>
      obtain ⟨n, hcount, hopen⟩ := hcap.inFlight
      exact ⟨hbreaker ▸ hcap.failures, n, hcalls ▸ hcount, hbreaker ▸ hopen⟩

/-- **The counter of failures is bounded.**  While no more than `m` calls are in flight it does
not pass the threshold by more than `m`, however long the run. -/
theorem failures_le_of_exec
    {now : Int} {es : List Event} {w : World} {m : Nat}
    (hnow : now ≠ 0) (hclock : ∀ t, Event.tick t ∈ es → t ≠ 0)
    (hfew : ∀ before after v, es = before ++ after →
      Run.exec (step p) (newWorld now) before = some v →
        {i | (v.calls i).reachedUpstream = true}.encard ≤ m)
    (hrun : Run.exec (step p) (newWorld now) es = some w) :
    w.breaker.failures ≤ p.threshold + m := by
  suffices hcap : Capped p m w from hcap.failures
  revert hclock hfew
  refine Run.history_rule (P := fun es w => (∀ t, Event.tick t ∈ es → t ≠ 0) →
    (∀ before after v, es = before ++ after →
      Run.exec (step p) (newWorld now) before = some v →
        {i | (v.calls i).reachedUpstream = true}.encard ≤ m) → Capped p m w) ?_ ?_ hrun
  · intro _ _
    exact ⟨Nat.zero_le _, 0, Census.counts_zero fun _ => rfl, fun h => by cases h⟩
  · intro es v e v' hes ih hstep hclock hfew
    have hclock' : ∀ t, Event.tick t ∈ es → t ≠ 0 := fun t ht =>
      hclock t (List.mem_append_left _ ht)
    have hcap := ih hclock' fun before after u hsplit =>
      hfew before (after ++ [e]) u (by rw [hsplit, List.append_assoc])
    exact hcap.step (counted_of_exec hnow hclock' hes).1 (hfew es [e] v rfl hes) hstep

/-- The slots of a bulkhead are counted along a run. -/
theorem slotsCounted_of_exec
    {now : Int} {es : List Event} {w : World}
    (hpos : 0 < p.maxConcurrent) (hrun : Run.exec (step p) (newWorld now) es = some w) :
    SlotsCounted p w := by
  have hbulkhead : p.hasBulkhead = true := by simp [Protection.hasBulkhead, hpos]
  have hstart : SlotsCounted p (newWorld now) :=
    ⟨⟨∅, by simp [newWorld, Pc.pastBulkhead], rfl⟩, hpos.le⟩
  exact Run.exec_invariant (I := SlotsCounted p)
    (fun _ _ _ hs hstep => hs.step hbulkhead hstep) hstart hrun

theorem pastBulkhead_of_reachedUpstream {pc : Pc} (h : pc.reachedUpstream = true) :
    pc.pastBulkhead = true := by
  cases pc <;> first | rfl | cases h

/-- Behind a bulkhead the counter of failures is at most the threshold and the slots. -/
theorem failures_le_of_bulkhead
    {now : Int} {es : List Event} {w : World}
    (hpos : 0 < p.maxConcurrent) (hnow : now ≠ 0) (hclock : ∀ t, Event.tick t ∈ es → t ≠ 0)
    (hrun : Run.exec (step p) (newWorld now) es = some w) :
    w.breaker.failures ≤ p.threshold + p.maxConcurrent.toNat := by
  refine failures_le_of_exec hnow hclock ?_ hrun
  intro before after v _ hv
  refine (Set.encard_le_encard ?_).trans (slotsCounted_of_exec hpos hv).encard_le
  exact fun i hi => pastBulkhead_of_reachedUpstream hi

/-- **Breaker and bulkhead invariants.**  For a positive threshold and a clock that
never shows the zero Time, every state of every run is sound, and a call that is
turned away does no harm. -/
theorem breaker_and_bulkhead_invariants
    (p : Protection) (hthreshold : 0 < p.failureThreshold)
    (now : Int) (hnow : now ≠ 0)
    (es : List Event) (hclock : ∀ t, Event.tick t ∈ es → t ≠ 0) :
    (∀ before after w,
      es = before ++ after →
      Run.exec (step p) (newWorld now) before = some w →
      Sound p (newWorld now) before w) ∧
      RejectionsHarmless p (newWorld now) es := by
  refine ⟨?_, rejections_harmless p _ es⟩
  rintro before after w rfl hrun
  obtain ⟨hcounted, hprobe⟩ :=
    counted_of_exec hnow (fun t ht => hclock t (List.mem_append_left _ ht)) hrun
  have hopened : w.breaker.opened = true ↔ w.breaker.openedAt ≠ 0 := by
    simp [Breaker.opened, GoTime.isZero]
  have hlevel : (p.threshold : Int) = p.failureThreshold := by
    rw [Protection.threshold, if_neg (not_le.mpr hthreshold)]
    omega
  refine ⟨?_, ?_, ?_, ?_, ?_⟩
  · rw [← hopened, hcounted.opened_iff, ← hlevel]
    exact Int.ofNat_le.symm
  · intro hzero
    exact hcounted.closed_failures (by simp [Breaker.opened, GoTime.isZero, hzero])
  · intro hhalf
    exact ⟨hopened.mp (hcounted.halfOpen_opened hhalf), hprobe hhalf⟩
  · intro i w' hstep
    cases step_effect hstep with
    | finish i err probe hpc hcalls hbreaker =>
        rw [hbreaker]
        exact halfOpen_afterResult _ _ _ _
  · intro hpos
    exact (slotsCounted_of_exec hpos hrun).encard_le

/-- One slot, and a circuit that opens with the first failure. -/
def oneSlot : Protection where
  hasNext := true
  maxConcurrent := 1
  failureThreshold := 1
  openFor := 0

/-- The second call finds the bulkhead full, the third one the circuit open, and the
fourth one is the probe. -/
def rejectedTwice : List Event :=
  [.enter 0, .before 0, .enter 1, .answer 0 (some (.text "connection refused")), .finish 0,
    .leave 0, .enter 2, .before 2, .leave 2, .tick 15000000001, .enter 3, .before 3]

theorem breaker_and_bulkhead_invariants_probe :
    ∃ w, Run.exec (step oneSlot) (newWorld 1) rejectedTwice = some w ∧
      w.breaker = ⟨1, 1, true⟩ ∧
      Sound oneSlot (newWorld 1) rejectedTwice w ∧
      RejectionsHarmless oneSlot (newWorld 1) rejectedTwice := by
  have hclock : ∀ t, Event.tick t ∈ rejectedTwice → t ≠ 0 := by
    intro t ht
    simp only [rejectedTwice, List.mem_cons, reduceCtorEq, Event.tick.injEq, false_or,
      List.not_mem_nil, or_false] at ht
    subst ht
    decide
  obtain ⟨hsound, hharmless⟩ := breaker_and_bulkhead_invariants oneSlot (by decide) 1 (by decide)
    rejectedTwice hclock
  exact ⟨_, rfl, rfl, hsound _ [] _ (List.append_nil _).symm rfl, hharmless⟩

end Invariants

end Outbound
end GatewayRuntime
