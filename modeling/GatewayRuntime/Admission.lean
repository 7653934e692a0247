import GatewayRuntime.Lib.Census
import GatewayRuntime.Lib.Run
import GatewayRuntime.MetricSeries

/-!
# Admission to the router

Any number of requests are on their way through the limiters of `NewRouter` at once.  A request
passes the rate limiter, the limiter for logins and the semaphore of `ConcurrencyLimit`; it adds
itself to the gauge of requests in flight, is served, gives its slot back and takes itself off
the gauge.  The limiters hold their lock and the semaphore is a channel, so each of these is one
step; the handler may return, or panic, at any time.  A request that is turned away is recorded
in a step of its own, after the lock is released.

The deferred function gives the slot back before it takes the request off the gauge, so the
gauge can run ahead of the slots.  What it counts is exact all the same, and `AddInflight` never
has to cut it off at zero.  The gauge is an `int64` and the counters of `RecordRejected` are
`uint64`, so the exact numbers are those of a run of fewer than `2 ^ 63` steps.
-/

namespace GatewayRuntime
namespace Router

open Middleware Census

section Model

/-- `Metrics.AddInflight`. -/
def addInflight (inflight delta : Int64) : Int64 :=
  if inflight + delta < 0 then 0 else inflight + delta

/-- Where a request stands. -/
inductive Stage where
  | idle
  | limited (r : ClientRequest)
  | admitted (r : ClientRequest)
  | entered (r : ClientRequest)
  | serving (r : ClientRequest) (counted : Bool)
  | leaving (r : ClientRequest)
  | released (r : ClientRequest)
  | rejected (r : ClientRequest) (answer : Answer)
  | done (r : ClientRequest) (answer : Answer)

/-- The variables of a router and the requests on their way.  `rejected` is the map that
`RecordRejected` writes. -/
structure Traffic where
  now : Int
  limiter : Limiter
  authLimiter : Limiter
  slots : Nat
  inflight : Int64
  rejected : String → UInt64
  requests : Nat → Stage

/-- A new router. -/
def Traffic.start (now : Int) : Traffic where
  now := now
  limiter := Limiter.initial
  authLimiter := Limiter.initial
  slots := 0
  inflight := 0
  rejected _ := 0
  requests _ := .idle

/-- Move request `i`. -/
def Traffic.goto (w : Traffic) (i : Nat) (stage : Stage) : Traffic :=
  { w with requests := Function.update w.requests i stage }

/-- The steps of the requests, and the clock. -/
inductive Move where
  | arrive (i : Nat) (r : ClientRequest)
  | login (i : Nat)
  | acquire (i : Nat)
  | count (i : Nat)
  | finish (i : Nat)
  | release (i : Nat)
  | uncount (i : Nat)
  | record (i : Nat)
  | tick (t : Int)

/-- A request after a limiter: it goes on, or it is turned away. -/
def passOn (answer : Answer) (r : ClientRequest) (onward : Stage) : Stage :=
  if answer = .next then onward else .rejected r answer

/-- The reason that an answer is recorded under. -/
def reasonOf : Answer → Option String
  | .next => none
  | .error _ _ _ recorded => recorded

variable (c : RouterConfig)

/-- A request after the semaphore: it is turned away, or it is served with or without a slot. -/
def acquire (w : Traffic) (i : Nat) (r : ClientRequest) : Traffic :=
  let entry := concurrencyLimit c.maxConcurrency c.deps.metrics w.slots r.url.path
  if entry.1 ≠ .next then w.goto i (.rejected r entry.1)
  else if entry.2 then { w with slots := w.slots + 1 }.goto i (.entered r)
  else w.goto i (.serving r false)

/-- `RecordRejected`. -/
def recordRejected (rejected : String → UInt64) (answer : Answer) : String → UInt64 :=
  match reasonOf answer with
  | none => rejected
  | some reason => Function.update rejected reason (rejected reason + 1)

/-- One step. -/
def move (w : Traffic) : Move → Option Traffic
  | .arrive i r =>
      match w.requests i with
      | .idle =>
          let served := rateLimit c.rateLimit w.limiter (w.now, r.toLimiter)
          some ({ w with limiter := served.2 }.goto i (passOn served.1.answer r (.limited r)))
      | _ => none
  | .login i =>
      match w.requests i with
      | .limited r =>
          let served := rateLimit c.authRateLimit w.authLimiter (w.now, r.toLimiter)
          some ({ w with authLimiter := served.2 }.goto i (passOn served.1.answer r (.admitted r)))
      | _ => none
  | .acquire i =>
      match w.requests i with
      | .admitted r => some (acquire c w i r)
      | _ => none
  | .count i =>
      match w.requests i with
      | .entered r =>
          some ({ w with
            inflight := if c.deps.metrics then addInflight w.inflight 1 else w.inflight }.goto i
              (.serving r true))
      | _ => none
  | .finish i =>
      match w.requests i with
      | .serving r counted => some (w.goto i (if counted then .leaving r else .done r .next))
      | _ => none
  | .release i =>
      match w.requests i with
      | .leaving r => some ({ w with slots := w.slots - 1 }.goto i (.released r))
      | _ => none
  | .uncount i =>
      match w.requests i with
      | .released r =>
          some ({ w with
            inflight := if c.deps.metrics then addInflight w.inflight (-1) else w.inflight }.goto i
              (.done r .next))
      | _ => none
  | .record i =>
      match w.requests i with
      | .rejected r answer =>
          some ({ w with rejected := recordRejected w.rejected answer }.goto i (.done r answer))
      | _ => none
  | .tick t => if w.now ≤ t then some { w with now := t } else none

end Model

section Places

/-- The request holds a slot of the semaphore. -/
def Stage.holdsSlot : Stage → Bool
  | .entered _ | .serving _ true | .leaving _ => true
  | _ => false

/-- The request has added itself to the gauge and not taken itself off. -/
def Stage.onGauge : Stage → Bool
  | .serving _ true | .leaving _ | .released _ => true
  | _ => false

/-- The request was turned away and recorded under the reason. -/
def Stage.recordedAs (reason : String) : Stage → Bool
  | .done _ answer => decide (reasonOf answer = some reason)
  | _ => false

/-- The handler behind the limiters works on the request, which holds a slot. -/
def Stage.served : Stage → Bool
  | .serving _ true => true
  | _ => false

/-- What one step does to the counters of a router. -/
inductive Tally (c : RouterConfig) (w w' : Traffic) : Prop where
  | keep (i : Nat) (stage : Stage)
      (hrequests : w'.requests = Function.update w.requests i stage)
      (hslots : w'.slots = w.slots) (hinflight : w'.inflight = w.inflight)
      (hrejected : w'.rejected = w.rejected)
      (hslot : stage.holdsSlot = (w.requests i).holdsSlot)
      (hgauge : stage.onGauge = (w.requests i).onGauge)
      (hreason : ∀ reason, stage.recordedAs reason = (w.requests i).recordedAs reason)
  | enter (i : Nat) (r : ClientRequest)
      (hbefore : w.requests i = .admitted r)
      (hrequests : w'.requests = Function.update w.requests i (.entered r))
      (hroom : (w.slots : Int) < c.maxConcurrency)
      (hslots : w'.slots = w.slots + 1) (hinflight : w'.inflight = w.inflight)
      (hrejected : w'.rejected = w.rejected)
  | count (i : Nat) (r : ClientRequest)
      (hbefore : w.requests i = .entered r)
      (hrequests : w'.requests = Function.update w.requests i (.serving r true))
      (hslots : w'.slots = w.slots)
      (hinflight : w'.inflight = if c.deps.metrics then addInflight w.inflight 1 else w.inflight)
      (hrejected : w'.rejected = w.rejected)
  | release (i : Nat) (r : ClientRequest)
      (hbefore : w.requests i = .leaving r)
      (hrequests : w'.requests = Function.update w.requests i (.released r))
      (hslots : w'.slots = w.slots - 1) (hinflight : w'.inflight = w.inflight)
      (hrejected : w'.rejected = w.rejected)
  | uncount (i : Nat) (r : ClientRequest)
      (hbefore : w.requests i = .released r)
      (hrequests : w'.requests = Function.update w.requests i (.done r .next))
      (hslots : w'.slots = w.slots)
      (hinflight : w'.inflight = if c.deps.metrics then addInflight w.inflight (-1) else w.inflight)
      (hrejected : w'.rejected = w.rejected)
  | record (i : Nat) (r : ClientRequest) (answer : Answer)
      (hbefore : w.requests i = .rejected r answer)
      (hrequests : w'.requests = Function.update w.requests i (.done r answer))
      (hslots : w'.slots = w.slots) (hinflight : w'.inflight = w.inflight)
      (hrejected : w'.rejected = recordRejected w.rejected answer)
  | tick
      (hrequests : w'.requests = w.requests)
      (hslots : w'.slots = w.slots) (hinflight : w'.inflight = w.inflight)
      (hrejected : w'.rejected = w.rejected)

variable {c : RouterConfig} {w w' : Traffic}

theorem passOn_places (answer : Answer) (r : ClientRequest) (onward : Stage)
    (honward : onward.holdsSlot = false ∧ onward.onGauge = false ∧
      ∀ reason, onward.recordedAs reason = false) :
    (passOn answer r onward).holdsSlot = false ∧ (passOn answer r onward).onGauge = false ∧
      ∀ reason, (passOn answer r onward).recordedAs reason = false := by
  unfold passOn
  split_ifs
  · exact honward
  · exact ⟨rfl, rfl, fun _ => rfl⟩

/-- What the semaphore does with a request: it is not counted, it gets a slot, or all slots are
taken. -/
theorem acquire_cases (c : RouterConfig) (w : Traffic) (i : Nat) (r : ClientRequest) :
    ((c.maxConcurrency ≤ 0 ∨ operationalPath r.url.path = true) ∧
        acquire c w i r = w.goto i (.serving r false)) ∨
      (operationalPath r.url.path = false ∧ (w.slots : Int) < c.maxConcurrency ∧
        acquire c w i r = { w with slots := w.slots + 1 }.goto i (.entered r)) ∨
      (0 < c.maxConcurrency ∧ operationalPath r.url.path = false ∧
        c.maxConcurrency ≤ w.slots ∧
        acquire c w i r = w.goto i (.rejected r (.error 503 "1" "server busy"
          (if c.deps.metrics then some "concurrency" else none)))) := by
  unfold acquire concurrencyLimit
  by_cases hmax : c.maxConcurrency ≤ 0
  · simp [hmax]
  · by_cases hop : operationalPath r.url.path = true
    · simp [hmax, hop]
    · by_cases hroom : (w.slots : Int) < c.maxConcurrency
      · simp [hmax, hop, hroom]
      · simp [hmax, hop, hroom, not_le.mp hmax, not_lt.mp hroom]

/-- **Every enabled step has its effect on the counters.** -/
theorem tally_of_move {e : Move} (h : move c w e = some w') :
    Tally c w w' := by
  cases e with
  | arrive i r =>
      cases hstage : w.requests i <;> simp only [move, hstage, reduceCtorEq] at h
      cases h
      obtain ⟨hslot, hgauge, hreason⟩ := passOn_places
        (rateLimit c.rateLimit w.limiter (w.now, r.toLimiter)).1.answer r (.limited r)
        ⟨rfl, rfl, fun _ => rfl⟩
      exact .keep i _ rfl rfl rfl rfl (by rw [hstage]; exact hslot) (by rw [hstage]; exact hgauge)
        (fun reason => by rw [hstage]; exact hreason reason)
  | login i =>
      cases hstage : w.requests i <;> simp only [move, hstage, reduceCtorEq] at h
      next r =>
      cases h
      obtain ⟨hslot, hgauge, hreason⟩ := passOn_places
        (rateLimit c.authRateLimit w.authLimiter (w.now, r.toLimiter)).1.answer r
        (.admitted r) ⟨rfl, rfl, fun _ => rfl⟩
      exact .keep i _ rfl rfl rfl rfl (by rw [hstage]; exact hslot) (by rw [hstage]; exact hgauge)
        (fun reason => by rw [hstage]; exact hreason reason)
  | acquire i =>
      cases hstage : w.requests i <;> simp only [move, hstage, reduceCtorEq] at h
      next r =>
      cases h
      rcases acquire_cases c w i r with ⟨-, heq⟩ | ⟨-, hroom, heq⟩ | ⟨-, -, -, heq⟩
      · rw [heq]
        exact .keep i _ rfl rfl rfl rfl (by rw [hstage]; rfl) (by rw [hstage]; rfl)
          (fun reason => by rw [hstage]; rfl)
      · rw [heq]
        exact .enter i r hstage rfl hroom rfl rfl rfl
      · rw [heq]
        exact .keep i _ rfl rfl rfl rfl (by rw [hstage]; rfl) (by rw [hstage]; rfl)
          (fun reason => by rw [hstage]; rfl)
  | count i =>
      cases hstage : w.requests i <;> simp only [move, hstage, reduceCtorEq] at h
      cases h
      exact .count i _ hstage rfl rfl rfl rfl
  | finish i =>
      cases hstage : w.requests i <;> simp only [move, hstage, reduceCtorEq] at h
      next r counted =>
      cases h
      cases counted <;>
        exact .keep i _ rfl rfl rfl rfl (by rw [hstage]; rfl) (by rw [hstage]; rfl)
          (fun reason => by rw [hstage]; rfl)
  | release i =>
      cases hstage : w.requests i <;> simp only [move, hstage, reduceCtorEq] at h
      cases h
      exact .release i _ hstage rfl rfl rfl rfl
  | uncount i =>
      cases hstage : w.requests i <;> simp only [move, hstage, reduceCtorEq] at h
      cases h
      exact .uncount i _ hstage rfl rfl rfl rfl
  | record i =>
      cases hstage : w.requests i <;> simp only [move, hstage, reduceCtorEq] at h
      cases h
      exact .record i _ _ hstage rfl rfl rfl rfl
  | tick t =>
      simp only [move] at h
      split_ifs at h
      cases h
      exact .tick rfl rfl rfl rfl

end Places

section Accounts

variable {c : RouterConfig} {w w' : Traffic}

/-- The counters of a router count the requests that are on their way, which are at most as
many as the steps that were taken. -/
structure Accounted (c : RouterConfig) (steps : Nat) (w : Traffic) : Prop where
  slots : Counts Stage.holdsSlot w.requests w.slots
  bound : w.slots = 0 ∨ (w.slots : Int) ≤ c.maxConcurrency
  gauge : ∃ n ≤ steps, Counts Stage.onGauge w.requests n ∧
    w.inflight = if c.deps.metrics then Int64.ofNat n else 0
  rejected : ∀ reason, ∃ n ≤ steps, Counts (Stage.recordedAs reason) w.requests n ∧
    w.rejected reason = UInt64.ofNat n

theorem accounted_start (c : RouterConfig) (now : Int) :
    Accounted c 0 (.start now) where
  slots := counts_zero fun _ => rfl
  bound := Or.inl rfl
  gauge := ⟨0, le_rfl, counts_zero fun _ => rfl, by simp [Traffic.start]⟩
  rejected _ := ⟨0, le_rfl, counts_zero fun _ => rfl, rfl⟩

theorem addInflight_one {n : Nat} (h : n + 1 < 2 ^ 63) :
    addInflight (Int64.ofNat n) 1 = Int64.ofNat (n + 1) := by
  have hsum : Int64.ofNat n + 1 = Int64.ofNat (n + 1) := (Int64.ofNat_add n 1).symm
  rw [addInflight, hsum, if_neg]
  rw [Int64.lt_iff_toInt_lt, Int64.toInt_ofNat_of_lt h, Int64.toInt_zero]
  omega

theorem addInflight_neg_one {n : Nat} (hpos : 0 < n) (h : n < 2 ^ 63) :
    addInflight (Int64.ofNat n) (-1) = Int64.ofNat (n - 1) := by
  have hsum : Int64.ofNat n + -1 = Int64.ofNat (n - 1) := by
    obtain ⟨m, rfl⟩ := Nat.exists_eq_succ_of_ne_zero hpos.ne'
    rw [Nat.succ_eq_add_one, Int64.ofNat_add]
    simp [Int64.add_assoc]
  rw [addInflight, hsum, if_neg]
  rw [Int64.lt_iff_toInt_lt, Int64.toInt_ofNat_of_lt (by omega), Int64.toInt_zero]
  omega

theorem recordRejected_apply (rejected : String → UInt64) (answer : Answer) (reason : String) :
    recordRejected rejected answer reason =
      rejected reason + UInt64.ofNat (decide (reasonOf answer = some reason)).toNat := by
  unfold recordRejected
  cases reasonOf answer with
  | none =>
      simp
  | some other =>
      by_cases hother : reason = other
      · simp [hother]
      · simp [hother, Ne.symm hother]

/-- A step that moves a request and records nothing keeps what is counted under a reason. -/
theorem Accounted.rejected_stay
    {steps i : Nat} {stage : Stage}
    (h : Accounted c steps w) (hrequests : w'.requests = Function.update w.requests i stage)
    (hrejected : w'.rejected = w.rejected)
    (hsame : ∀ reason, stage.recordedAs reason = (w.requests i).recordedAs reason)
    (reason : String) :
    ∃ n ≤ steps + 1, Counts (Stage.recordedAs reason) w'.requests n ∧
      w'.rejected reason = UInt64.ofNat n := by
  obtain ⟨n, hle, hcount, hvalue⟩ := h.rejected reason
  exact ⟨n, hle.trans (Nat.le_succ _), hcount.stay hrequests (hsame reason), hrejected ▸ hvalue⟩

/-- **One step** keeps the accounts. -/
theorem Accounted.move
    {steps : Nat} (h : Accounted c steps w) (hsteps : steps + 1 < 2 ^ 63)
    {e : Move} (hmove : move c w e = some w') :
    Accounted c (steps + 1) w' := by
  obtain ⟨n, hn, hgauge, hinflight⟩ := h.gauge
  have hn' : n ≤ steps + 1 := hn.trans (Nat.le_succ _)
  cases tally_of_move hmove with
  | keep i stage hrequests hslots' hinflight' hrejected' hslot hon hreason =>
      exact ⟨hslots' ▸ h.slots.stay hrequests hslot, hslots' ▸ h.bound,
        ⟨n, hn', hgauge.stay hrequests hon, hinflight' ▸ hinflight⟩,
        h.rejected_stay hrequests hrejected' hreason⟩
  | enter i r hbefore hrequests hroom hslots' hinflight' hrejected' =>
      refine ⟨?_, Or.inr (by omega), ⟨n, hn', ?_, hinflight' ▸ hinflight⟩,
        h.rejected_stay hrequests hrejected' fun _ => by rw [hbefore]; rfl⟩
      · rw [hslots']
        exact h.slots.enter hrequests (by rw [hbefore]; rfl) rfl
      · exact hgauge.stay hrequests (by rw [hbefore]; rfl)
  | count i r hbefore hrequests hslots' hinflight' hrejected' =>
      refine ⟨?_, hslots' ▸ h.bound, ⟨n + 1, Nat.succ_le_succ hn, ?_, ?_⟩,
        h.rejected_stay hrequests hrejected' fun _ => by rw [hbefore]; rfl⟩
      · rw [hslots']
        exact h.slots.stay hrequests (by rw [hbefore]; rfl)
      · exact hgauge.enter hrequests (by rw [hbefore]; rfl) rfl
      · rw [hinflight', hinflight]
        split_ifs
        · exact addInflight_one (by omega)
        · rfl
  | release i r hbefore hrequests hslots' hinflight' hrejected' =>
      refine ⟨?_, ?_, ⟨n, hn', ?_, hinflight' ▸ hinflight⟩,
        h.rejected_stay hrequests hrejected' fun _ => by rw [hbefore]; rfl⟩
      · rw [hslots']
        exact h.slots.leave hrequests (by rw [hbefore]; rfl) rfl
      · have hbound := h.bound
        omega
      · exact hgauge.stay hrequests (by rw [hbefore]; rfl)
  | uncount i r hbefore hrequests hslots' hinflight' hrejected' =>
      -- The request is on the gauge, so the gauge is positive and is not cut off at zero.
      have hpos : 0 < n := hgauge.pos (i := i) (by rw [hbefore]; rfl)
      refine ⟨?_, hslots' ▸ h.bound, ⟨n - 1, (Nat.sub_le n 1).trans hn', ?_, ?_⟩,
        h.rejected_stay hrequests hrejected' fun _ => by rw [hbefore]; rfl⟩
      · rw [hslots']
        exact h.slots.stay hrequests (by rw [hbefore]; rfl)
      · exact hgauge.leave hrequests (by rw [hbefore]; rfl) rfl
      · rw [hinflight', hinflight]
        split_ifs
        · exact addInflight_neg_one hpos (by omega)
        · rfl
  | record i r answer hbefore hrequests hslots' hinflight' hrejected' =>
      refine ⟨?_, hslots' ▸ h.bound, ⟨n, hn', ?_, hinflight' ▸ hinflight⟩, fun reason => ?_⟩
      · rw [hslots']
        exact h.slots.stay hrequests (by rw [hbefore]; rfl)
      · exact hgauge.stay hrequests (by rw [hbefore]; rfl)
      · obtain ⟨k, hk, hcount, hvalue⟩ := h.rejected reason
        have hone : (decide (reasonOf answer = some reason)).toNat ≤ 1 := Bool.toNat_le _
        refine ⟨k + (decide (reasonOf answer = some reason)).toNat, by omega, ?_, ?_⟩
        · have hcount' := hcount.update hrequests
          rwa [hbefore] at hcount'
        · rw [hrejected', recordRejected_apply, hvalue, UInt64.ofNat_add]
  | tick hrequests hslots' hinflight' hrejected' =>
      refine ⟨hrequests ▸ hslots' ▸ h.slots, hslots' ▸ h.bound,
        ⟨n, hn', hrequests ▸ hgauge, hinflight' ▸ hinflight⟩, fun reason => ?_⟩
      obtain ⟨k, hk, hcount, hvalue⟩ := h.rejected reason
      exact ⟨k, hk.trans (Nat.le_succ _), hrequests ▸ hcount, hrejected' ▸ hvalue⟩

/-- **Every run** of fewer than `2 ^ 63` steps keeps the accounts. -/
theorem accounted_of_exec
    {now : Int} {es : List Move}
    (hrun : Run.exec (Router.move c) (.start now) es = some w) (hfew : es.length < 2 ^ 63) :
    Accounted c es.length w := by
  refine Run.history_rule (P := fun es w => es.length < 2 ^ 63 → Accounted c es.length w)
    (fun _ => accounted_start c now) ?_ hrun hfew
  intro es v e v' _ ih hmove hfew
  rw [List.length_append, List.length_singleton] at hfew ⊢
  exact (ih (by omega)).move hfew hmove

/-- What the counters of a router say about the requests on their way. -/
structure AdmissionLaw (c : RouterConfig) (w : Traffic) : Prop where
  slots : {i | (w.requests i).holdsSlot = true}.encard = w.slots
  served : {i | (w.requests i).served = true}.encard ≤ c.maxConcurrency.toNat
  gauge : c.deps.metrics = true →
    0 ≤ w.inflight ∧ {i | (w.requests i).onGauge = true}.encard = w.inflight.toInt.toNat
  rejected : ∀ reason,
    {i | (w.requests i).recordedAs reason = true}.encard = (w.rejected reason).toNat
  busy : ∀ i r w', w.requests i = .admitted r → operationalPath r.url.path = false →
    0 < c.maxConcurrency → Router.move c w (.acquire i) = some w' →
      ((∃ answer, w'.requests i = .rejected r answer) ↔
        {j | (w.requests j).holdsSlot = true}.encard = c.maxConcurrency.toNat)
  quiet : (∀ i, w.requests i = .idle ∨ ∃ r answer, w.requests i = .done r answer) →
    w.slots = 0 ∧ w.inflight = 0

theorem Accounted.bound_toNat {steps : Nat} (h : Accounted c steps w) :
    w.slots ≤ c.maxConcurrency.toNat := by
  have hbound := h.bound
  omega

/-- The semaphore turns a request away if and only if other requests hold all its slots. -/
theorem Accounted.busy
    {steps i : Nat} {r : ClientRequest} (h : Accounted c steps w)
    (hstage : w.requests i = .admitted r) (hop : operationalPath r.url.path = false)
    (hmax : 0 < c.maxConcurrency) (hmove : Router.move c w (.acquire i) = some w') :
    (∃ answer, w'.requests i = .rejected r answer) ↔ w.slots = c.maxConcurrency.toNat := by
  have hle := h.bound_toNat
  simp only [Router.move, hstage] at hmove
  cases hmove
  rcases acquire_cases c w i r with ⟨hfree, -⟩ | ⟨-, hroom, heq⟩ | ⟨-, -, hfull, heq⟩
  · rcases hfree with hfree | hfree
    · omega
    · rw [hop] at hfree
      cases hfree
  · rw [heq]
    refine iff_of_false ?_ (by omega)
    rintro ⟨answer, hanswer⟩
    simp [Traffic.goto] at hanswer
  · rw [heq]
    exact iff_of_true ⟨_, Function.update_self i _ w.requests⟩ (by omega)

theorem holdsSlot_of_served {stage : Stage} (h : stage.served = true) :
    stage.holdsSlot = true := by
  rcases stage with _ | _ | _ | _ | ⟨r, _ | _⟩ | _ | _ | _ | _
  case serving.true => rfl
  all_goals cases h

theorem Accounted.law
    {steps : Nat} (h : Accounted c steps w) (hsteps : steps < 2 ^ 63) :
    AdmissionLaw c w := by
  obtain ⟨n, hn, hgauge, hinflight⟩ := h.gauge
  refine ⟨h.slots.encard_eq, ?_, ?_, ?_, ?_, ?_⟩
  · have hsubset : {i | (w.requests i).served = true} ⊆ {i | (w.requests i).holdsSlot = true} := by
      exact fun i hi => holdsSlot_of_served hi
    refine (Set.encard_le_encard hsubset).trans ?_
    rw [h.slots.encard_eq]
    exact Nat.cast_le.mpr h.bound_toNat
  · intro hmetrics
    have hvalue : w.inflight.toInt = n := by
      rw [hinflight, if_pos hmetrics, Int64.toInt_ofNat_of_lt (by omega)]
    rw [hgauge.encard_eq, Int64.le_iff_toInt_le, hvalue, Int64.toInt_zero, Int.toNat_natCast]
    exact ⟨Int.natCast_nonneg n, rfl⟩
  · intro reason
    obtain ⟨k, hk, hcount, hvalue⟩ := h.rejected reason
    have hsize : k < UInt64.size := hk.trans_lt (hsteps.trans (by decide))
    rw [hcount.encard_eq, hvalue, UInt64.toNat_ofNat_of_lt' hsize]
  · intro i r w' hstage hop hmax hmove
    rw [h.busy hstage hop hmax hmove, h.slots.encard_eq, Nat.cast_inj]
  · intro hquiet
    have hnone (p : Stage → Bool) (hidle : p .idle = false)
        (hdone : ∀ r answer, p (.done r answer) = false) : ∀ i, p (w.requests i) = false := by
      intro i
      rcases hquiet i with hstage | ⟨r, answer, hstage⟩
      · rw [hstage, hidle]
      · rw [hstage, hdone]
    refine ⟨h.slots.eq_zero_iff.mpr (hnone _ rfl fun _ _ => rfl), ?_⟩
    rw [hinflight, hgauge.eq_zero_iff.mpr (hnone _ rfl fun _ _ => rfl)]
    simp

/-- **Admission.**  Whatever the order of the steps of overlapping requests, the semaphore, the
gauge and the counters of a router say how many requests are where. -/
theorem admission_accounted
    (c : RouterConfig) (now : Int) (es : List Move) (w : Traffic)
    (hfew : es.length < 2 ^ 63)
    (hrun : Run.exec (move c) (.start now) es = some w) :
    AdmissionLaw c w :=
  (accounted_of_exec hrun hfew).law hfew

/-- A request for a page. -/
def pageRequest : ClientRequest where
  method := "GET"
  host := "app.example.com"
  urlHost := ""
  url := ⟨"/api/me", ""⟩
  remoteAddr := "203.0.113.7:40000"
  headers := []
  cookies := []
  method_token := by decide
  headers_valid := by decide
  cookies_valid := by decide

/-- Two requests for one slot: the second is turned away, and the first leaves. -/
def oneSlotMoves : List Move :=
  [.arrive 0 pageRequest, .arrive 1 pageRequest, .login 1, .login 0, .acquire 0, .acquire 1,
    .count 0, .record 1, .finish 0, .release 0]

/-- The shipped router with one slot. -/
def oneSlotRouter : RouterConfig :=
  { shippedRouter "https://app.example.com" with maxConcurrency := 1 }

/-- At the end no slot is taken, the gauge still shows the first request and the second is
recorded. -/
theorem admission_accounted_one_slot :
    ∃ w, Run.exec (move oneSlotRouter) (.start 1) oneSlotMoves = some w ∧
      w.slots = 0 ∧ w.inflight = 1 ∧ w.rejected "concurrency" = 1 ∧
      AdmissionLaw oneSlotRouter w := by
  have hend : (Run.exec (move oneSlotRouter) (.start 1) oneSlotMoves).map
      (fun w => (w.slots, w.inflight, w.rejected "concurrency")) = some (0, 1, 1) := by
    decide +kernel
  obtain ⟨w, hrun, hw⟩ := Option.map_eq_some_iff.mp hend
  simp only [Prod.mk.injEq] at hw
  exact ⟨w, hrun, hw.1, hw.2.1, hw.2.2,
    admission_accounted oneSlotRouter 1 oneSlotMoves w (by decide) hrun⟩

end Accounts

end Router
end GatewayRuntime
