import GatewayRuntime.Lib.TokenBucket
import GatewayRuntime.Lib.Table
import GatewayRuntime.Lib.GoTime
import GatewayRuntime.ClientIdentity

/-!
# The rate limiter

`RateLimit` keeps a token bucket for each client address.  A bucket starts full,
is refilled by the time since its last use and pays one token for a forwarded
request.  Two rules bound its memory: buckets that have not been used for
`IdleTTL` are swept, and once there are `MaxEntries` of them an address without a
bucket uses the overflow bucket.

Tokens, rates and seconds are exact numbers here.  Against the bound of a token
bucket, a bucket is metered by its credit: what it holds and what has come in
since.  A swept bucket is as good as full when the refill over `IdleTTL` fills it.
-/

namespace GatewayRuntime
namespace Middleware

open TokenBucket

section Model

/-- `operationalPath`. -/
def operationalPath (path : String) : Bool :=
  GoText.hasSuffix path "/health/live" ||
    GoText.hasSuffix path "/health/ready" ||
    GoText.hasSuffix path "/metrics"

/-- `matchesPathSuffix`. -/
def matchesPathSuffix (path : String) (suffixes : List String) : Bool :=
  suffixes.any fun suffix => suffix != "" && GoText.hasSuffix path suffix

/-- `middleware.RateLimitConfig`; `metrics` says whether `Metrics` is set. -/
structure RateLimitConfig where
  ratePerSecond : ℚ
  burst : Int
  idleTTL : Duration
  maxEntries : Int
  proxy : TrustedProxyConfig
  metrics : Bool
  pathSuffixes : List String
  rejectReason : String

/-- The configuration that the handler works with. -/
def RateLimitConfig.withDefaults (cfg : RateLimitConfig) : RateLimitConfig :=
  { cfg with
    idleTTL := if cfg.idleTTL ≤ 0 then 10 * Duration.minute else cfg.idleTTL
    maxEntries := if cfg.maxEntries ≤ 0 then 10000 else cfg.maxEntries
    rejectReason := if cfg.rejectReason = "" then "rate_limit" else cfg.rejectReason }

/-- `middleware.rateBucket`. -/
structure RateBucket where
  tokens : ℚ
  last : Int

/-- The variables that the handler closes over. -/
structure Limiter where
  buckets : AList fun _ : String => RateBucket
  lastSweep : Int

/-- The variables of a new handler. -/
def Limiter.initial : Limiter :=
  ⟨∅, 0⟩

/-- How a request leaves the handler. -/
inductive Answer where
  | next
  | error (status : Nat) (retryAfter text : String) (recorded : Option String)
deriving DecidableEq

/-- A request that the handler has worked on: when, with which bucket, and how it left. -/
structure Served where
  now : Int
  request : Request
  bucket : Option String
  answer : Answer

/-- The key of the bucket that addresses without one share. -/
def overflowKey : String :=
  "__overflow__"

/-- The bucket of a request. -/
def bucketKey (cfg : RateLimitConfig) (s : Limiter) (r : Request) : String :=
  let key := clientIP r cfg.proxy
  if (s.buckets.lookup key).isNone && decide (cfg.maxEntries ≤ Entries.size s.buckets) then
    overflowKey
  else key

/-- The sweep over the buckets, made once in `IdleTTL`. -/
def sweep (cfg : RateLimitConfig) (now : Int) (s : Limiter) : Limiter :=
  if GoTime.isZero s.lastSweep || decide (cfg.idleTTL ≤ GoTime.sub now s.lastSweep) then
    { buckets := Entries.keep (fun b => !decide (cfg.idleTTL ≤ GoTime.sub now b.last)) s.buckets
      lastSweep := now }
  else s

/-- The bucket under a key, filled up to the time of the request. -/
def refill (cfg : RateLimitConfig) (now : Int) (found : Option RateBucket) : RateBucket :=
  let b := found.getD ⟨0, 0⟩
  if GoTime.isZero b.last then ⟨cfg.burst, now⟩
  else
    let tokens := b.tokens + (GoTime.sub now b.last).seconds * cfg.ratePerSecond
    ⟨if tokens > cfg.burst then cfg.burst else tokens, now⟩

/-- The part of the handler under the lock, and its answer. -/
def serveCounted (cfg : RateLimitConfig) (s : Limiter) (now : Int) (r : Request) :
    Served × Limiter :=
  let key := bucketKey cfg s r
  let s := sweep cfg now s
  let b := refill cfg now (s.buckets.lookup key)
  if 1 ≤ b.tokens then
    (⟨now, r, some key, .next⟩,
      { s with buckets := s.buckets.insert key { b with tokens := b.tokens - 1 } })
  else
    (⟨now, r, some key,
        .error 429 "1" "rate limit exceeded" (if cfg.metrics then some cfg.rejectReason else none)⟩,
      { s with buckets := s.buckets.insert key b })

/-- The handler that `RateLimit` returns. -/
def serve (cfg : RateLimitConfig) (s : Limiter) (e : Int × Request) : Served × Limiter :=
  if operationalPath e.2.path then (⟨e.1, e.2, none, .next⟩, s)
  else if 0 < cfg.pathSuffixes.length && !matchesPathSuffix e.2.path cfg.pathSuffixes then
    (⟨e.1, e.2, none, .next⟩, s)
  else serveCounted cfg s e.1 e.2

/-- `middleware.RateLimit`. -/
def rateLimit (cfg : RateLimitConfig) (s : Limiter) (e : Int × Request) : Served × Limiter :=
  if cfg.ratePerSecond ≤ 0 || cfg.burst ≤ 0 then (⟨e.1, e.2, none, .next⟩, s)
  else serve cfg.withDefaults s e

/-- The requests of a run, as they left the handler. -/
def serveAll (handler : Limiter → Int × Request → Served × Limiter) :
    Limiter → List (Int × Request) → List Served
  | _, [] => []
  | s, e :: rest => (handler s e).1 :: serveAll handler (handler s e).2 rest

end Model

section Counting

/-- The requests that the limiter counts. -/
def counted (cfg : RateLimitConfig) (r : Request) : Bool :=
  !operationalPath r.path &&
    (cfg.pathSuffixes.isEmpty || matchesPathSuffix r.path cfg.pathSuffixes)

/-- A counted request of the client that is forwarded between two times. -/
def forwardedFrom (cfg : RateLimitConfig) (client : String) (lo hi : ℚ) (x : Served) : Bool :=
  decide (clientIP x.request cfg.proxy = client) && counted cfg x.request &&
    decide (x.answer = .next) &&
    decide (lo ≤ GoTime.seconds x.now ∧ GoTime.seconds x.now ≤ hi)

/-- The counted requests of the client that a run forwards between two times. -/
def forwarded
    (cfg : RateLimitConfig) (events : List (Int × Request)) (client : String) (lo hi : ℚ) : Nat :=
  (serveAll (rateLimit cfg) .initial events).countP (forwardedFrom cfg client lo hi)

/-- Those of them that one bucket paid for. -/
def forwardedVia
    (cfg : RateLimitConfig) (events : List (Int × Request)) (client : String) (lo hi : ℚ)
    (key : String) : Nat :=
  (serveAll (rateLimit cfg) .initial events).countP fun x =>
    forwardedFrom cfg client lo hi x && decide (x.bucket = some key)

end Counting

section Buckets

variable {cfg : RateLimitConfig}

/-- The buckets of a state that has been reached by the time `t`. -/
def Reached (s : Limiter) (t : ℚ) : Prop :=
  ∀ k b, s.buckets.lookup k = some b → b.last ≠ 0 ∧ 0 ≤ b.tokens ∧ GoTime.seconds b.last ≤ t

/-- What the bucket under a key can pay at a time. -/
def credit (cfg : RateLimitConfig) (key : String) (s : Limiter) (t : ℚ) : ℚ :=
  match s.buckets.lookup key with
  | none => cfg.burst
  | some b => min (cfg.burst : ℚ) (b.tokens + cfg.ratePerSecond * (t - GoTime.seconds b.last))

/-- The refill over the idle time fills a bucket. -/
structure Refilling (cfg : RateLimitConfig) : Prop where
  rate_pos : 0 < cfg.ratePerSecond
  burst_pos : 0 < cfg.burst
  idle_pos : 0 < cfg.idleTTL
  idle_fills : (cfg.burst : ℚ) ≤ cfg.ratePerSecond * cfg.idleTTL.seconds

/-- A bucket that the sweep keeps is unchanged; one that it deletes was idle. -/
theorem lookup_sweep (cfg : RateLimitConfig) (now : Int) (s : Limiter) (key : String) :
    (sweep cfg now s).buckets.lookup key = s.buckets.lookup key ∨
      (sweep cfg now s).buckets.lookup key = none ∧
        ∃ b, s.buckets.lookup key = some b ∧ cfg.idleTTL ≤ GoTime.sub now b.last := by
  unfold sweep
  split_ifs
  · rw [Entries.lookup_keep]
    cases hb : s.buckets.lookup key with
    | none =>
        exact Or.inl rfl
    | some b =>
        by_cases hidle : cfg.idleTTL ≤ GoTime.sub now b.last
        · exact Or.inr ⟨by simp [hidle], b, rfl, hidle⟩
        · exact Or.inl (by simp [hidle])
  · exact Or.inl rfl

theorem reached_sweep
    {now : Int} {s : Limiter} {t : ℚ}
    (h : Reached s t) :
    Reached (sweep cfg now s) t := by
  intro k b hb
  rcases lookup_sweep cfg now s k with heq | ⟨hnone, _⟩
  · exact h k b (heq ▸ hb)
  · rw [hnone] at hb
    contradiction

theorem Reached.later
    {s : Limiter} {t t' : ℚ}
    (h : Reached s t) (ht : t ≤ t') :
    Reached s t' := fun k b hb =>
  ⟨(h k b hb).1, (h k b hb).2.1, (h k b hb).2.2.trans ht⟩

/-- A bucket that was idle for `IdleTTL` is full. -/
theorem credit_of_idle
    (hcfg : Refilling cfg)
    {s : Limiter} {now : Int} {key : String} {b : RateBucket}
    (hreached : Reached s (GoTime.seconds now))
    (hb : s.buckets.lookup key = some b)
    (hidle : cfg.idleTTL ≤ GoTime.sub now b.last) :
    credit cfg key s (GoTime.seconds now) = cfg.burst := by
  obtain ⟨_, htokens, hlast⟩ := hreached key b hb
  have hle := GoTime.seconds_sub_le (GoTime.seconds_le_seconds.mp hlast)
  have hidle' : cfg.idleTTL.seconds ≤ (GoTime.sub now b.last).seconds := by
    unfold Duration.seconds
    rw [div_le_div_iff_of_pos_right (by norm_num)]
    exact_mod_cast Int64.le_iff_toInt_le.mp hidle
  have hfull : cfg.ratePerSecond * cfg.idleTTL.seconds ≤
      cfg.ratePerSecond * (GoTime.seconds now - GoTime.seconds b.last) :=
    mul_le_mul_of_nonneg_left (hidle'.trans hle) hcfg.rate_pos.le
  unfold credit
  rw [hb]
  exact min_eq_left (by linarith [hcfg.idle_fills])

/-- The sweep takes no credit from a bucket and gives none. -/
theorem credit_sweep
    (hcfg : Refilling cfg)
    {s : Limiter} {now : Int} {key : String}
    (hreached : Reached s (GoTime.seconds now)) :
    credit cfg key (sweep cfg now s) (GoTime.seconds now) =
      credit cfg key s (GoTime.seconds now) := by
  rcases lookup_sweep cfg now s key with heq | ⟨hnone, b, hb, hidle⟩
  · unfold credit
    rw [heq]
  · rw [credit_of_idle hcfg hreached hb hidle]
    unfold credit
    rw [hnone]

theorem refill_some
    {now : Int} {b : RateBucket}
    (hlast : b.last ≠ 0) :
    refill cfg now (some b) =
      ⟨min (cfg.burst : ℚ) (b.tokens + (GoTime.sub now b.last).seconds * cfg.ratePerSecond), now⟩ := by
  unfold refill
  simp only [Option.getD_some, GoTime.isZero_iff, if_neg hlast, gt_iff_lt, RateBucket.mk.injEq,
    and_true]
  rw [min_def]
  split_ifs <;> linarith

theorem last_refill (cfg : RateLimitConfig) (now : Int) (found : Option RateBucket) :
    (refill cfg now found).last = now := by
  unfold refill
  simp only
  split_ifs <;> rfl

/-- A refilled bucket holds no more than its credit. -/
theorem tokens_refill_le
    (hcfg : Refilling cfg)
    {s : Limiter} {now : Int} (key : String)
    (hreached : Reached s (GoTime.seconds now)) :
    (refill cfg now (s.buckets.lookup key)).tokens ≤ credit cfg key s (GoTime.seconds now) := by
  unfold credit
  cases hb : s.buckets.lookup key with
  | none =>
      exact le_rfl
  | some b =>
      obtain ⟨hlast, _, hle⟩ := hreached key b hb
      have hsub := GoTime.seconds_sub_le (GoTime.seconds_le_seconds.mp hle)
      rw [refill_some hlast]
      refine min_le_min_left _ ?_
      rw [mul_comm cfg.ratePerSecond]
      linarith [mul_le_mul_of_nonneg_right hsub hcfg.rate_pos.le]

theorem tokens_refill_nonneg
    (hcfg : Refilling cfg)
    {s : Limiter} {now : Int} (key : String)
    (hreached : Reached s (GoTime.seconds now)) :
    0 ≤ (refill cfg now (s.buckets.lookup key)).tokens := by
  have hburst : (0 : ℚ) ≤ cfg.burst := by
    exact_mod_cast hcfg.burst_pos.le
  cases hb : s.buckets.lookup key with
  | none =>
      exact hburst
  | some b =>
      obtain ⟨hlast, htokens, hle⟩ := hreached key b hb
      have hsub := GoTime.seconds_sub_nonneg (GoTime.seconds_le_seconds.mp hle)
      rw [refill_some hlast]
      exact le_min hburst (add_nonneg htokens (mul_nonneg hsub hcfg.rate_pos.le))

theorem reached_insert
    {s : Limiter} {now : Int} {key : String} {b : RateBucket}
    (hreached : Reached s (GoTime.seconds now))
    (hnow : now ≠ 0)
    (hlast : b.last = now)
    (htokens : 0 ≤ b.tokens) :
    Reached { s with buckets := s.buckets.insert key b } (GoTime.seconds now) := by
  intro k c hc
  rcases Entries.lookup_insert_cases hc with ⟨-, rfl⟩ | hold
  · exact ⟨hlast ▸ hnow, htokens, hlast ▸ le_rfl⟩
  · exact hreached k c hold

theorem credit_insert_of_ne
    {s : Limiter} {key k : String} {b : RateBucket} {t : ℚ}
    (hk : k ≠ key) :
    credit cfg k { s with buckets := s.buckets.insert key b } t = credit cfg k s t := by
  unfold credit
  rw [AList.lookup_insert_ne hk]

theorem credit_insert_self
    {s : Limiter} {key : String} {b : RateBucket} {now : Int}
    (hlast : b.last = now) :
    credit cfg key { s with buckets := s.buckets.insert key b } (GoTime.seconds now) =
      min (cfg.burst : ℚ) b.tokens := by
  unfold credit
  simp only [AList.lookup_insert]
  rw [hlast, sub_self, mul_zero, add_zero]

end Buckets

section Metering

variable {cfg : RateLimitConfig}

/-- What a served request costs a bucket. -/
def Served.cost (key : String) (x : Served) : ℚ :=
  if x.answer = .next ∧ x.bucket = some key then 1 else 0

/-- What a request costs a bucket. -/
def spent (cfg : RateLimitConfig) (key : String) (s : Limiter) (e : Int × Request) : ℚ :=
  (serve cfg s e).1.cost key

/-- The handler lets a request through without counting it, or counts it. -/
theorem serve_cases (cfg : RateLimitConfig) (s : Limiter) (e : Int × Request) :
    counted cfg e.2 = false ∧ serve cfg s e = (⟨e.1, e.2, none, .next⟩, s) ∨
      counted cfg e.2 = true ∧ serve cfg s e = serveCounted cfg s e.1 e.2 := by
  unfold serve counted
  by_cases hop : operationalPath e.2.path = true
  · exact Or.inl ⟨by simp [hop], if_pos hop⟩
  · rw [if_neg hop]
    split_ifs with hsuffix
    · left
      simpa [hop, List.length_pos_iff] using hsuffix
    · right
      simp only [Bool.and_eq_true, decide_eq_true_eq, List.length_pos_iff, Bool.not_eq_true',
        not_and, Bool.not_eq_false] at hsuffix
      by_cases hnil : cfg.pathSuffixes = []
      · simp [hop, hnil]
      · simp [hop, hsuffix hnil]

/-- A request under the lock leaves its bucket with the refilled tokens, less the one
that it was forwarded for. -/
theorem serveCounted_eq (cfg : RateLimitConfig) (s : Limiter) (now : Int) (r : Request) :
    ∃ answer b,
      serveCounted cfg s now r =
        (⟨now, r, some (bucketKey cfg s r), answer⟩,
          { sweep cfg now s with
            buckets := (sweep cfg now s).buckets.insert (bucketKey cfg s r) b }) ∧
      b.last = now ∧
      (answer = .next ∧
          1 ≤ (refill cfg now ((sweep cfg now s).buckets.lookup (bucketKey cfg s r))).tokens ∧
          b.tokens =
            (refill cfg now ((sweep cfg now s).buckets.lookup (bucketKey cfg s r))).tokens - 1 ∨
        answer ≠ .next ∧
          b = refill cfg now ((sweep cfg now s).buckets.lookup (bucketKey cfg s r))) := by
  unfold serveCounted
  simp only
  split_ifs with hallowed
  · exact ⟨_, _, rfl, last_refill cfg now _, Or.inl ⟨rfl, hallowed, rfl⟩⟩
  all_goals exact ⟨_, _, rfl, last_refill cfg now _, Or.inr ⟨by simp, rfl⟩⟩

/-- A request under the lock keeps the buckets well formed and pays out of the credit of
its bucket. -/
theorem serveCounted_spec
    (hcfg : Refilling cfg)
    {s : Limiter} {now : Int} (r : Request)
    (hnow : now ≠ 0)
    (hreached : Reached s (GoTime.seconds now))
    (key : String) :
    Reached (serveCounted cfg s now r).2 (GoTime.seconds now) ∧
      (serveCounted cfg s now r).1.cost key +
          credit cfg key (serveCounted cfg s now r).2 (GoTime.seconds now) ≤
        credit cfg key s (GoTime.seconds now) := by
  have hswept : Reached (sweep cfg now s) (GoTime.seconds now) := reached_sweep hreached
  obtain ⟨answer, b, heq, hlast, hanswer⟩ := serveCounted_eq cfg s now r
  have hnonneg := tokens_refill_nonneg hcfg (bucketKey cfg s r) hswept
  have hle := tokens_refill_le hcfg (bucketKey cfg s r) hswept
  have htokens : 0 ≤ b.tokens := by
    rcases hanswer with ⟨_, hone, hb⟩ | ⟨_, hb⟩
    · linarith
    · rw [hb]
      exact hnonneg
  rw [heq]
  refine ⟨reached_insert hswept hnow hlast htokens, ?_⟩
  rw [← credit_sweep hcfg hreached]
  by_cases hkey : key = bucketKey cfg s r
  · subst hkey
    rw [credit_insert_self hlast]
    have hmin := min_le_right (cfg.burst : ℚ) b.tokens
    rcases hanswer with ⟨hnext, _, hb⟩ | ⟨hnext, hb⟩
    · simp only [Served.cost, hnext, and_self, if_true]
      linarith
    · simp only [Served.cost, hnext, false_and, if_false, zero_add]
      rw [hb] at hmin ⊢
      exact hmin.trans hle
  · rw [credit_insert_of_ne hkey]
    simp [Served.cost, Ne.symm hkey]

theorem serve_spec
    (hcfg : Refilling cfg)
    {s : Limiter} {e : Int × Request} {t : ℚ}
    (hnow : e.1 ≠ 0)
    (hreached : Reached s t)
    (ht : t ≤ GoTime.seconds e.1)
    (key : String) :
    Reached (serve cfg s e).2 (GoTime.seconds e.1) ∧
      spent cfg key s e + credit cfg key (serve cfg s e).2 (GoTime.seconds e.1) ≤
        credit cfg key s (GoTime.seconds e.1) := by
  unfold spent
  rcases serve_cases cfg s e with ⟨_, heq⟩ | ⟨_, heq⟩
  · rw [heq]
    exact ⟨hreached.later ht, by simp [Served.cost]⟩
  · rw [heq]
    exact serveCounted_spec hcfg e.2 hnow (hreached.later ht) key

/-- The handler is metered by the credit of any one bucket. -/
theorem metered
    (hcfg : Refilling cfg)
    (key : String) :
    Metered (fun s e => (serve cfg s e).2) (fun e => GoTime.seconds e.1) (spent cfg key)
      Reached (fun e => e.1 ≠ 0) (credit cfg key) cfg.ratePerSecond cfg.burst where
  rate_nonneg := hcfg.rate_pos.le
  inv_step hreached hnow ht := (serve_spec hcfg hnow hreached ht key).1
  credit_nonneg := by
    intro s t hreached
    have hburst : (0 : ℚ) ≤ cfg.burst := by
      exact_mod_cast hcfg.burst_pos.le
    unfold credit
    split
    · exact hburst
    · next b hb =>
        obtain ⟨_, htokens, hlast⟩ := hreached key b hb
        exact le_min hburst
          (add_nonneg htokens (mul_nonneg hcfg.rate_pos.le (sub_nonneg.mpr hlast)))
  credit_le := by
    intro s t
    unfold credit
    split
    · exact le_rfl
    · exact min_le_left _ _
  credit_later := by
    intro s t t' _ ht
    have hroom : 0 ≤ cfg.ratePerSecond * (t' - t) :=
      mul_nonneg hcfg.rate_pos.le (sub_nonneg.mpr ht)
    unfold credit
    split
    · linarith
    · next b _ =>
        rw [min_add]
        refine le_min ((min_le_left _ _).trans (by linarith)) ((min_le_right _ _).trans ?_)
        linarith
  spent_nonneg := by
    intro s e
    unfold spent Served.cost
    split_ifs <;> norm_num
  spent_le hreached hnow ht := (serve_spec hcfg hnow hreached ht key).2

end Metering

section Results

variable {cfg : RateLimitConfig}

theorem idleTTL_withDefaults_pos (cfg : RateLimitConfig) :
    0 < cfg.withDefaults.idleTTL := by
  unfold RateLimitConfig.withDefaults
  simp only
  split_ifs with hle
  · decide
  · exact Int64.not_le.mp hle

/-- An active limiter is the handler with the defaults filled in. -/
theorem rateLimit_eq_serve
    (hrate : 0 < cfg.ratePerSecond) (hburst : 0 < cfg.burst) :
    rateLimit cfg = serve cfg.withDefaults := by
  funext s e
  unfold rateLimit
  simp [not_le.mpr hrate, not_le.mpr hburst]

/-- What a run forwards to a client on one bucket is paid by that bucket. -/
theorem countP_le_spentIn
    (cfg : RateLimitConfig) (client key : String) (lo hi : ℚ)
    (s : Limiter) (events : List (Int × Request)) :
    (((serveAll (serve cfg) s events).countP fun x =>
        forwardedFrom cfg client lo hi x && decide (x.bucket = some key) : Nat) : ℚ) ≤
      spentIn (fun s e => (serve cfg s e).2) (fun e => GoTime.seconds e.1) (spent cfg key) lo hi
        s events := by
  induction events generalizing s with
  | nil =>
      simp [serveAll, spentIn]
  | cons e rest ih =>
      have hnow : (serve cfg s e).1.now = e.1 := by
        rcases serve_cases cfg s e with ⟨_, heq⟩ | ⟨_, heq⟩
        · rw [heq]
        · obtain ⟨answer, b, hcount, _⟩ := serveCounted_eq cfg s e.1 e.2
          rw [heq, hcount]
      rw [serveAll, List.countP_cons, spentIn, Nat.cast_add, add_comm]
      refine add_le_add ?_ (ih _)
      unfold spent Served.cost forwardedFrom
      rw [hnow]
      split_ifs <;> simp_all

/-- A counted request uses the bucket of its address or the overflow bucket. -/
theorem bucket_of_counted
    {s : Limiter} {events : List (Int × Request)} {x : Served}
    (hx : x ∈ serveAll (serve cfg) s events)
    (hcounted : counted cfg x.request = true) :
    x.bucket = some (clientIP x.request cfg.proxy) ∨ x.bucket = some overflowKey := by
  induction events generalizing s with
  | nil =>
      simp [serveAll] at hx
  | cons e rest ih =>
      rcases List.mem_cons.mp hx with rfl | hx
      · rcases serve_cases cfg s e with ⟨hnot, heq⟩ | ⟨_, heq⟩
        · rw [heq] at hcounted
          simp [hnot] at hcounted
        · obtain ⟨answer, b, hcount, _⟩ := serveCounted_eq cfg s e.1 e.2
          rw [heq, hcount]
          unfold bucketKey
          simp only
          split_ifs <;> simp
      · exact ih hx

/-- The requests of a client are paid by its own bucket and by the overflow bucket. -/
theorem countP_forwardedFrom_le
    (cfg : RateLimitConfig) (client : String) (lo hi : ℚ) (l : List Served)
    (h : ∀ x ∈ l, counted cfg x.request = true →
      x.bucket = some (clientIP x.request cfg.proxy) ∨ x.bucket = some overflowKey) :
    l.countP (forwardedFrom cfg client lo hi) ≤
      (l.countP fun x => forwardedFrom cfg client lo hi x && decide (x.bucket = some client)) +
        l.countP fun x => forwardedFrom cfg client lo hi x && decide (x.bucket = some overflowKey) := by
  induction l with
  | nil =>
      simp
  | cons x rest ih =>
      have hrest := ih fun y hy => h y (List.mem_cons_of_mem _ hy)
      simp only [List.countP_cons]
      by_cases hx : forwardedFrom cfg client lo hi x = true
      · have hboth : clientIP x.request cfg.proxy = client ∧ counted cfg x.request = true := by
          unfold forwardedFrom at hx
          simp only [Bool.and_eq_true, decide_eq_true_eq] at hx
          exact hx.1.1
        rcases h x List.mem_cons_self hboth.2 with hown | hover
        · rw [hboth.1] at hown
          simp only [hx, hown, decide_true, Bool.and_self, if_true]
          omega
        · simp only [hx, hover, decide_true, Bool.and_self, if_true]
          omega
      · simp only [Bool.not_eq_true] at hx
        simp only [hx, Bool.false_and]
        simpa using hrest

/-- In a window of `length` seconds each bucket pays for at most
`Burst + RatePerSecond * length` requests of a client, and only the bucket of the client
and the overflow bucket pay for them. -/
theorem rate_limit_bound
    (cfg : RateLimitConfig)
    (hrate : 0 < cfg.ratePerSecond)
    (hburst : 0 < cfg.burst)
    (hidle : (cfg.burst : ℚ) ≤ cfg.ratePerSecond * cfg.withDefaults.idleTTL.seconds)
    (events : List (Int × Request))
    (hclock : ∀ e ∈ events, e.1 ≠ 0)
    (hsorted : events.Pairwise fun e e' => e.1 ≤ e'.1)
    (client : String)
    (start length : ℚ)
    (hlength : 0 ≤ length) :
    (∀ key, (forwardedVia cfg events client start (start + length) key : ℚ) ≤
        cfg.burst + cfg.ratePerSecond * length) ∧
      forwarded cfg events client start (start + length) ≤
        forwardedVia cfg events client start (start + length) client +
          forwardedVia cfg events client start (start + length) overflowKey ∧
      (forwarded cfg events client start (start + length) : ℚ) ≤
        2 * (cfg.burst + cfg.ratePerSecond * length) := by
  have hcfg : Refilling cfg.withDefaults := ⟨hrate, hburst, idleTTL_withDefaults_pos cfg, hidle⟩
  have hvia (key : String) : (forwardedVia cfg events client start (start + length) key : ℚ) ≤
      cfg.burst + cfg.ratePerSecond * length := by
    unfold forwardedVia
    rw [rateLimit_eq_serve hrate hburst]
    have hbound := (metered hcfg key).spentIn_le (by exact_mod_cast hburst.le) events
      start (start + length) (t := (events.head?.map fun e => GoTime.seconds e.1).getD 0)
      (s := .initial)
      (by intro k b hb; simp [Limiter.initial] at hb) (by linarith) hclock
      (by
        intro e he
        cases events with
        | nil => simp at he
        | cons first rest =>
            rcases List.mem_cons.mp he with rfl | he
            · exact le_rfl
            · exact GoTime.seconds_le_seconds.mpr ((List.pairwise_cons.mp hsorted).1 e he))
      (hsorted.imp fun h => GoTime.seconds_le_seconds.mpr h)
    rw [add_sub_cancel_left] at hbound
    exact (countP_le_spentIn cfg.withDefaults client key _ _ _ _).trans hbound
  have hsplit : forwarded cfg events client start (start + length) ≤
      forwardedVia cfg events client start (start + length) client +
        forwardedVia cfg events client start (start + length) overflowKey := by
    unfold forwarded forwardedVia
    rw [rateLimit_eq_serve hrate hburst]
    exact countP_forwardedFrom_le cfg.withDefaults client _ _ _ fun x hx => bucket_of_counted hx
  refine ⟨hvia, hsplit, ?_⟩
  have hsplit' : (forwarded cfg events client start (start + length) : ℚ) ≤
      forwardedVia cfg events client start (start + length) client +
        forwardedVia cfg events client start (start + length) overflowKey := by
    exact_mod_cast hsplit
  linarith [hvia client, hvia overflowKey]

/-- One token at a time, filled up again in the second after which an idle bucket is
swept. -/
def onePerSecond (maxEntries : Int) (pathSuffixes : List String) : RateLimitConfig where
  ratePerSecond := 1
  burst := 1
  idleTTL := Duration.second
  maxEntries := maxEntries
  proxy := ⟨[]⟩
  metrics := true
  pathSuffixes := pathSuffixes
  rejectReason := ""

/-- A request of a client without a proxy. -/
def directRequest (remoteAddr path : String) : Request :=
  ⟨remoteAddr, path, []⟩

/-- Two requests of one client at one instant, and a third after a second. -/
theorem rate_limit_bound_one_client :
    forwarded (onePerSecond 2 [])
        [(5, directRequest "192.0.2.1:80" "/api/me"), (5, directRequest "192.0.2.1:81" "/api/me"),
          (1000000005, directRequest "192.0.2.1:82" "/api/me")] "192.0.2.1" 0 (0 + 2) = 2 ∧
      (forwarded (onePerSecond 2 [])
        [(5, directRequest "192.0.2.1:80" "/api/me"), (5, directRequest "192.0.2.1:81" "/api/me"),
          (1000000005, directRequest "192.0.2.1:82" "/api/me")] "192.0.2.1" 0 (0 + 2) : ℚ) ≤
        2 * ((1 : Int) + 1 * 2) :=
  ⟨by decide +kernel,
    (rate_limit_bound (onePerSecond 2 []) (by decide +kernel) (by decide) (by decide +kernel)
      _ (by decide) (by decide) "192.0.2.1" 0 2 (by decide +kernel)).2.2⟩

/-- The third client finds two buckets and pays with the overflow bucket; its second request
is rejected there but sweeps the idle buckets, and its third has a bucket of its own. -/
def overflowEvents : List (Int × Request) :=
  [(1, directRequest "192.0.2.1:80" "/api/me"),
    (1, directRequest "192.0.2.2:80" "/api/me"),
    (1000000000, directRequest "192.0.2.3:80" "/api/me"),
    (1000000001, directRequest "192.0.2.3:81" "/api/me"),
    (1000000002, directRequest "192.0.2.3:82" "/api/me")]

/-- A client spends its burst of two; a second later the sweep that another client triggers
drops its bucket, which the refill of one token had not filled. -/
def idleSweepEvents : List (Int × Request) :=
  [(1, directRequest "192.0.2.1:80" "/api/me"),
    (1, directRequest "192.0.2.1:81" "/api/me"),
    (1000000001, directRequest "192.0.2.2:80" "/api/me"),
    (1000000001, directRequest "192.0.2.1:82" "/api/me"),
    (1000000001, directRequest "192.0.2.1:83" "/api/me")]

/-- A client exceeds the bound of one bucket in a window of two nanoseconds when it changes
from the overflow bucket to its own, in a window of one second when `Burst` is more than the
refill over `IdleTTL`, at one instant when the clock reads the zero `Time`, which marks a bucket
that has not been used, and without any window when its path is not among `PathSuffixes`. -/
theorem rate_limit_bound_exceeded :
    (1 + 1 * (2 / 1000000000) : ℚ) <
        forwarded (onePerSecond 2 []) overflowEvents "192.0.2.3" 1 (1 + 2 / 1000000000) ∧
      (2 + 1 * 1 : ℚ) <
        forwarded { onePerSecond 2 [] with burst := 2 } idleSweepEvents "192.0.2.1"
          (1 / 1000000000) (1 / 1000000000 + 1) ∧
      (1 + 1 * 0 : ℚ) <
        forwarded (onePerSecond 2 [])
          [(0, directRequest "192.0.2.1:80" "/api/me"),
            (0, directRequest "192.0.2.1:81" "/api/me")] "192.0.2.1" 0 (0 + 0) ∧
      (serveAll (rateLimit (onePerSecond 2 ["/auth/login"])) .initial
          [(5, directRequest "192.0.2.1:80" "/api/me"),
            (5, directRequest "192.0.2.1:81" "/api/me")]).map Served.answer = [.next, .next] ∧
      operationalPath "/api/me" = false := by
  decide +kernel

end Results

end Middleware
end GatewayRuntime
