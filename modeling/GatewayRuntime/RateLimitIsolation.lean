import GatewayRuntime.RateLimitMemory

/-!
# One client and the rate limiter

All clients share the map of buckets, its sweep and the overflow bucket.  The sweep runs at a
time that other clients decide, and it throws buckets away.  Still a client cannot tell whether
it is alone: as long as there is room for the addresses of a run, and a bucket that is idle
until it is swept would have been full, the answers to one client are those of a token bucket of
its own.

The two are kept together by the credit of the client, which is what the bucket of its own holds.
-/

namespace GatewayRuntime
namespace Middleware

open TokenBucket

section Credit

variable {cfg : RateLimitConfig} {s : Limiter}

/-- The refill that Go computes is the exact one, also when the difference of the times does
not fit into a `Duration`: such a bucket is full. -/
theorem tokens_refill_eq
    (hcfg : Refilling cfg)
    {now : Int} (key : String)
    (hreached : Reached s (GoTime.seconds now)) :
    (refill cfg now (s.buckets.lookup key)).tokens = credit cfg key s (GoTime.seconds now) := by
  cases hb : s.buckets.lookup key with
  | none =>
      simp [refill, credit, hb]
  | some b =>
      obtain ⟨hlast, htokens, hle⟩ := hreached key b hb
      rw [refill_some hlast]
      by_cases hidle : cfg.idleTTL ≤ GoTime.sub now b.last
      · rw [credit_of_idle hcfg hreached hb hidle]
        have hfull : cfg.idleTTL.seconds * cfg.ratePerSecond ≤
            (GoTime.sub now b.last).seconds * cfg.ratePerSecond := by
          refine mul_le_mul_of_nonneg_right ?_ hcfg.rate_pos.le
          unfold Duration.seconds
          rw [div_le_div_iff_of_pos_right (by norm_num)]
          exact_mod_cast Int64.le_iff_toInt_le.mp hidle
        exact min_eq_left (by linarith [hcfg.idle_fills])
      · have hexact : (GoTime.sub now b.last).seconds =
            GoTime.seconds now - GoTime.seconds b.last := by
          have hlt := (GoTime.sub_lt_iff hcfg.idle_pos now b.last).mp (Int64.not_le.mp hidle)
          have hmax := Int64.toInt_lt cfg.idleTTL
          have horder := GoTime.seconds_le_seconds.mp hle
          have hdiff : (GoTime.sub now b.last).toInt = now - b.last := by
            rw [GoTime.toInt_sub]
            omega
          unfold Duration.seconds GoTime.seconds
          rw [hdiff, ← sub_div, Int.cast_sub]
        unfold credit
        rw [hb, hexact, mul_comm]

theorem credit_later
    (hcfg : Refilling cfg)
    {key : String} {t t' : ℚ}
    (ht : t ≤ t') :
    credit cfg key s t' = min (cfg.burst : ℚ) (credit cfg key s t + cfg.ratePerSecond * (t' - t)) := by
  unfold credit
  split
  · have hroom := mul_nonneg hcfg.rate_pos.le (sub_nonneg.mpr ht)
    exact (min_eq_left (by linarith)).symm
  · exact min_fill hcfg.rate_pos.le ht

/-- A counted request on a bucket gets a token from the credit of the bucket, and takes it. -/
theorem serveCounted_credit
    (hcfg : Refilling cfg)
    {now : Int} (r : Request)
    (hreached : Reached s (GoTime.seconds now)) :
    ((serveCounted cfg s now r).1.answer = .next ↔
        1 ≤ credit cfg (bucketKey cfg s r) s (GoTime.seconds now)) ∧
      credit cfg (bucketKey cfg s r) (serveCounted cfg s now r).2 (GoTime.seconds now) =
        credit cfg (bucketKey cfg s r) s (GoTime.seconds now) -
          if (serveCounted cfg s now r).1.answer = .next then 1 else 0 := by
  have hswept : Reached (sweep cfg now s) (GoTime.seconds now) := reached_sweep hreached
  have hrefill := tokens_refill_eq hcfg (bucketKey cfg s r) hswept
  rw [credit_sweep hcfg hreached] at hrefill
  have hle : credit cfg (bucketKey cfg s r) s (GoTime.seconds now) ≤ cfg.burst := by
    unfold credit
    split
    · exact le_rfl
    · exact min_le_left _ _
  have hlast := last_refill cfg now ((sweep cfg now s).buckets.lookup (bucketKey cfg s r))
  by_cases hone : 1 ≤ credit cfg (bucketKey cfg s r) s (GoTime.seconds now)
  · simp only [serveCounted, hrefill, hone, true_and, if_true]
    rw [credit_insert_self (by exact hlast)]
    exact min_eq_right (by linarith)
  · simp only [serveCounted, hrefill, hone, reduceCtorEq, true_and, if_false, sub_zero]
    rw [credit_insert_self hlast, hrefill]
    exact min_eq_right hle

/-- A counted request leaves the credit of the other buckets as it is. -/
theorem serveCounted_credit_of_ne
    (hcfg : Refilling cfg)
    {now : Int} (r : Request) {key : String}
    (hreached : Reached s (GoTime.seconds now))
    (hkey : key ≠ bucketKey cfg s r) :
    credit cfg key (serveCounted cfg s now r).2 (GoTime.seconds now) =
      credit cfg key s (GoTime.seconds now) := by
  obtain ⟨answer, b, heq, -⟩ := serveCounted_eq cfg s now r
  rw [heq, credit_insert_of_ne hkey, credit_sweep hcfg hreached]

end Credit

section Room

variable {cfg : RateLimitConfig} {s : Limiter} {events : List (Int × Request)}

/-- The addresses of the counted requests of a run. -/
def clientsOf (cfg : RateLimitConfig) (events : List (Int × Request)) : Finset String :=
  ((events.filter fun e => counted cfg e.2).map fun e => clientIP e.2 cfg.proxy).toFinset

/-- Where there is room for all addresses that have a bucket or may get one, a request uses the
bucket of its address. -/
theorem bucketKey_of_room
    {clients : Finset String} {r : Request}
    (hkeys : Entries.keySet s.buckets ⊆ clients)
    (hclient : clientIP r cfg.proxy ∈ clients)
    (hroom : (clients.card : Int) ≤ cfg.maxEntries) :
    bucketKey cfg s r = clientIP r cfg.proxy := by
  unfold bucketKey
  simp only
  split_ifs with hfull
  · -- The address has no bucket, so the buckets are fewer than the addresses.
    simp only [Bool.and_eq_true, Option.isNone_iff_eq_none, decide_eq_true_eq] at hfull
    have hnew : clientIP r cfg.proxy ∉ Entries.keySet s.buckets := by
      rw [Entries.mem_keySet]
      exact AList.lookup_eq_none.mp hfull.1
    have hlt := Finset.card_lt_card (Finset.ssubset_iff_subset_ne.mpr
      ⟨hkeys, fun heq => hnew (heq ▸ hclient)⟩)
    rw [Entries.card_keySet] at hlt
    omega
  · rfl

/-- A counted request makes no bucket but that of its key. -/
theorem keySet_serveCounted_subset (cfg : RateLimitConfig) (s : Limiter) (now : Int) (r : Request) :
    Entries.keySet (serveCounted cfg s now r).2.buckets ⊆
      insert (bucketKey cfg s r) (Entries.keySet s.buckets) := by
  obtain ⟨answer, b, heq, -⟩ := serveCounted_eq cfg s now r
  rw [heq, Entries.keySet_insert]
  exact Finset.insert_subset_insert _ (keySet_sweep_subset cfg now s)

end Room

section Isolation

variable {cfg : RateLimitConfig}

/-- The counted requests of a client. -/
def ofClient (cfg : RateLimitConfig) (client : String) (r : Request) : Bool :=
  counted cfg r && decide (clientIP r cfg.proxy = client)

/-- A request of a client gets a token from the credit of the client; every other request
leaves that credit as it is. -/
theorem serve_client
    (hcfg : Refilling cfg)
    {clients : Finset String} (hroom : (clients.card : Int) ≤ cfg.maxEntries)
    (client : String)
    {s : Limiter} {e : Int × Request} {t : ℚ}
    (hreached : Reached s t) (ht : t ≤ GoTime.seconds e.1)
    (hkeys : Entries.keySet s.buckets ⊆ clients)
    (hclient : counted cfg e.2 = true → clientIP e.2 cfg.proxy ∈ clients) :
    Entries.keySet (serve cfg s e).2.buckets ⊆ clients ∧
      (if ofClient cfg client e.2 then
        ((serve cfg s e).1.answer = .next ↔ 1 ≤ credit cfg client s (GoTime.seconds e.1)) ∧
        credit cfg client (serve cfg s e).2 (GoTime.seconds e.1) =
          credit cfg client s (GoTime.seconds e.1) -
            if (serve cfg s e).1.answer = .next then 1 else 0
      else
        credit cfg client (serve cfg s e).2 (GoTime.seconds e.1) =
          credit cfg client s (GoTime.seconds e.1)) := by
  have hnow := hreached.later ht
  rcases serve_cases cfg s e with ⟨hnot, heq⟩ | ⟨hcounted, heq⟩
  · simp [heq, ofClient, hnot, hkeys]
  · have hkey : bucketKey cfg s e.2 = clientIP e.2 cfg.proxy :=
      bucketKey_of_room hkeys (hclient hcounted) hroom
    rw [heq]
    refine ⟨(keySet_serveCounted_subset cfg s e.1 e.2).trans ?_, ?_⟩
    · rw [hkey]
      exact Finset.insert_subset (hclient hcounted) hkeys
    · by_cases hown : clientIP e.2 cfg.proxy = client
      · subst hown
        simpa only [ofClient, hcounted, decide_true, Bool.and_self, if_true, hkey]
          using serveCounted_credit hcfg e.2 hnow
      · rw [if_neg (by simp [ofClient, hown])]
        exact serveCounted_credit_of_ne hcfg e.2 hnow (by rw [hkey]; exact Ne.symm hown)

theorem request_serve (cfg : RateLimitConfig) (s : Limiter) (e : Int × Request) :
    (serve cfg s e).1.request = e.2 := by
  rcases serve_cases cfg s e with ⟨_, heq⟩ | ⟨_, heq⟩
  · rw [heq]
  · obtain ⟨answer, b, hcount, _⟩ := serveCounted_eq cfg s e.1 e.2
    rw [heq, hcount]

/-- From any state that is reached, the answers to a client are those of a bucket that holds the
credit of the client.  The induction is on the run: a request of the client takes the same token
from both, any other request and the sweep leave the credit as it is. -/
theorem serveAll_client
    (hcfg : Refilling cfg)
    {clients : Finset String} (hroom : (clients.card : Int) ≤ cfg.maxEntries)
    (client : String)
    {s : Limiter} {bucket : Bucket} {t : ℚ} {events : List (Int × Request)}
    (hreached : Reached s t)
    (hkeys : Entries.keySet s.buckets ⊆ clients)
    (hlevel : credit cfg client s t = bucket.level cfg.ratePerSecond cfg.burst t)
    (hclients : ∀ e ∈ events, counted cfg e.2 = true → clientIP e.2 cfg.proxy ∈ clients)
    (hclock : ∀ e ∈ events, e.1 ≠ 0)
    (hafter : ∀ e ∈ events, t ≤ GoTime.seconds e.1)
    (hsorted : events.Pairwise fun e e' => e.1 ≤ e'.1) :
    ((serveAll (serve cfg) s events).filter fun x => ofClient cfg client x.request).map
        (fun x => decide (x.answer = .next)) =
      bucket.answers cfg.ratePerSecond cfg.burst
        ((events.filter fun e => ofClient cfg client e.2).map fun e => GoTime.seconds e.1) := by
  induction events generalizing s bucket t with
  | nil =>
      rfl
  | cons e rest ih =>
      obtain ⟨hlater, hsorted⟩ := List.pairwise_cons.mp hsorted
      have ht := hafter e List.mem_cons_self
      have hreached' := (serve_spec hcfg (hclock e List.mem_cons_self) hreached ht client).1
      obtain ⟨hkeys', hstep⟩ := serve_client hcfg hroom client hreached ht hkeys
        (hclients e List.mem_cons_self)
      have hnow : credit cfg client s (GoTime.seconds e.1) =
          bucket.level cfg.ratePerSecond cfg.burst (GoTime.seconds e.1) := by
        rw [credit_later hcfg ht, Bucket.level_later hcfg.rate_pos.le ht, hlevel]
      have hrest {bucket' : Bucket}
          (hlevel' : credit cfg client (serve cfg s e).2 (GoTime.seconds e.1) =
            bucket'.level cfg.ratePerSecond cfg.burst (GoTime.seconds e.1)) :=
        ih hreached' hkeys' hlevel' (fun e' he' => hclients e' (List.mem_cons_of_mem _ he'))
          (fun e' he' => hclock e' (List.mem_cons_of_mem _ he'))
          (fun e' he' => GoTime.seconds_le_seconds.mpr (hlater e' he')) hsorted
      rw [serveAll, List.filter_cons, List.filter_cons, request_serve]
      by_cases hown : ofClient cfg client e.2 = true
      · rw [if_pos hown, hnow] at hstep
        have htoken : decide ((serve cfg s e).1.answer = .next) =
            (bucket.take cfg.ratePerSecond cfg.burst (GoTime.seconds e.1)).1 := by
          unfold Bucket.take
          split_ifs with hone
          · exact decide_eq_true (hstep.1.mpr hone)
          · exact decide_eq_false fun hnext => hone (hstep.1.mp hnext)
        rw [if_pos hown, if_pos hown, List.map_cons, List.map_cons, Bucket.answers, htoken]
        refine congrArg _ (hrest ?_)
        rw [hstep.2, Bucket.level_take, ← htoken]
        simp
      · rw [if_neg hown, hnow] at hstep
        rw [if_neg hown, if_neg hown]
        exact hrest hstep

/-- **Clients are isolated.**  As long as the table has room for every client, the answers that a
client gets in a run are those of a token bucket of its own, fed with the times at which it asks:
what other clients do, the sweep included, does not show in them. -/
theorem rate_limit_isolates_clients
    (cfg : RateLimitConfig)
    (hrate : 0 < cfg.ratePerSecond)
    (hburst : 0 < cfg.burst)
    (hidle : (cfg.burst : ℚ) ≤ cfg.ratePerSecond * cfg.withDefaults.idleTTL.seconds)
    (events : List (Int × Request))
    (hclock : ∀ e ∈ events, e.1 ≠ 0)
    (hsorted : events.Pairwise fun e e' => e.1 ≤ e'.1)
    (hroom : ((clientsOf cfg events).card : Int) ≤ cfg.withDefaults.maxEntries)
    (client : String)
    (start : ℚ)
    (hstart : ∀ e ∈ events, start ≤ GoTime.seconds e.1) :
    ((serveAll (rateLimit cfg) .initial events).filter fun x => ofClient cfg client x.request).map
        (fun x => decide (x.answer = .next)) =
      (Bucket.full cfg.burst start).answers cfg.ratePerSecond cfg.burst
        ((events.filter fun e => ofClient cfg client e.2).map fun e => GoTime.seconds e.1) := by
  have hcfg : Refilling cfg.withDefaults := ⟨hrate, hburst, idleTTL_withDefaults_pos cfg, hidle⟩
  rw [rateLimit_eq_serve hrate hburst]
  refine serveAll_client hcfg hroom client (s := .initial) (t := start) ?_ ?_ ?_ ?_ hclock hstart
    hsorted
  · intro k b hb
    simp [Limiter.initial] at hb
  · simp [Limiter.initial, Entries.keySet]
  · rw [show cfg.withDefaults.burst = cfg.burst from rfl, Bucket.level_full]
    simp [credit, Limiter.initial, RateLimitConfig.withDefaults]
  · intro e he hcounted
    exact List.mem_toFinset.mpr (List.mem_map.mpr ⟨e, List.mem_filter.mpr ⟨he, hcounted⟩, rfl⟩)

/-- Two clients at once: the second request of the first client is refused, whatever the other
does, and the third finds the token of the second that has passed. -/
theorem rate_limit_isolates_clients_two :
    ((serveAll (rateLimit (onePerSecond 2 [])) .initial
        [(5, directRequest "192.0.2.1:80" "/api/me"), (5, directRequest "192.0.2.2:80" "/api/me"),
          (6, directRequest "192.0.2.1:81" "/api/me"),
          (1000000005, directRequest "192.0.2.1:82" "/api/me")]).filter
          fun x => ofClient (onePerSecond 2 []) "192.0.2.1" x.request).map
        (fun x => decide (x.answer = .next)) = [true, false, true] ∧
      ((serveAll (rateLimit (onePerSecond 2 [])) .initial
        [(5, directRequest "192.0.2.1:80" "/api/me"), (5, directRequest "192.0.2.2:80" "/api/me"),
          (6, directRequest "192.0.2.1:81" "/api/me"),
          (1000000005, directRequest "192.0.2.1:82" "/api/me")]).filter
          fun x => ofClient (onePerSecond 2 []) "192.0.2.1" x.request).map
        (fun x => decide (x.answer = .next)) =
      (Bucket.full (1 : Int) 0).answers 1 (1 : Int)
        [GoTime.seconds 5, GoTime.seconds 6, GoTime.seconds 1000000005] :=
  ⟨by decide +kernel,
    rate_limit_isolates_clients (onePerSecond 2 []) (by decide +kernel) (by decide)
      (by decide +kernel) _ (by decide) (by decide) (by decide +kernel) "192.0.2.1" 0
      (by decide +kernel)⟩

/-- Without room for a third address its answers depend on the others: it shares the overflow
bucket with the fourth. -/
example :
    ((serveAll (rateLimit (onePerSecond 2 [])) .initial
        [(1, directRequest "192.0.2.1:80" "/api/me"), (1, directRequest "192.0.2.2:80" "/api/me"),
          (1, directRequest "192.0.2.4:80" "/api/me"),
          (1, directRequest "192.0.2.3:80" "/api/me")]).filter
          fun x => ofClient (onePerSecond 2 []) "192.0.2.3" x.request).map
        (fun x => decide (x.answer = .next)) = [false] := by
  decide +kernel

end Isolation

end Middleware
end GatewayRuntime
