import GatewayRuntime.RateLimit

/-!
# The memory of the rate limiter

The bucket of a request is chosen before the sweep, which may delete any bucket, the chosen
one included.  An address without a bucket gets one only while there are fewer than
`MaxEntries`; an address with one gets the same one back.  So the buckets of addresses never
outnumber `MaxEntries`, and beside them there is at most the overflow bucket.
-/

namespace GatewayRuntime
namespace Middleware

section Memory

variable {cfg : RateLimitConfig} {s : Limiter} {events : List (Int × Request)}

/-- The keys of the buckets that belong to client addresses. -/
def clientKeys (s : Limiter) : Finset String :=
  (Entries.keySet s.buckets).erase overflowKey

/-- The buckets of a limiter after some requests. -/
structure Bounded (cfg : RateLimitConfig) (events : List (Int × Request)) (s : Limiter) : Prop where
  owners : ∀ k ∈ s.buckets, k = overflowKey ∨ ∃ e ∈ events, clientIP e.2 cfg.proxy = k
  clients : ((clientKeys s).card : Int) ≤ cfg.maxEntries
  overflow : Entries.size s.buckets ≤ (clientKeys s).card + 1
  tokens : ∀ k b, s.buckets.lookup k = some b → 0 ≤ b.tokens ∧ b.tokens ≤ cfg.burst

/-- No bucket was used after the time. -/
def UsedBy (t : Int) (s : Limiter) : Prop :=
  ∀ k b, s.buckets.lookup k = some b → b.last ≤ t

theorem size_le_card_clientKeys (s : Limiter) :
    Entries.size s.buckets ≤ (clientKeys s).card + 1 := by
  have herase := Finset.pred_card_le_card_erase (s := Entries.keySet s.buckets) (a := overflowKey)
  rw [← Entries.card_keySet]
  unfold clientKeys
  omega

theorem mem_of_lookup {k : String} {b : RateBucket} (h : s.buckets.lookup k = some b) :
    k ∈ s.buckets :=
  AList.lookup_isSome.mp (by rw [h]; rfl)

/-- The sweep only deletes. -/
theorem lookup_of_sweep
    {now : Int} {k : String} {b : RateBucket}
    (h : (sweep cfg now s).buckets.lookup k = some b) :
    s.buckets.lookup k = some b := by
  rcases lookup_sweep cfg now s k with heq | ⟨hnone, -⟩
  · rw [← heq, h]
  · rw [hnone] at h
    cases h

theorem keySet_sweep_subset (cfg : RateLimitConfig) (now : Int) (s : Limiter) :
    Entries.keySet (sweep cfg now s).buckets ⊆ Entries.keySet s.buckets := by
  intro k hk
  rw [Entries.mem_keySet] at hk ⊢
  obtain ⟨b, hb⟩ := Option.isSome_iff_exists.mp (AList.lookup_isSome.mpr hk)
  exact mem_of_lookup (lookup_of_sweep hb)

theorem Bounded.sweep (h : Bounded cfg events s) (cfg' : RateLimitConfig) (now : Int) :
    Bounded cfg events (sweep cfg' now s) where
  owners := by
    intro k hk
    exact h.owners k (Entries.mem_keySet.mp (keySet_sweep_subset cfg' now s (Entries.mem_keySet.mpr hk)))
  clients := by
    have hle := Finset.card_le_card (Finset.erase_subset_erase overflowKey (keySet_sweep_subset cfg' now s))
    have hclients := h.clients
    unfold clientKeys at hclients ⊢
    omega
  overflow := size_le_card_clientKeys _
  tokens := fun k b hb => h.tokens k b (lookup_of_sweep hb)

/-- A refilled bucket holds between nothing and a burst. -/
theorem refill_tokens
    (hrate : 0 < cfg.ratePerSecond) (hburst : 0 < cfg.burst)
    {now : Int} {found : Option RateBucket}
    (htokens : ∀ b, found = some b → 0 ≤ b.tokens)
    (hlast : ∀ b, found = some b → b.last ≤ now) :
    0 ≤ (refill cfg now found).tokens ∧ (refill cfg now found).tokens ≤ cfg.burst := by
  have hburst' : (0 : ℚ) ≤ cfg.burst := by
    exact_mod_cast hburst.le
  cases found with
  | none =>
      exact ⟨hburst', le_rfl⟩
  | some b =>
      by_cases hzero : b.last = 0
      · have heq : refill cfg now (some b) = ⟨cfg.burst, now⟩ := by simp [refill, hzero]
        rw [heq]
        exact ⟨hburst', le_rfl⟩
      · have hsub := GoTime.seconds_sub_nonneg (hlast b rfl)
        rw [refill_some hzero]
        exact ⟨le_min hburst' (add_nonneg (htokens b rfl) (mul_nonneg hsub hrate.le)),
          min_le_left _ _⟩

/-- The bucket of a request is that of its address, which is new only below the limit, or the
overflow bucket. -/
theorem bucketKey_cases (cfg : RateLimitConfig) (s : Limiter) (r : Request) :
    bucketKey cfg s r = overflowKey ∨
      bucketKey cfg s r = clientIP r cfg.proxy ∧
        (bucketKey cfg s r ∈ s.buckets ∨ (Entries.size s.buckets : Int) < cfg.maxEntries) := by
  unfold bucketKey
  simp only [Bool.and_eq_true, decide_eq_true_eq]
  split_ifs with h
  · exact Or.inl rfl
  · refine Or.inr ⟨rfl, ?_⟩
    by_cases hin : clientIP r cfg.proxy ∈ s.buckets
    · exact Or.inl hin
    · right
      rw [not_and, AList.lookup_eq_none.mpr hin] at h
      exact not_le.mp (h rfl)

/-- Taking a bucket keeps the addresses within the limit. -/
theorem card_clientKeys_insert
    {now : Int} {r : Request} {b : RateBucket}
    (h : ((clientKeys s).card : Int) ≤ cfg.maxEntries) :
    ((clientKeys { sweep cfg now s with
      buckets := (sweep cfg now s).buckets.insert (bucketKey cfg s r) b }).card : Int) ≤
      cfg.maxEntries := by
  have hswept := keySet_sweep_subset cfg now s
  have hsubset : clientKeys { sweep cfg now s with
      buckets := (sweep cfg now s).buckets.insert (bucketKey cfg s r) b } ⊆
      (insert (bucketKey cfg s r) (Entries.keySet s.buckets)).erase overflowKey := by
    unfold clientKeys
    rw [Entries.keySet_insert]
    exact Finset.erase_subset_erase _ (Finset.insert_subset_insert _ hswept)
  refine le_trans (Int.ofNat_le.mpr (Finset.card_le_card hsubset)) ?_
  unfold clientKeys at h
  rcases bucketKey_cases cfg s r with hover | ⟨-, hin | hroom⟩
  · rwa [hover, Finset.erase_insert_eq_erase]
  · rwa [Finset.insert_eq_of_mem (Entries.mem_keySet.mpr hin)]
  · have hinsert := Finset.card_insert_le (bucketKey cfg s r) (Entries.keySet s.buckets)
    have herase := Finset.card_erase_le (a := overflowKey)
      (s := insert (bucketKey cfg s r) (Entries.keySet s.buckets))
    rw [Entries.card_keySet] at hinsert
    omega

end Memory

section Runs

variable {cfg : RateLimitConfig} {s : Limiter} {events : List (Int × Request)}

theorem serveCounted_bounded
    (hrate : 0 < cfg.ratePerSecond) (hburst : 0 < cfg.burst)
    {now : Int} {r : Request}
    (hbounded : Bounded cfg events s) (hused : UsedBy now s) :
    Bounded cfg (events ++ [(now, r)]) (serveCounted cfg s now r).2 ∧
      UsedBy now (serveCounted cfg s now r).2 := by
  have hswept := hbounded.sweep cfg now
  obtain ⟨answer, b, heq, hlast, hanswer⟩ := serveCounted_eq cfg s now r
  have hrefill := refill_tokens hrate hburst
    (fun b' hb' => (hswept.tokens (bucketKey cfg s r) b' hb').1)
    (fun b' hb' => hused _ b' (lookup_of_sweep hb'))
  have htokens : 0 ≤ b.tokens ∧ b.tokens ≤ cfg.burst := by
    rcases hanswer with ⟨-, hone, hb⟩ | ⟨-, hb⟩
    · rw [hb]
      constructor <;> linarith [hrefill.2]
    · rw [hb]
      exact hrefill
  rw [heq]
  refine ⟨⟨?_, card_clientKeys_insert hbounded.clients, size_le_card_clientKeys _, ?_⟩, ?_⟩
  · intro k hk
    rcases (AList.mem_insert _).mp hk with rfl | hk
    · rcases bucketKey_cases cfg s r with hover | ⟨hclient, -⟩
      · exact Or.inl hover
      · exact Or.inr ⟨(now, r), by simp, hclient.symm⟩
    · exact (hswept.owners k hk).imp_right fun ⟨e, he, hclient⟩ => ⟨e, by simp [he], hclient⟩
  · intro k b' hb'
    rcases Entries.lookup_insert_cases hb' with ⟨-, rfl⟩ | hold
    · exact htokens
    · exact hswept.tokens k b' hold
  · intro k b' hb'
    rcases Entries.lookup_insert_cases hb' with ⟨-, rfl⟩ | hold
    · exact hlast.le
    · exact hused k b' (lookup_of_sweep hold)

theorem Bounded.later
    (h : Bounded cfg events s) (e : Int × Request) :
    Bounded cfg (events ++ [e]) s where
  owners k hk := (h.owners k hk).imp_right fun ⟨e', he', hclient⟩ => ⟨e', by simp [he'], hclient⟩
  clients := h.clients
  overflow := h.overflow
  tokens := h.tokens

theorem serve_bounded
    (hrate : 0 < cfg.ratePerSecond) (hburst : 0 < cfg.burst)
    {e : Int × Request}
    (hbounded : Bounded cfg events s) (hused : UsedBy e.1 s) :
    Bounded cfg (events ++ [e]) (serve cfg s e).2 ∧ UsedBy e.1 (serve cfg s e).2 := by
  rcases serve_cases cfg s e with ⟨-, heq⟩ | ⟨-, heq⟩
  · rw [heq]
    exact ⟨hbounded.later e, hused⟩
  · rw [heq]
    exact serveCounted_bounded hrate hburst hbounded hused

/-- The limiter after some requests. -/
def limiterAfter (cfg : RateLimitConfig) (events : List (Int × Request)) : Limiter :=
  events.foldl (fun s e => (rateLimit cfg s e).2) .initial

/-- The defaults do not change what the bounds speak of. -/
theorem bounded_withDefaults_iff (hmax : 0 < cfg.maxEntries) :
    Bounded cfg.withDefaults events s ↔ Bounded cfg events s := by
  have heq : cfg.withDefaults.maxEntries = cfg.maxEntries := if_neg (not_le.mpr hmax)
  constructor
  · rintro ⟨howners, hclients, hoverflow, htokens⟩
    exact ⟨howners, heq ▸ hclients, hoverflow, htokens⟩
  · rintro ⟨howners, hclients, hoverflow, htokens⟩
    exact ⟨howners, heq.symm ▸ hclients, hoverflow, htokens⟩

theorem rateLimit_bounded
    (hmax : 0 < cfg.maxEntries)
    {e : Int × Request}
    (hbounded : Bounded cfg events s) (hused : UsedBy e.1 s) :
    Bounded cfg (events ++ [e]) (rateLimit cfg s e).2 ∧ UsedBy e.1 (rateLimit cfg s e).2 := by
  by_cases hoff : cfg.ratePerSecond ≤ 0 ∨ cfg.burst ≤ 0
  · have heq : rateLimit cfg s e = (⟨e.1, e.2, none, .next⟩, s) := by
      simp [rateLimit, hoff]
    rw [heq]
    exact ⟨hbounded.later e, hused⟩
  · rw [not_or, not_le, not_le] at hoff
    have hrate : 0 < cfg.withDefaults.ratePerSecond := hoff.1
    have hburst : 0 < cfg.withDefaults.burst := hoff.2
    rw [rateLimit_eq_serve hoff.1 hoff.2, ← bounded_withDefaults_iff hmax]
    exact serve_bounded hrate hburst ((bounded_withDefaults_iff hmax).mpr hbounded) hused

/-- By induction on the requests, the last one first. -/
theorem limiterAfter_bounded
    (hmax : 0 < cfg.maxEntries)
    (hordered : events.Pairwise fun e e' => e.1 ≤ e'.1) :
    Bounded cfg events (limiterAfter cfg events) ∧
      ∀ t, (∀ e ∈ events, e.1 ≤ t) → UsedBy t (limiterAfter cfg events) := by
  induction events using List.reverseRecOn with
  | nil =>
      refine ⟨⟨?_, ?_, ?_, ?_⟩, ?_⟩ <;>
        simp [limiterAfter, Limiter.initial, clientKeys, Entries.keySet, Entries.size, UsedBy, hmax.le]
  | append_singleton events e ih =>
      obtain ⟨hbefore, -, hlast⟩ := List.pairwise_append.mp hordered
      obtain ⟨hbounded, hused⟩ := ih hbefore
      have hstep := rateLimit_bounded hmax hbounded
        (hused e.1 fun e' he' => hlast e' he' e List.mem_cons_self)
      rw [limiterAfter, List.foldl_append]
      refine ⟨hstep.1, fun t ht k b hb => ?_⟩
      exact (hstep.2 k b hb).trans (ht e (by simp))

/-- **The memory of the rate limiter is bounded**, after every request of a run and after every
sweep. -/
theorem limiter_memory_bounded
    (cfg : RateLimitConfig) (hmax : 0 < cfg.maxEntries)
    (events : List (Int × Request)) (hordered : events.Pairwise fun e e' => e.1 ≤ e'.1)
    (before : List (Int × Request)) (hbefore : before <+: events) :
    Bounded cfg before (limiterAfter cfg before) ∧
      ∀ now, Bounded cfg before (sweep cfg.withDefaults now (limiterAfter cfg before)) := by
  have hbounded := (limiterAfter_bounded hmax (hordered.sublist hbefore.sublist)).1
  exact ⟨hbounded, fun now => hbounded.sweep _ now⟩

/-- Three clients at a limiter with two buckets. -/
theorem limiter_memory_bounded_overflow :
    Entries.size (limiterAfter (onePerSecond 2 []) overflowEvents).buckets = 2 ∧
      Entries.size (limiterAfter (onePerSecond 2 []) (overflowEvents.take 3)).buckets = 3 ∧
      Bounded (onePerSecond 2 []) overflowEvents (limiterAfter (onePerSecond 2 []) overflowEvents) :=
  ⟨by decide +kernel, by decide +kernel,
    (limiter_memory_bounded (onePerSecond 2 []) (by decide) overflowEvents (by decide)
      overflowEvents (List.prefix_refl _)).1⟩

end Runs

end Middleware
end GatewayRuntime
