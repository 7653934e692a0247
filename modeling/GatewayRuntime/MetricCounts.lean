import GatewayRuntime.HttpMetrics
import GatewayRuntime.Lib.Accumulate

/-!
# Counters and histograms of the metrics

`RecordHTTPRequest` and `RecordOutbound` of `internal/observability/metrics.go` each update a
map of counters and a map of histograms, with keys that differ by one label.  Both maps are
folds over the calls (`recordAll_accumulated`), so that what is exported for a key is
determined by the observations recorded for it.

Counters are 64-bit numbers: the exported numbers are the exact ones until `2 ^ 64` calls have
been recorded for a key, when the count is back at 0.  An observation is compared with the
bounds as an exact number of seconds.
-/

namespace GatewayRuntime
namespace Observability

open GoText

section Model

/-- `observability.outboundKey`. -/
structure OutboundKey where
  service : String
  method : String
  outcome : String
deriving DecidableEq

/-- The keys of `outDuration`. -/
structure OutboundDurationKey where
  service : String
  method : String
deriving DecidableEq

/-- The maps of `observability.Metrics` for outbound calls. -/
structure OutboundMetrics where
  outRequests : AList fun _ : OutboundKey => UInt64
  outDuration : AList fun _ : OutboundDurationKey => Histogram

/-- The label of a service. -/
def serviceLabel (service : String) : String :=
  if service = "" then "unknown" else service

/-- The histogram that a call is observed in. -/
def outboundDurationKey (letters : LetterTables) (service method : String) : OutboundDurationKey :=
  ⟨serviceLabel service, letters.toUpper method⟩

/-- The counter that a call is counted by. -/
def outboundKey (letters : LetterTables) (service method outcome : String) : OutboundKey :=
  ⟨serviceLabel service, letters.toUpper method, outcome⟩

/-- `RecordOutbound`, on the maps it writes. -/
def OutboundMetrics.recordOutbound (letters : LetterTables) (m : OutboundMetrics)
    (service method outcome : String) (d : Duration) : OutboundMetrics :=
  let counter := outboundKey letters service method outcome
  let histogram := outboundDurationKey letters service method
  { outRequests := m.outRequests.insert counter ((m.outRequests.lookup counter).getD 0 + 1)
    outDuration := m.outDuration.insert histogram
      (observe ((m.outDuration.lookup histogram).getD ⟨0, 0, []⟩) d.seconds) }

/-- The four maps of `observability.Metrics` that are written here; `none` is a nil map. -/
structure Metrics where
  httpRequests : Option (AList fun _ : HttpKey => UInt64)
  httpDuration : Option (AList fun _ : DurationKey => Histogram)
  outRequests : Option (AList fun _ : OutboundKey => UInt64)
  outDuration : Option (AList fun _ : OutboundDurationKey => Histogram)

namespace Metrics

/-- `NewMetrics`. -/
def new : Metrics :=
  ⟨some ∅, some ∅, some ∅, some ∅⟩

/-- `Metrics{}`. -/
def zero : Metrics :=
  ⟨none, none, none, none⟩

/-- `Metrics.ensure`. -/
def ensure (m : Metrics) : Metrics :=
  if m.httpRequests.isNone then new else m

/-- `Metrics.RecordHTTPRequest`; `none` is the panic of a write to a nil map. -/
def recordHTTPRequest (letters : LetterTables) (m : Metrics)
    (method route : String) (status : Int) (d : Duration) : Option Metrics := do
  let m := m.ensure
  let requests ← m.httpRequests
  let durations ← m.httpDuration
  let written := HttpMetrics.recordHTTPRequest letters ⟨requests, durations⟩ method route status d
  some { m with
    httpRequests := some written.httpRequests
    httpDuration := some written.httpDuration }

/-- `Metrics.RecordOutbound`; `none` is the panic of a write to a nil map. -/
def recordOutbound (letters : LetterTables) (m : Metrics)
    (service method outcome : String) (d : Duration) : Option Metrics := do
  let m := m.ensure
  let requests ← m.outRequests
  let durations ← m.outDuration
  let written := OutboundMetrics.recordOutbound letters ⟨requests, durations⟩ service method outcome d
  some { m with
    outRequests := some written.outRequests
    outDuration := some written.outDuration }

/-- The maps for served requests, as they are read. -/
def http (m : Metrics) : HttpMetrics :=
  ⟨m.httpRequests.getD ∅, m.httpDuration.getD ∅⟩

/-- The maps for outbound calls, as they are read. -/
def outbound (m : Metrics) : OutboundMetrics :=
  ⟨m.outRequests.getD ∅, m.outDuration.getD ∅⟩

end Metrics

/-- A call that records something. -/
inductive MetricCall where
  | http (method route : String) (status : Int) (d : Duration)
  | outbound (service method outcome : String) (d : Duration)

/-- One call. -/
def MetricCall.apply (letters : LetterTables) (m : Metrics) : MetricCall → Option Metrics
  | .http method route status d => m.recordHTTPRequest letters method route status d
  | .outbound service method outcome d => m.recordOutbound letters service method outcome d

/-- The metrics after some calls. -/
def recordAll (letters : LetterTables) (m : Metrics) (calls : List MetricCall) : Option Metrics :=
  calls.foldlM (fun m call => call.apply letters m) m

/-- The bucket lines of `writeHistogram`: bound `i` beside `h.Buckets[i]`, which has to exist. -/
def bucketLines : List ℚ → List UInt64 → Option (List (ℚ × UInt64))
  | [], _ => some []
  | _ :: _, [] => none
  | bound :: bounds, n :: ns => (bucketLines bounds ns).map ((bound, n) :: ·)

/-- The numbers that `writeHistogram` writes. -/
structure Rendered where
  buckets : List (ℚ × UInt64)
  inf : UInt64
  sum : ℚ
  count : UInt64

/-- `writeHistogram`; `none` is the panic of an index out of range. -/
def writeHistogram (h : Histogram) : Option Rendered :=
  (bucketLines defaultBuckets h.buckets).map fun lines => ⟨lines, h.count, h.sum, h.count⟩

end Model

section Histograms

variable {values : List ℚ}

/-- The histogram of some observations. -/
def tallied (values : List ℚ) : Histogram where
  count := .ofNat values.length
  sum := values.sum
  buckets :=
    if values = [] then []
    else defaultBuckets.map fun bound => .ofNat (values.countP fun value => value ≤ bound)

theorem observe_tallied (values : List ℚ) (value : ℚ) :
    observe (tallied values) value = tallied (values ++ [value]) := by
  have hbuckets : (if (tallied values).buckets.length = 0 then
      List.replicate defaultBuckets.length 0 else (tallied values).buckets) =
      defaultBuckets.map fun bound => .ofNat (values.countP fun value => value ≤ bound) := by
    unfold tallied
    by_cases hnil : values = []
    · simp [hnil, defaultBuckets]
    · simp [hnil, defaultBuckets]
  unfold observe
  rw [hbuckets]
  unfold tallied
  simp only [Histogram.mk.injEq]
  refine ⟨by simp, by simp, ?_⟩
  rw [if_neg (by simp), List.zipWith_map_right, List.zipWith_self]
  refine List.map_congr_left fun bound _ => ?_
  by_cases hle : value ≤ bound <;> simp [hle]

/-- The observations of a key are tallied one after the other. -/
theorem foldl_observe (values : List ℚ) :
    values.foldl observe ⟨0, 0, []⟩ = tallied values := by
  induction values using List.reverseRecOn with
  | nil =>
      rfl
  | append_singleton values value ih =>
      rw [List.foldl_append, ih]
      exact observe_tallied values value

/-- With a bucket for each bound no index is out of range. -/
theorem bucketLines_eq_zip :
    ∀ (bounds : List ℚ) (ns : List UInt64), ns.length = bounds.length →
      bucketLines bounds ns = some (bounds.zip ns)
  | [], _, _ => rfl
  | bound :: bounds, n :: ns, h => by
      rw [bucketLines, bucketLines_eq_zip bounds ns (Nat.succ.inj h)]
      rfl

theorem length_buckets_tallied (h : values ≠ []) :
    (tallied values).buckets.length = defaultBuckets.length := by
  simp [tallied, h]

/-- Below `2 ^ 64` observations the numbers of a histogram are exact. -/
theorem toNat_count_tallied (h : values.length < 2 ^ 64) :
    (tallied values).count.toNat = values.length :=
  UInt64.toNat_ofNat_of_lt' h

theorem toNat_buckets_tallied (hne : values ≠ []) (h : values.length < 2 ^ 64) :
    (tallied values).buckets.map UInt64.toNat =
      defaultBuckets.map fun bound => values.countP fun value => value ≤ bound := by
  unfold tallied
  rw [if_neg hne, List.map_map]
  refine List.map_congr_left fun bound _ => ?_
  exact UInt64.toNat_ofNat_of_lt' (List.countP_le_length.trans_lt h)

/-- More observations are within a larger bound. -/
theorem pairwise_countP (values : List ℚ) :
    (defaultBuckets.map fun bound => values.countP fun value => value ≤ bound).Pairwise (· ≤ ·) := by
  have hbounds : defaultBuckets.Pairwise (· ≤ ·) := by
    decide +kernel
  refine hbounds.map _ fun bound bound' hle => ?_
  refine List.countP_mono_left fun value _ hvalue => ?_
  exact decide_eq_true ((of_decide_eq_true hvalue).trans hle)

end Histograms

section Laws

/-- What is exported for a key with the given observations: the histogram that is found, and the
sum of its counters. -/
structure Exported (found : Option Histogram) (total : Nat) (values : List ℚ) : Prop where
  absent : values = [] → found = none ∧ total = 0
  rendered : ∀ h, found = some h →
    h.buckets.length = defaultBuckets.length ∧
      writeHistogram h = some ⟨defaultBuckets.zip h.buckets, h.count, h.sum, h.count⟩
  counted : values ≠ [] → values.length < 2 ^ 64 →
    ∃ h, found = some h ∧ h.count.toNat = values.length ∧ total = values.length ∧
      h.buckets.map UInt64.toNat =
        defaultBuckets.map (fun bound => values.countP fun value => value ≤ bound) ∧
      ((h.buckets ++ [h.count]).map UInt64.toNat).Pairwise (· ≤ ·)

/-- The updates of a counter. -/
def increment (n : UInt64) (_ : Unit) : UInt64 :=
  n + 1

theorem foldl_increment (units : List Unit) :
    units.foldl increment 0 = .ofNat units.length := by
  induction units using List.reverseRecOn with
  | nil =>
      rfl
  | append_singleton units u ih =>
      rw [List.foldl_append, ih, List.length_append]
      simp [increment]

variable {κ ν : Type} [DecidableEq κ] [DecidableEq ν]

/-- The sum of the counters whose keys satisfy a condition. -/
def counterSum (t : AList fun _ : κ => UInt64) (p : κ → Prop) [DecidablePred p] : Nat :=
  ∑ k ∈ Entries.keySet t with p k, ((t.lookup k).getD 0).toNat

theorem lookup_run_increment (counts : List (κ × Unit)) (k : κ) :
    ((Accumulate.run increment 0 counts).lookup k).getD 0 =
      .ofNat (Accumulate.valuesAt k counts).length := by
  rw [Accumulate.lookup_run, foldl_increment]
  split_ifs with hnil
  · rw [hnil]
    rfl
  · rfl

/-- While no counter has wrapped, the counters add up to the number of calls. -/
theorem counterSum_run
    (counts : List (κ × Unit)) (p : κ → Prop) [DecidablePred p]
    (h : counts.countP (fun e => p e.1) < 2 ^ 64) :
    counterSum (Accumulate.run increment 0 counts) p = counts.countP fun e => p e.1 := by
  have hsum := Accumulate.sum_length_valuesAt increment 0 counts p
  rw [← hsum] at h ⊢
  unfold counterSum
  refine Finset.sum_congr rfl fun k hk => ?_
  have hle := Finset.single_le_sum_of_canonicallyOrdered
    (f := fun k => (Accumulate.valuesAt k counts).length) hk
  rw [lookup_run_increment]
  exact UInt64.toNat_ofNat_of_lt' (hle.trans_lt h)

theorem lookup_run_observe (times : List (ν × ℚ)) (key : ν) :
    (Accumulate.run observe ⟨0, 0, []⟩ times).lookup key =
      if Accumulate.valuesAt key times = [] then none
      else some (tallied (Accumulate.valuesAt key times)) := by
  rw [Accumulate.lookup_run, foldl_observe]

/-- Counters and histograms that are updated together.  `owner` drops the label that the keys of
the histograms lack. -/
theorem exported_of_runs
    (owner : κ → ν) (counts : List (κ × Unit)) (times : List (ν × ℚ))
    (htogether : counts.map (fun e => owner e.1) = times.map Prod.fst) (key : ν) :
    Exported ((Accumulate.run observe ⟨0, 0, []⟩ times).lookup key)
      (counterSum (Accumulate.run increment 0 counts) fun k => owner k = key)
      (Accumulate.valuesAt key times) := by
  have hcalls : counts.countP (fun e => owner e.1 = key) =
      (Accumulate.valuesAt key times).length := by
    rw [Accumulate.length_valuesAt, ← htogether, List.count, List.countP_map]
    exact List.countP_congr fun e _ => by simp
  have htotal (h : (Accumulate.valuesAt key times).length < 2 ^ 64) :
      counterSum (Accumulate.run increment 0 counts) (fun k => owner k = key) =
        (Accumulate.valuesAt key times).length := by
    rw [counterSum_run counts _ (hcalls ▸ h), hcalls]
  rw [lookup_run_observe]
  refine ⟨?_, ?_, ?_⟩
  · intro hnil
    refine ⟨if_pos hnil, ?_⟩
    rw [htotal (by rw [hnil]; decide), hnil]
    rfl
  · intro h hfound
    split_ifs at hfound with hnil
    obtain rfl := Option.some.inj hfound
    have hlength := length_buckets_tallied hnil
    refine ⟨hlength, ?_⟩
    rw [writeHistogram, bucketLines_eq_zip _ _ hlength]
    rfl
  · intro hne hlt
    have hbuckets := toNat_buckets_tallied hne hlt
    have hcount := toNat_count_tallied hlt
    refine ⟨_, if_neg hne, hcount, htotal hlt, hbuckets, ?_⟩
    rw [List.map_append, hbuckets, List.map_singleton, hcount, List.pairwise_append]
    refine ⟨pairwise_countP _, List.pairwise_singleton _ _, ?_⟩
    intro n hn m hm
    obtain ⟨bound, -, rfl⟩ := List.mem_map.mp hn
    rw [List.mem_singleton.mp hm]
    exact List.countP_le_length

end Laws

section Runs

variable (letters : LetterTables)

/-- What the calls add to the counters and to the histograms of served requests. -/
def httpCounts (calls : List MetricCall) : List (HttpKey × Unit) :=
  calls.filterMap fun
    | .http method route status _ => some (requestKey letters method route status, ())
    | .outbound .. => none

def httpTimes (calls : List MetricCall) : List (DurationKey × ℚ) :=
  calls.filterMap fun
    | .http method route _ d => some (durationKey letters method route, d.seconds)
    | .outbound .. => none

/-- What the calls add to the counters and to the histograms of outbound calls. -/
def outboundCounts (calls : List MetricCall) : List (OutboundKey × Unit) :=
  calls.filterMap fun
    | .outbound service method outcome _ => some (outboundKey letters service method outcome, ())
    | .http .. => none

def outboundTimes (calls : List MetricCall) :
    List (OutboundDurationKey × ℚ) :=
  calls.filterMap fun
    | .outbound service method _ d => some (outboundDurationKey letters service method, d.seconds)
    | .http .. => none

section Append

variable (calls calls' : List MetricCall)

theorem httpCounts_append :
    httpCounts letters (calls ++ calls') = httpCounts letters calls ++ httpCounts letters calls' :=
  List.filterMap_append

theorem httpTimes_append :
    httpTimes letters (calls ++ calls') = httpTimes letters calls ++ httpTimes letters calls' :=
  List.filterMap_append

theorem outboundCounts_append :
    outboundCounts letters (calls ++ calls') =
      outboundCounts letters calls ++ outboundCounts letters calls' :=
  List.filterMap_append

theorem outboundTimes_append :
    outboundTimes letters (calls ++ calls') =
      outboundTimes letters calls ++ outboundTimes letters calls' :=
  List.filterMap_append

end Append

/-- The maps exist all together, or not at all. -/
def Metrics.Uniform (m : Metrics) : Prop :=
  m = .zero ∨ ∃ requests durations outRequests outDurations,
    m = ⟨some requests, some durations, some outRequests, some outDurations⟩

/-- The maps after some calls. -/
structure Accumulated (calls : List MetricCall) (m : Metrics) : Prop where
  uniform : m.Uniform
  http : m.http = ⟨Accumulate.run increment 0 (httpCounts letters calls),
    Accumulate.run observe ⟨0, 0, []⟩ (httpTimes letters calls)⟩
  outbound : m.outbound = ⟨Accumulate.run increment 0 (outboundCounts letters calls),
    Accumulate.run observe ⟨0, 0, []⟩ (outboundTimes letters calls)⟩

theorem Metrics.Uniform.ensure {m : Metrics} (h : m.Uniform) :
    ∃ requests durations outRequests outDurations,
      m.ensure = ⟨some requests, some durations, some outRequests, some outDurations⟩ ∧
        m.http = ⟨requests, durations⟩ ∧ m.outbound = ⟨outRequests, outDurations⟩ := by
  rcases h with rfl | ⟨requests, durations, outRequests, outDurations, rfl⟩
  · exact ⟨∅, ∅, ∅, ∅, rfl, rfl, rfl⟩
  · exact ⟨requests, durations, outRequests, outDurations, rfl, rfl, rfl⟩

theorem Metrics.Uniform.recordHTTPRequest
    {m : Metrics} (h : m.Uniform) (method route : String) (status : Int) (d : Duration) :
    ∃ m', m.recordHTTPRequest letters method route status d = some m' ∧ m'.Uniform ∧
      m'.http = m.http.recordHTTPRequest letters method route status d ∧
      m'.outbound = m.outbound := by
  obtain ⟨requests, durations, outRequests, outDurations, hensure, hhttp, houtbound⟩ := h.ensure
  rw [hhttp, houtbound]
  unfold Metrics.recordHTTPRequest
  rw [hensure]
  exact ⟨_, rfl, Or.inr ⟨_, _, _, _, rfl⟩, rfl, rfl⟩

theorem Metrics.Uniform.recordOutbound
    {m : Metrics} (h : m.Uniform) (service method outcome : String) (d : Duration) :
    ∃ m', m.recordOutbound letters service method outcome d = some m' ∧ m'.Uniform ∧
      m'.outbound = m.outbound.recordOutbound letters service method outcome d ∧
      m'.http = m.http := by
  obtain ⟨requests, durations, outRequests, outDurations, hensure, hhttp, houtbound⟩ := h.ensure
  rw [hhttp, houtbound]
  unfold Metrics.recordOutbound
  rw [hensure]
  exact ⟨_, rfl, Or.inr ⟨_, _, _, _, rfl⟩, rfl, rfl⟩

variable {letters}

/-- One call adds to the maps of its kind. -/
theorem Accumulated.apply
    {calls : List MetricCall} {m : Metrics} (h : Accumulated letters calls m) (call : MetricCall) :
    ∃ m', call.apply letters m = some m' ∧ Accumulated letters (calls ++ [call]) m' := by
  cases call with
  | http method route status d =>
      obtain ⟨m', happly, huniform, hhttp, houtbound⟩ :=
        h.uniform.recordHTTPRequest letters method route status d
      refine ⟨m', happly, huniform, ?_, ?_⟩
      · have hcount : httpCounts letters [.http method route status d] =
            [(requestKey letters method route status, ())] := rfl
        have htime : httpTimes letters [.http method route status d] =
            [(durationKey letters method route, d.seconds)] := rfl
        rw [hhttp, h.http, httpCounts_append, httpTimes_append, hcount, htime,
          Accumulate.run_append_singleton, Accumulate.run_append_singleton]
        rfl
      · rw [houtbound, h.outbound, outboundCounts_append, outboundTimes_append]
        simp [outboundCounts, outboundTimes]
  | outbound service method outcome d =>
      obtain ⟨m', happly, huniform, houtbound, hhttp⟩ :=
        h.uniform.recordOutbound letters service method outcome d
      refine ⟨m', happly, huniform, ?_, ?_⟩
      · rw [hhttp, h.http, httpCounts_append, httpTimes_append]
        simp [httpCounts, httpTimes]
      · have hcount : outboundCounts letters [.outbound service method outcome d] =
            [(outboundKey letters service method outcome, ())] := rfl
        have htime : outboundTimes letters [.outbound service method outcome d] =
            [(outboundDurationKey letters service method, d.seconds)] := rfl
        rw [houtbound, h.outbound, outboundCounts_append, outboundTimes_append, hcount, htime,
          Accumulate.run_append_singleton, Accumulate.run_append_singleton]
        rfl

variable (letters) in
/-- The calls never panic, and the maps are folds over them. -/
theorem recordAll_accumulated
    {m : Metrics} (hm : m = .new ∨ m = .zero) (calls : List MetricCall) :
    ∃ m', recordAll letters m calls = some m' ∧ Accumulated letters calls m' := by
  induction calls using List.reverseRecOn with
  | nil =>
      refine ⟨m, rfl, ?_, ?_, ?_⟩
      · rcases hm with rfl | rfl
        · exact Or.inr ⟨∅, ∅, ∅, ∅, rfl⟩
        · exact Or.inl rfl
      · rcases hm with rfl | rfl <;> rfl
      · rcases hm with rfl | rfl <;> rfl
  | append_singleton calls call ih =>
      obtain ⟨m', hrun, haccumulated⟩ := ih
      obtain ⟨m'', happly, hnext⟩ := haccumulated.apply call
      refine ⟨m'', ?_, hnext⟩
      unfold recordAll at hrun ⊢
      rw [List.foldlM_append, hrun]
      simpa using happly

end Runs

section Results

/-- The histogram that a counter of served requests belongs to. -/
def HttpKey.owner (k : HttpKey) : DurationKey :=
  ⟨k.method, k.route⟩

/-- The histogram that a counter of outbound calls belongs to. -/
def OutboundKey.owner (k : OutboundKey) : OutboundDurationKey :=
  ⟨k.service, k.method⟩

/-- What is exported for served requests and for outbound calls after some calls. -/
structure ExportedAll (letters : LetterTables) (calls : List MetricCall) (m : Metrics) : Prop where
  http : ∀ key, Exported (m.http.httpDuration.lookup key)
    (counterSum m.http.httpRequests fun k => k.owner = key)
    (Accumulate.valuesAt key (httpTimes letters calls))
  outbound : ∀ key, Exported (m.outbound.outDuration.lookup key)
    (counterSum m.outbound.outRequests fun k => k.owner = key)
    (Accumulate.valuesAt key (outboundTimes letters calls))

theorem httpCounts_owner (letters : LetterTables) (calls : List MetricCall) :
    (httpCounts letters calls).map (fun e => e.1.owner) =
      (httpTimes letters calls).map Prod.fst := by
  unfold httpCounts httpTimes
  rw [List.map_filterMap, List.map_filterMap]
  refine List.filterMap_congr fun call _ => ?_
  cases call <;> rfl

theorem outboundCounts_owner (letters : LetterTables) (calls : List MetricCall) :
    (outboundCounts letters calls).map (fun e => e.1.owner) =
      (outboundTimes letters calls).map Prod.fst := by
  unfold outboundCounts outboundTimes
  rw [List.map_filterMap, List.map_filterMap]
  refine List.filterMap_congr fun call _ => ?_
  cases call <;> rfl

/-- **Exported metrics are consistent** after any calls on new or zero metrics, for every key with
fewer than `2 ^ 64` observations. -/
theorem exported_metrics_consistent
    (letters : LetterTables) (m : Metrics) (hm : m = .new ∨ m = .zero) (calls : List MetricCall) :
    ∃ m', recordAll letters m calls = some m' ∧ ExportedAll letters calls m' := by
  obtain ⟨m', hrun, haccumulated⟩ := recordAll_accumulated letters hm calls
  refine ⟨m', hrun, ?_, ?_⟩
  · intro key
    rw [haccumulated.http]
    exact exported_of_runs HttpKey.owner _ _ (httpCounts_owner letters calls) key
  · intro key
    rw [haccumulated.outbound]
    exact exported_of_runs OutboundKey.owner _ _ (outboundCounts_owner letters calls) key

/-- Tables that leave every rune outside ASCII as it is. -/
def plainLetters : LetterTables where
  lower := lowerRune
  fold := foldRune
  upper c := if c.toNat < 128 then c.toUpper else c
  upper_ascii _ h := if_pos h

/-- Two requests on zero metrics. -/
theorem exported_metrics_two_requests :
    ∃ m' h, recordAll plainLetters .zero
        [.http "GET" "/" 200 0, .http "GET" "/" 404 Duration.second] = some m' ∧
      m'.http.httpDuration.lookup (durationKey plainLetters "GET" "/") = some h ∧
      h.count.toNat = 2 := by
  obtain ⟨m', hrun, hexported⟩ := exported_metrics_consistent plainLetters .zero (Or.inr rfl)
    [.http "GET" "/" 200 0, .http "GET" "/" 404 Duration.second]
  have hvalues : Accumulate.valuesAt (durationKey plainLetters "GET" "/")
      (httpTimes plainLetters [.http "GET" "/" 200 0, .http "GET" "/" 404 Duration.second]) =
      [Duration.seconds 0, Duration.second.seconds] := by
    simp [Accumulate.valuesAt, httpTimes]
  have hkey := hexported.http (durationKey plainLetters "GET" "/")
  rw [hvalues] at hkey
  obtain ⟨h, hfound, hcount, -⟩ := hkey.counted (by simp) (by decide)
  exact ⟨m', h, hrun, hfound, hcount⟩

/-- The observations of one request, made over and over. -/
theorem valuesAt_replicate (letters : LetterTables) (n : Nat) :
    Accumulate.valuesAt (durationKey letters "GET" "/")
      (httpTimes letters (List.replicate n (.http "GET" "/" 200 0))) =
      List.replicate n (Duration.seconds 0) := by
  induction n with
  | zero =>
      rfl
  | succ n ih =>
      rw [List.replicate_succ', httpTimes_append, Accumulate.valuesAt_append, ih,
        List.replicate_succ']
      simp [Accumulate.valuesAt, httpTimes]

/-- After `n` equal requests the count is `n`, as a 64-bit number. -/
theorem count_after_replicate (letters : LetterTables) {n : Nat} (hn : n ≠ 0) :
    ∃ m' h, recordAll letters .new (List.replicate n (.http "GET" "/" 200 0)) = some m' ∧
      m'.http.httpDuration.lookup (durationKey letters "GET" "/") = some h ∧ h.count = .ofNat n := by
  obtain ⟨m', hrun, haccumulated⟩ := recordAll_accumulated letters (Or.inl rfl)
    (List.replicate n (.http "GET" "/" 200 0))
  refine ⟨m', tallied (List.replicate n (Duration.seconds 0)), hrun, ?_, by simp [tallied]⟩
  rw [haccumulated.http]
  dsimp only
  rw [lookup_run_observe, valuesAt_replicate, if_neg (by simpa using hn)]

/-- With `2 ^ 64` requests the count is back at 0. -/
theorem metrics_count_wraps :
    ∃ m' h, recordAll plainLetters .new (List.replicate (2 ^ 64) (.http "GET" "/" 200 0)) = some m' ∧
      m'.http.httpDuration.lookup (durationKey plainLetters "GET" "/") = some h ∧ h.count = 0 :=
  count_after_replicate plainLetters (by decide)

end Results

end Observability
end GatewayRuntime
