import GatewayRuntime.Lib.GoText
import GatewayRuntime.Lib.GoTime
import GatewayRuntime.Lib.Table

/-!
# The metrics of served requests

`RecordHTTPRequest` keeps a counter for each method, route and class of status, and a
histogram for each method and route.  Each entry is a series that `/metrics` writes out for
as long as the process runs: nothing removes one.

The maps are those of `observability.Metrics` that this function writes.  Sums and bounds
are exact numbers.
-/

namespace GatewayRuntime
namespace Observability

open GoText

section Model

/-- `observability.httpKey`. -/
structure HttpKey where
  method : String
  route : String
  statusClass : String
deriving DecidableEq

/-- The keys of `httpDuration`. -/
structure DurationKey where
  method : String
  route : String
deriving DecidableEq

/-- `observability.histogram`. -/
structure Histogram where
  count : UInt64
  sum : ℚ
  buckets : List UInt64

/-- `observability.defaultBuckets`. -/
def defaultBuckets : List ℚ :=
  [5 / 1000, 1 / 100, 25 / 1000, 5 / 100, 1 / 10, 25 / 100, 5 / 10, 1, 25 / 10, 5, 10]

/-- The maps of `observability.Metrics` for served requests. -/
structure HttpMetrics where
  httpRequests : AList fun _ : HttpKey => UInt64
  httpDuration : AList fun _ : DurationKey => Histogram

/-- `NewMetrics`. -/
def HttpMetrics.new : HttpMetrics :=
  ⟨∅, ∅⟩

/-- `observe`. -/
def observe (h : Histogram) (value : ℚ) : Histogram :=
  let buckets := if h.buckets.length = 0 then List.replicate defaultBuckets.length 0 else h.buckets
  { count := h.count + 1
    sum := h.sum + value
    buckets := List.zipWith (fun bound n => if value ≤ bound then n + 1 else n)
      defaultBuckets buckets }

/-- The label of a route; `HTTPMetrics` and `RecordHTTPRequest` both apply it. -/
def routeLabel (route : String) : String :=
  if route = "" then "unmatched" else route

/-- The label of a class of status. -/
def statusClass (status : Int) : String :=
  toString (status.tdiv 100) ++ "xx"

/-- The histogram that a request is observed in. -/
def durationKey (letters : LetterTables) (method route : String) : DurationKey :=
  ⟨letters.toUpper method, routeLabel route⟩

/-- The counter that a request is counted by. -/
def requestKey (letters : LetterTables) (method route : String) (status : Int) : HttpKey :=
  ⟨letters.toUpper method, routeLabel route, statusClass status⟩

/-- `RecordHTTPRequest`. -/
def HttpMetrics.recordHTTPRequest (letters : LetterTables) (m : HttpMetrics)
    (method route : String) (status : Int) (d : Duration) : HttpMetrics :=
  let counter := requestKey letters method route status
  let histogram := durationKey letters method route
  { httpRequests := m.httpRequests.insert counter ((m.httpRequests.lookup counter).getD 0 + 1)
    httpDuration := m.httpDuration.insert histogram
      (observe ((m.httpDuration.lookup histogram).getD ⟨0, 0, []⟩) d.seconds) }

/-- The number of series. -/
def HttpMetrics.series (m : HttpMetrics) : Nat :=
  Entries.size m.httpRequests + Entries.size m.httpDuration

end Model

section Keys

@[simp] theorem routeLabel_routeLabel (route : String) :
    routeLabel (routeLabel route) = routeLabel route := by
  unfold routeLabel
  split_ifs <;> simp_all

variable (letters : LetterTables) (m : HttpMetrics)
variable (method route : String) (status : Int) (d : Duration)

@[simp] theorem keySet_httpRequests_record :
    Entries.keySet (m.recordHTTPRequest letters method route status d).httpRequests =
      insert (requestKey letters method route status) (Entries.keySet m.httpRequests) := by
  simp [HttpMetrics.recordHTTPRequest]

@[simp] theorem keySet_httpDuration_record :
    Entries.keySet (m.recordHTTPRequest letters method route status d).httpDuration =
      insert (durationKey letters method route) (Entries.keySet m.httpDuration) := by
  simp [HttpMetrics.recordHTTPRequest]

end Keys

end Observability

namespace Middleware

open GoText Observability

/-- `HTTPMetrics`, once the handler behind it has answered.  `pattern` is the pattern of the
request, `status` what was written, 0 for nothing. -/
def httpMetrics (letters : LetterTables) (metrics : HttpMetrics)
    (method pattern : String) (status : Int) (d : Duration) : HttpMetrics :=
  let status := if status = 0 then 200 else status
  metrics.recordHTTPRequest letters method (routeLabel pattern) status d

end Middleware
end GatewayRuntime
