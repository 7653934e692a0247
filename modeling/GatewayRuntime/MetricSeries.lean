import GatewayRuntime.BasePath
import GatewayRuntime.Csrf
import GatewayRuntime.HttpMetrics
import GatewayRuntime.Lib.MuxPattern

/-!
# The number of series

`NewRouter` puts `HTTPMetrics` behind the limiters and the CSRF check, in front of the mux.
Its labels are the method of a request, the pattern that the mux has found, and the class of
the status.  The patterns are those of the table as long as none ends in a slash.  The
method is the client's, in upper case: only the CSRF check keeps a request with an unknown
method away, and a client that names the public origin passes it.

So the maps are bounded by the table if and only if no client can do so; otherwise a client
makes as many series as it likes, with requests that the limiters do not count.
-/

namespace GatewayRuntime
namespace Router

open GoText GoUrl ServeMux Middleware Observability

section Model

/-- The arguments of `NewRouter` that decide about metrics.  `text` is the text that a pattern
was registered with, `slashText` what the mux writes into a request that it redirects to the
path with a slash. -/
structure RouterConfig where
  basePath : String
  deps : RouterDeps
  text : Pattern → String
  slashText : ServeMux.Request → String
  publicURL : String
  secureCookies : Bool
  csrfCookieName : String
  trustedProxy : TrustedProxyConfig
  maxConcurrency : Int
  ratePerSecond : ℚ
  rateBurst : Int
  rateMaxEntries : Int
  authRatePerSecond : ℚ
  authRateBurst : Int

/-- The limiter in front of everything. -/
def RouterConfig.rateLimit (c : RouterConfig) : RateLimitConfig where
  ratePerSecond := c.ratePerSecond
  burst := c.rateBurst
  idleTTL := 0
  maxEntries := c.rateMaxEntries
  proxy := c.trustedProxy
  metrics := c.deps.metrics
  pathSuffixes := []
  rejectReason := ""

/-- The limiter for logins. -/
def RouterConfig.authRateLimit (c : RouterConfig) : RateLimitConfig where
  ratePerSecond := c.authRatePerSecond
  burst := c.authRateBurst
  idleTTL := 0
  maxEntries := c.rateMaxEntries
  proxy := c.trustedProxy
  metrics := c.deps.metrics
  pathSuffixes := ["/auth/login"]
  rejectReason := "auth_rate_limit"

def RouterConfig.csrf (c : RouterConfig) : CSRFConfig where
  publicURL := c.publicURL
  secure := c.secureCookies
  cookieName := c.csrfCookieName

/-- The variables of a router. -/
structure State where
  limiter : Limiter
  authLimiter : Limiter
  metrics : HttpMetrics

def State.initial : State :=
  ⟨Limiter.initial, Limiter.initial, HttpMetrics.new⟩

/-- A request, and what is not the client's choice: when it comes, the requests in flight, the
token of a new cookie, and the status and duration of the answer.  There is no status when the
handler panics. -/
structure Event where
  request : ClientRequest
  now : Int
  inflight : Int
  token : String
  status : Option Nat
  duration : Duration
  status_range : ∀ s, status = some s → s = 0 ∨ 100 ≤ s ∧ s ≤ 999

/-- The rate limiters: whether the request goes on, and their variables. -/
def limit (c : RouterConfig) (s : State) (e : Event) : Bool × State :=
  let served := Middleware.rateLimit c.rateLimit s.limiter (e.now, e.request.toLimiter)
  if served.1.answer ≠ .next then (false, { s with limiter := served.2 })
  else
    let login := Middleware.rateLimit c.authRateLimit s.authLimiter (e.now, e.request.toLimiter)
    (decide (login.1.answer = .next), { s with limiter := served.2, authLimiter := login.2 })

/-- The request that arrives at the mux of the application. -/
def mountedRequest (basePath : String) (r : ServeMux.Request) : Option ServeMux.Request :=
  if basePath = "" || basePath = "/" then some r
  else delivered (trimRight basePath '/') r

/-- The request that arrives at `HTTPMetrics`, behind the rate limiters. -/
def arriving (letters : LetterTables) (c : RouterConfig) (e : Event) : Option ServeMux.Request :=
  let busy := concurrencyLimit c.maxConcurrency c.deps.metrics e.inflight e.request.url.path
  if busy.1 ≠ .next then none
  else if (Middleware.csrf letters c.csrf e.token e.request).2 ≠ .next then none
  else mountedRequest c.basePath e.request.toMux

/-- What `HTTPMetrics` records of a request. -/
def record (letters : LetterTables) (c : RouterConfig) (m : HttpMetrics) (e : Event)
    (r : ServeMux.Request) : HttpMetrics :=
  match e.status with
  | none => m
  | some status =>
      if c.deps.metrics then
        httpMetrics letters m r.method (patternOf c.text c.slashText c.deps.table r) status
          e.duration
      else m

/-- The handler that `NewRouter` returns. -/
def serve (letters : LetterTables) (c : RouterConfig) (s : State) (e : Event) : State :=
  let limited := (limit c s e).2
  if (limit c s e).1 then
    match arriving letters c e with
    | none => limited
    | some r => { limited with metrics := record letters c limited.metrics e r }
  else limited

/-- The requests of a run. -/
def serveAll (letters : LetterTables) (c : RouterConfig) (events : List Event) : State :=
  events.foldl (serve letters c) State.initial

end Model

section Steps

variable (letters : LetterTables) (c : RouterConfig) (s : State) (e : Event)

@[simp] theorem limit_metrics :
    (limit c s e).2.metrics = s.metrics := by
  simp only [limit]
  split_ifs <;> rfl

/-- A request with an operational path passes the rate limiters. -/
theorem limit_of_operational
    (h : operationalPath e.request.url.path = true) :
    (limit c s e).1 = true := by
  have hnext (cfg : RateLimitConfig) (l : Limiter) :
      (Middleware.rateLimit cfg l (e.now, e.request.toLimiter)).1.answer = .next := by
    have hpath : operationalPath e.request.toLimiter.path = true := h
    unfold Middleware.rateLimit Middleware.serve
    split_ifs <;> rfl
  simp [limit, hnext]

/-- A step records the request that arrives, or leaves the metrics as they are. -/
theorem serve_metrics_cases :
    (serve letters c s e).metrics = s.metrics ∨
      ∃ r status, arriving letters c e = some r ∧ e.status = some status ∧
        (serve letters c s e).metrics =
          httpMetrics letters s.metrics r.method (patternOf c.text c.slashText c.deps.table r)
            status e.duration := by
  unfold serve
  cases (limit c s e).1 with
  | false =>
      simp
  | true =>
      cases harriving : arriving letters c e with
      | none =>
          simp
      | some r =>
          cases hstatus : e.status with
          | none =>
              simp [record, hstatus]
          | some status =>
              by_cases hmetrics : c.deps.metrics = true
              · refine Or.inr ⟨r, status, rfl, rfl, ?_⟩
                simp [record, hstatus, hmetrics]
              · simp [record, hstatus, hmetrics]

variable {letters c s e}

/-- Without metrics nothing is recorded. -/
theorem foldl_metrics_off
    (h : c.deps.metrics = false) (events : List Event) :
    (events.foldl (serve letters c) s).metrics = s.metrics := by
  have hstep (s : State) (e : Event) : (serve letters c s e).metrics = s.metrics := by
    unfold serve record
    cases (limit c s e).1 <;> cases arriving letters c e <;> cases e.status <;> simp [h]
  induction events generalizing s with
  | nil => rfl
  | cons e events ih => rw [List.foldl_cons, ih, hstep]

/-- What arrives has the method of the request, which the CSRF check has let through. -/
theorem arriving_some
    {r : ServeMux.Request} (h : arriving letters c e = some r) :
    (Middleware.csrf letters c.csrf e.token e.request).2 = .next ∧
      r.method = e.request.method := by
  simp only [arriving] at h
  split_ifs at h with hbusy hcsrf
  refine ⟨not_not.mp hcsrf, ?_⟩
  simp only [mountedRequest] at h
  split_ifs at h
  · obtain rfl := Option.some.inj h
    rfl
  · exact delivered_method h

end Steps

section Bounded

variable {letters : LetterTables} {c : RouterConfig}

/-- The route labels of a router whose patterns do not end in a slash. -/
def RouterConfig.labels (c : RouterConfig) : Finset String :=
  insert "unmatched" (c.deps.table.map fun route => routeLabel (c.text route.pattern)).toFinset

/-- The labels of the statuses that a handler can write. -/
def statusClasses : Finset String :=
  (Finset.Icc 1 9).image fun n : Nat => toString (n : Int) ++ "xx"

/-- The histograms of a router that records no unsafe method. -/
def RouterConfig.durationKeys (c : RouterConfig) : Finset DurationKey :=
  (safeMethods.toFinset ×ˢ c.labels).image fun key => ⟨key.1, key.2⟩

/-- The counters of a router that records no unsafe method. -/
def RouterConfig.requestKeys (c : RouterConfig) : Finset HttpKey :=
  (safeMethods.toFinset ×ˢ c.labels ×ˢ statusClasses).image fun key => ⟨key.1, key.2.1, key.2.2⟩

theorem card_labels_le (c : RouterConfig) :
    c.labels.card ≤ c.deps.table.length + 1 := by
  refine (Finset.card_insert_le _ _).trans (Nat.succ_le_succ ?_)
  simpa using List.toFinset_card_le (c.deps.table.map fun route => routeLabel (c.text route.pattern))

theorem card_durationKeys_le (c : RouterConfig) :
    c.durationKeys.card ≤ 4 * (c.deps.table.length + 1) := by
  calc c.durationKeys.card ≤ (safeMethods.toFinset ×ˢ c.labels).card := Finset.card_image_le
    _ = safeMethods.toFinset.card * c.labels.card := Finset.card_product _ _
    _ ≤ 4 * (c.deps.table.length + 1) := Nat.mul_le_mul (by decide) (card_labels_le c)

theorem card_requestKeys_le (c : RouterConfig) :
    c.requestKeys.card ≤ 36 * (c.deps.table.length + 1) := by
  have hclasses : statusClasses.card ≤ 9 := Finset.card_image_le
  calc c.requestKeys.card ≤ (safeMethods.toFinset ×ˢ c.labels ×ˢ statusClasses).card :=
        Finset.card_image_le
    _ = safeMethods.toFinset.card * (c.labels.card * statusClasses.card) := by
        rw [Finset.card_product, Finset.card_product]
    _ ≤ 4 * ((c.deps.table.length + 1) * 9) :=
        Nat.mul_le_mul (by decide) (Nat.mul_le_mul (card_labels_le c) hclasses)
    _ = 36 * (c.deps.table.length + 1) := by ring

/-- The metrics have no series but those of the table. -/
structure Within (c : RouterConfig) (m : HttpMetrics) : Prop where
  requests : Entries.keySet m.httpRequests ⊆ c.requestKeys
  durations : Entries.keySet m.httpDuration ⊆ c.durationKeys

theorem Within.series_le
    {m : HttpMetrics} (h : Within c m) :
    m.series ≤ 40 * (c.deps.table.length + 1) := by
  have hrequests := (Finset.card_le_card h.requests).trans (card_requestKeys_le c)
  have hdurations := (Finset.card_le_card h.durations).trans (card_durationKeys_le c)
  rw [Entries.card_keySet] at hrequests hdurations
  rw [HttpMetrics.series]
  omega

/-- The patterns of a router all end without a slash when those of the application do. -/
theorem slashFree_table
    (hfree : ∀ p ∈ c.deps.appRoutes, p.slashFree = true) :
    ∀ route ∈ c.deps.table, route.pattern.slashFree = true := by
  intro route hroute
  simp only [RouterDeps.table, routes, List.mem_append, List.mem_map] at hroute
  rcases hroute with (hroute | hroute) | ⟨p, hp, rfl⟩
  · have hsystem : ∀ metrics, ∀ route ∈ systemRoutes metrics, route.pattern.slashFree = true := by
      decide
    exact hsystem c.deps.metrics route hroute
  · have hauth : ∀ route ∈ authRoutes, route.pattern.slashFree = true := by
      decide
    exact hauth route hroute
  · exact hfree p hp

theorem routeLabel_mem_labels
    (hfree : ∀ route ∈ c.deps.table, route.pattern.slashFree = true) (r : ServeMux.Request) :
    routeLabel (patternOf c.text c.slashText c.deps.table r) ∈ c.labels := by
  rcases patternOf_cases hfree c.text c.slashText r with hempty | ⟨route, hroute, htext⟩
  · simp [hempty, routeLabel, RouterConfig.labels]
  · rw [htext]
    refine Finset.mem_insert_of_mem (List.mem_toFinset.mpr ?_)
    exact List.mem_map_of_mem (f := fun route : Route Owner => routeLabel (c.text route.pattern))
      hroute

theorem statusClass_mem
    {status : Nat} (h : 100 ≤ status ∧ status ≤ 999) :
    statusClass status ∈ statusClasses := by
  refine Finset.mem_image.mpr ⟨status / 100, Finset.mem_Icc.mpr ⟨?_, ?_⟩, ?_⟩
  · omega
  · omega
  · rw [statusClass, show (status : Int).tdiv 100 = ((status / 100 : Nat) : Int) from rfl]

theorem toUpper_safe
    (letters : LetterTables) {method : String} (h : method ∈ safeMethods) :
    letters.toUpper method = method := by
  have hascii : (safeMethods.all fun method =>
      method.toList.all fun c => decide (c.toNat < 128) && c.toUpper == c) = true := by
    decide
  simp only [List.all_eq_true, Bool.and_eq_true, decide_eq_true_eq, beq_iff_eq] at hascii
  exact letters.toUpper_eq_self (hascii method h)

/-- A step whose request has a safe method makes no other series. -/
theorem within_httpMetrics
    (hfree : ∀ route ∈ c.deps.table, route.pattern.slashFree = true)
    {m : HttpMetrics} (hm : Within c m)
    {r : ServeMux.Request} (hsafe : r.method ∈ safeMethods)
    {status : Nat} (hstatus : status = 0 ∨ 100 ≤ status ∧ status ≤ 999) (d : Duration) :
    Within c (httpMetrics letters m r.method (patternOf c.text c.slashText c.deps.table r)
      status d) := by
  have hlabel := routeLabel_mem_labels hfree r
  have hmethod : letters.toUpper r.method ∈ safeMethods.toFinset := by
    rw [toUpper_safe letters hsafe]
    exact List.mem_toFinset.mpr hsafe
  have hclass : statusClass (if (status : Int) = 0 then 200 else status) ∈ statusClasses := by
    rcases hstatus with rfl | hrange
    · have hok : 100 ≤ 200 ∧ 200 ≤ 999 := by decide
      exact statusClass_mem hok
    · rw [if_neg (by omega)]
      exact statusClass_mem hrange
  constructor
  · rw [httpMetrics, keySet_httpRequests_record, Finset.insert_subset_iff]
    refine ⟨?_, hm.requests⟩
    rw [requestKey, routeLabel_routeLabel]
    exact Finset.mem_image.mpr
      ⟨(_, _, _), Finset.mk_mem_product hmethod (Finset.mk_mem_product hlabel hclass), rfl⟩
  · rw [httpMetrics, keySet_httpDuration_record, Finset.insert_subset_iff]
    refine ⟨?_, hm.durations⟩
    rw [durationKey, routeLabel_routeLabel]
    exact Finset.mem_image.mpr ⟨(_, _), Finset.mk_mem_product hmethod hlabel, rfl⟩

/-- **Bounded by the table.**  When every request that arrives has a safe method, a run makes no
series but those of the table. -/
theorem within_serveAll
    (hfree : ∀ p ∈ c.deps.appRoutes, p.slashFree = true)
    (hguarded : ∀ v, ¬c.csrf.Forges letters v)
    (events : List Event) :
    Within c (serveAll letters c events).metrics := by
  have hstep (s : State) (e : Event) (hs : Within c s.metrics) :
      Within c (serve letters c s e).metrics := by
    rcases serve_metrics_cases letters c s e with
      hsame | ⟨r, status, harriving, hstatus, hrecorded⟩
    · rwa [hsame]
    · obtain ⟨hcsrf, hmethod⟩ := arriving_some harriving
      have hsafe : r.method ∈ safeMethods := by
        by_contra hchecked
        refine hguarded e.request.namedOrigin (forges_of_csrf ?_ hcsrf)
        rw [hmethod] at hchecked
        simpa [isUnsafeMethod] using hchecked
      rw [hrecorded]
      exact within_httpMetrics (slashFree_table hfree) hs hsafe (e.status_range status hstatus) _
  have hrun (s : State) (hs : Within c s.metrics) :
      Within c (events.foldl (serve letters c) s).metrics := by
    induction events generalizing s with
    | nil => exact hs
    | cons e events ih => exact ih _ (hstep s e hs)
  exact hrun State.initial ⟨by simp [State.initial, HttpMetrics.new, Entries.keySet],
    by simp [State.initial, HttpMetrics.new, Entries.keySet]⟩

end Bounded

section Flooding

variable {letters : LetterTables} {c : RouterConfig}

/-- The methods that a series has been made for. -/
def recordedMethods (m : HttpMetrics) : Finset String :=
  (Entries.keySet m.httpDuration).image DurationKey.method

theorem card_recordedMethods_le (m : HttpMetrics) :
    (recordedMethods m).card ≤ m.series := by
  calc (recordedMethods m).card ≤ (Entries.keySet m.httpDuration).card := Finset.card_image_le
    _ = Entries.size m.httpDuration := Entries.card_keySet _
    _ ≤ m.series := Nat.le_add_left _ _

/-- A request that is recorded whatever the limiters hold. -/
structure Recorded (letters : LetterTables) (c : RouterConfig) (e : Event) : Prop where
  metrics : c.deps.metrics = true
  operational : operationalPath e.request.url.path = true
  arrives : (arriving letters c e).isSome = true
  answered : e.status.isSome = true

theorem recordedMethods_serve
    {e : Event} (h : Recorded letters c e) (s : State) :
    recordedMethods (serve letters c s e).metrics =
      insert (letters.toUpper e.request.method) (recordedMethods s.metrics) := by
  obtain ⟨r, harrives⟩ := Option.isSome_iff_exists.mp h.arrives
  obtain ⟨status, hanswered⟩ := Option.isSome_iff_exists.mp h.answered
  have hmethod := (arriving_some harrives).2
  simp only [serve, limit_of_operational c s e h.operational, if_true, harrives, record, hanswered,
    h.metrics, limit_metrics]
  simp [recordedMethods, httpMetrics, durationKey, hmethod]

/-- A run of such requests makes a series for each of their methods. -/
theorem recordedMethods_foldl
    {events : List Event} (h : ∀ e ∈ events, Recorded letters c e) (s : State) :
    recordedMethods (events.foldl (serve letters c) s).metrics =
      (events.map fun e => letters.toUpper e.request.method).toFinset ∪
        recordedMethods s.metrics := by
  induction events generalizing s with
  | nil =>
      simp
  | cons e events ih =>
      rw [List.forall_mem_cons] at h
      rw [List.foldl_cons, ih h.2, recordedMethods_serve h.1]
      simp

/-- A method that no server knows, one for each number. -/
def strangeMethod (n : Nat) : String :=
  String.ofList (List.replicate (n + 1) 'M')

theorem strangeMethod_injective :
    Function.Injective strangeMethod := by
  intro n m h
  have hlength := congrArg (fun s : String => s.toList.length) h
  simpa [strangeMethod] using hlength

theorem isToken_strangeMethod (n : Nat) :
    isToken (strangeMethod n) = true := by
  have hrune : isTokenRune 'M' = true := by
    decide
  simp [isToken, strangeMethod, hrune]

theorem toUpper_strangeMethod (letters : LetterTables) (n : Nat) :
    letters.toUpper (strangeMethod n) = strangeMethod n := by
  refine letters.toUpper_eq_self ?_
  intro rune hrune
  rw [strangeMethod, String.toList_ofList] at hrune
  obtain rfl := List.eq_of_mem_replicate hrune
  decide

/-- A base path below which requests are delivered: the text of its pattern is the text that is
stripped. -/
def PlainBase (basePath : String) : Prop :=
  ∃ segments, basePath = String.ofList (rootedPath segments) ∧
    (∀ segment ∈ segments, CleanSegment segment) ∧ ∀ segment ∈ segments, PlainSegment segment

theorem mountedRequest_below
    {basePath : String} (hbase : PlainBase basePath)
    {r : ServeMux.Request} (hurl : r.url.Clean) :
    mountedRequest basePath (r.below basePath) = some r := by
  obtain ⟨segments, rfl, hclean, hplain⟩ := hbase
  by_cases hne : segments = []
  · subst hne
    have hroot : String.ofList (rootedPath []) = "" := rfl
    simp [mountedRequest, hroot, Request.below]
  · obtain ⟨hempty, -, hslash⟩ := App.ofList_rootedPath_ne hne hclean
    have hlast := getLast?_rootedPath hne hclean
    rw [mountedRequest, if_neg (by simp [hempty, hslash]),
      App.trimRight_of_endsPlain (by simpa using hlast)]
    exact delivered_below hne hclean hplain hurl

/-- The address of the metrics, below a base path. -/
def metricsURL (basePath : String) : URL :=
  URL.below basePath ⟨"/metrics", ""⟩

theorem metricsURL_operational (basePath : String) :
    operationalPath (metricsURL basePath).path = true := by
  have hsuffix : hasSuffix (metricsURL basePath).path "/metrics" = true := by
    simp [hasSuffix, metricsURL, URL.below, List.isSuffixOf_iff_suffix]
  simp [operationalPath, hsuffix]

/-- The request of a client that names the public origin is recorded, whatever its method. -/
theorem recorded_forged
    {v : String} (hforges : c.csrf.Forges letters v)
    (hmetrics : c.deps.metrics = true) (hbase : PlainBase c.basePath)
    {method : String} (hmethod : isToken method = true)
    {e : Event} (he : e.request = CSRFConfig.forged hforges hmethod (metricsURL c.basePath))
    (hanswered : e.status.isSome = true) :
    Recorded letters c e := by
  have hpath : operationalPath e.request.url.path = true := by
    rw [he]
    exact metricsURL_operational c.basePath
  have hbusy : (concurrencyLimit c.maxConcurrency c.deps.metrics e.inflight
      e.request.url.path).1 = .next := by
    unfold concurrencyLimit
    split_ifs <;> rfl
  have hcsrf : (Middleware.csrf letters c.csrf e.token e.request).2 = .next := by
    rw [he]
    exact csrf_forged hforges hmethod _ _
  have hclean : URL.Clean ⟨"/metrics", ""⟩ :=
    ⟨by decide, Or.inl rfl, by decide +kernel⟩
  have hmounted : mountedRequest c.basePath e.request.toMux =
      some ⟨method, "example.com", "", ⟨"/metrics", ""⟩⟩ := by
    rw [he]
    exact mountedRequest_below (r := ⟨method, "example.com", "", ⟨"/metrics", ""⟩⟩) hbase hclean
  exact ⟨hmetrics, hpath, by simp [arriving, hbusy, hcsrf, hmounted], hanswered⟩

end Flooding

section Results

/-- The series of every run are bounded by the number of routes. -/
def RouterConfig.SeriesBounded (letters : LetterTables) (c : RouterConfig) : Prop :=
  ∀ events : List Event,
    (serveAll letters c events).metrics.series ≤ 40 * (c.deps.table.length + 1)

/-- A client has requests that make more series than any bound, whenever they come and however
they are answered. -/
def RouterConfig.SeriesUnbounded (letters : LetterTables) (c : RouterConfig) : Prop :=
  ∀ bound : Nat, ∃ requests : List ClientRequest, ∀ events : List Event,
    events.map Event.request = requests → (∀ e ∈ events, e.status.isSome = true) →
      bound < (serveAll letters c events).metrics.series

/-- No header value names the public origin, or there are no metrics. -/
def RouterConfig.Guarded (letters : LetterTables) (c : RouterConfig) : Prop :=
  c.deps.metrics = false ∨ ∀ v, ¬c.csrf.Forges letters v

variable {letters : LetterTables} {c : RouterConfig}

theorem seriesBounded_of_guarded
    (hfree : ∀ p ∈ c.deps.appRoutes, p.slashFree = true)
    (h : c.Guarded letters) :
    c.SeriesBounded letters := by
  intro events
  rcases h with hoff | hforges
  · rw [serveAll, foldl_metrics_off hoff]
    exact Nat.zero_le _
  · exact (within_serveAll hfree hforges events).series_le

theorem seriesUnbounded_of_forges
    (hmetrics : c.deps.metrics = true) (hbase : PlainBase c.basePath)
    {v : String} (hforges : c.csrf.Forges letters v) :
    c.SeriesUnbounded letters := by
  intro bound
  let request (n : Nat) : ClientRequest :=
    CSRFConfig.forged hforges (isToken_strangeMethod n) (metricsURL c.basePath)
  refine ⟨(List.range (bound + 1)).map request, ?_⟩
  intro events hevents hanswered
  have hrecorded : ∀ e ∈ events, Recorded letters c e := by
    intro e he
    have hmem : e.request ∈ (List.range (bound + 1)).map request := by
      rw [← hevents]
      exact List.mem_map_of_mem he
    obtain ⟨n, -, hn⟩ := List.mem_map.mp hmem
    exact recorded_forged hforges hmetrics hbase (isToken_strangeMethod n) hn.symm (hanswered e he)
  have hmethods : (events.map fun e => letters.toUpper e.request.method) =
      (List.range (bound + 1)).map strangeMethod := by
    calc (events.map fun e => letters.toUpper e.request.method)
        = (events.map Event.request).map fun r => letters.toUpper r.method := by
          rw [List.map_map]
          rfl
      _ = (List.range (bound + 1)).map strangeMethod := by
          rw [hevents, List.map_map]
          exact List.map_congr_left fun n _ => toUpper_strangeMethod letters n
  have hnodup : ((List.range (bound + 1)).map strangeMethod).Nodup :=
    List.nodup_range.map strangeMethod_injective
  calc bound < ((List.range (bound + 1)).map strangeMethod).toFinset.card := by
        rw [List.toFinset_card_of_nodup hnodup]
        simp
    _ ≤ (recordedMethods (serveAll letters c events).metrics).card := by
        refine Finset.card_le_card ?_
        rw [serveAll, recordedMethods_foldl hrecorded, hmethods]
        exact Finset.subset_union_left
    _ ≤ (serveAll letters c events).metrics.series := card_recordedMethods_le _

/-- The two cases exclude each other. -/
theorem RouterConfig.SeriesBounded.not_unbounded
    (h : c.SeriesBounded letters) :
    ¬c.SeriesUnbounded letters := by
  intro hunbounded
  obtain ⟨requests, hrequests⟩ := hunbounded (40 * (c.deps.table.length + 1))
  let event (r : ClientRequest) : Event :=
    ⟨r, 0, 0, "", some 200, 0, by rintro s hs; obtain rfl := Option.some.inj hs; decide⟩
  have hmany := hrequests (requests.map event) (by simp [event, Function.comp_def])
    (by simp [event])
  exact absurd (h (requests.map event)) (not_le.mpr hmany)

/-- **The series of a router.**  They are bounded by the number of routes if and only if no client
can name the public origin, and otherwise a client makes more of them than any bound. -/
theorem http_series_bounded_iff
    (letters : LetterTables) (c : RouterConfig)
    (hfree : ∀ p ∈ c.deps.appRoutes, p.slashFree = true)
    (hbase : PlainBase c.basePath) :
    (c.SeriesBounded letters ↔ c.Guarded letters) ∧
      (c.SeriesUnbounded letters ↔ ¬c.Guarded letters) := by
  have hbounded : c.Guarded letters → c.SeriesBounded letters :=
    seriesBounded_of_guarded hfree
  have hunbounded (h : ¬c.Guarded letters) : c.SeriesUnbounded letters := by
    simp only [RouterConfig.Guarded, not_or, not_forall, not_not, Bool.not_eq_false] at h
    obtain ⟨hmetrics, v, hforges⟩ := h
    exact seriesUnbounded_of_forges hmetrics hbase hforges
  refine ⟨⟨?_, hbounded⟩, ⟨?_, hunbounded⟩⟩
  · intro h
    by_contra hnot
    exact h.not_unbounded (hunbounded hnot)
  · intro h hguarded
    exact (hbounded hguarded).not_unbounded h

/-- The shipped router, at a public URL. -/
def shippedRouter (publicURL : String) : RouterConfig where
  basePath := ""
  deps := managedItems
  text p := p.method ++ " /" ++ "/".intercalate (fill "\x7bid\x7d" p.segs)
  slashText r := r.url.path ++ "/"
  publicURL := publicURL
  secureCookies := true
  csrfCookieName := Middleware.csrfCookieName
  trustedProxy := ⟨[]⟩
  maxConcurrency := 100
  ratePerSecond := 20
  rateBurst := 40
  rateMaxEntries := 10000
  authRatePerSecond := 1 / 5
  authRateBurst := 10

/-- Tables that know ASCII only. -/
def asciiLetters : LetterTables where
  lower := Char.toLower
  fold := Char.toLower
  upper := Char.toUpper
  upper_ascii _ _ := rfl

theorem plainBase_empty :
    PlainBase "" :=
  ⟨[], rfl, by simp, by simp⟩

/-- A router at an address that does not parse is bounded. -/
theorem http_series_bounded_unreadable :
    (shippedRouter "https://app example").SeriesBounded asciiLetters := by
  have hguarded : (shippedRouter "https://app example").Guarded asciiLetters := by
    refine Or.inr fun v hforges => ?_
    obtain ⟨expected, hparse, -⟩ := hforges.named
    have hnone : parse (shippedRouter "https://app example").csrf.publicURL = none := by
      decide +kernel
    rw [hnone] at hparse
    contradiction
  exact (http_series_bounded_iff asciiLetters (shippedRouter "https://app example")
    (by decide) plainBase_empty).1.mpr hguarded

/-- A request for the metrics with a strange method.  The route knows only `GET`. -/
def strangeEvent (n : Nat) : Event where
  request :=
    { method := strangeMethod n
      host := "app.example.com"
      urlHost := ""
      url := ⟨"/metrics", ""⟩
      remoteAddr := "203.0.113.7:40000"
      headers := [("Origin", "https://app.example.com"), ("X-Csrf-Token", "t")]
      cookies := [("__Host-bff_csrf", "t")]
      method_token := isToken_strangeMethod n
      headers_valid := by decide +kernel
      cookies_valid := by decide +kernel }
  now := 1
  inflight := 100
  token := ""
  status := some 405
  duration := 0
  status_range := by
    intro status h
    obtain rfl := Option.some.inj h
    decide

/-- The shipped router is not: its public URL is all that a client needs. -/
theorem strange_methods_unbounded :
    (serveAll asciiLetters (shippedRouter "https://app.example.com")
        [strangeEvent 0, strangeEvent 1, strangeEvent 2]).metrics.series = 6 ∧
      ∀ letters : LetterTables,
        (shippedRouter "https://app.example.com").SeriesUnbounded letters := by
  refine ⟨by decide +kernel, ?_⟩
  intro letters
  have hforges : (shippedRouter "https://app.example.com").csrf.Forges letters
      "https://app.example.com" :=
    forges_publicURL (by decide +kernel) (by decide +kernel) (by decide) (by decide +kernel)
  exact seriesUnbounded_of_forges rfl plainBase_empty hforges

end Results

end Router
end GatewayRuntime
