import GatewayRuntime.Errors
import GatewayRuntime.Lib.GoText
import GatewayRuntime.Lib.Traced
import GatewayRuntime.ProtectedClient

/-!
# The outbound JSON client

`Client.DoJSON` of `internal/outbound/client.go` with its retries, the
`ObservedClient` around it, and the stack that `Router.NewJSONClient` of
`core/core.go` builds.

A call is a `Traced` computation over the actions visible outside: asking the
token source, sending a request, decoding a body into the caller's value,
recording a metric.  What the environment does during a call (the answers of the
token source and of the upstream, the state of the context) is an `Env`, with one
`Exchange` for each attempt.

`waitBackoff` is seen through its result: the error of the context if that ends
first.  Timeouts belong to the upstream's answers.
-/

namespace GatewayRuntime
namespace Outbound

open GoText

abbrev Bytes := List UInt8

section Data

/-- The parts of a `url.URL` that are used. -/
structure BaseURL where
  scheme : String
  host : String
  path : String

/-- `outbound.Client`; `hasTokens` says that `Tokens` is not nil. -/
structure Client where
  baseURL : BaseURL
  hasTokens : Bool
  maxRetries : Int64
  maxBodyBytes : Int64

/-- The arguments of `DoJSON`: `input` is what `json.Marshal` makes of `in` and
`out` decodes a body into `out`; `none` where the argument is nil. -/
structure Call where
  sessionID : String
  method : String
  path : String
  input : Option (Except Err Bytes)
  out : Option (Bytes → Option Err)

/-- The parts of an `http.Request` that are set. -/
structure Request where
  method : String
  path : String
  headers : List (String × String)
  body : Bytes
deriving DecidableEq

/-- An `http.Response`: after the bytes of its body reading ends, or fails. -/
structure Response where
  status : Int
  body : Bytes
  readError : Option Err

/-- What one attempt meets: the answers of the token source and of the upstream,
the context after a failed request, and the result of `waitBackoff`. -/
structure Exchange where
  token : Except Err String
  answer : Except Err Response
  contextError : Option Err
  backoff : Option Err

/-- What a call meets: the values of its context, the outcome of
`http.NewRequestWithContext` for a method and a path, the texts of
`http.StatusText`, and the exchanges. -/
structure Env where
  requestID : String
  traceID : String
  buildError : (method path : String) → Option Err
  statusText : Int → String
  exchange : Nat → Exchange

/-- The actions of a call. -/
inductive Action where
  | token (sessionID : String)
  | send (req : Request)
  | decode (body : Bytes)
  | record (service method outcome : String)
deriving DecidableEq

end Data

section DoJSON

variable (c : Client) (env : Env) (call : Call)

/-- `isIdempotent`. -/
def isIdempotent (method : String) : Bool :=
  method == "GET" || method == "HEAD" || method == "OPTIONS"

/-- `retryableResponse`. -/
def retryableResponse (status : Int) : Bool :=
  status == 502 || status == 503 || status == 504

/-- The number of attempts; the sum wraps as `int` does. -/
def attempts (method : String) : Int64 :=
  if isIdempotent method && decide (0 < c.maxRetries) then 1 + c.maxRetries else 1

/-- The path of a request. -/
def requestPath (route : String) : String :=
  trimRight c.baseURL.path '/' ++ "/" ++ trimLeft route '/'

/-- The headers of a request, before the authorization. -/
def requestHeaders (body : Bytes) : List (String × String) :=
  [("Accept", "application/json")] ++
    (if 0 < body.length then [("Content-Type", "application/json")] else []) ++
    (if env.requestID ≠ "" then [("X-Request-ID", env.requestID)] else []) ++
    (if env.traceID ≠ "" then [("X-Trace-ID", env.traceID)] else [])

/-- The token source is asked for this call. -/
def usesToken : Bool :=
  call.sessionID != "" && c.hasTokens

/-- `Client.newRequest`, in attempt `n`. -/
def newRequest (body : Bytes) (n : Nat) : Traced Action Err Request :=
  match env.buildError call.method (requestPath c call.path) with
  | some e => .stop e
  | none =>
      let plain : Request :=
        ⟨call.method, requestPath c call.path, requestHeaders env body, body⟩
      if usesToken c call then do
        let answer ← Traced.call (.token call.sessionID) (env.exchange n).token
        let token ← Traced.lift answer
        .done { plain with headers := plain.headers ++ [("Authorization", "Bearer " ++ token)] }
      else .done plain

/-- The size limit of a response. -/
def bodyLimit : Int64 :=
  if c.maxBodyBytes ≤ 0 then 1048576 else c.maxBodyBytes

/-- `io.ReadAll(io.LimitReader(body, n))`. -/
def readLimited (resp : Response) (n : Int64) : Except Err Bytes :=
  if n.toInt ≤ resp.body.length then .ok (resp.body.take n.toInt.toNat)
  else
    match resp.readError with
    | some e => .error e
    | none => .ok resp.body

/-- `Client.handleResponse`; the value is the error it returns. -/
def handleResponse (resp : Response) : Traced Action Err (Option Err) :=
  match readLimited resp (bodyLimit c + 1) with
  | .error e => .done (some e)
  | .ok body =>
      if (bodyLimit c).toInt < body.length then
        .done (some (.text
          ("outbound response exceeds " ++ toString (bodyLimit c).toInt ++ " bytes")))
      else if resp.status < 200 ∨ 300 ≤ resp.status then
        .done (some (.leaf
          (.outbound (normalizeStatus resp.status) resp.status (env.statusText resp.status))))
      else
        match call.out with
        | none => .done none
        | some decode =>
            if body.length = 0 then .done none
            else do
              let err ← Traced.call (.decode body) (decode body)
              .done (err.map (.wrap "decode outbound response: " ""))

/-- A failed request, with its cause. -/
def requestError (cause : Err) : Err :=
  .wrap "outbound request: " "" cause

/-- The loop of `DoJSON`, from attempt `n` with `remaining` attempts left. -/
def attemptLoop (body : Bytes) :
    (remaining n : Nat) → (lastErr : Option Err) → Traced Action Err Unit
  | 0, _, none => .done ()
  | 0, _, some e => .stop e
  | remaining + 1, n, _ => do
      let req ← newRequest c env call body n
      let answer ← Traced.call (.send req) (env.exchange n).answer
      match answer with
      | .error e =>
          match (env.exchange n).contextError with
          | some e' => .stop (requestError e')
          | none =>
              if 0 < remaining then
                match (env.exchange n).backoff with
                | some e' => .stop (requestError e')
                | none => attemptLoop body remaining (n + 1) (some e)
              else .stop (requestError e)
      | .ok resp => do
          let err ← handleResponse c env call resp
          match err with
          | none => .done ()
          | some e =>
              if remaining = 0 ∨ retryableResponse resp.status = false then .stop e
              else
                match (env.exchange n).backoff with
                | some e' => .stop e'
                | none => attemptLoop body remaining (n + 1) (some e)

/-- `Client.DoJSON`. -/
def doJSON : Traced Action Err Unit :=
  match call.input with
  | some (.error e) => .stop e
  | some (.ok body) => attemptLoop c env call body (attempts c call.method).toInt.toNat 0 none
  | none => attemptLoop c env call [] (attempts c call.method).toInt.toNat 0 none

end DoJSON

section Stack

/-- The error a call returns. -/
def errorOf : Except Err Unit → Option Err
  | .error e => some e
  | .ok () => none

/-- `outboundMetricOutcome`. -/
def outboundMetricOutcome : Option Err → String
  | none => "success"
  | some e =>
      if e.isKind .rateLimited then "rate_limited"
      else if e.isKind .unavailable then "unavailable"
      else if e.isKind .unauthorized then "unauthorized"
      else if e.isKind .forbidden then "forbidden"
      else "error"

/-- The fields of an `ObservedClient` besides the client it wraps. -/
structure Observation where
  hasMetrics : Bool
  serviceName : String

/-- `ObservedClient.DoJSON` around a call. -/
def observedDoJSON (o : Observation) (method : String) (t : Traced Action Err Unit) :
    Traced Action Err Unit :=
  if o.hasMetrics then
    ⟨t.calls ++ [.record o.serviceName method (outboundMetricOutcome (errorOf t.result))],
      t.result⟩
  else t

/-- `core.JSONClient`: a protected client over an observed one over a client. -/
structure JSONClient where
  client : Client
  observation : Observation
  protection : Protection

/-- `core.ClientOptions`, without the timeout. -/
structure ClientOptions where
  maxConcurrent : Int
  failureThreshold : Int
  openFor : Duration

/-- What a `Router` hands to its clients. -/
structure RouterDeps where
  hasTokens : Bool
  hasMetrics : Bool

/-- `outbound.New` with the given `url.Parse`. -/
def newClient (parse : String → Option BaseURL) (baseURL : String) : Except Err Client :=
  match parse (trimRight baseURL '/') with
  | none => .error (.text "outbound base URL must be absolute")
  | some u =>
      if u.scheme = "" ∨ u.host = "" then
        .error (.text "outbound base URL must be absolute")
      else .ok ⟨u, false, 1, 1048576⟩

/-- `Router.NewJSONClient`. -/
def newJSONClient (parse : String → Option BaseURL) (deps : RouterDeps)
    (serviceName baseURL : String) (opts : ClientOptions) : Except Err JSONClient := do
  let client ← newClient parse baseURL
  .ok {
    client := { client with hasTokens := deps.hasTokens }
    observation := ⟨deps.hasMetrics, serviceName⟩
    protection := ⟨true, opts.maxConcurrent, opts.failureThreshold, opts.openFor⟩ }

/-- The call that the protected client of a stack wraps. -/
def JSONClient.upstream (s : JSONClient) (env : Env) (call : Call) : Traced Action Err Unit :=
  observedDoJSON s.observation call.method (doJSON s.client env call)

end Stack

section StackRuns

/-- The events of a stack: those of its protected client, where an answer is that
of the client below it. -/
inductive StackEvent where
  | enter (i : Nat)
  | before (i : Nat)
  | answer (i : Nat) (env : Env) (call : Call)
  | finish (i : Nat)
  | leave (i : Nat)
  | tick (t : Int)

/-- The state of the protected client, and what each call that has its answer met
and asked for. -/
structure StackWorld where
  world : World
  asked : Nat → Option (Env × Call)

namespace StackEvent

/-- The event of the protected client. -/
def event (s : JSONClient) : StackEvent → Event
  | enter i => .enter i
  | before i => .before i
  | answer i env call => .answer i (errorOf (s.upstream env call).result)
  | finish i => .finish i
  | leave i => .leave i
  | tick t => .tick t

/-- What is known of the calls after the event. -/
def record (asked : Nat → Option (Env × Call)) : StackEvent → Nat → Option (Env × Call)
  | answer i env call => Function.update asked i (some (env, call))
  | _ => asked

end StackEvent

/-- One event of a stack. -/
def stackStep (s : JSONClient) (sw : StackWorld) (e : StackEvent) : Option StackWorld :=
  (step s.protection sw.world (e.event s)).map fun w => ⟨w, e.record sw.asked⟩

variable {s : JSONClient} {sw sw' : StackWorld} {e : StackEvent}

theorem stackStep_success (h : stackStep s sw e = some sw') :
    step s.protection sw.world (e.event s) = some sw'.world ∧ sw'.asked = e.record sw.asked := by
  obtain ⟨w, hstep, rfl⟩ := Option.map_eq_some_iff.mp h
  exact ⟨hstep, rfl⟩

/-- A call that has its answer has the answer of the client below. -/
def Recorded (s : JSONClient) (sw : StackWorld) : Prop :=
  ∀ i probe err, sw.world.calls i = .answered probe err →
    ∃ env call, sw.asked i = some (env, call) ∧ err = errorOf (s.upstream env call).result

theorem Recorded.keep
    {i : Nat} {pc : Pc}
    (hinv : Recorded s sw)
    (hcalls : sw'.world.calls = Function.update sw.world.calls i pc)
    (hpc : ∀ probe err, pc ≠ .answered probe err)
    (hasked : sw'.asked = sw.asked) :
    Recorded s sw' := by
  intro j probe err hj
  rw [hasked]
  rcases Run.update_cases hcalls j with ⟨rfl, hself⟩ | ⟨-, hother⟩
  · rw [hself] at hj
    exact absurd hj (hpc probe err)
  · rw [hother] at hj
    exact hinv j probe err hj

theorem Recorded.step
    (hinv : Recorded s sw) (h : stackStep s sw e = some sw') :
    Recorded s sw' := by
  obtain ⟨hstep, hasked⟩ := stackStep_success h
  have heffect := step_effect hstep
  cases e with
  | enter i =>
      cases heffect with
      | enter _ pc _ hentered hcalls _ =>
          refine hinv.keep hcalls ?_ hasked
          rcases hentered with rfl | ⟨result, rfl⟩ <;> simp
  | before i =>
      cases heffect with
      | pass _ _ _ hcalls _ =>
          exact hinv.keep hcalls (by simp) hasked
      | reject _ err _ _ hcalls _ =>
          exact hinv.keep hcalls (by simp) hasked
  | answer i env call =>
      cases heffect with
      | answer _ _ probe' _ hcalls _ =>
          intro j probe err hj
          rw [hasked]
          rcases Run.update_cases hcalls j with ⟨rfl, hself⟩ | ⟨hji, hother⟩
          · rw [hself] at hj
            cases hj
            exact ⟨env, call, Function.update_self _ _ _, rfl⟩
          · rw [hother] at hj
            obtain ⟨env', call', hask, herr⟩ := hinv j probe err hj
            exact ⟨env', call', (Function.update_of_ne hji _ _).trans hask, herr⟩
  | finish i =>
      cases heffect with
      | finish _ err probe _ hcalls _ =>
          exact hinv.keep hcalls (by simp) hasked
  | leave i =>
      cases heffect with
      | leave _ result _ hcalls _ =>
          exact hinv.keep hcalls (by simp) hasked
  | tick t =>
      cases heffect with
      | tick _ _ hcalls _ =>
          intro j probe err hj
          rw [hcalls] at hj
          rw [hasked]
          exact hinv j probe err hj

theorem recorded_of_idle (hidle : ∀ i, sw.world.calls i = .idle) :
    Recorded s sw := by
  intro i probe err hi
  rw [hidle i] at hi
  cases hi

end StackRuns

end Outbound
end GatewayRuntime
