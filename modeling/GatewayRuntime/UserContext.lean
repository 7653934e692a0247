import GatewayRuntime.Lib.GoJson
import GatewayRuntime.SessionCookie

/-!
# The user context

`GET /api/me` answers with the context of the user: the identity of the session, what the
policy lets it do, as a JSON object.  `Handler.me` looks the session up and then asks the
resolver, which looks into the cache, or looks the session up again, asks the policy and
fills the cache.

The session store, the cache and the policy are calls on a state, each with an answer of
its own, so that they may behave in any way at every call.  A request leaves a log of the
calls it made with their answers.

The first lookup tells a missing session from an outage.  The resolver's errors are all
answered as a missing session: `me_separates_iff`.
-/

namespace GatewayRuntime
namespace UserContext

section Context

/-- `usercontext.Context`; a slice is `none` when it is nil. -/
structure Context where
  subject : String
  username : String
  displayName : String
  email : String
  roles : Option (List String)
  permissions : Option (List String)
  tenantID : String
  projectID : String
  authLevel : String
  capabilities : Option (List String)
deriving DecidableEq

/-- The JSON object of a context. -/
structure Body where
  sub : String
  preferredUsername : Option String
  displayName : Option String
  email : Option String
  roles : Option (List String)
  permissions : Option (List String)
  tenantID : Option String
  projectID : Option String
  authLevel : Option String
  capabilities : Option (List String)
deriving DecidableEq

open GoJson

/-- `json.Marshal` of a context. -/
def encode (c : Context) : Body where
  sub := c.subject
  preferredUsername := omitEmpty c.username
  displayName := omitEmpty c.displayName
  email := omitEmpty c.email
  roles := omitEmptySlice c.roles
  permissions := omitEmptySlice c.permissions
  tenantID := omitEmpty c.tenantID
  projectID := omitEmpty c.projectID
  authLevel := omitEmpty c.authLevel
  capabilities := omitEmptySlice c.capabilities

/-- `json.Unmarshal` into a zero context. -/
def decode (b : Body) : Context where
  subject := b.sub
  username := b.preferredUsername.getD ""
  displayName := b.displayName.getD ""
  email := b.email.getD ""
  roles := b.roles
  permissions := b.permissions
  tenantID := b.tenantID.getD ""
  projectID := b.projectID.getD ""
  authLevel := b.authLevel.getD ""
  capabilities := b.capabilities

/-- A context that was written and read back is written as before. -/
theorem encode_decode_encode (c : Context) :
    encode (decode (encode c)) = encode c := by
  simp [encode, decode]

/-- `CacheKey`. -/
def cacheKey (sessionID : String) : String :=
  "userctx:" ++ sessionID

/-- `append([]string(nil), l...)`. -/
def copySlice (l : List String) : Option (List String) :=
  if l = [] then none else some l

/-- The context that `SessionResolver` makes of a session and the decision of the policy, if
there is one. -/
def contextOf (s : Session) (decision : Option Policy.Decision) : Context where
  subject := s.subject
  username := s.username
  displayName := s.displayName
  email := s.email
  roles := copySlice s.roles
  permissions := decision.map Policy.Decision.permissions
  tenantID := ""
  projectID := ""
  authLevel :=
    match decision with
    | none => "authenticated"
    | some d => if d.authLevel = "" then "authenticated" else d.authLevel
  capabilities := decision.map Policy.Decision.capabilities

end Context

section Resolvers

/-- A call that a request makes, with its answer. -/
inductive Call where
  | sessionGet (sid : String) (answer : Except Err Session)
  | cacheGet (key : String) (answer : Except Err (Option Context))
  | evaluate (subject : Policy.Subject) (answer : Except Err Policy.Decision)
  | cacheSet (key : String) (value : Context) (ttl : Duration) (answer : Except Err Unit)

variable {σ : Type}

/-- The calls on a cache. -/
structure CacheCalls (σ : Type) where
  get : σ → String → σ × Except Err (Option Context)
  set : σ → String → Context → Duration → σ × Except Err Unit

/-- What the handler and the resolvers depend on. -/
structure Backends (σ : Type) where
  sessionGet : σ → String → σ × Except Err Session
  policy : Option (σ → Policy.Subject → σ × Except Err Policy.Decision)
  cache : Option (CacheCalls σ)
  ttl : Duration

/-- The state after some calls, their log, and the answer. -/
structure Outcome (σ α : Type) where
  state : σ
  log : List Call
  answer : α

variable (b : Backends σ) (w : σ) (sid : String)

/-- The subject that the policy is asked about. -/
def subjectOf (s : Session) : Policy.Subject :=
  ⟨s.subject, s.roles⟩

/-- `SessionResolver.Resolve`. -/
def sessionResolve : Outcome σ (Except Err Context) :=
  let got := b.sessionGet w sid
  let log := [Call.sessionGet sid got.2]
  match got.2 with
  | .error e => ⟨got.1, log, .error e⟩
  | .ok s =>
      match b.policy with
      | none => ⟨got.1, log, .ok (contextOf s none)⟩
      | some evaluate =>
          let decided := evaluate got.1 (subjectOf s)
          let log := log ++ [.evaluate (subjectOf s) decided.2]
          match decided.2 with
          | .error e => ⟨decided.1, log, .error e⟩
          | .ok d => ⟨decided.1, log, .ok (contextOf s (some d))⟩

/-- `DefaultTTL`, or the configured time when it is positive. -/
def Backends.effectiveTTL : Duration :=
  if b.ttl ≤ 0 then 60 * Duration.second else b.ttl

/-- The end of `CachedResolver.Resolve`, when the cache had nothing. -/
def resolveAndCache (cache : CacheCalls σ) : Outcome σ (Except Err Context) :=
  let next := sessionResolve b w sid
  match next.answer with
  | .error e => ⟨next.state, next.log, .error e⟩
  | .ok c =>
      let set := cache.set next.state (cacheKey sid) c b.effectiveTTL
      ⟨set.1, next.log ++ [.cacheSet (cacheKey sid) c b.effectiveTTL set.2], .ok c⟩

/-- `CachedResolver.Resolve`. -/
def cachedResolve : Outcome σ (Except Err Context) :=
  match b.cache with
  | none => sessionResolve b w sid
  | some cache =>
      let found := cache.get w (cacheKey sid)
      let log := [Call.cacheGet (cacheKey sid) found.2]
      match found.2 with
      | .ok (some c) => ⟨found.1, log, .ok c⟩
      | _ =>
          let rest := resolveAndCache b found.1 sid cache
          ⟨rest.state, log ++ rest.log, rest.answer⟩

/-- What the session resolver does: the lookup fails, or there is no policy, or the policy
fails, or it decides. -/
theorem sessionResolve_cases (b : Backends σ) (w : σ) (sid : String) :
    (∃ e, (b.sessionGet w sid).2 = .error e ∧
        sessionResolve b w sid =
          ⟨(b.sessionGet w sid).1, [.sessionGet sid (.error e)], .error e⟩) ∨
      ∃ s, (b.sessionGet w sid).2 = .ok s ∧
        ((b.policy = none ∧
            sessionResolve b w sid =
              ⟨(b.sessionGet w sid).1, [.sessionGet sid (.ok s)], .ok (contextOf s none)⟩) ∨
          ∃ evaluate decided, b.policy = some evaluate ∧
            evaluate (b.sessionGet w sid).1 (subjectOf s) = decided ∧
            sessionResolve b w sid =
              ⟨decided.1, [.sessionGet sid (.ok s), .evaluate (subjectOf s) decided.2],
                decided.2.map fun d => contextOf s (some d)⟩) := by
  cases hget : (b.sessionGet w sid).2 with
  | error e =>
      exact Or.inl ⟨e, rfl, by simp [sessionResolve, hget]⟩
  | ok s =>
      refine Or.inr ⟨s, rfl, ?_⟩
      cases hpolicy : b.policy with
      | none =>
          exact Or.inl ⟨rfl, by simp [sessionResolve, hget, hpolicy]⟩
      | some evaluate =>
          refine Or.inr ⟨evaluate, _, rfl, rfl, ?_⟩
          cases hdecided : (evaluate (b.sessionGet w sid).1 (subjectOf s)).2 with
          | error e =>
              simp [sessionResolve, hget, hpolicy, hdecided, Except.map]
          | ok d =>
              simp [sessionResolve, hget, hpolicy, hdecided, Except.map]

end Resolvers

section Handler

/-- The answer of `GET /api/me`. -/
inductive Answer where
  | error (status : Nat) (text : String)
  | context (body : Body)
deriving DecidableEq

def Answer.status : Answer → Nat
  | error status _ => status
  | context _ => 200

/-- The parts of an `auth.Handler` that `me` reads.  `configured` says that the resolver, the
service and its session store are set. -/
structure Handler (σ : Type) where
  backends : Backends σ
  configured : Bool
  cookieName : String

/-- `Handler.cookieName`, given the configured name. -/
def cookieNameOr (configured : String) : String :=
  if configured ≠ "" then configured else Core.secureCookieName

/-- The name of the session cookie. -/
def Handler.sessionCookie {σ : Type} (h : Handler σ) : String :=
  cookieNameOr h.cookieName

/-- The answer to what the resolver returned. -/
def answerOf : Except Err Context → Answer
  | .error _ => .error 401 "unauthorized"
  | .ok c => .context (encode c)

/-- The end of `Handler.me`, for the session of the cookie. -/
def meFor {σ : Type} (b : Backends σ) (w : σ) (sid : String) : Outcome σ Answer :=
  let got := b.sessionGet w sid
  let log := [Call.sessionGet sid got.2]
  match got.2 with
  | .error e =>
      ⟨got.1, log, if e.is .sessionNotFound then .error 401 "unauthorized"
        else .error 503 "session store unavailable"⟩
  | .ok _ =>
      let resolved := cachedResolve b got.1 sid
      ⟨resolved.state, log ++ resolved.log, answerOf resolved.answer⟩

/-- `Handler.me`. -/
def Handler.me {σ : Type} (h : Handler σ) (w : σ) (r : Core.Request) : Outcome σ Answer :=
  match r.cookie h.sessionCookie with
  | none => ⟨w, [], .error 401 "unauthorized"⟩
  | some sid =>
      if h.configured then meFor h.backends w sid else ⟨w, [], .error 401 "unauthorized"⟩

/-- A request fails in the first lookup, or is answered as the resolver says. -/
theorem meFor_cases {σ : Type} (b : Backends σ) (w : σ) (sid : String) :
    (∃ e, (b.sessionGet w sid).2 = .error e ∧
        meFor b w sid =
          ⟨(b.sessionGet w sid).1, [.sessionGet sid (.error e)],
            if e.is .sessionNotFound then .error 401 "unauthorized"
            else .error 503 "session store unavailable"⟩) ∨
      ∃ s resolved, (b.sessionGet w sid).2 = .ok s ∧
        cachedResolve b (b.sessionGet w sid).1 sid = resolved ∧
        meFor b w sid =
          ⟨resolved.state, [.sessionGet sid (.ok s)] ++ resolved.log, answerOf resolved.answer⟩ := by
  cases hget : (b.sessionGet w sid).2 with
  | error e =>
      exact Or.inl ⟨e, rfl, by simp [meFor, hget]⟩
  | ok s =>
      exact Or.inr ⟨s, _, rfl, rfl, by simp [meFor, hget]⟩

end Handler

section Separation

variable {σ : Type}

/-- A lookup that reported a missing session. -/
def Call.missing : Call → Bool
  | sessionGet _ (.error e) => e.is .sessionNotFound
  | _ => false

/-- A lookup or an evaluation that failed otherwise.  The cache is not asked for more than it
can give: without it the context is made anew. -/
def Call.outage : Call → Bool
  | sessionGet _ (.error e) => !e.is .sessionNotFound
  | evaluate _ (.error _) => true
  | _ => false

/-- The request is refused only for a session that a lookup has reported missing, and every
outage is answered as one. -/
def Separates (o : Outcome σ Answer) : Prop :=
  (o.answer.status = 401 → o.log.any Call.missing = true) ∧
    (o.log.any Call.outage = true → o.answer.status = 503)

/-- The state in which the session resolver is asked; `none` when the cache answers. -/
def afterCache (b : Backends σ) (w : σ) (sid : String) : Option σ :=
  match b.cache with
  | none => some w
  | some cache =>
      match (cache.get w (cacheKey sid)).2 with
      | .ok (some _) => none
      | _ => some (cache.get w (cacheKey sid)).1

/-- In a state the lookup of the session fails otherwise than for a missing one, or the policy
cannot be evaluated for it. -/
def Unavailable (b : Backends σ) (w : σ) (sid : String) : Prop :=
  match (b.sessionGet w sid).2 with
  | .error e => e.is .sessionNotFound = false
  | .ok s =>
      ∃ evaluate e, b.policy = some evaluate ∧
        (evaluate (b.sessionGet w sid).1 (subjectOf s)).2 = .error e

/-- What the session resolver reports. -/
structure Reports (o : Outcome σ (Except Err Context)) (unavailable : Prop) : Prop where
  refused : ∀ e, o.answer = .error e → (o.log.any Call.missing = true ↔ ¬unavailable)
  outage : o.log.any Call.outage = true ↔ unavailable
  failed : unavailable → ∃ e, o.answer = .error e

theorem sessionResolve_reports (b : Backends σ) (w : σ) (sid : String) :
    Reports (sessionResolve b w sid) (Unavailable b w sid) := by
  unfold Unavailable
  rcases sessionResolve_cases b w sid with
    ⟨e, hget, hresolve⟩ | ⟨s, hget, ⟨hpolicy, hresolve⟩ | ⟨evaluate, decided, hpolicy, hdecided, hresolve⟩⟩
  · rw [hresolve, hget]
    refine ⟨?_, ?_, ?_⟩ <;> simp [Call.missing, Call.outage]
  · rw [hresolve, hget, hpolicy]
    refine ⟨?_, ?_, ?_⟩ <;> simp [Call.outage]
  · rw [hresolve, hget, hpolicy]
    simp only [Option.some.injEq, exists_and_left, exists_eq_left', hdecided]
    obtain ⟨w₁, e | d⟩ := decided
    · refine ⟨?_, ?_, ?_⟩ <;> simp [Call.missing, Call.outage, Except.map]
    · refine ⟨?_, ?_, ?_⟩ <;> simp [Call.outage, Except.map]

theorem resolveAndCache_reports
    (b : Backends σ) (w : σ) (sid : String) (cache : CacheCalls σ) :
    Reports (resolveAndCache b w sid cache) (Unavailable b w sid) := by
  have hnext := sessionResolve_reports b w sid
  unfold resolveAndCache
  generalize sessionResolve b w sid = next at hnext ⊢
  obtain ⟨state, log, answer⟩ := next
  cases answer with
  | error e =>
      exact hnext
  | ok c =>
      refine ⟨?_, ?_, hnext.failed⟩
      · intro e he
        cases he
      · rw [← hnext.outage]
        simp [Call.outage]

/-- A call of the cache in front reports nothing. -/
theorem Reports.cacheGet
    {o : Outcome σ (Except Err Context)} {unavailable : Prop} (h : Reports o unavailable)
    (key : String) (found : Except Err (Option Context)) :
    Reports ⟨o.state, [.cacheGet key found] ++ o.log, o.answer⟩ unavailable := by
  refine ⟨?_, ?_, h.failed⟩
  · intro e he
    rw [← h.refused e he]
    simp [Call.missing]
  · rw [← h.outage]
    simp [Call.outage]

/-- The resolver reports as the session resolver does, unless the cache answers. -/
theorem cachedResolve_reports (b : Backends σ) (w : σ) (sid : String) :
    Reports (cachedResolve b w sid) (∃ w₁, afterCache b w sid = some w₁ ∧ Unavailable b w₁ sid) := by
  unfold cachedResolve afterCache
  cases b.cache with
  | none =>
      simpa using sessionResolve_reports b w sid
  | some cache =>
      have hrest := resolveAndCache_reports b (cache.get w (cacheKey sid)).1 sid cache
      rcases hfound : (cache.get w (cacheKey sid)).2 with e | _ | c
      · simpa [hfound] using hrest.cacheGet (cacheKey sid) (.error e)
      · simpa [hfound] using hrest.cacheGet (cacheKey sid) (.ok none)
      · refine ⟨?_, ?_, ?_⟩ <;> simp [hfound, Call.outage]

/-- After a successful first lookup the answer separates the two if and only if there was no
outage. -/
theorem separates_resolved_iff
    {resolved : Outcome σ (Except Err Context)} {unavailable : Prop}
    (h : Reports resolved unavailable) (sid : String) (s : Session) :
    Separates ⟨resolved.state, [.sessionGet sid (.ok s)] ++ resolved.log,
        answerOf resolved.answer⟩ ↔ ¬unavailable := by
  have hmissing : ([Call.sessionGet sid (.ok s)] ++ resolved.log).any Call.missing =
      resolved.log.any Call.missing := rfl
  have houtage : ([Call.sessionGet sid (.ok s)] ++ resolved.log).any Call.outage =
      resolved.log.any Call.outage := rfl
  unfold Separates
  simp only [hmissing, houtage, h.outage]
  cases hanswer : resolved.answer with
  | error e =>
      -- Every error of the resolver is answered with 401.
      rw [h.refused e hanswer]
      simp [answerOf, Answer.status]
  | ok c =>
      have havailable : ¬unavailable := by
        intro hunavailable
        obtain ⟨e, he⟩ := h.failed hunavailable
        rw [hanswer] at he
        cases he
      simp [answerOf, Answer.status, havailable]

/-- **Missing sessions and outages.**  A configured handler keeps the two apart for a request
with the session cookie if and only if, after a first lookup that succeeded, the session
resolver is not asked or is not struck by an outage. -/
theorem me_separates_iff
    (h : Handler σ) (hconfigured : h.configured = true)
    (w : σ) (r : Core.Request) (sid : String)
    (hcookie : r.cookie h.sessionCookie = some sid) :
    Separates (h.me w r) ↔
      ((h.backends.sessionGet w sid).2.isOk = true →
        ∀ w₁, afterCache h.backends (h.backends.sessionGet w sid).1 sid = some w₁ →
          ¬Unavailable h.backends w₁ sid) := by
  have hme : h.me w r = meFor h.backends w sid := by
    simp [Handler.me, hcookie, hconfigured]
  rw [hme]
  rcases meFor_cases h.backends w sid with ⟨e, hget, hanswer⟩ | ⟨s, resolved, hget, hresolved, hanswer⟩
  · rw [hanswer, hget]
    refine iff_of_true ?_ (by simp [Except.isOk, Except.toBool])
    cases hmissing : e.is .sessionNotFound <;>
      simp [Separates, Call.missing, Call.outage, Answer.status, hmissing]
  · have hreports := cachedResolve_reports h.backends (h.backends.sessionGet w sid).1 sid
    rw [hresolved] at hreports
    rw [hanswer, hget]
    rw [separates_resolved_iff hreports sid s]
    simp [Except.isOk, Except.toBool]

/-- A session store that is not there for its second call, counted by the state, and an empty
cache. -/
def flickering : Backends Nat where
  sessionGet n sid :=
    (n + 1, if n = 1 then .error (.text "connection refused") else .ok (Core.readerSession sid))
  policy := none
  cache := some ⟨fun n _ => (n, .ok none), fun n _ _ _ => (n, .ok ())⟩
  ttl := 0

/-- A handler on that store. -/
def flickeringHandler : Handler Nat :=
  ⟨flickering, true, ""⟩

/-- A request with the session cookie. -/
def meRequest : Core.Request :=
  ⟨"GET", "/api/me", "", [(Core.secureCookieName, "sid")], none⟩

/-- The store fails in the second lookup, no lookup reports a missing session, and the request
is refused. -/
theorem me_refuses_on_outage :
    (flickeringHandler.me 0 meRequest).answer = .error 401 "unauthorized" ∧
      (flickeringHandler.me 0 meRequest).log =
        [.sessionGet "sid" (.ok (Core.readerSession "sid")),
          .cacheGet "userctx:sid" (.ok none),
          .sessionGet "sid" (.error (.text "connection refused"))] ∧
      ¬Separates (flickeringHandler.me 0 meRequest) := by
  have hanswer : (flickeringHandler.me 0 meRequest).answer = .error 401 "unauthorized" := rfl
  have hlog : (flickeringHandler.me 0 meRequest).log =
      [.sessionGet "sid" (.ok (Core.readerSession "sid")),
        .cacheGet "userctx:sid" (.ok none),
        .sessionGet "sid" (.error (.text "connection refused"))] := rfl
  refine ⟨hanswer, hlog, ?_⟩
  rintro ⟨hrefused, -⟩
  have hmissing := hrefused (by rw [hanswer]; rfl)
  rw [hlog] at hmissing
  exact absurd hmissing (by decide)

theorem me_separates_first_lookup :
    (flickeringHandler.me 1 meRequest).answer = .error 503 "session store unavailable" ∧
      Separates (flickeringHandler.me 1 meRequest) := by
  refine ⟨rfl, (me_separates_iff flickeringHandler rfl 1 meRequest "sid" rfl).mpr ?_⟩
  intro hok
  exact absurd hok (by decide)

end Separation

end UserContext
end GatewayRuntime
