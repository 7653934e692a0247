import GatewayRuntime.Lib.GoText
import GatewayRuntime.Lib.Traced
import GatewayRuntime.Policy
import GatewayRuntime.SessionStore

/-!
# The session of a request

`RequirePermissionWithAuditCookie` finds the session of a request under the configured
cookie name, `core.SessionID` under the first of two fixed names that has a value.  A
handler behind the first passes what the second returns to `JSONClient.DoJSON`, which
selects the access token by it.

With the secure name both are the same cookie.  With the insecure name, a cookie with the
secure name goes before it: `session_of_token_iff`.

A cookie is a name and a value as `net/http` parses them.  What the session store and the
policy answer is given; the log of a handler holds the calls it makes to them and to the
handler behind it, the metrics and the audit events.
-/

namespace GatewayRuntime
namespace Core

open GoText

universe u

section Requests

/-- `auth.SessionCookieName`. -/
def secureCookieName : String :=
  "__Host-bff_session"

/-- `auth.InsecureSessionCookieName`. -/
def insecureCookieName : String :=
  "bff_session"

/-- `auth.SessionCookieNameFor`. -/
def sessionCookieNameFor (secure : Bool) : String :=
  if secure then secureCookieName else insecureCookieName

/-- The parts of an `http.Request` that the handlers read.  `session` is the authenticated
session in its context, `pathID` the path value of `id`. -/
structure Request where
  method : String
  path : String
  pathID : String
  cookies : List (String × String)
  session : Option Session

/-- `r.Cookie(name)`: the value of the first cookie with the name. -/
def Request.cookie (r : Request) (name : String) : Option String :=
  r.cookies.lookup name

/-- `core.SessionID`. -/
def sessionID (r : Request) : Option String :=
  [secureCookieName, insecureCookieName].findSome? fun name =>
    (r.cookie name).filter fun value => value != ""

end Requests

section Events

/-- The reason in an audit event: a text, or the text of a status. -/
inductive Reason where
  | text (s : String)
  | statusText (status : Nat)
deriving DecidableEq

/-- The fields of an `audit.Event` that the handlers fill in. -/
structure AuditEvent where
  action : String
  target : String
  outcome : String
  actor : String
  actorUsername : String
  resourceID : String
  httpStatus : Nat
  reason : Reason
  requestMethod : String
  requestPath : String
deriving DecidableEq

/-- What a handler does; `handler` is an event of the application's own. -/
inductive Event (η : Type u) where
  | sessionGet (sid : String) (answer : Except Err Session)
  | allowed (subject : Policy.Subject) (permission : String) (answer : Except Err Bool)
  | authorizationMetric (outcome permission : String)
  | audit (event : AuditEvent)
  | serve (r : Request)
  | handler (e : η)

/-- The status and the text of an answer. -/
structure Response where
  status : Nat
  text : String
deriving DecidableEq

/-- A handler: its log and its answer. -/
abbrev Handler (η : Type u) := Request → List (Event η) × Response

/-- A handler of the application; the log says that it was called, and with what. -/
def application {η : Type u} (handler : Request → List η × Response) : Handler η :=
  fun r => (.serve r :: (handler r).1.map .handler, (handler r).2)

end Events

section Middleware

variable {η : Type u}

/-- The parts of `app.RouteDeps` for a route: what the session store answers, the policy if
there is one, and whether there is an audit sink and metrics. -/
structure RouteDeps where
  sessions : String → Except Err Session
  policy : Option Policy.Evaluator
  audit : Bool
  metrics : Bool
  sessionCookieName : String

/-- `emitDecision`. -/
def emitDecision (audit metrics : Bool) (r : Request) (actor username permission outcome reason : String)
    (status : Nat) : List (Event η) :=
  (if metrics then
    [.authorizationMetric (if outcome = "deny" then "denied" else outcome) permission] else []) ++
  if audit then
    [.audit ⟨"authorization." ++ outcome, permission, outcome, actor, username, "", status,
      .text reason, r.method, r.path⟩]
  else []

variable (deps : RouteDeps) (permission : String) (r : Request)

/-- A decision against the request, and the answer. -/
def decline (actor username outcome reason : String) (status : Nat) (text : String) :
    Traced (Event η) Response Session :=
  ⟨emitDecision deps.audit deps.metrics r actor username permission outcome reason status,
    .error ⟨status, text⟩⟩

/-- The decision of the policy about a session. -/
def authorizeSession (s : Session) : Traced (Event η) Response Session :=
  match deps.policy with
  | none =>
      decline deps permission r s.subject s.username "deny" "policy_unconfigured" 403 "forbidden"
  | some evaluator => do
      let subject : Policy.Subject := ⟨s.subject, s.roles⟩
      let answer ← .call (.allowed subject permission (evaluator.allowed subject permission))
        (evaluator.allowed subject permission)
      match answer with
      | .error _ =>
          decline deps permission r s.subject s.username "error" "policy_error" 503
            "authorization unavailable"
      | .ok false =>
          decline deps permission r s.subject s.username "deny" "permission_denied" 403 "forbidden"
      | .ok true =>
          ⟨(if deps.metrics then [.authorizationMetric "allowed" permission] else []) ++
            emitDecision deps.audit false r s.subject s.username permission "allow" "authorized" 0,
            .ok s⟩

/-- The session of a request that `RequirePermissionWithAuditCookie` lets through. -/
def authorize : Traced (Event η) Response Session :=
  let sid := (r.cookie deps.sessionCookieName).getD ""
  if sid = "" then decline deps permission r "" "" "deny" "unauthenticated" 401 "unauthorized"
  else do
    let answer ← .call (.sessionGet sid (deps.sessions sid)) (deps.sessions sid)
    match answer with
    | .error e =>
        if e.is .sessionNotFound then
          decline deps permission r "" "" "deny" "invalid_session" 401 "unauthorized"
        else
          decline deps permission r "" "" "error" "session_store_error" 503
            "session store unavailable"
    | .ok s => authorizeSession deps permission r s

/-- `RequirePermissionWithAuditCookie`. -/
def requirePermissionWithAuditCookie (next : Handler η) : Handler η :=
  fun r =>
    match authorize deps permission r with
    | ⟨events, .error answer⟩ => (events, answer)
    | ⟨events, .ok s⟩ =>
        let served := next { r with session := some s }
        (events ++ served.1, served.2)

/-- The outcome that `BusinessAudit` records for a status. -/
def auditOutcome (status : Nat) : String :=
  if 500 ≤ status then "failure" else if 400 ≤ status then "deny" else "success"

/-- `BusinessAudit`. -/
def businessAudit (action targetType : String) (audit : Bool) (next : Handler η) : Handler η :=
  if audit then
    fun r =>
      let served := next r
      let status := served.2.status
      let actor := r.session.map fun s => (s.subject, s.username)
      (served.1 ++
        [.audit ⟨action, targetType, auditOutcome status, (actor.map Prod.fst).getD "",
          (actor.map Prod.snd).getD "",
          if trimSpace r.pathID = "" then r.path else trimSpace r.pathID, status,
          .statusText status, r.method, r.path⟩], served.2)
  else next

/-- A registered route. -/
structure Route (η : Type u) where
  pattern : String
  handler : Handler η

/-- `core.Router.Handle`, after the routes registered before. -/
def handle (routes : List (Route η)) (pattern permission : String) (handler : Handler η) :
    List (Route η) :=
  let guarded : Handler η :=
    if permission ≠ "" then
      let targetType := ((cut permission '.').map Prod.fst).getD permission
      requirePermissionWithAuditCookie deps permission
        (businessAudit permission targetType deps.audit handler)
    else handler
  routes ++ [⟨pattern, guarded⟩]

end Middleware

section Log

variable {η : Type u} {deps : RouteDeps} {permission : String} {r : Request}

/-- The events of a decision: the policy is asked, and the outcome is recorded. -/
def Event.isDecision : Event η → Bool
  | allowed _ _ _ => true
  | authorizationMetric _ _ => true
  | audit _ => true
  | _ => false

theorem isDecision_of_emitDecision
    {audit metrics : Bool} {actor username outcome reason : String} {status : Nat}
    {e : Event η}
    (he : e ∈ emitDecision audit metrics r actor username permission outcome reason status) :
    e.isDecision = true := by
  unfold emitDecision at he
  rcases List.mem_append.mp he with hmetric | haudit
  · split at hmetric
    · rw [List.mem_singleton.mp hmetric]
      rfl
    · cases hmetric
  · split at haudit
    · rw [List.mem_singleton.mp haudit]
      rfl
    · cases haudit

theorem isDecision_of_authorizeSession
    {s : Session} {e : Event η} (he : e ∈ (authorizeSession deps permission r s).calls) :
    e.isDecision = true := by
  unfold authorizeSession at he
  cases hpolicy : deps.policy with
  | none =>
      rw [hpolicy] at he
      exact isDecision_of_emitDecision he
  | some evaluator =>
      rw [hpolicy] at he
      simp only [Traced.call_bind, List.mem_cons] at he
      rcases he with rfl | he
      · rfl
      · cases hanswer : evaluator.allowed ⟨s.subject, s.roles⟩ permission with
        | error err =>
            rw [hanswer] at he
            exact isDecision_of_emitDecision he
        | ok allowed =>
            rw [hanswer] at he
            cases allowed with
            | false =>
                exact isDecision_of_emitDecision he
            | true =>
                rcases List.mem_append.mp he with hmetric | haudit
                · split at hmetric
                  · rw [List.mem_singleton.mp hmetric]
                    rfl
                  · cases hmetric
                · exact isDecision_of_emitDecision haudit

/-- The one session that is looked up is that of the configured cookie. -/
theorem event_of_authorize
    {e : Event η} (he : e ∈ (authorize deps permission r).calls) :
    e.isDecision = true ∨
      ∃ sid, r.cookie deps.sessionCookieName = some sid ∧ sid ≠ "" ∧
        e = .sessionGet sid (deps.sessions sid) := by
  unfold authorize at he
  simp only at he
  split at he
  · exact Or.inl (isDecision_of_emitDecision he)
  · rename_i hsid
    simp only [Traced.call_bind, List.mem_cons] at he
    rcases he with rfl | he
    · obtain ⟨sid, hcookie⟩ : ∃ sid, r.cookie deps.sessionCookieName = some sid := by
        cases hcookie : r.cookie deps.sessionCookieName with
        | none =>
            simp [hcookie] at hsid
        | some sid =>
            exact ⟨sid, rfl⟩
      rw [hcookie] at hsid ⊢
      exact Or.inr ⟨sid, rfl, hsid, rfl⟩
    · left
      cases hanswer : deps.sessions ((r.cookie deps.sessionCookieName).getD "") with
      | error err =>
          rw [hanswer] at he
          simp only at he
          split at he
          · exact isDecision_of_emitDecision he
          · exact isDecision_of_emitDecision he
      | ok s =>
          rw [hanswer] at he
          exact isDecision_of_authorizeSession he

/-- Behind the check the application's handler is called once, with the request. -/
theorem event_of_businessAudit
    {action targetType : String} {audit : Bool} {handler : Request → List η × Response}
    {e : Event η} (he : e ∈ (businessAudit action targetType audit (application handler) r).1) :
    e.isDecision = true ∨ e = .serve r ∨ ∃ x, e = .handler x := by
  have happlication : e ∈ (application handler r).1 → e = .serve r ∨ ∃ x, e = .handler x := by
    intro hmem
    rcases List.mem_cons.mp hmem with rfl | hmem
    · exact Or.inl rfl
    · obtain ⟨x, -, rfl⟩ := List.mem_map.mp hmem
      exact Or.inr ⟨x, rfl⟩
  unfold businessAudit at he
  split at he
  · rcases List.mem_append.mp he with hmem | haudit
    · exact Or.inr (happlication hmem)
    · rw [List.mem_singleton.mp haudit]
      exact Or.inl rfl
  · exact Or.inr (happlication he)

/-- What a route with a permission does. -/
theorem event_of_route
    {pattern : String} {handler : Request → List η × Response} {route : Route η}
    (hpermission : permission ≠ "")
    (hroute : route ∈ handle deps [] pattern permission (application handler))
    {e : Event η} (he : e ∈ (route.handler r).1) :
    e.isDecision = true ∨
      (∃ sid, r.cookie deps.sessionCookieName = some sid ∧ sid ≠ "" ∧
        e = .sessionGet sid (deps.sessions sid)) ∨
      (∃ s, e = .serve { r with session := some s }) ∨ ∃ x, e = .handler x := by
  simp only [handle, hpermission, ne_eq, not_false_eq_true, if_true, List.nil_append,
    List.mem_singleton] at hroute
  subst hroute
  simp only [requirePermissionWithAuditCookie] at he
  have hcheck := @event_of_authorize η deps permission r
  cases hauthorize : authorize (η := η) deps permission r with
  | mk events result =>
      rw [hauthorize] at he hcheck
      cases result with
      | error answer =>
          rcases hcheck he with hdecision | hget
          · exact Or.inl hdecision
          · exact Or.inr (Or.inl hget)
      | ok s =>
          rcases List.mem_append.mp he with hmem | hserved
          · rcases hcheck hmem with hdecision | hget
            · exact Or.inl hdecision
            · exact Or.inr (Or.inl hget)
          · rcases event_of_businessAudit hserved with hdecision | hserve | hhandler
            · exact Or.inl hdecision
            · exact Or.inr (Or.inr (Or.inl ⟨s, hserve⟩))
            · exact Or.inr (Or.inr (Or.inr hhandler))

end Log

section Sessions

variable {η : Type u}

/-- A value under the secure name is what `core.SessionID` finds. -/
theorem sessionID_of_secure
    {r : Request} {sid : String}
    (hcookie : r.cookie secureCookieName = some sid) (hsid : sid ≠ "") :
    sessionID r = some sid := by
  simp [sessionID, hcookie, Option.filter, hsid]

/-- `core.SessionID` finds a session in the cookie with the insecure name if and only if the
one with the secure name does not hide it. -/
theorem sessionID_of_insecure
    {r : Request} {sid : String}
    (hcookie : r.cookie insecureCookieName = some sid) (hsid : sid ≠ "") :
    sessionID r = some sid ↔ ∀ v, r.cookie secureCookieName = some v → v = "" ∨ v = sid := by
  cases hsecure : r.cookie secureCookieName with
  | none =>
      simp [sessionID, hcookie, hsecure, Option.filter, hsid]
  | some v =>
      by_cases hv : v = ""
      · simp [sessionID, hcookie, hsecure, Option.filter, hsid, hv]
      · simp [sessionID, hsecure, Option.filter, hv]

/-- **The authorised session and the one whose token is used.**  For a route with a
permission, whose handler is called after the session of `sid` was authorised,
`core.SessionID` returns `sid` if and only if the configured name is the secure one, or
the request has no other value under that name. -/
theorem session_of_token_iff
    (deps : RouteDeps) (secure : Bool)
    (hname : deps.sessionCookieName = sessionCookieNameFor secure)
    (pattern permission : String) (hpermission : permission ≠ "")
    (handler : Request → List η × Response) (route : Route η)
    (hroute : route ∈ handle deps [] pattern permission (application handler))
    (r served : Request) (sid : String) (s : Session)
    (hget : Event.sessionGet sid (.ok s) ∈ (route.handler r).1)
    (hserve : Event.serve served ∈ (route.handler r).1) :
    sessionID served = some sid ↔
      secure = true ∨ ∀ v, r.cookie secureCookieName = some v → v = "" ∨ v = sid := by
  obtain ⟨hcookie, hsid⟩ : r.cookie deps.sessionCookieName = some sid ∧ sid ≠ "" := by
    rcases event_of_route hpermission hroute hget with h | ⟨sid', hcookie, hsid, h⟩ | ⟨_, h⟩ | ⟨_, h⟩
    · cases h
    · obtain ⟨rfl, -⟩ := Event.sessionGet.inj h
      exact ⟨hcookie, hsid⟩
    · cases h
    · cases h
  obtain ⟨s', rfl⟩ : ∃ s', served = { r with session := some s' } := by
    rcases event_of_route hpermission hroute hserve with h | ⟨_, _, _, h⟩ | ⟨s', h⟩ | ⟨_, h⟩
    · cases h
    · cases h
    · cases h
      exact ⟨s', rfl⟩
    · cases h
  have hsame : sessionID { r with session := some s' } = sessionID r := rfl
  rw [hname] at hcookie
  rw [hsame]
  cases secure with
  | true =>
      exact iff_of_true (sessionID_of_secure hcookie hsid) (Or.inl rfl)
  | false =>
      rw [sessionID_of_insecure hcookie hsid]
      simp

/-- A session that may read assets. -/
def readerSession (sid : String) : Session :=
  ⟨sid, "ann", "iss", "ann", "Ann", "", ["viewer"], 1, 100, 1⟩

/-- A deployment in which every session is stored and viewers may read assets. -/
def readerDeps (secure : Bool) : RouteDeps where
  sessions sid := .ok (readerSession sid)
  policy := some
    (Policy.Static.evaluator ⟨fun role => if role = "viewer" then some ["asset.read"] else none,
      Table.empty⟩)
  audit := false
  metrics := false
  sessionCookieName := sessionCookieNameFor secure

/-- A route whose handler logs the session that it would use. -/
def assetRoute (secure : Bool) : Route (Option String) where
  pattern := "GET /assets"
  handler := requirePermissionWithAuditCookie (readerDeps secure) "asset.read"
    (businessAudit "asset.read" "asset" false
      (application fun r => ([sessionID r], ⟨200, ""⟩)))

theorem assetRoute_mem (secure : Bool) :
    assetRoute secure ∈ handle (readerDeps secure) [] "GET /assets" "asset.read"
      (application fun r => ([sessionID r], ⟨200, ""⟩)) :=
  List.mem_singleton.mpr rfl

/-- A request with both cookies. -/
def twoCookies : Request :=
  ⟨"GET", "/assets", "", [(secureCookieName, "other"), (insecureCookieName, "mine")], none⟩

theorem assetRoute_log (secure : Bool) :
    ((assetRoute secure).handler twoCookies).1 =
      [.sessionGet (if secure then "other" else "mine")
          (.ok (readerSession (if secure then "other" else "mine"))),
        .allowed ⟨"ann", ["viewer"]⟩ "asset.read" (.ok true),
        .serve { twoCookies with
          session := some (readerSession (if secure then "other" else "mine")) },
        .handler (some "other")] := by
  cases secure <;> rfl

/-- With the insecure name one session is authorised and another one's token is used. -/
theorem session_of_token_differs :
    ∃ served : Request,
      Event.sessionGet "mine" (.ok (readerSession "mine")) ∈
          ((assetRoute false).handler twoCookies).1 ∧
        Event.serve served ∈ ((assetRoute false).handler twoCookies).1 ∧
        sessionID served = some "other" := by
  refine ⟨{ twoCookies with session := some (readerSession "mine") }, ?_, ?_, rfl⟩
  · rw [assetRoute_log]
    exact List.mem_cons_self
  · rw [assetRoute_log]
    simp

theorem session_of_token_secure :
    ∃ served : Request,
      Event.serve served ∈ ((assetRoute true).handler twoCookies).1 ∧
        sessionID served = some "other" := by
  refine ⟨{ twoCookies with session := some (readerSession "other") }, ?_, ?_⟩
  · rw [assetRoute_log]
    simp
  · refine (session_of_token_iff (readerDeps true) true rfl "GET /assets" "asset.read"
      (by decide) _ (assetRoute true) (assetRoute_mem true) twoCookies _ "other"
      (readerSession "other") ?_ ?_).mpr (Or.inl rfl)
    · rw [assetRoute_log]
      exact List.mem_cons_self
    · rw [assetRoute_log]
      simp

end Sessions

end Core
end GatewayRuntime
