import GatewayRuntime.UserContext

/-!
# Shown and enforced permissions

`/api/me` shows the permissions that `SessionResolver.Resolve` puts into the context of a
session, and a route enforces a permission through `RequirePermission`.  With a static policy
the two agree: both come down to the lists that the policy has for the roles of the session
(`shown_permissions_enforced`).
-/

namespace GatewayRuntime
namespace UserContext

universe u

section Paths

variable (p : Policy.Static) (sessions : String → Except Err Session)

/-- The session store and a static policy behind a `SessionResolver`. -/
def staticBackends : Backends Unit where
  sessionGet w sid := (w, sessions sid)
  policy := some fun w subject => (w, p.evaluator.evaluate subject)
  cache := none
  ttl := 0

/-- `SessionResolver.Resolve` with a static policy. -/
def resolve (sid : String) : Except Err Context :=
  (sessionResolve (staticBackends p sessions) () sid).answer

/-- `RequirePermission` with a static policy. -/
def requirePermission {η : Type u} (permission : String) (next : Core.Handler η) :
    Core.Handler η :=
  Core.requirePermissionWithAuditCookie
    ⟨sessions, some p.evaluator, false, false, Core.secureCookieName⟩ permission next

/-- The context lists the permission. -/
def Context.Lists (c : Context) (permission : String) : Prop :=
  ∃ permissions, c.permissions = some permissions ∧ permission ∈ permissions

/-- The wrapped handler is called for the request. -/
def Calls {η : Type u} (permission : String) (handler : Core.Request → List η × Core.Response)
    (r : Core.Request) : Prop :=
  ∃ r', .serve r' ∈
    (requirePermission p sessions permission (Core.application handler) r).1

/-- The request carries the cookie of a session. -/
def Carries (r : Core.Request) (sid : String) : Prop :=
  r.cookie Core.secureCookieName = some sid ∧ sid ≠ ""

/-- Some role of the session is mapped to a list with the permission. -/
def Granted (s : Session) (permission : String) : Prop :=
  ∃ role ∈ s.roles, ∃ values, p.rolePermissions.find role = some values ∧ permission ∈ values

end Paths

section Shown

variable {p : Policy.Static} {sessions : String → Except Err Session} {sid : String} {s : Session}

theorem resolve_eq (h : sessions sid = .ok s) :
    resolve p sessions sid = .ok (contextOf s (some (p.evaluate (subjectOf s)))) := by
  unfold resolve sessionResolve
  simp [staticBackends, Policy.Static.evaluator, h]

theorem lists_iff {permission : String} :
    (contextOf s (some (p.evaluate (subjectOf s)))).Lists permission ↔
      permission ∈ (p.evaluate (subjectOf s)).permissions := by
  simp [Context.Lists, contextOf]

theorem lists_iff_granted {permission : String} :
    (contextOf s (some (p.evaluate (subjectOf s)))).Lists permission ↔
      Granted p s permission := by
  rw [lists_iff]
  unfold Policy.Static.evaluate
  rw [Policy.mem_keysSorted, Policy.Static.mem_valuesFor]
  rfl

/-- The lists depend on which roles there are only. -/
theorem evaluate_congr
    {s' : Session} (h : ∀ role, role ∈ s.roles ↔ role ∈ s'.roles) :
    (p.evaluate (subjectOf s)).permissions = (p.evaluate (subjectOf s')).permissions ∧
      (p.evaluate (subjectOf s)).capabilities = (p.evaluate (subjectOf s')).capabilities := by
  have hvalues (table : Table String (List String)) :
      Policy.keysSorted (Policy.Static.valuesFor table (subjectOf s)) =
        Policy.keysSorted (Policy.Static.valuesFor table (subjectOf s')) := by
    refine Policy.keysSorted_congr fun value => ?_
    rw [Policy.Static.mem_valuesFor, Policy.Static.mem_valuesFor]
    exact exists_congr fun role => and_congr_left' (h role)
  exact ⟨hvalues _, hvalues _⟩

end Shown

section Enforced

variable {η : Type u} {p : Policy.Static} {sessions : String → Except Err Session}
variable {sid permission : String} {s : Session} {r : Core.Request}
variable {handler : Core.Request → List η × Core.Response}

theorem calls_iff
    (h : sessions sid = .ok s) (hr : Carries r sid) :
    Calls p sessions permission handler r ↔
      permission ∈ (p.evaluate (subjectOf s)).permissions := by
  rw [← Policy.Static.allowed_eq_true_iff]
  unfold Calls requirePermission Core.requirePermissionWithAuditCookie Core.authorize
  simp only [hr.1, Option.getD_some, if_neg hr.2, h]
  unfold Core.authorizeSession
  simp only [Policy.Static.evaluator, Traced.call_bind]
  show _ ↔ p.allowed ⟨s.subject, s.roles⟩ permission = true
  cases p.allowed ⟨s.subject, s.roles⟩ permission with
  | true =>
      refine iff_of_true ⟨{ r with session := some s }, ?_⟩ rfl
      simp [Core.application]
  | false =>
      refine iff_of_false ?_ (by simp)
      rintro ⟨r', hserve⟩
      simp [Core.decline, Core.emitDecision] at hserve

end Enforced

/-- What is shown of a static policy is what is enforced. -/
structure ShownLaw (p : Policy.Static) (sessions : String → Except Err Session) : Prop where
  agrees : ∀ sid s, sessions sid = .ok s →
    ∃ context, resolve p sessions sid = .ok context ∧
      ∀ permission, (context.Lists permission ↔ Granted p s permission) ∧
        ∀ (η : Type u) (handler : Core.Request → List η × Core.Response) r, Carries r sid →
          (context.Lists permission ↔ Calls p sessions permission handler r)
  sorted : ∀ sid context, resolve p sessions sid = .ok context →
    ∃ permissions capabilities, context.permissions = some permissions ∧
      context.capabilities = some capabilities ∧ permissions.SortedLT ∧ capabilities.SortedLT
  same : ∀ sid sid' s s' context context', sessions sid = .ok s → sessions sid' = .ok s' →
    (∀ role, role ∈ s.roles ↔ role ∈ s'.roles) →
    resolve p sessions sid = .ok context → resolve p sessions sid' = .ok context' →
    context.permissions = context'.permissions ∧ context.capabilities = context'.capabilities
  keeps : ∀ sid sid' s s' context context', sessions sid = .ok s → sessions sid' = .ok s' →
    (∀ role ∈ s.roles, role ∈ s'.roles) →
    resolve p sessions sid = .ok context → resolve p sessions sid' = .ok context' →
    ∀ permission, context.Lists permission → context'.Lists permission

/-- **What `/api/me` shows is what routes enforce**, for every static policy and every session. -/
theorem shown_permissions_enforced (p : Policy.Static) (sessions : String → Except Err Session) :
    ShownLaw.{u} p sessions where
  agrees := by
    intro sid s hs
    refine ⟨_, resolve_eq hs, fun permission => ⟨lists_iff_granted, ?_⟩⟩
    intro η handler r hr
    rw [lists_iff, calls_iff hs hr]
  sorted := by
    intro sid context hcontext
    cases hs : sessions sid with
    | error e =>
        simp [resolve, sessionResolve, staticBackends, hs] at hcontext
    | ok s =>
        rw [resolve_eq hs] at hcontext
        obtain rfl := Except.ok.inj hcontext
        exact ⟨_, _, rfl, rfl, Policy.sortedLT_keysSorted _, Policy.sortedLT_keysSorted _⟩
  same := by
    intro sid sid' s s' context context' hs hs' hroles hcontext hcontext'
    rw [resolve_eq hs] at hcontext
    rw [resolve_eq hs'] at hcontext'
    obtain rfl := Except.ok.inj hcontext
    obtain rfl := Except.ok.inj hcontext'
    exact ⟨congrArg some (evaluate_congr hroles).1, congrArg some (evaluate_congr hroles).2⟩
  keeps := by
    intro sid sid' s s' context context' hs hs' hroles hcontext hcontext' permission
    rw [resolve_eq hs] at hcontext
    rw [resolve_eq hs'] at hcontext'
    obtain rfl := Except.ok.inj hcontext
    obtain rfl := Except.ok.inj hcontext'
    rw [lists_iff_granted, lists_iff_granted]
    rintro ⟨role, hrole, hvalues⟩
    exact ⟨role, hroles role hrole, hvalues⟩

end UserContext
end GatewayRuntime
