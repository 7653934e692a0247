import GatewayRuntime.Lib.Traced
import GatewayRuntime.StorageTypes

/-!
# Authorization of storage requests

`authorizeStorage` of `internal/roleruntime`, with the identity extraction of
`internal/requestidentity` and the bearer token of `internal/workloadauth`, and
the choice of the signer (`storageSignerForTarget`).

The calls a request makes to its collaborators are logged in order (`Call`).
`authorizeStorage_cases` is the one statement about the function that later
modules use: a request is refused with an error status, or everything has been
checked and the calls made say so.
-/

namespace GatewayRuntime
namespace Storage

open GoText

/-- A call to a collaborator made while a request is served, with the answer of
the verifier and of the policy. -/
inductive Call where
  | verify (token : String) (answer : Except String Principal)
  | authorize (req : AccessRequest) (answer : Except String Decision)
  | signer (s : StorageSigner) (op : SignerOp)

section Identity

/-- `requestidentity.Identity`. -/
structure Identity where
  actor : String
  service : String
  tenantID : String
  projectID : String
  requestID : String
  traceID : String

/-- A configured header name, or the default when it is blank. -/
def headerOr (configured default : String) : String :=
  if trimSpace configured = "" then default else trimSpace configured

/-- The trimmed value of the first header, or of the second when that is blank. -/
def firstHeader (r : Request) (name fallback : String) : String :=
  if trimSpace (r.header name) = "" then trimSpace (r.header fallback)
  else trimSpace (r.header name)

/-- `requestidentity.Extract`. -/
def extract (r : Request) (actorName serviceName legacyName : String) : Identity where
  actor :=
    firstHeader r (headerOr actorName "X-Actor-Subject") (headerOr legacyName "X-Auth-Subject")
  service := trimSpace (r.header (headerOr serviceName "X-Service-Identity"))
  tenantID := trimSpace (r.header "X-Tenant-ID")
  projectID := trimSpace (r.header "X-Project-ID")
  requestID := trimSpace (r.header "X-Request-ID")
  traceID := firstHeader r "X-Trace-ID" "traceparent"

/-- `Identity.PolicyContext`. -/
def Identity.policyContext (i : Identity) : StringMap :=
  let put (key value : String) (m : StringMap) : StringMap :=
    if value = "" then m else m.insert key value
  put "trace_id" i.traceID
    (put "request_id" i.requestID
      (put "project_id" i.projectID
        (put "tenant_id" i.tenantID
          (put "service_id" i.service ∅))))

/-- The subject of a policy request: the trimmed actor header, or the trimmed
legacy header when the actor header is blank. -/
def requestSubject (cfg : Config) (r : Request) : String :=
  firstHeader r "X-Actor-Subject" (headerOr cfg.storageSubjectHeader "X-Auth-Subject")

theorem extract_actor (cfg : Config) (r : Request) :
    (extract r "" "" cfg.storageSubjectHeader).actor = requestSubject cfg r := by
  have hname : headerOr "" "X-Actor-Subject" = "X-Actor-Subject" := by
    decide
  simp only [extract, requestSubject, hname]

theorem trimSpace_requestSubject (cfg : Config) (r : Request) :
    trimSpace (requestSubject cfg r) = requestSubject cfg r := by
  unfold requestSubject firstHeader
  split <;> simp

end Identity

section Workload

/-- `workloadauth.BearerToken`. -/
def bearerToken (r : Request) : Except String String :=
  let value := trimSpace (r.header "Authorization")
  if value = "" then .error "authorization header required"
  else
    match cut value ' ' with
    | none => .error "bearer token required"
    | some (scheme, token) =>
        if equalFold (trimSpace scheme) "Bearer" = false || trimSpace token = "" then
          .error "bearer token required"
        else .ok (trimSpace token)

/-- The workload check of `authorizeStorage`: the identity with the verified
service name. -/
def checkWorkload (cfg : Config) (r : Request) (identity : Identity) :
    Traced Call Response Identity :=
  match cfg.workloadVerifier with
  | some verify =>
      match bearerToken r with
      | .error _ => .stop (errorResponse 401 "workload_token_required")
      | .ok rawToken => do
          let answer ← .call (.verify rawToken (verify rawToken)) (verify rawToken)
          match answer with
          | .error _ => .stop (errorResponse 401 "invalid_workload_token")
          | .ok principal => .done { identity with service := principal.service }
  | none =>
      if cfg.workloadAuthRequired then .stop (errorResponse 503 "workload_auth_unavailable")
      else .done identity

/-- The request carries a bearer token that the configured verifier accepts. -/
def TokenAccepted (cfg : Config) (r : Request) : Prop :=
  ∃ verify token principal,
    cfg.workloadVerifier = some verify ∧
      bearerToken r = .ok token ∧
      verify token = .ok principal

/-- Workload authentication is switched on. -/
def WorkloadAuthOn (cfg : Config) : Prop :=
  cfg.workloadAuthRequired = true ∨ cfg.workloadVerifier ≠ none

end Workload

section Authorize

/-- The policy check of `authorizeStorage`. -/
def checkPolicy (policy : Evaluator) (req : AccessRequest) : Traced Call Response Unit := do
  let answer ← .call (.authorize req (policy req)) (policy req)
  match answer with
  | .error _ => .stop (errorResponse 503 "access_policy_unavailable")
  | .ok decision =>
      if decision.allow = false then .stop ⟨403, false, .accessDenied decision.reason⟩
      else .done ()

/-- `authorizeStorage`; it answers early when the source returns `false`. -/
def authorizeStorage (cfg : Config) (r : Request) (target action : String) (write : Bool) :
    Traced Call Response Unit :=
  if mapLen cfg.storageTargets = 0 then .done ()
  else
    let targetName := trimSpace target
    match cfg.storageTargets.resolve targetName with
    | none => .stop (errorResponse 400 "unknown_storage_target")
    | some t =>
        if write && t.readOnly then .stop (errorResponse 403 "storage_target_read_only")
        else
          match cfg.storageAccessPolicy with
          | none => .stop (errorResponse 503 "access_policy_unavailable")
          | some policy => do
              let identity ← checkWorkload cfg r (extract r "" "" cfg.storageSubjectHeader)
              if trimSpace identity.actor = "" then .stop (errorResponse 401 "actor_required")
              else
                checkPolicy policy ⟨identity.actor, action, targetName, identity.policyContext⟩

/-- `storageSignerForTarget`. -/
def storageSignerForTarget (cfg : Config) (targetName : String) : Option StorageSigner :=
  if mapLen cfg.storageProviders = 0 then cfg.storageSigner
  else if mapLen cfg.storageTargets = 0 then
    (cfg.storageProviders.resolve "default").bind Provider.signer
  else
    (cfg.storageTargets.resolve (trimSpace targetName)).bind fun target =>
      (cfg.storageProviders.resolve target.provider).bind Provider.signer

end Authorize

section Spec

variable {cfg : Config} {r : Request}

theorem checkWorkload_calls
    {identity : Identity} {k : Call}
    (h : k ∈ (checkWorkload cfg r identity).calls) :
    ∃ token answer, k = .verify token answer := by
  unfold checkWorkload at h
  cases hv : cfg.workloadVerifier with
  | none =>
      cases hreq : cfg.workloadAuthRequired <;>
        simp [hv, hreq, Traced.stop, Traced.done] at h
  | some verify =>
      cases hb : bearerToken r with
      | error e =>
          simp [hv, hb, Traced.stop] at h
      | ok token =>
          cases ha : verify token <;>
            simp [hv, hb, ha, Traced.stop, Traced.done] at h <;>
            exact ⟨_, _, h⟩

/-- The workload check answers with an error, or it goes on with the same actor
and, if it is switched on, an accepted token. -/
theorem checkWorkload_cases (cfg : Config) (r : Request) (identity : Identity) :
    (∃ resp,
        (checkWorkload cfg r identity).result = .error resp ∧ 400 ≤ resp.status) ∨
      ∃ identity',
        (checkWorkload cfg r identity).result = .ok identity' ∧
          identity'.actor = identity.actor ∧
          (WorkloadAuthOn cfg → TokenAccepted cfg r) := by
  unfold checkWorkload
  cases hv : cfg.workloadVerifier with
  | none =>
      by_cases hreq : cfg.workloadAuthRequired = true
      · left
        refine ⟨errorResponse 503 "workload_auth_unavailable", ?_, by decide⟩
        simp [hreq, Traced.stop]
      · right
        refine ⟨identity, by simp [hreq, Traced.done], rfl, ?_⟩
        rintro (hon | hon)
        · exact absurd hon hreq
        · exact absurd hv hon
  | some verify =>
      cases hb : bearerToken r with
      | error e =>
          left
          exact ⟨errorResponse 401 "workload_token_required", rfl, by decide⟩
      | ok token =>
          cases ha : verify token with
          | error e =>
              left
              refine ⟨errorResponse 401 "invalid_workload_token", ?_, by decide⟩
              simp [ha, Traced.stop]
          | ok principal =>
              right
              refine ⟨{ identity with service := principal.service }, ?_, rfl, ?_⟩
              · simp [ha, Traced.done]
              · intro _
                exact ⟨verify, token, principal, hv, hb, ha⟩

/-- The policy check makes one call; it answers with an error unless the policy
allows. -/
theorem checkPolicy_cases (policy : Evaluator) (req : AccessRequest) :
    (∃ resp,
        checkPolicy policy req = ⟨[.authorize req (policy req)], .error resp⟩ ∧
          400 ≤ resp.status) ∨
      ∃ decision,
        policy req = .ok decision ∧
          decision.allow = true ∧
          checkPolicy policy req = ⟨[.authorize req (.ok decision)], .ok ()⟩ := by
  unfold checkPolicy
  cases ha : policy req with
  | error e =>
      left
      refine ⟨errorResponse 503 "access_policy_unavailable", ?_, by decide⟩
      simp [Traced.stop]
  | ok decision =>
      cases hallow : decision.allow with
      | false =>
          left
          refine ⟨⟨403, false, .accessDenied decision.reason⟩, ?_, ?_⟩
          · simp [hallow, Traced.stop]
          · show 400 ≤ 403
            decide
      | true =>
          right
          refine ⟨decision, rfl, hallow, ?_⟩
          simp [hallow, Traced.done]

/-- Without a registry every request passes, and nothing is called. -/
theorem authorizeStorage_of_no_registry
    (hreg : mapLen cfg.storageTargets = 0) (target action : String) (write : Bool) :
    authorizeStorage cfg r target action write = .done () := by
  simp [authorizeStorage, hreg]

/-- What `authorizeStorage` establishes, with a registry, before it lets a
request pass: the calls made are those of the workload check followed by one
allowing policy call about the trimmed target. -/
structure Authorized (cfg : Config) (r : Request) (target action : String) (write : Bool)
    (calls : List Call) : Prop where
  resolved :
    ∃ t, cfg.storageTargets.resolve (trimSpace target) = some t ∧
      (write = true → t.readOnly = false)
  subject_ne : requestSubject cfg r ≠ ""
  workload : WorkloadAuthOn cfg → TokenAccepted cfg r
  decided :
    ∃ policy context decision workloadCalls,
      cfg.storageAccessPolicy = some policy ∧
        policy ⟨requestSubject cfg r, action, trimSpace target, context⟩ = .ok decision ∧
        decision.allow = true ∧
        (∀ k ∈ workloadCalls, ∃ token answer, k = Call.verify token answer) ∧
        calls = workloadCalls ++
          [.authorize ⟨requestSubject cfg r, action, trimSpace target, context⟩ (.ok decision)]

/-- A request refused by `authorizeStorage`: it is answered with an error, and no
signer has been called. -/
def Refused (x : Traced Call Response Unit) : Prop :=
  (∃ resp, x.result = .error resp ∧ 400 ≤ resp.status) ∧
    ∀ s op, Call.signer s op ∉ x.calls

theorem refused_stop (status : Nat) (message : String) (h : 400 ≤ status) :
    Refused (.stop (errorResponse status message)) :=
  ⟨⟨_, rfl, h⟩, by simp [Traced.stop]⟩

/-- **Specification of `authorizeStorage` with a registry**: a request is refused,
or it passes and everything has been checked. -/
theorem authorizeStorage_cases
    (r : Request) (hreg : 0 < mapLen cfg.storageTargets)
    (target action : String) (write : Bool) :
    Refused (authorizeStorage cfg r target action write) ∨
      (authorizeStorage cfg r target action write).result = .ok () ∧
        Authorized cfg r target action write
          (authorizeStorage cfg r target action write).calls := by
  have hne : mapLen cfg.storageTargets ≠ 0 := by omega
  unfold authorizeStorage
  simp only [hne, if_false]
  cases ht : cfg.storageTargets.resolve (trimSpace target) with
  | none =>
      exact Or.inl (refused_stop 400 _ (by decide))
  | some t =>
      by_cases hw : (write && t.readOnly) = true
      · simp only [hw, if_true]
        exact Or.inl (refused_stop 403 _ (by decide))
      · simp only [hw, Bool.false_eq_true, if_false]
        cases hp : cfg.storageAccessPolicy with
        | none =>
            exact Or.inl (refused_stop 503 _ (by decide))
        | some policy =>
            simp only
            rcases checkWorkload_cases cfg r (extract r "" "" cfg.storageSubjectHeader) with
              ⟨resp, hwl, hstatus⟩ | ⟨identity, hwl, hactor, hacc⟩
            · left
              rw [Traced.bind_of_error hwl]
              refine ⟨⟨resp, rfl, hstatus⟩, ?_⟩
              intro s op hmem
              obtain ⟨token, answer, hk⟩ := checkWorkload_calls hmem
              cases hk
            · rw [Traced.bind_of_ok hwl]
              rw [extract_actor] at hactor
              rw [hactor, trimSpace_requestSubject]
              by_cases hempty : requestSubject cfg r = ""
              · left
                simp only [hempty, if_true]
                refine ⟨⟨_, rfl, by decide⟩, ?_⟩
                intro s op hmem
                obtain ⟨token, answer, hk⟩ :=
                  checkWorkload_calls (by simpa [Traced.stop] using hmem)
                cases hk
              · simp only [hempty, if_false]
                rcases checkPolicy_cases policy
                    ⟨requestSubject cfg r, action, trimSpace target, identity.policyContext⟩ with
                  ⟨resp, hpol, hstatus⟩ | ⟨decision, hdec, hallow, hpol⟩
                · left
                  rw [hpol]
                  refine ⟨⟨resp, rfl, hstatus⟩, ?_⟩
                  intro s op hmem
                  rcases List.mem_append.mp hmem with hmem | hmem
                  · obtain ⟨token, answer, hk⟩ := checkWorkload_calls hmem
                    cases hk
                  · simp at hmem
                · right
                  rw [hpol]
                  refine ⟨rfl, ⟨t, ht, ?_⟩, hempty, hacc, ?_⟩
                  · intro hwrite
                    simpa [hwrite] using hw
                  · exact
                      ⟨policy, identity.policyContext, decision, _, hp, hdec, hallow,
                        fun k hk => checkWorkload_calls hk, rfl⟩

/-- The calls of an authorized request contain no signer call and exactly one
policy call. -/
theorem Authorized.no_signer
    {target action : String} {write : Bool} {calls : List Call}
    (h : Authorized cfg r target action write calls) (s : StorageSigner) (op : SignerOp) :
    Call.signer s op ∉ calls := by
  obtain ⟨policy, context, decision, workloadCalls, -, -, -, hverify, rfl⟩ := h.decided
  intro hmem
  rcases List.mem_append.mp hmem with hmem | hmem
  · obtain ⟨token, answer, hk⟩ := hverify _ hmem
    cases hk
  · simp at hmem

/-- `authorizeStorage` never calls a signer. -/
theorem authorizeStorage_no_signer
    (target action : String) (write : Bool) (s : StorageSigner) (op : SignerOp) :
    Call.signer s op ∉ (authorizeStorage cfg r target action write).calls := by
  by_cases hreg : mapLen cfg.storageTargets = 0
  · simp [authorizeStorage_of_no_registry hreg, Traced.done]
  · rcases authorizeStorage_cases r (Nat.pos_of_ne_zero hreg) target action write with
      hrefused | ⟨-, hauth⟩
    · exact hrefused.2 s op
    · exact hauth.no_signer s op

end Spec

end Storage
end GatewayRuntime
