import GatewayRuntime.StorageAuthorization

/-!
# Readiness of the storage role

`GET /health/ready` of `internal/roleruntime` inspects the configuration once;
every storage route resolves its target, its provider and the interface it
needs again when a request is served.  `ready_implies_service` says that the two
agree: behind a 200 of the readiness endpoint no enabled route answers that
something is not configured.

`range` over the set of provider names visits them in an unspecified order, so
`validateStorageProvidersReady` takes the visited names as an argument
(`ProviderRange`).
-/

namespace GatewayRuntime
namespace Storage

open GoText

section Selection

/-- The text of a `runtimecfg.Role`. -/
def Role.name : Role → String
  | rebff => "rebff"
  | storage => "storage"
  | streaming => "streaming"
  | webSocket => "websocket"

/-- `Selection.HasRole`. -/
def Selection.hasRole (selection : Selection) (role : Role) : Bool :=
  selection.roles.contains role

/-- `Selection.RoleNames`. -/
def Selection.roleNames (selection : Selection) : List String :=
  selection.roles.map Role.name

/-- `hasCapability`. -/
def hasCapability (selection : Selection) (role : Role) (want : String) : Bool :=
  (selection.capabilities role).contains want

/-- `storageProviderRequired`. -/
def storageProviderRequired (selection : Selection) : Bool :=
  (selection.capabilities .storage).any fun c =>
    ["upload", "download", "presign", "multipart", "metadata"].contains c

end Selection

section Readiness

variable (cfg : Config)

/-- The type assertions that `validateStorageProvidersReady` makes on a
signer. -/
def checkInterfaces (signer : StorageSigner) : Except String Unit :=
  if hasCapability cfg.selection .storage "multipart" && signer.multipart.isNone then
    .error "storage_multipart_not_supported"
  else if hasCapability cfg.selection .storage "metadata" && signer.metadata.isNone then
    .error "storage_metadata_not_supported"
  else .ok ()

/-- The set `providerNames` of `validateStorageProvidersReady`. -/
def providerNames : Finset String :=
  if mapLen cfg.storageTargets = 0 then {"default"}
  else (cfg.storageTargets.entries.map fun entry => entry.2.provider).toFinset

/-- One pass of `range` over the provider names. -/
structure ProviderRange where
  visited : List String
  order : (visited : Multiset String) = (providerNames cfg).val

/-- The body of the loop over the provider names. -/
def checkProvider (name : String) : Except String Unit :=
  match (cfg.storageProviders.resolve name).bind Provider.signer with
  | none => .error "storage_provider_not_configured"
  | some signer => checkInterfaces cfg signer

/-- `validateStorageProvidersReady`. -/
def validateStorageProvidersReady (range : ProviderRange cfg) : Except String Unit :=
  if mapLen cfg.storageProviders = 0 then
    match cfg.storageSigner with
    | none => .error "storage_signer_not_configured"
    | some signer => checkInterfaces cfg signer
  else forM range.visited (checkProvider cfg)

/-- The answers of the readiness endpoint. -/
inductive Readiness where
  | notReady (reason : String)
  | ready (roles : List String)
deriving DecidableEq

def Readiness.status : Readiness → Nat
  | notReady _ => 503
  | ready _ => 200

/-- `GET /health/ready`. -/
def healthReady (range : ProviderRange cfg) : Readiness :=
  if cfg.selection.hasRole .storage && cfg.workloadAuthRequired &&
      cfg.workloadVerifier.isNone then
    .notReady "workload_auth_not_configured"
  else if cfg.selection.hasRole .storage && decide (0 < mapLen cfg.storageTargets) &&
      cfg.storageAccessPolicy.isNone then
    .notReady "storage_access_policy_not_configured"
  else if cfg.selection.hasRole .storage && storageProviderRequired cfg.selection then
    match validateStorageProvidersReady cfg range with
    | .error reason => .notReady reason
    | .ok () => .ready cfg.selection.roleNames
  else .ready cfg.selection.roleNames

end Readiness

section Providers

variable {cfg : Config}

/-- The interface that a method needs beyond `StorageSigner`, by the name of the
capability that asks for it. -/
def SignerOp.interface : SignerOp → Option String
  | .getMetadata _ => some "metadata"
  | .initiateMultipart _ => some "multipart"
  | .presignMultipartPart _ => some "multipart"
  | .completeMultipart _ => some "multipart"
  | .abortMultipart _ => some "multipart"
  | _ => none

/-- The signer implements what the enabled capabilities need. -/
structure Implements (cfg : Config) (signer : StorageSigner) : Prop where
  multipart :
    hasCapability cfg.selection .storage "multipart" = true → signer.multipart.isSome = true
  metadata :
    hasCapability cfg.selection .storage "metadata" = true → signer.metadata.isSome = true

theorem checkInterfaces_ok
    {signer : StorageSigner}
    (h : checkInterfaces cfg signer = .ok ()) :
    Implements cfg signer := by
  unfold checkInterfaces at h
  split_ifs at h with hmultipart hmetadata
  refine ⟨?_, ?_⟩
  · intro hcap
    simpa [hcap, Option.isSome_iff_ne_none] using hmultipart
  · intro hcap
    simpa [hcap, Option.isSome_iff_ne_none] using hmetadata

/-- A method of a needed interface can be called. -/
theorem Implements.invoke
    {signer : StorageSigner} {op : SignerOp}
    (h : Implements cfg signer)
    (hop : ∀ c, op.interface = some c → hasCapability cfg.selection .storage c = true) :
    (signer.invoke op).isSome = true := by
  cases op with
  | presignPut req =>
      rfl
  | presignGet req =>
      rfl
  | getMetadata req =>
      exact Option.isSome_map.trans (h.metadata (hop _ rfl))
  | initiateMultipart req =>
      exact Option.isSome_map.trans (h.multipart (hop _ rfl))
  | presignMultipartPart req =>
      exact Option.isSome_map.trans (h.multipart (hop _ rfl))
  | completeMultipart req =>
      exact Option.isSome_map.trans (h.multipart (hop _ rfl))
  | abortMultipart req =>
      exact Option.isSome_map.trans (h.multipart (hop _ rfl))

theorem checkProvider_ok
    {name : String}
    (h : checkProvider cfg name = .ok ()) :
    ∃ signer,
      (cfg.storageProviders.resolve name).bind Provider.signer = some signer ∧
        Implements cfg signer := by
  unfold checkProvider at h
  cases hsigner : (cfg.storageProviders.resolve name).bind Provider.signer with
  | none =>
      rw [hsigner] at h
      cases h
  | some signer =>
      rw [hsigner] at h
      exact ⟨signer, rfl, checkInterfaces_ok h⟩

theorem provider_mem_providerNames
    {name : String} {target : Target}
    (hreg : mapLen cfg.storageTargets ≠ 0)
    (h : cfg.storageTargets.lookup name = some target) :
    target.provider ∈ providerNames cfg := by
  have hentry : (⟨name, target⟩ : Sigma fun _ : String => Target) ∈ cfg.storageTargets.entries :=
    Finmap.lookup_eq_some_iff.mp h
  simp only [providerNames, hreg, if_false, Multiset.mem_toFinset, Multiset.mem_map]
  exact ⟨_, hentry, rfl⟩

theorem mem_visited
    (range : ProviderRange cfg) {name : String}
    (h : name ∈ providerNames cfg) :
    name ∈ range.visited := by
  rw [← Multiset.mem_coe, range.order]
  exact h

/-- A target name that a request can use: any, without a registry, and those of
the registry with one. -/
def Resolvable (cfg : Config) (name : String) : Prop :=
  mapLen cfg.storageTargets = 0 ∨ ∃ target, cfg.storageTargets.resolve (trimSpace name) = some target

/-- **What the readiness check establishes about the providers.** -/
theorem signer_of_ready
    {range : ProviderRange cfg}
    (h : validateStorageProvidersReady cfg range = .ok ())
    {name : String} (hname : Resolvable cfg name) :
    ∃ signer, storageSignerForTarget cfg name = some signer ∧ Implements cfg signer := by
  unfold validateStorageProvidersReady at h
  by_cases hproviders : mapLen cfg.storageProviders = 0
  · simp only [hproviders, if_true] at h
    cases hsigner : cfg.storageSigner with
    | none =>
        rw [hsigner] at h
        cases h
    | some signer =>
        rw [hsigner] at h
        exact ⟨signer, by simp [storageSignerForTarget, hproviders, hsigner],
          checkInterfaces_ok h⟩
  · simp only [hproviders, if_false] at h
    by_cases hreg : mapLen cfg.storageTargets = 0
    · have hmem : "default" ∈ providerNames cfg := by
        simp [providerNames, hreg]
      obtain ⟨signer, hsigner, himpl⟩ :=
        checkProvider_ok (forM_eq_ok_iff.mp h _ (mem_visited range hmem))
      exact ⟨signer, by simp [storageSignerForTarget, hproviders, hreg, hsigner], himpl⟩
    · obtain ⟨target, htarget⟩ := hname.resolve_left hreg
      have hmem : target.provider ∈ providerNames cfg :=
        provider_mem_providerNames hreg htarget
      obtain ⟨signer, hsigner, himpl⟩ :=
        checkProvider_ok (forM_eq_ok_iff.mp h _ (mem_visited range hmem))
      exact ⟨signer, by simp [storageSignerForTarget, hproviders, hreg, htarget, hsigner], himpl⟩

end Providers

section Routes

variable {env : Env} {cfg : Config} {r : Request}

theorem capability_of_registered
    {route : Route} {c : String}
    (h : route ∈ registerStorageCapability c) :
    route.capability = c ∧
      ["upload", "download", "presign", "multipart", "metadata"].contains c = true := by
  unfold registerStorageCapability at h
  split at h
  all_goals
    simp only [List.mem_cons, List.not_mem_nil, or_false] at h
  · rcases h with rfl | rfl <;> decide
  · rcases h with rfl | rfl <;> decide
  · subst h
    decide
  · rcases h with rfl | rfl | rfl | rfl <;> decide
  · rcases h with rfl | rfl | rfl <;> decide

/-- An enabled route belongs to an enabled capability that needs a provider. -/
theorem enabled_of_storageRoutes
    {route : Route}
    (h : route ∈ storageRoutes cfg) :
    hasCapability cfg.selection .storage route.capability = true ∧
      storageProviderRequired cfg.selection = true := by
  obtain ⟨role, -, hrole⟩ := List.mem_flatMap.mp h
  split_ifs at hrole with hstorage
  · obtain ⟨c, hc, hroute⟩ := List.mem_flatMap.mp hrole
    obtain ⟨hcap, hknown⟩ := capability_of_registered hroute
    refine ⟨?_, ?_⟩
    · rw [hcap]
      exact List.contains_iff_mem.mpr hc
    · exact List.any_eq_true.mpr ⟨c, hc, hknown⟩
  · simp at hrole

/-- What a route asks for beyond `StorageSigner` belongs to its capability, and
its own answers never have status 503. -/
structure Plan.Regular (route : Route) (p : Plan) : Prop where
  interface : ∀ c, p.op.interface = some c → route.capability = c
  reply : ∀ result, (p.reply result).status ≠ 503

theorem verificationReply_status
    (env : Env) (intent : UploadVerificationIntent) (m : StorageMetadata) :
    (verificationReply env intent m).status ≠ 503 := by
  unfold verificationReply
  cases verifyUpload env.ranges intent m with
  | error e =>
      simp [errorResponse]
  | ok result =>
      simp [okNoStore]

theorem referenceReply_status (target : String) (m : StorageMetadata) :
    (referenceReply target m).status ≠ 503 := by
  simp only [referenceReply]
  cases (referenceFromMetadata target m).validate with
  | error e =>
      simp [storageProviderError, errorResponse]
  | ok _ =>
      simp [okNoStore]

/-- The plans of the routes that answer with what they got. -/
theorem Plan.Regular.of_okNoStore
    {route : Route} {p : Plan} {payload : p.op.Result → Payload}
    (hop : ∀ c, p.op.interface = some c → route.capability = c)
    (hreply : p.reply = fun result => okNoStore (payload result)) :
    p.Regular route := by
  refine ⟨hop, ?_⟩
  intro result
  rw [hreply]
  simp [okNoStore]

theorem plan_regular
    {route : Route} {p : Plan}
    (h : route.plan env cfg r = .ok p) :
    p.Regular route := by
  cases planned_of_plan h with
  | upload | intentsUpload | download | intentsDownload | presignPut | presignGet =>
      exact .of_okNoStore (by simp [SignerOp.interface]) rfl
  | metadata | multipartInitiate | multipartPart =>
      exact .of_okNoStore (by simp [SignerOp.interface, Route.capability]) rfl
  | @intentsVerify input =>
      refine ⟨by simp [SignerOp.interface, Route.capability], ?_⟩
      exact verificationReply_status env (verificationIntent input)
  | @referencesMetadata _ target =>
      refine ⟨by simp [SignerOp.interface, Route.capability], ?_⟩
      exact referenceReply_status target
  | multipartComplete =>
      refine ⟨by simp [SignerOp.interface, Route.capability], fun _ => ?_⟩
      show 200 ≠ 503
      decide
  | multipartAbort =>
      refine ⟨by simp [SignerOp.interface, Route.capability], fun _ => ?_⟩
      show 204 ≠ 503
      decide

/-- The target of a validated request can be resolved. -/
theorem resolvable_of_plan
    {route : Route} {p : Plan}
    (h : route.plan env cfg r = .ok p) :
    Resolvable cfg p.target := by
  by_cases hreg : mapLen cfg.storageTargets = 0
  · exact Or.inl hreg
  · obtain ⟨raw, -, hfaithful⟩ := plan_spec h
    obtain ⟨input, hinput, hbucket⟩ := hfaithful.bucket
    obtain ⟨target, htarget, -⟩ :=
      requestBucket_of_registry (Nat.pos_of_ne_zero hreg) hbucket
    refine Or.inr ⟨target, ?_⟩
    rw [hfaithful.target, ← hinput]
    exact htarget

end Routes

section Service

variable {env : Env} {cfg : Config} {r : Request}

/-- The policy was asked and failed, and the answer says so. -/
def PolicyFailed (cfg : Config) (x : List Call) (resp : Response) : Prop :=
  resp = errorResponse 503 "access_policy_unavailable" ∧
    ∃ policy req e,
      cfg.storageAccessPolicy = some policy ∧ policy req = .error e ∧
        Call.authorize req (.error e) ∈ x

theorem checkWorkload_not_503
    {identity : Identity} {resp : Response}
    (hverifier : cfg.workloadAuthRequired = true → cfg.workloadVerifier ≠ none)
    (h : (checkWorkload cfg r identity).result = .error resp) :
    resp.status ≠ 503 := by
  unfold checkWorkload at h
  cases hv : cfg.workloadVerifier with
  | none =>
      cases hreq : cfg.workloadAuthRequired with
      | true =>
          exact absurd hv (hverifier hreq)
      | false =>
          simp [hv, hreq, Traced.done] at h
  | some verify =>
      rw [hv] at h
      cases hb : bearerToken r with
      | error e =>
          rw [hb] at h
          cases h
          show 401 ≠ 503
          decide
      | ok token =>
          cases ha : verify token with
          | error e =>
              simp only [hb, ha, Traced.call_bind, Traced.stop, Except.error.injEq] at h
              subst h
              show 401 ≠ 503
              decide
          | ok principal =>
              simp [hb, ha, Traced.done] at h

/-- The policy check answers 503 only when the policy fails. -/
theorem checkPolicy_503
    {policy : Evaluator} {req : AccessRequest} {resp : Response}
    (h : (checkPolicy policy req).result = .error resp)
    (hstatus : resp.status = 503) :
    resp = errorResponse 503 "access_policy_unavailable" ∧
      ∃ e, policy req = .error e ∧ Call.authorize req (.error e) ∈ (checkPolicy policy req).calls := by
  unfold checkPolicy at h ⊢
  cases ha : policy req with
  | error e =>
      simp only [ha, Traced.call_bind, Traced.stop, Except.error.injEq] at h
      exact ⟨h.symm, e, rfl, by simp⟩
  | ok decision =>
      cases hallow : decision.allow with
      | true =>
          simp [ha, hallow, Traced.done] at h
      | false =>
          simp only [ha, hallow, Traced.call_bind, Traced.stop, if_true, Except.error.injEq] at h
          subst h
          cases hstatus

/-- With verifier and policy configured, `authorizeStorage` answers 503 only
when the policy fails. -/
theorem authorizeStorage_503
    {target action : String} {write : Bool} {resp : Response}
    (hverifier : cfg.workloadAuthRequired = true → cfg.workloadVerifier ≠ none)
    (hpolicy : 0 < mapLen cfg.storageTargets → cfg.storageAccessPolicy ≠ none)
    (h : (authorizeStorage cfg r target action write).result = .error resp)
    (hstatus : resp.status = 503) :
    PolicyFailed cfg (authorizeStorage cfg r target action write).calls resp := by
  unfold authorizeStorage at h ⊢
  by_cases hreg : mapLen cfg.storageTargets = 0
  · simp [hreg, Traced.done] at h
  · simp only [hreg, if_false] at h ⊢
    cases ht : cfg.storageTargets.resolve (trimSpace target) with
    | none =>
        rw [ht] at h
        cases h
        cases hstatus
    | some t =>
        rw [ht] at h
        simp only at h ⊢
        by_cases hw : (write && t.readOnly) = true
        · simp only [hw, if_true, Traced.stop, Except.error.injEq] at h
          subst h
          cases hstatus
        · simp only [hw, Bool.false_eq_true, if_false] at h ⊢
          cases hp : cfg.storageAccessPolicy with
          | none =>
              exact absurd hp (hpolicy (Nat.pos_of_ne_zero hreg))
          | some policy =>
              simp only [hp] at h ⊢
              cases hwl : (checkWorkload cfg r (extract r "" "" cfg.storageSubjectHeader)).result with
              | error resp' =>
                  rw [Traced.bind_of_error hwl] at h
                  cases h
                  exact absurd hstatus (checkWorkload_not_503 hverifier hwl)
              | ok identity =>
                  rw [Traced.bind_of_ok hwl] at h ⊢
                  simp only at h ⊢
                  split_ifs at h ⊢ with hactor
                  · cases h
                    cases hstatus
                  · obtain ⟨hresp, e, hanswer, hmem⟩ := checkPolicy_503 h hstatus
                    exact ⟨hresp, policy, _, e, hp, hanswer, List.mem_append_right _ hmem⟩

/-- What a 200 of the readiness endpoint says about the configuration. -/
structure Ready (cfg : Config) : Prop where
  verifier : cfg.workloadAuthRequired = true → cfg.workloadVerifier ≠ none
  policy : 0 < mapLen cfg.storageTargets → cfg.storageAccessPolicy ≠ none
  signer :
    storageProviderRequired cfg.selection = true →
      ∀ name, Resolvable cfg name →
        ∃ signer, storageSignerForTarget cfg name = some signer ∧ Implements cfg signer

theorem ready_of_status
    {range : ProviderRange cfg}
    (hrole : cfg.selection.hasRole .storage = true)
    (h : (healthReady cfg range).status = 200) :
    Ready cfg := by
  unfold healthReady at h
  simp only [hrole, Bool.true_and] at h
  split_ifs at h with hworkload haccess hrequired
  · cases h
  · cases h
  · refine ⟨?_, ?_, ?_⟩
    · intro hreq
      simpa [hreq] using hworkload
    · intro hreg
      simpa [hreg] using haccess
    · intro _ name hname
      cases hvalid : validateStorageProvidersReady cfg range with
      | error reason =>
          rw [hvalid] at h
          cases h
      | ok _ =>
          exact signer_of_ready hvalid hname
  · refine ⟨?_, ?_, ?_⟩
    · intro hreq
      simpa [hreq] using hworkload
    · intro hreg
      simpa [hreg] using haccess
    · intro hreq
      exact absurd hreq hrequired

/-- The signer stage of an enabled route of a ready configuration never answers
503. -/
theorem callSigner_not_503
    {route : Route} {p : Plan} {signer : StorageSigner} (capability : String)
    (hp : p.Regular route)
    (hsigner : storageSignerForTarget cfg p.target = some signer)
    (hinvoke : (signer.invoke p.op).isSome = true) :
    (answer (callSigner cfg capability p)).status ≠ 503 := by
  obtain ⟨result, hresult⟩ := Option.isSome_iff_exists.mp hinvoke
  simp only [callSigner, hsigner, hresult, Traced.call_bind]
  cases result with
  | error e =>
      show 502 ≠ 503
      decide
  | ok value =>
      exact hp.reply value

/-- A ready configuration answers 503 on an enabled route only when the policy
itself fails. -/
theorem policyFailed_of_503
    {route : Route}
    (hready : Ready cfg)
    (hroute : route ∈ storageRoutes cfg)
    (hstatus : (answer (handle env cfg route r)).status = 503) :
    PolicyFailed cfg (handle env cfg route r).calls (answer (handle env cfg route r)) := by
  obtain ⟨hcap, hrequired⟩ := enabled_of_storageRoutes hroute
  cases hplan : route.plan env cfg r with
  | error e =>
      rw [handle_of_plan_error hplan] at hstatus
      cases hstatus
  | ok p =>
      have hregular := plan_regular hplan
      rw [handle_of_plan_ok hplan] at hstatus ⊢
      cases hauth : (authorizeStorage cfg r p.target p.action p.write).result with
      | error resp =>
          rw [Traced.bind_of_error hauth] at hstatus ⊢
          exact authorizeStorage_503 hready.verifier hready.policy hauth hstatus
      | ok value =>
          rw [Traced.bind_of_ok hauth] at hstatus
          obtain ⟨signer, hsigner, himpl⟩ :=
            hready.signer hrequired _ (resolvable_of_plan hplan)
          have hinvoke : (signer.invoke p.op).isSome = true := by
            refine himpl.invoke ?_
            intro c hc
            rw [← hregular.interface c hc]
            exact hcap
          exact absurd hstatus (callSigner_not_503 route.capability hregular hsigner hinvoke)

/-- A request is served: it is not answered that a provider, the workload
verifier or the policy is missing. -/
structure Served (env : Env) (cfg : Config) (route : Route) (r : Request) : Prop where
  provider :
    ∀ role capability, answer (handle env cfg route r) ≠ providerUnavailable role capability
  workload : answer (handle env cfg route r) ≠ errorResponse 503 "workload_auth_unavailable"
  policy :
    answer (handle env cfg route r) = errorResponse 503 "access_policy_unavailable" →
      PolicyFailed cfg (handle env cfg route r).calls (answer (handle env cfg route r))

theorem served_of_ready
    {route : Route}
    (hready : Ready cfg)
    (hroute : route ∈ storageRoutes cfg) :
    Served env cfg route r := by
  have hfailed :
      (answer (handle env cfg route r)).status = 503 →
        PolicyFailed cfg (handle env cfg route r).calls (answer (handle env cfg route r)) :=
    policyFailed_of_503 hready hroute
  refine ⟨?_, ?_, ?_⟩
  · intro role capability heq
    have hresp := (hfailed (by rw [heq]; rfl)).1
    rw [heq] at hresp
    cases hresp
  · intro heq
    have hresp := (hfailed (by rw [heq]; rfl)).1
    rw [heq] at hresp
    simp [errorResponse] at hresp
  · intro heq
    exact hfailed (by rw [heq]; rfl)

end Service

/-- **Readiness implies service.**  Behind a 200 of `GET /health/ready` every
request on an enabled storage route is served, and every target name that a
request can use has a signer with the interface the route needs. -/
theorem ready_implies_service
    (cfg : Config) (range : ProviderRange cfg)
    (hrole : cfg.selection.hasRole .storage = true)
    (hready : (healthReady cfg range).status = 200)
    (env : Env) (route : Route) (hroute : route ∈ storageRoutes cfg) :
    (∀ r, Served env cfg route r) ∧
      ∀ name, Resolvable cfg name →
        ∃ signer,
          storageSignerForTarget cfg name = some signer ∧
            (route.capability = "multipart" → signer.multipart.isSome = true) ∧
            (route.capability = "metadata" → signer.metadata.isSome = true) := by
  have hcfg := ready_of_status hrole hready
  obtain ⟨hcap, hrequired⟩ := enabled_of_storageRoutes hroute
  refine ⟨fun r => served_of_ready hcfg hroute, ?_⟩
  intro name hname
  obtain ⟨signer, hsigner, himpl⟩ := hcfg.signer hrequired name hname
  refine ⟨signer, hsigner, ?_, ?_⟩
  · intro heq
    exact himpl.multipart (heq ▸ hcap)
  · intro heq
    exact himpl.metadata (heq ▸ hcap)

/-- The provider names of `workloadConfig photos`. -/
def photosRange : ProviderRange (workloadConfig photos) where
  visited := ["s3"]
  order := by decide

/-- A configuration with one target, a verifier and a policy is ready and serves
uploads. -/
theorem ready_upload_served :
    (healthReady (workloadConfig photos) photosRange).status = 200 ∧
      Served (fixedEnv uploadInput) (workloadConfig photos) .upload bareRequest :=
  ⟨by decide,
    (ready_implies_service (workloadConfig photos) photosRange (by decide) (by decide)
      (fixedEnv uploadInput) .upload (by decide)).1 bareRequest⟩

end Storage
end GatewayRuntime
