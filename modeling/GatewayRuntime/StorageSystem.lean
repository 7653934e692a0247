import GatewayRuntime.AccessPolicy
import GatewayRuntime.RemoteSigner

/-!
# The storage role between its services

The role serves a request of a client: it asks the policy service, and when that allows it
posts to the signer, which calls S3.  The three are put together here, up to the calls on S3.

* Whatever the network loses, every call on S3 is one that the rules of the policy service
  grant to the subject of the request, in the bucket of the target that was asked for
  (`s3_call_granted`).
* Over a network that loses nothing, exactly the granted requests lead to a call
  (`s3_calls_eq`).
-/

namespace GatewayRuntime
namespace StorageSystem

open GoText Storage RemoteSigner AccessPolicy

section Model

/-- `accesspolicy.Remote` as the policy of the role, with what happens to each question. -/
def evaluator (remote : Remote) (net : AccessRequest → Outbound.Env) : Evaluator :=
  fun req => (remote.authorize (net req) req).result.mapError
    (GoError.message ErrorValue.message)

/-- The bucket of a call on S3. -/
def bucketOf : S3Call → String
  | .presignedPut bucket _ _ _ => bucket
  | .presignedGet bucket _ _ => bucket
  | .createMultipartUpload bucket _ _ => bucket
  | .presignedUploadPart bucket _ _ _ _ => bucket
  | .completeMultipartUpload bucket _ _ _ => bucket
  | .abortMultipartUpload bucket _ _ => bucket
  | .headObject bucket _ => bucket

/-- The object of a call on S3. -/
def keyOf : S3Call → String
  | .presignedPut _ key _ _ => key
  | .presignedGet _ key _ => key
  | .createMultipartUpload _ key _ => key
  | .presignedUploadPart _ key _ _ _ => key
  | .completeMultipartUpload _ key _ _ => key
  | .abortMultipartUpload _ key _ => key
  | .headObject _ key => key

/-- The action that a call on S3 belongs to. -/
def s3Action : S3Call → String
  | .presignedPut .. => "storage.upload"
  | .presignedGet .. => "storage.download"
  | .headObject .. => "storage.metadata"
  | _ => "storage.multipart"

/-- The calls on S3 that read. -/
def reads : S3Call → Bool
  | .presignedGet .. => true
  | .headObject .. => true
  | _ => false

/-- The call on S3 that a call of a signer leads to, through the client of the signer. -/
def s3Call (client : StorageSigner → Outbound.Client) : Call → Option S3Call
  | .signer s op =>
      (doPost (Outbound.requestPath (client s) (remoteRequest op).1) (remoteRequest op).2).map
        Served.call
  | _ => none

/-- The calls on S3 that a list of calls leads to. -/
def s3Calls (client : StorageSigner → Outbound.Client) (calls : List Call) : List S3Call :=
  calls.filterMap (s3Call client)

end Model

section Signer

/-- The routes of the signer. -/
def signerRoutes : List String :=
  ["/api/storage/presign/put", "/api/storage/presign/get", "/api/storage/multipart/initiate",
    "/api/storage/multipart/part", "/api/storage/multipart/complete",
    "/api/storage/multipart/abort", "/api/storage/metadata"]

theorem remoteRequest_mem (op : SignerOp) : (remoteRequest op).1 ∈ signerRoutes := by
  cases op <;> simp [remoteRequest, signerRoutes]

theorem mem_of_doPost
    {path : String} {body : SignerBody} {served : Served}
    (h : doPost path body = some served) :
    path ∈ signerRoutes := by
  by_contra hmem
  simp only [signerRoutes, List.mem_cons, List.not_mem_nil, or_false, not_or] at hmem
  obtain ⟨h1, h2, h3, h4, h5, h6, h7⟩ := hmem
  simp [doPost, h1, h2, h3, h4, h5, h6, h7] at h

/-- No route ends in another one. -/
theorem signerRoutes_suffix :
    ∀ route ∈ signerRoutes, ∀ path ∈ signerRoutes, hasSuffix path route = true → path = route := by
  decide +kernel

theorem signerRoutes_trimLeft :
    ∀ route ∈ signerRoutes, "/" ++ trimLeft route '/' = route := by
  decide +kernel

/-- The signer serves a request of the role on its own route only. -/
theorem requestPath_of_doPost
    {client : Outbound.Client} {op : SignerOp} {served : Served}
    (h : doPost (Outbound.requestPath client (remoteRequest op).1) (remoteRequest op).2 =
      some served) :
    Outbound.requestPath client (remoteRequest op).1 = (remoteRequest op).1 := by
  have hroute := remoteRequest_mem op
  refine signerRoutes_suffix _ hroute _ (mem_of_doPost h) ?_
  rw [Outbound.requestPath, String.append_assoc, signerRoutes_trimLeft _ hroute]
  simp [hasSuffix]

/-- What the signer calls for a request of the role. -/
theorem s3Call_spec
    {client : Outbound.Client} {op : SignerOp} {served : Served}
    (h : doPost (Outbound.requestPath client (remoteRequest op).1) (remoteRequest op).2 =
      some served) :
    bucketOf served.call = op.bucket ∧ keyOf served.call = op.objectKey ∧
      s3Action served.call = actionOf op ∧ reads served.call = !isWrite op := by
  rw [requestPath_of_doPost h] at h
  cases op <;> cases h <;> exact ⟨rfl, rfl, rfl, rfl⟩

end Signer

section Granted

variable {svc : Service} {remote : Remote} {net : AccessRequest → Outbound.Env}
variable {env : Env} {cfg : Config} {route : Route} {r : Request} {p : Plan}

theorem evaluator_ok
    {req : AccessRequest} {d : Decision} (h : evaluator remote net req = .ok d) :
    (remote.authorize (net req) req).result = .ok d := by
  unfold evaluator at h
  cases hresult : (remote.authorize (net req) req).result with
  | error e =>
      rw [hresult] at h
      cases h
  | ok d' =>
      rw [hresult] at h
      rw [Except.ok.inj h]

/-- The name of an action is a word. -/
theorem actionOf_spec (op : SignerOp) :
    trimSpace (actionOf op) = actionOf op ∧ strip (actionOf op) = actionOf op := by
  have hall : ∀ action ∈ ["storage.upload", "storage.download", "storage.metadata",
      "storage.multipart"], trimSpace action = action ∧ strip action = action := by
    decide
  refine hall _ ?_
  cases op <;> simp [actionOf]

/-- The question that the role asks about a valid request. -/
def question (cfg : Config) (r : Request) (p : Plan) (context : StringMap) : AccessRequest :=
  ⟨requestSubject cfg r, actionOf p.op, trimSpace p.target, context⟩

/-- It is asked as it is. -/
theorem trimmed_question (context : StringMap) :
    trimmed (question cfg r p context) = question cfg r p context := by
  simp [trimmed, question, (actionOf_spec p.op).1, trimSpace_requestSubject]

/-- A valid request that everyone lets pass: its target is there and may be used so, a workload
token is accepted where one is asked for, and the policy service allows it. -/
structure Admitted (svc : Service) (cfg : Config) (r : Request) (p : Plan) : Prop where
  target : ∃ t, cfg.storageTargets.lookup (trimSpace p.target) = some t ∧
    (isWrite p.op = true → t.readOnly = false)
  workload : WorkloadAuthOn cfg → TokenAccepted cfg r
  allowed : svc.Allows (question cfg r p ∅)

/-- The context of a question does not matter to the service. -/
theorem allows_question_iff (context context' : StringMap) :
    svc.Allows (question cfg r p context) ↔ svc.Allows (question cfg r p context') :=
  ⟨fun h => ⟨h.subject, h.action, h.target, h.granted⟩,
    fun h => ⟨h.subject, h.action, h.target, h.granted⟩⟩

/-- What passes `authorizeStorage` is admitted. -/
theorem admitted_of_authorizeStorage
    {path : AccessRequest → String}
    (hlimit : ∀ client, remote.http = some client → client.maxBodyBytes ≠ Int64.maxValue)
    (hnet : ∀ context, Delivers svc (path (question cfg r p context))
      (requestBody (question cfg r p context)) (net (question cfg r p context)))
    (hpolicy : cfg.storageAccessPolicy = some (evaluator remote net))
    (hreg : 0 < mapLen cfg.storageTargets)
    (h : (authorizeStorage cfg r p.target (actionOf p.op) (isWrite p.op)).result = .ok ()) :
    Admitted svc cfg r p := by
  rcases authorizeStorage_cases r hreg p.target (actionOf p.op) (isWrite p.op) with
    ⟨⟨resp, hresp, -⟩, -⟩ | ⟨-, hauth⟩
  · rw [hresp] at h
    cases h
  · obtain ⟨t, ht, hwritable⟩ := hauth.resolved
    obtain ⟨policy, context, decision, _, hsame, hdecision, hallow, -⟩ := hauth.decided
    obtain rfl : evaluator remote net = policy := Option.some.inj (hpolicy.symm.trans hsame)
    have hallows := allows_of_authorize hlimit (hnet context) (evaluator_ok hdecision) hallow
    rw [trimmed_question] at hallows
    rw [resolve_eq_lookup] at ht
    exact ⟨⟨t, ht, hwritable⟩, hauth.workload, (allows_question_iff _ _).mp hallows⟩

/-- Before a signer is called, its request has passed `authorizeStorage`. -/
theorem planned_of_signer_call
    {before after : List Call} {s : StorageSigner} {op : SignerOp}
    (hreg : 0 < mapLen cfg.storageTargets)
    (hcalls : (handle env cfg route r).calls = before ++ .signer s op :: after) :
    ∃ p raw t, route.plan env cfg r = .ok p ∧ op = p.op ∧ p.Faithful cfg raw ∧
      (authorizeStorage cfg r p.target (actionOf p.op) (isWrite p.op)).result = .ok () ∧
      CallAuthorized env cfg route r before s op raw t := by
  unfold handle at hcalls
  cases hplan : route.plan env cfg r with
  | error e =>
      rw [hplan] at hcalls
      simp [serve, Traced.stop] at hcalls
  | ok p =>
      rw [hplan] at hcalls
      obtain ⟨hok, rfl, hsigner, rfl⟩ := serve_signer_call hcalls
      obtain ⟨raw, hraw, hfaithful⟩ := plan_spec hplan
      rcases authorizeStorage_cases r hreg p.target p.action p.write with
        ⟨⟨resp, hresp, -⟩, -⟩ | ⟨-, hauth⟩
      · rw [hresp] at hok
        cases hok
      · obtain ⟨t, ht⟩ := hfaithful.callAuthorized hreg hraw hauth hsigner
        rw [hfaithful.action, hfaithful.write] at hok
        exact ⟨p, raw, t, rfl, rfl, hfaithful, hok, ht⟩

end Granted

section Exact

variable {svc : Service} {remote : Remote} {net : AccessRequest → Outbound.Env}
variable {env : Env} {cfg : Config} {route : Route} {r : Request} {p : Plan}

/-- The workload check lets a request pass that carries what is asked for. -/
theorem checkWorkload_passes
    (h : WorkloadAuthOn cfg → TokenAccepted cfg r) (identity : Identity) :
    ∃ identity', (checkWorkload cfg r identity).result = .ok identity' ∧
      identity'.actor = identity.actor := by
  rcases checkWorkload_cases cfg r identity with ⟨resp, hresp, -⟩ | ⟨identity', hok, hactor, -⟩
  · exfalso
    unfold checkWorkload at hresp
    cases hverifier : cfg.workloadVerifier with
    | none =>
        have hoff : cfg.workloadAuthRequired ≠ true := by
          intro hrequired
          obtain ⟨verify, _, _, hsome, -⟩ := h (Or.inl hrequired)
          rw [hverifier] at hsome
          cases hsome
        rw [hverifier] at hresp
        simp [hoff, Traced.done] at hresp
    | some verify =>
        obtain ⟨verify', token, principal, hsome, htoken, haccepted⟩ :=
          h (Or.inr (by rw [hverifier]; simp))
        obtain rfl : verify = verify' := Option.some.inj (hverifier.symm.trans hsome)
        simp [hverifier, htoken, haccepted, Traced.done] at hresp
  · exact ⟨identity', hok, hactor⟩

/-- An admitted request passes `authorizeStorage`, when the network loses nothing. -/
theorem authorizeStorage_of_admitted
    {policyClient : Outbound.Client}
    (hhttp : remote.http = some policyClient) (hlimit : policyClient.maxBodyBytes ≠ Int64.maxValue)
    (hnet : ∀ context, Reliable svc policyClient (question cfg r p context)
      (net (question cfg r p context)))
    (hpolicy : cfg.storageAccessPolicy = some (evaluator remote net))
    (hreg : 0 < mapLen cfg.storageTargets) (h : Admitted svc cfg r p) :
    (authorizeStorage cfg r p.target (actionOf p.op) (isWrite p.op)).result = .ok () := by
  obtain ⟨t, ht, hwritable⟩ := h.target
  obtain ⟨identity, hidentity, hactor⟩ :=
    checkWorkload_passes h.workload (extract r "" "" cfg.storageSubjectHeader)
  rw [extract_actor] at hactor
  have hsubject : ¬requestSubject cfg r = "" := by
    intro hempty
    have hstrip := h.allowed.subject
    rw [question, hempty] at hstrip
    exact hstrip rfl
  have hallows : svc.Allows (trimmed (question cfg r p identity.policyContext)) := by
    rw [trimmed_question]
    exact (allows_question_iff _ _).mp h.allowed
  obtain ⟨d, hd, hallow⟩ := authorize_of_allows hhttp hlimit (hnet _) hallows
  have hdecided : evaluator remote net ⟨requestSubject cfg r, actionOf p.op, trimSpace p.target,
      identity.policyContext⟩ = .ok d := by
    rw [evaluator, ← question, hd]
    rfl
  have hwrite : ¬(isWrite p.op && t.readOnly) = true := by
    rw [Bool.and_eq_true]
    rintro ⟨hw, hreadOnly⟩
    rw [hwritable hw] at hreadOnly
    cases hreadOnly
  rw [authorizeStorage, if_neg (by omega)]
  dsimp only
  rw [resolve_eq_lookup, ht]
  dsimp only
  rw [if_neg hwrite, hpolicy]
  dsimp only
  rw [Traced.bind_of_ok hidentity, hactor, trimSpace_requestSubject, if_neg hsubject]
  simp [checkPolicy, hdecided, hallow, Traced.done]

theorem callSigner_calls_eq
    {s : StorageSigner} (capability : String)
    (hsigner : storageSignerForTarget cfg p.target = some s)
    (hinvoke : (s.invoke p.op).isSome = true) :
    (callSigner cfg capability p).calls = [.signer s p.op] := by
  obtain ⟨result, hresult⟩ := Option.isSome_iff_exists.mp hinvoke
  simp only [callSigner, hsigner, hresult, Traced.call_bind]
  cases result <;> rfl

/-- The signer serves every request of the role that reaches it. -/
theorem doPost_remoteRequest (op : SignerOp) :
    ∃ served, doPost (remoteRequest op).1 (remoteRequest op).2 = some served := by
  cases op <;> exact ⟨_, rfl⟩

/-- The calls of `authorizeStorage` lead to none on S3. -/
theorem s3Calls_authorizeStorage
    (client : StorageSigner → Outbound.Client) (target action : String) (write : Bool) :
    s3Calls client (authorizeStorage cfg r target action write).calls = [] := by
  rw [s3Calls, List.filterMap_eq_nil_iff]
  intro k hk
  cases k with
  | verify token answer => rfl
  | authorize req answer => rfl
  | signer s op => exact absurd hk (authorizeStorage_no_signer target action write s op)

/-- The signer of a target is there, at the root of its address. -/
structure SignerReady (cfg : Config) (client : StorageSigner → Outbound.Client) (p : Plan)
    (s : StorageSigner) : Prop where
  signer : storageSignerForTarget cfg p.target = some s
  invoke : (s.invoke p.op).isSome = true
  base : (client s).baseURL.path = ""

/-- A request that passes `authorizeStorage` leads to one call on S3. -/
theorem s3Calls_of_ok
    {client : StorageSigner → Outbound.Client} {s : StorageSigner}
    (hplan : route.plan env cfg r = .ok p) (hready : SignerReady cfg client p s)
    (hok : (authorizeStorage cfg r p.target (actionOf p.op) (isWrite p.op)).result = .ok ()) :
    ∃ served, doPost (remoteRequest p.op).1 (remoteRequest p.op).2 = some served ∧
      s3Calls client (handle env cfg route r).calls = [served.call] := by
  obtain ⟨raw, -, hfaithful⟩ := plan_spec hplan
  obtain ⟨served, hserved⟩ := doPost_remoteRequest p.op
  have hpath : Outbound.requestPath (client s) (remoteRequest p.op).1 = (remoteRequest p.op).1 := by
    rw [Outbound.requestPath, hready.base, String.append_assoc,
      signerRoutes_trimLeft _ (remoteRequest_mem p.op)]
    rfl
  refine ⟨served, hserved, ?_⟩
  rw [handle_of_plan_ok hplan, hfaithful.action, hfaithful.write, Traced.bind_of_ok hok]
  dsimp only
  rw [callSigner_calls_eq route.capability hready.signer hready.invoke, s3Calls,
    List.filterMap_append, ← s3Calls, s3Calls_authorizeStorage]
  simp [s3Call, hpath, hserved]

end Exact

section Studio

/-- Rules that let one photographer upload. -/
def studioRules : Service where
  subjectRoles := Finmap.singleton "ann" ["photographer"]
  roleRules := Finmap.singleton "photographer" ["storage.upload:photos"]
  textOf _ := ""

def studioPolicy : Remote where
  http := some ⟨⟨"http", "policy:19100", ""⟩, false, 1, 1048576⟩
  jsonError _ := .text "json"

/-- A network that delivers every answer of the service. -/
def delivering (svc : Service) (req : AccessRequest) : Outbound.Env where
  requestID := ""
  traceID := ""
  buildError _ _ := none
  statusText _ := ""
  exchange _ :=
    { token := .ok ""
      answer := .ok ⟨(svc.doPost "/v1/authorize" (requestBody req)).status,
        (svc.doPost "/v1/authorize" (requestBody req)).body, none⟩
      contextError := none
      backoff := none }

def studioConfig : Config :=
  { workloadConfig photos with
    storageAccessPolicy := some (evaluator studioPolicy (delivering studioRules)) }

def studioClient (_ : StorageSigner) : Outbound.Client :=
  ⟨⟨"http", "signer:19002", ""⟩, false, 1, 1048576⟩

/-- The upload as the role plans it. -/
theorem studio_plan :
    ∃ p, Route.upload.plan (fixedEnv Storage.uploadInput) studioConfig signedRequest = .ok p ∧
      p.target = "photos" ∧ p.op = .presignPut ⟨"bucket-a", "a/b", "", 60000000000⟩ :=
  ⟨_, rfl, rfl, rfl⟩

/-- The question about it. -/
theorem studio_question
    {p : Plan} (htarget : p.target = "photos")
    (hop : p.op = .presignPut ⟨"bucket-a", "a/b", "", 60000000000⟩) (context : StringMap) :
    question studioConfig signedRequest p context = ⟨"ann", "storage.upload", "photos", context⟩ := by
  have hsubject : requestSubject studioConfig signedRequest = "ann" := by decide
  have hname : trimSpace "photos" = "photos" := by decide
  rw [question, hsubject, htarget, hop, hname]
  rfl

theorem studio_allows (context : StringMap) :
    studioRules.Allows ⟨"ann", "storage.upload", "photos", context⟩ where
  subject := by
    show strip "ann" ≠ ""
    decide
  action := by
    show strip "storage.upload" ≠ ""
    decide
  target := by
    show strip "photos" ≠ ""
    decide
  granted := by
    have hallowed : (studioRules.isAllowed (strip "ann") (strip "storage.upload")
        (strip "photos")).isSome = true := by
      decide
    exact Service.isAllowed_isSome_iff.mp hallowed

/-- Its answer is delivered and fits. -/
theorem studio_reliable (context : StringMap) :
    Reliable studioRules ⟨⟨"http", "policy:19100", ""⟩, false, 1, 1048576⟩
      ⟨"ann", "storage.upload", "photos", context⟩
      (delivering studioRules ⟨"ann", "storage.upload", "photos", context⟩) where
  built := rfl
  answered := rfl
  fits := by
    have htrimmed : trimmed ⟨"ann", "storage.upload", "photos", context⟩ =
        ⟨"ann", "storage.upload", "photos", context⟩ := by
      have hwords : ∀ word ∈ ["ann", "storage.upload", "photos"], trimSpace word = word := by
        decide
      rw [trimmed, hwords "ann" (by simp), hwords "storage.upload" (by simp),
        hwords "photos" (by simp)]
    obtain ⟨hsubject, haction, htarget⟩ :=
      field_requestMembers studioRules ⟨"ann", "storage.upload", "photos", context⟩
    have hanswer : studioRules.doPost "/v1/authorize"
        (requestBody ⟨"ann", "storage.upload", "photos", context⟩) =
          sendJson 200 [("allow", .bool true),
            ("reason", .string ("allowed_by_role:" ++ "photographer"))] := by
      have hnonblank : ¬(strip "ann" = "" ∨ strip "storage.upload" = "" ∨ strip "photos" = "") := by
        decide
      have hrole : studioRules.isAllowed (strip "ann") (strip "storage.upload") (strip "photos") =
          some "photographer" := by
        decide
      rw [requestBody, htrimmed, doPost_request, Service.decide, hsubject, haction, htarget]
      dsimp only
      rw [if_neg hnonblank, hrole]
    rw [hanswer]
    decide +kernel

/-- The upload is admitted. -/
theorem studio_admitted
    {p : Plan} (htarget : p.target = "photos")
    (hop : p.op = .presignPut ⟨"bucket-a", "a/b", "", 60000000000⟩) :
    Admitted studioRules studioConfig signedRequest p where
  target := by
    have hlookup : photos.lookup (trimSpace "photos") = some ⟨"s3", "bucket-a", false⟩ := by
      decide
    rw [htarget]
    exact ⟨_, hlookup, fun _ => rfl⟩
  workload _ := ⟨_, "good", ⟨"svc", "sub", "iss"⟩, rfl, by decide, rfl⟩
  allowed := by
    rw [studio_question htarget hop]
    exact studio_allows ∅

/-- The upload is valid and admitted, its signer is there, and its question is delivered. -/
theorem studio_upload :
    ∃ p, Route.upload.plan (fixedEnv Storage.uploadInput) studioConfig signedRequest = .ok p ∧
      Admitted studioRules studioConfig signedRequest p ∧
      SignerReady studioConfig studioClient p fixedSigner ∧
      ∀ context, Reliable studioRules ⟨⟨"http", "policy:19100", ""⟩, false, 1, 1048576⟩
        (question studioConfig signedRequest p context)
        (delivering studioRules (question studioConfig signedRequest p context)) := by
  obtain ⟨p, hplan, htarget, hop⟩ := studio_plan
  have hsigner : storageSignerForTarget studioConfig p.target = some fixedSigner := if_pos rfl
  have hinvoke : (fixedSigner.invoke p.op).isSome = true := by
    rw [hop]
    rfl
  refine ⟨p, hplan, studio_admitted htarget hop, ⟨hsigner, hinvoke, rfl⟩, fun context => ?_⟩
  rw [studio_question htarget hop]
  exact studio_reliable context

end Studio

section Results

/-- **Every call on S3 is granted.**  Whatever the network loses, and wherever the question
goes, the rules of the policy service grant the action of the call to the subject of the
request, on the target whose bucket the call is for; a target that is read-only is not
written, and the object is named by a clean key. -/
theorem s3_call_granted
    (svc : Service) (remote : Remote) (net : AccessRequest → Outbound.Env)
    (path : AccessRequest → String)
    (hlimit : ∀ client, remote.http = some client → client.maxBodyBytes ≠ Int64.maxValue)
    (hnet : ∀ req, Delivers svc (path req) (requestBody req) (net req))
    (env : Env) (cfg : Config)
    (hpolicy : cfg.storageAccessPolicy = some (evaluator remote net))
    (hreg : 0 < mapLen cfg.storageTargets) (hnamed : NamedBuckets cfg)
    (client : StorageSigner → Outbound.Client) (route : Route) (r : Request) :
    ∀ call ∈ s3Calls client (handle env cfg route r).calls,
      ∃ raw t, requestedTarget env r route = some raw ∧
        cfg.storageTargets.lookup (trimSpace raw) = some t ∧
        svc.Grants (strip (requestSubject cfg r)) (s3Action call) (strip (trimSpace raw)) ∧
        bucketOf call = t.bucket ∧ CleanKey (keyOf call) ∧
        (reads call = false → t.readOnly = false) := by
  intro call hcall
  obtain ⟨k, hk, hs3⟩ := List.mem_filterMap.mp hcall
  obtain ⟨before, after, hcalls⟩ := List.append_of_mem hk
  cases k with
  | verify token answer => cases hs3
  | authorize req answer => cases hs3
  | signer s op =>
      obtain ⟨served, hserved, rfl⟩ := Option.map_eq_some_iff.mp hs3
      obtain ⟨hbucket, hkey, haction, hreads⟩ := s3Call_spec hserved
      obtain ⟨p, raw, t, hplan, rfl, hfaithful, hok, hauth⟩ := planned_of_signer_call hreg hcalls
      have hgranted := (admitted_of_authorizeStorage hlimit (fun _ => hnet _) hpolicy hreg
        hok).allowed.granted
      simp only [question, (actionOf_spec p.op).2, hfaithful.target] at hgranted
      rw [← haction] at hgranted
      have hclean := (plan_sanitised hnamed hplan).key
      rw [← hkey] at hclean
      refine ⟨raw, t, hauth.requested, hauth.resolved, hgranted, hbucket.trans hauth.bucket, hclean,
        fun hread => hauth.writable ?_⟩
      rw [hreads] at hread
      simpa using hread

/-- The upload of the photographer is a call that the rules grant. -/
theorem s3_call_granted_upload :
    ∃ call ∈ s3Calls studioClient
        (handle (fixedEnv Storage.uploadInput) studioConfig .upload signedRequest).calls,
      ∃ target, studioRules.Grants (strip (requestSubject studioConfig signedRequest))
        (s3Action call) target := by
  obtain ⟨p, hplan, hadmitted, hready, hnet⟩ := studio_upload
  obtain ⟨served, -, hcalls⟩ := s3Calls_of_ok hplan hready
    (@authorizeStorage_of_admitted studioRules studioPolicy (delivering studioRules) studioConfig
      signedRequest p _ rfl (by decide) hnet rfl (by decide) hadmitted)
  have hmem : served.call ∈ s3Calls studioClient
      (handle (fixedEnv Storage.uploadInput) studioConfig .upload signedRequest).calls := by
    rw [hcalls]
    exact List.mem_singleton_self _
  have hdelivers : ∀ req, Delivers studioRules "/v1/authorize" (requestBody req)
      (delivering studioRules req) := by
    rintro req ⟨status, body, readError⟩ hresp
    rw [delivering, Except.ok.injEq, Outbound.Response.mk.injEq] at hresp
    exact ⟨hresp.1.symm, fun _ => hresp.2.1.symm⟩
  obtain ⟨raw, t, -, -, hgrants, -⟩ := s3_call_granted studioRules studioPolicy
    (delivering studioRules) (fun _ => "/v1/authorize")
    (by rintro client ⟨⟩; decide) hdelivers (fixedEnv Storage.uploadInput) studioConfig rfl
    (by decide) photos_namedBuckets studioClient .upload signedRequest served.call hmem
  exact ⟨served.call, hmem, _, hgrants⟩

end Results

end StorageSystem
end GatewayRuntime
