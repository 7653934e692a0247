import GatewayRuntime.StorageRoutes

/-!
# Signer calls are authorized

Every storage route is fail-closed when a target registry is configured: a
signer or metadata method is reached only after one allowing policy decision
about the target the client named, the actor it named and the action that
belongs to the method (`signer_call_authorized`).  The client's own bucket field
has no influence at all.

The workload check sits behind the early return of `authorizeStorage` for an
empty registry.  `workload_auth_enforced_iff` says exactly for which requests
the check is nevertheless met.

Both results follow from two facts: `plan_spec`, what the validation of each
route passes on, and `authorizeStorage_cases`.
-/

namespace GatewayRuntime
namespace Storage

open GoText

section Specification

/-- The policy action that belongs to a method. -/
def actionOf : SignerOp → String
  | .presignPut _ => "storage.upload"
  | .presignGet _ => "storage.download"
  | .getMetadata _ => "storage.metadata"
  | .initiateMultipart _ => "storage.multipart"
  | .presignMultipartPart _ => "storage.multipart"
  | .completeMultipart _ => "storage.multipart"
  | .abortMultipart _ => "storage.multipart"

/-- The methods that write. -/
def isWrite : SignerOp → Bool
  | .presignGet _ => false
  | .getMetadata _ => false
  | _ => true

/-- The target as the client sent it. -/
def requestedTarget (env : Env) (r : Request) : Route → Option String
  | .upload | .intentsUpload | .intentsDownload | .presign =>
      (env.json.storageRequest (64 * 1024) r.body).map StorageRequest.target
  | .download | .metadata | .referencesMetadata => some (r.queryGet "target")
  | .intentsVerify =>
      (env.json.verificationRequest (256 * 1024) r.body).map VerificationRequest.target
  | .multipartInitiate | .multipartPart | .multipartComplete | .multipartAbort =>
      (env.json.multipartRequest (256 * 1024) r.body).map MultipartRequest.target

/-- A policy call. -/
def Call.isAuthorize : Call → Bool
  | .authorize _ _ => true
  | _ => false

end Specification

section PlanSpec

variable {env : Env} {cfg : Config} {r : Request}

theorem decodeStorageRequest_ok
    {req : PresignedRequest} {target : String}
    (h : decodeStorageRequest env.json r cfg = .ok (req, target)) :
    ∃ input,
      env.json.storageRequest (64 * 1024) r.body = some input ∧
        validateStorageRequest input cfg = .ok req ∧
        target = trimSpace input.target := by
  unfold decodeStorageRequest at h
  cases hj : env.json.storageRequest (64 * 1024) r.body with
  | none =>
      rw [hj] at h
      cases h
  | some input =>
      rw [hj] at h
      obtain ⟨req', hv, hret⟩ := exists_of_bind_ok h
      cases hret
      exact ⟨input, rfl, hv, rfl⟩

theorem storageRequestFromQuery_ok
    {req : PresignedRequest} {target : String}
    (h : storageRequestFromQuery r cfg = .ok (req, target)) :
    ∃ seconds,
      validateStorageRequest (queryRequest r seconds) cfg = .ok req ∧
        target = trimSpace (r.queryGet "target") := by
  obtain ⟨seconds, -, hrest⟩ := exists_of_bind_ok h
  obtain ⟨req', hv, hret⟩ := exists_of_bind_ok hrest
  cases hret
  exact ⟨seconds, hv, rfl⟩

theorem multipartBase_ok
    {fields : MultipartRequest → StorageRequest}
    {input : MultipartRequest} {base : PresignedRequest}
    (h : multipartBase env cfg r fields = .ok (input, base)) :
    env.json.multipartRequest (256 * 1024) r.body = some input ∧
      validateStorageRequest (fields input) cfg = .ok base := by
  unfold multipartBase at h
  cases hj : env.json.multipartRequest (256 * 1024) r.body with
  | none =>
      rw [hj] at h
      cases h
  | some input' =>
      rw [hj] at h
      obtain ⟨base', hv, hret⟩ := exists_of_bind_ok h
      cases hret
      exact ⟨rfl, hv⟩

/-- A plan agrees with the client's target and with the method it calls: the
target string has the trimmed form of the requested one, the bucket comes from a
validated request for that target, and action and write flag are those of the
method. -/
structure Plan.Faithful (cfg : Config) (p : Plan) (raw : String) : Prop where
  target : trimSpace p.target = trimSpace raw
  action : p.action = actionOf p.op
  write : p.write = isWrite p.op
  bucket :
    ∃ input : StorageRequest,
      trimSpace input.target = trimSpace raw ∧
        requestBucket input cfg = .ok p.op.bucket

theorem Plan.Faithful.of_validate
    {p : Plan} {raw : String} {input : StorageRequest} {req : PresignedRequest}
    (hv : validateStorageRequest input cfg = .ok req)
    (hbucket : p.op.bucket = req.bucket)
    (hinput : trimSpace input.target = trimSpace raw)
    (htarget : trimSpace p.target = trimSpace raw)
    (haction : p.action = actionOf p.op)
    (hwrite : p.write = isWrite p.op) :
    p.Faithful cfg raw := by
  refine ⟨htarget, haction, hwrite, input, hinput, ?_⟩
  rw [hbucket]
  exact (validateStorageRequest_ok hv).1

/-- The routes that decode a storage request and pass the trimmed target on. -/
theorem faithful_of_decode
    {p : Plan} {req : PresignedRequest} {target : String}
    (hd : decodeStorageRequest env.json r cfg = .ok (req, target))
    (htarget : p.target = target)
    (hbucket : p.op.bucket = req.bucket)
    (haction : p.action = actionOf p.op)
    (hwrite : p.write = isWrite p.op) :
    ∃ raw,
      (env.json.storageRequest (64 * 1024) r.body).map StorageRequest.target = some raw ∧
        p.Faithful cfg raw := by
  obtain ⟨input, hj, hv, rfl⟩ := decodeStorageRequest_ok hd
  refine ⟨input.target, by rw [hj]; rfl, ?_⟩
  exact Plan.Faithful.of_validate hv hbucket rfl (by simp [htarget]) haction hwrite

/-- The routes that read the query and pass the trimmed target on. -/
theorem faithful_of_query
    {p : Plan} {req : PresignedRequest} {target : String}
    (hd : storageRequestFromQuery r cfg = .ok (req, target))
    (htarget : p.target = target)
    (hbucket : p.op.bucket = req.bucket)
    (haction : p.action = actionOf p.op)
    (hwrite : p.write = isWrite p.op) :
    p.Faithful cfg (r.queryGet "target") := by
  obtain ⟨seconds, hv, rfl⟩ := storageRequestFromQuery_ok hd
  exact Plan.Faithful.of_validate hv hbucket rfl (by simp [htarget]) haction hwrite

/-- The multipart routes, which pass the target on as the client sent it. -/
theorem faithful_of_multipart
    {p : Plan} {fields : MultipartRequest → StorageRequest}
    {input : MultipartRequest} {base : PresignedRequest}
    (hb : multipartBase env cfg r fields = .ok (input, base))
    (hfields : (fields input).target = input.target)
    (htarget : p.target = input.target)
    (hbucket : p.op.bucket = base.bucket)
    (haction : p.action = actionOf p.op)
    (hwrite : p.write = isWrite p.op) :
    ∃ raw,
      (env.json.multipartRequest (256 * 1024) r.body).map MultipartRequest.target = some raw ∧
        p.Faithful cfg raw := by
  obtain ⟨hj, hv⟩ := multipartBase_ok hb
  refine ⟨input.target, by rw [hj]; rfl, ?_⟩
  exact Plan.Faithful.of_validate hv hbucket (by rw [hfields]) (by rw [htarget]) haction hwrite

/-- What each route does with a validated request, and what was validated. -/
inductive Planned (env : Env) (cfg : Config) (r : Request) : Route → Plan → Prop
  | upload {req : PresignedRequest} {target : String}
      (hdecode : decodeStorageRequest env.json r cfg = .ok (req, target)) :
      Planned env cfg r .upload ⟨target, "storage.upload", true, .presignPut req, storageResult⟩
  | intentsUpload {req : PresignedRequest} {target : String}
      (hdecode : decodeStorageRequest env.json r cfg = .ok (req, target)) :
      Planned env cfg r .intentsUpload
        ⟨target, "storage.upload", true, .presignPut req,
          fun op => okNoStore (.grant (grantFromOperation op))⟩
  | download {req : PresignedRequest} {target : String}
      (hquery : storageRequestFromQuery r cfg = .ok (req, target)) :
      Planned env cfg r .download
        ⟨target, "storage.download", false, .presignGet req, storageResult⟩
  | intentsDownload {req : PresignedRequest} {target : String}
      (hdecode : decodeStorageRequest env.json r cfg = .ok (req, target)) :
      Planned env cfg r .intentsDownload
        ⟨target, "storage.download", false, .presignGet req,
          fun op => okNoStore (.grant (grantFromOperation op))⟩
  | presignPut {input : StorageRequest} {req : PresignedRequest}
      (hjson : env.json.storageRequest (64 * 1024) r.body = some input)
      (hvalid : validateStorageRequest input cfg = .ok req) :
      Planned env cfg r .presign
        ⟨input.target, "storage.upload", true, .presignPut req, storageResult⟩
  | presignGet {input : StorageRequest} {req : PresignedRequest}
      (hjson : env.json.storageRequest (64 * 1024) r.body = some input)
      (hvalid : validateStorageRequest input cfg = .ok req) :
      Planned env cfg r .presign
        ⟨input.target, "storage.download", false, .presignGet req, storageResult⟩
  | metadata {req : PresignedRequest} {target : String}
      (hquery : storageRequestFromQuery r cfg = .ok (req, target)) :
      Planned env cfg r .metadata
        ⟨target, "storage.metadata", false, .getMetadata ⟨req.bucket, req.objectKey⟩,
          fun out => okNoStore (.metadata out)⟩
  | intentsVerify {input : VerificationRequest} {base : PresignedRequest}
      (hjson : env.json.verificationRequest (256 * 1024) r.body = some input)
      (hvalid : validateStorageRequest
        ⟨(verificationIntent input).target, "", "", (verificationIntent input).objectKey, "", 0⟩
        cfg = .ok base) :
      Planned env cfg r .intentsVerify
        ⟨(verificationIntent input).target, "storage.metadata", false,
          .getMetadata ⟨base.bucket, base.objectKey⟩,
          verificationReply env (verificationIntent input)⟩
  | referencesMetadata {req : PresignedRequest} {target : String}
      (hquery : storageRequestFromQuery r cfg = .ok (req, target)) :
      Planned env cfg r .referencesMetadata
        ⟨target, "storage.metadata", false, .getMetadata ⟨req.bucket, req.objectKey⟩,
          referenceReply target⟩
  | multipartInitiate {input : MultipartRequest} {base : PresignedRequest}
      (hbase : multipartBase env cfg r (fun input =>
        ⟨input.target, "", input.bucket, input.objectKey, input.contentType,
          input.expiresInSeconds⟩) = .ok (input, base)) :
      Planned env cfg r .multipartInitiate
        ⟨input.target, "storage.multipart", true,
          .initiateMultipart ⟨base.bucket, base.objectKey, base.contentType, base.expiresIn⟩,
          fun out => okNoStore (.multipartUpload out)⟩
  | multipartPart {input : MultipartRequest} {base : PresignedRequest} {uploadID : String}
      (hbase : multipartBase env cfg r (fun input =>
        ⟨input.target, "", input.bucket, input.objectKey, "", input.expiresInSeconds⟩) =
          .ok (input, base))
      (hid : requiredUploadID input = .ok uploadID)
      (hnumber : 1 ≤ input.partNumber ∧ input.partNumber ≤ 10000) :
      Planned env cfg r .multipartPart
        ⟨input.target, "storage.multipart", true,
          .presignMultipartPart
            ⟨base.bucket, base.objectKey, uploadID, input.partNumber, base.expiresIn⟩,
          storageResult⟩
  | multipartComplete {input : MultipartRequest} {base : PresignedRequest} {uploadID : String}
      {parts : List CompletedPart}
      (hbase : multipartBase env cfg r (fun input =>
        ⟨input.target, "", input.bucket, input.objectKey, "", 0⟩) = .ok (input, base))
      (hid : requiredUploadID input = .ok uploadID)
      (hparts : validateCompletedParts input.parts = .ok parts) :
      Planned env cfg r .multipartComplete
        ⟨input.target, "storage.multipart", true,
          .completeMultipart ⟨base.bucket, base.objectKey, uploadID, parts⟩,
          fun out => ⟨200, false, .multipartComplete out⟩⟩
  | multipartAbort {input : MultipartRequest} {base : PresignedRequest} {uploadID : String}
      (hbase : multipartBase env cfg r (fun input =>
        ⟨input.target, "", input.bucket, input.objectKey, "", 0⟩) = .ok (input, base))
      (hid : requiredUploadID input = .ok uploadID) :
      Planned env cfg r .multipartAbort
        ⟨input.target, "storage.multipart", true,
          .abortMultipart ⟨base.bucket, base.objectKey, uploadID⟩,
          fun _ => ⟨204, false, .empty⟩⟩

theorem presignPlan_planned
    {p : Plan}
    (h : presignPlan env cfg r = .ok p) :
    Planned env cfg r .presign p := by
  unfold presignPlan at h
  cases hj : env.json.storageRequest (64 * 1024) r.body with
  | none =>
      rw [hj] at h
      cases h
  | some input =>
      rw [hj] at h
      obtain ⟨req, hv, hrest⟩ := exists_of_bind_ok h
      simp only at hrest
      split_ifs at hrest with hput hget
      · cases hrest
        exact .presignPut hj hv
      · cases hrest
        exact .presignGet hj hv

theorem intentsVerifyPlan_planned
    {p : Plan}
    (h : intentsVerifyPlan env cfg r = .ok p) :
    Planned env cfg r .intentsVerify p := by
  unfold intentsVerifyPlan at h
  cases hj : env.json.verificationRequest (256 * 1024) r.body with
  | none =>
      rw [hj] at h
      cases h
  | some input =>
      rw [hj] at h
      obtain ⟨-, -, hrest⟩ := exists_of_bind_ok h
      obtain ⟨base, hv, hret⟩ := exists_of_bind_ok hrest
      cases hret
      exact .intentsVerify hj hv

theorem multipartPartPlan_planned
    {p : Plan}
    (h : multipartPartPlan env cfg r = .ok p) :
    Planned env cfg r .multipartPart p := by
  obtain ⟨⟨input, base⟩, hbase, hrest⟩ := exists_of_bind_ok h
  obtain ⟨uploadID, hid, hret⟩ := exists_of_bind_ok hrest
  split_ifs at hret with hpart
  cases hret
  simp only [Bool.or_eq_true, decide_eq_true_eq, not_or, Int64.not_lt] at hpart
  exact .multipartPart hbase hid hpart

/-- **The validation of a route**, taken apart once for all routes. -/
theorem planned_of_plan
    {route : Route} {p : Plan}
    (h : route.plan env cfg r = .ok p) :
    Planned env cfg r route p := by
  cases route with
  | upload =>
      obtain ⟨⟨req, target⟩, hdecode, hret⟩ := exists_of_bind_ok h
      cases hret
      exact .upload hdecode
  | intentsUpload =>
      obtain ⟨⟨req, target⟩, hdecode, hrest⟩ := exists_of_bind_ok h
      obtain ⟨-, -, hret⟩ := exists_of_bind_ok hrest
      cases hret
      exact .intentsUpload hdecode
  | download =>
      obtain ⟨⟨req, target⟩, hquery, hret⟩ := exists_of_bind_ok h
      cases hret
      exact .download hquery
  | intentsDownload =>
      obtain ⟨⟨req, target⟩, hdecode, hrest⟩ := exists_of_bind_ok h
      obtain ⟨-, -, hret⟩ := exists_of_bind_ok hrest
      cases hret
      exact .intentsDownload hdecode
  | presign =>
      exact presignPlan_planned h
  | metadata =>
      obtain ⟨⟨req, target⟩, hquery, hret⟩ := exists_of_bind_ok h
      cases hret
      exact .metadata hquery
  | intentsVerify =>
      exact intentsVerifyPlan_planned h
  | referencesMetadata =>
      obtain ⟨⟨req, target⟩, hquery, hret⟩ := exists_of_bind_ok h
      cases hret
      exact .referencesMetadata hquery
  | multipartInitiate =>
      obtain ⟨⟨input, base⟩, hbase, hret⟩ := exists_of_bind_ok h
      cases hret
      exact .multipartInitiate hbase
  | multipartPart =>
      exact multipartPartPlan_planned h
  | multipartComplete =>
      obtain ⟨⟨input, base⟩, hbase, hrest⟩ := exists_of_bind_ok h
      obtain ⟨uploadID, hid, hrest'⟩ := exists_of_bind_ok hrest
      obtain ⟨parts, hparts, hret⟩ := exists_of_bind_ok hrest'
      cases hret
      exact .multipartComplete hbase hid hparts
  | multipartAbort =>
      obtain ⟨⟨input, base⟩, hbase, hrest⟩ := exists_of_bind_ok h
      obtain ⟨uploadID, hid, hret⟩ := exists_of_bind_ok hrest
      cases hret
      exact .multipartAbort hbase hid

/-- **What the validation of a route passes on.** -/
theorem plan_spec
    {route : Route} {p : Plan}
    (h : route.plan env cfg r = .ok p) :
    ∃ raw, requestedTarget env r route = some raw ∧ p.Faithful cfg raw := by
  cases planned_of_plan h with
  | upload hdecode | intentsUpload hdecode | intentsDownload hdecode =>
      exact faithful_of_decode hdecode rfl rfl rfl rfl
  | download hquery | metadata hquery | referencesMetadata hquery =>
      exact ⟨_, rfl, faithful_of_query hquery rfl rfl rfl rfl⟩
  | @presignPut input req hjson hvalid | @presignGet input req hjson hvalid =>
      refine ⟨input.target, by rw [requestedTarget, hjson]; rfl, ?_⟩
      exact .of_validate hvalid rfl rfl rfl rfl rfl
  | @intentsVerify input base hjson hvalid =>
      refine ⟨input.target, by rw [requestedTarget, hjson]; rfl, ?_⟩
      exact .of_validate hvalid rfl (by simp [verificationIntent]) (by simp [verificationIntent])
        rfl rfl
  | multipartInitiate hbase | multipartPart hbase | multipartComplete hbase
  | multipartAbort hbase =>
      exact faithful_of_multipart hbase rfl rfl rfl rfl rfl

end PlanSpec

section Serve

variable {cfg : Config} {r : Request} {capability : String} {p : Plan}

/-- The signer stage makes at most one call, to the signer chosen for the
plan's target. -/
theorem callSigner_calls
    {before after : List Call} {s : StorageSigner} {op : SignerOp}
    (h : (callSigner cfg capability p).calls = before ++ .signer s op :: after) :
    before = [] ∧ storageSignerForTarget cfg p.target = some s ∧ op = p.op := by
  unfold callSigner at h
  cases hs : storageSignerForTarget cfg p.target with
  | none =>
      simp [hs, Traced.stop] at h
  | some signer =>
      simp only [hs] at h
      cases hi : signer.invoke p.op with
      | none =>
          simp [hi, Traced.stop] at h
      | some result =>
          simp only [hi, Traced.call_bind] at h
          have htail : (p.finish result).calls = [] := by
            cases result <;> rfl
          rw [htail] at h
          cases before with
          | nil =>
              cases h
              exact ⟨rfl, rfl, rfl⟩
          | cons k before =>
              simp at h

/-- A signer call of a handler comes after an accepting `authorizeStorage` for
the plan. -/
theorem serve_signer_call
    {before after : List Call} {s : StorageSigner} {op : SignerOp}
    (h : (serve cfg r capability (.ok p)).calls = before ++ .signer s op :: after) :
    (authorizeStorage cfg r p.target p.action p.write).result = .ok () ∧
      before = (authorizeStorage cfg r p.target p.action p.write).calls ∧
      storageSignerForTarget cfg p.target = some s ∧
      op = p.op := by
  rcases Traced.bind_split h with hmem | ⟨⟨⟩, rest, hok, hbefore, hcalls⟩
  · exfalso
    exact authorizeStorage_no_signer p.target p.action p.write s op hmem
  · obtain ⟨rfl, hsigner, hop⟩ := callSigner_calls hcalls
    exact ⟨hok, by simpa using hbefore, hsigner, hop⟩

end Serve

section ClientBucket

/-- The decoder with the client's bucket fields replaced. -/
def JsonDecoder.withBucket (json : JsonDecoder) (bucket : String) : JsonDecoder where
  storageRequest limit body :=
    (json.storageRequest limit body).map fun input => { input with bucket := bucket }
  verificationRequest := json.verificationRequest
  multipartRequest limit body :=
    (json.multipartRequest limit body).map fun input => { input with bucket := bucket }

def Env.withBucket (env : Env) (bucket : String) : Env where
  json := env.json.withBucket bucket
  ranges := env.ranges

/-- The request with the client's bucket query value replaced. -/
def Request.withBucket (r : Request) (bucket : String) : Request where
  headers := r.headers
  query := ("bucket", bucket) :: r.query
  body := r.body

variable {cfg : Config}

theorem requestBucket_withBucket
    (hreg : 0 < mapLen cfg.storageTargets) (input : StorageRequest) (bucket : String) :
    requestBucket { input with bucket := bucket } cfg = requestBucket input cfg := by
  simp [requestBucket, hreg]

theorem validateStorageRequest_withBucket
    (hreg : 0 < mapLen cfg.storageTargets) (input : StorageRequest) (bucket : String) :
    validateStorageRequest { input with bucket := bucket } cfg =
      validateStorageRequest input cfg := by
  unfold validateStorageRequest
  rw [requestBucket_withBucket hreg]
  rfl

theorem queryGet_withBucket
    (r : Request) (bucket : String) {name : String} (hname : name ≠ "bucket") :
    (r.withBucket bucket).queryGet name = r.queryGet name := by
  have hne : (name == "bucket") = false := by
    simpa using hname
  simp [Request.queryGet, Request.withBucket, List.lookup_cons, hne]

theorem queryRequest_withBucket (r : Request) (bucket : String) (seconds : Int64) :
    queryRequest (r.withBucket bucket) seconds =
      { queryRequest r seconds with bucket := (r.withBucket bucket).queryGet "bucket" } := by
  simp [queryRequest, queryGet_withBucket]

theorem decodeStorageRequest_withBucket
    (hreg : 0 < mapLen cfg.storageTargets) (env : Env) (r : Request) (bucket : String) :
    decodeStorageRequest (env.withBucket bucket).json (r.withBucket bucket) cfg =
      decodeStorageRequest env.json r cfg := by
  unfold decodeStorageRequest
  simp only [Env.withBucket, JsonDecoder.withBucket, Request.withBucket]
  cases env.json.storageRequest (64 * 1024) r.body with
  | none =>
      rfl
  | some input =>
      simp only [Option.map_some]
      rw [validateStorageRequest_withBucket hreg]

theorem storageRequestFromQuery_withBucket
    (hreg : 0 < mapLen cfg.storageTargets) (r : Request) (bucket : String) :
    storageRequestFromQuery (r.withBucket bucket) cfg = storageRequestFromQuery r cfg := by
  have hseconds : querySeconds (r.withBucket bucket) = querySeconds r := by
    simp [querySeconds, queryGet_withBucket]
  unfold storageRequestFromQuery
  rw [hseconds, queryGet_withBucket r bucket (by decide)]
  simp only [queryRequest_withBucket, validateStorageRequest_withBucket hreg]

theorem multipartBase_withBucket
    (hreg : 0 < mapLen cfg.storageTargets) (env : Env) (r : Request) (bucket : String)
    (fields : MultipartRequest → StorageRequest)
    (hfields : ∀ input : MultipartRequest,
      fields { input with bucket := bucket } = { fields input with bucket := bucket }) :
    multipartBase (env.withBucket bucket) cfg (r.withBucket bucket) fields =
      (multipartBase env cfg r fields).map fun x =>
        ({ x.1 with bucket := bucket }, x.2) := by
  unfold multipartBase
  simp only [Env.withBucket, JsonDecoder.withBucket, Request.withBucket]
  cases env.json.multipartRequest (256 * 1024) r.body with
  | none =>
      rfl
  | some input =>
      simp only [Option.map_some]
      rw [hfields, validateStorageRequest_withBucket hreg]
      cases validateStorageRequest (fields input) cfg <;> rfl

/-- A change of a value that what follows does not read is not noticed. -/
theorem map_bind_of_invariant
    {α β : Type} {x : Except String α} {f : α → α} {g : α → Except String β}
    (hg : ∀ a, g (f a) = g a) :
    (x.map f >>= g) = (x >>= g) := by
  cases x with
  | error e =>
      rfl
  | ok a =>
      exact hg a

/-- With a registry, the client's bucket has no influence on any route. -/
theorem plan_withBucket
    (hreg : 0 < mapLen cfg.storageTargets) (env : Env) (r : Request) (bucket : String)
    (route : Route) :
    route.plan (env.withBucket bucket) cfg (r.withBucket bucket) = route.plan env cfg r := by
  have hmulti := multipartBase_withBucket hreg env r bucket
  cases route with
  | upload =>
      simp only [Route.plan, uploadPlan, decodeStorageRequest_withBucket hreg]
  | intentsUpload =>
      simp only [Route.plan, intentsUploadPlan, decodeStorageRequest_withBucket hreg]
  | download =>
      simp only [Route.plan, downloadPlan, storageRequestFromQuery_withBucket hreg]
  | intentsDownload =>
      simp only [Route.plan, intentsDownloadPlan, decodeStorageRequest_withBucket hreg]
  | presign =>
      simp only [Route.plan, presignPlan, Env.withBucket, JsonDecoder.withBucket,
        Request.withBucket]
      cases env.json.storageRequest (64 * 1024) r.body with
      | none =>
          rfl
      | some input =>
          simp only [Option.map_some]
          rw [validateStorageRequest_withBucket hreg]
  | metadata =>
      simp only [Route.plan, metadataPlan, storageRequestFromQuery_withBucket hreg]
  | intentsVerify =>
      have hranges : (env.withBucket bucket).ranges = env.ranges := rfl
      have hreply : verificationReply (env.withBucket bucket) = verificationReply env := by
        unfold verificationReply
        rw [hranges]
      simp only [Route.plan, intentsVerifyPlan, hreply]
      simp only [Env.withBucket, JsonDecoder.withBucket, Request.withBucket]
  | referencesMetadata =>
      simp only [Route.plan, referencesMetadataPlan, storageRequestFromQuery_withBucket hreg]
  | multipartInitiate =>
      simp only [Route.plan, multipartInitiatePlan]
      rw [hmulti _ (fun _ => rfl)]
      exact map_bind_of_invariant (fun _ => rfl)
  | multipartPart =>
      simp only [Route.plan, multipartPartPlan]
      rw [hmulti _ (fun _ => rfl)]
      exact map_bind_of_invariant (fun _ => rfl)
  | multipartComplete =>
      simp only [Route.plan, multipartCompletePlan]
      rw [hmulti _ (fun _ => rfl)]
      exact map_bind_of_invariant (fun _ => rfl)
  | multipartAbort =>
      simp only [Route.plan, multipartAbortPlan]
      rw [hmulti _ (fun _ => rfl)]
      exact map_bind_of_invariant (fun _ => rfl)

theorem authorizeStorage_withBucket
    (r : Request) (bucket target action : String) (write : Bool) :
    authorizeStorage cfg (r.withBucket bucket) target action write =
      authorizeStorage cfg r target action write := by
  have hheader : (r.withBucket bucket).header = r.header := rfl
  have hextract :
      extract (r.withBucket bucket) "" "" cfg.storageSubjectHeader =
        extract r "" "" cfg.storageSubjectHeader := by
    simp only [extract, firstHeader, hheader]
  have htoken : bearerToken (r.withBucket bucket) = bearerToken r := by
    simp only [bearerToken, hheader]
  have hworkload :
      checkWorkload cfg (r.withBucket bucket) = checkWorkload cfg r := by
    unfold checkWorkload
    rw [htoken]
  unfold authorizeStorage
  rw [hextract, hworkload]

theorem handle_withBucket
    (hreg : 0 < mapLen cfg.storageTargets) (env : Env) (r : Request) (bucket : String)
    (route : Route) :
    handle (env.withBucket bucket) cfg route (r.withBucket bucket) =
      handle env cfg route r := by
  unfold handle
  rw [plan_withBucket hreg]
  unfold serve
  simp only [authorizeStorage_withBucket]

end ClientBucket

section Deployment

/-- A signer that signs everything. -/
def fixedSigner : StorageSigner where
  presignPut _ := .ok ⟨"https://store/put", "PUT", 0, ∅⟩
  presignGet _ := .ok ⟨"https://store/get", "GET", 0, ∅⟩
  multipart := none
  metadata := none

/-- A decoder that reads every body as the same storage request. -/
def fixedEnv (input : StorageRequest) : Env where
  json := ⟨fun _ _ => some input, fun _ _ => none, fun _ _ => none⟩
  ranges := ⟨fun _ => [], fun _ => [], fun _ => [], fun _ _ => [], ⟨lowerRune, foldRune⟩⟩

/-- The upload capability behind a verifier that accepts one token: bucket mode
without targets, target mode with them. -/
def workloadConfig (targets : TargetRegistry) : Config where
  selection := ⟨[.storage], fun _ => ["upload"]⟩
  storageSigner := some fixedSigner
  storageProviders := ∅
  storageDefaultTTL := 0
  storageMaxTTL := 0
  storageTargets := targets
  storageAccessPolicy := some fun _ => .ok ⟨true, ""⟩
  storageSubjectHeader := ""
  workloadVerifier := some fun token =>
    if token = "good" then .ok ⟨"svc", "sub", "iss"⟩ else .error "invalid"
  workloadAuthRequired := true

def photos : TargetRegistry :=
  Finmap.singleton "photos" ⟨"s3", "bucket-a", false⟩

/-- An upload to the target `photos` that names another bucket. -/
def uploadInput : StorageRequest :=
  ⟨"photos", "", "bucket-b", "a/b", "", 60⟩

/-- A request with an accepted token and an actor. -/
def signedRequest : Request :=
  ⟨[("Authorization", "Bearer good"), ("X-Actor-Subject", "ann")], [], ""⟩

/-- A request without any header. -/
def bareRequest : Request :=
  ⟨[], [], ""⟩

end Deployment

section Authorization

/-- What has happened before a call of the method `op` of the signer `s`, when
the client named the target `raw` and the registry has `t` for it. -/
structure CallAuthorized (env : Env) (cfg : Config) (route : Route) (r : Request)
    (before : List Call) (s : StorageSigner) (op : SignerOp) (raw : String) (t : Target) :
    Prop where
  requested : requestedTarget env r route = some raw
  resolved : cfg.storageTargets.lookup (trimSpace raw) = some t
  decided :
    ∃ policy context decision,
      cfg.storageAccessPolicy = some policy ∧
        policy ⟨requestSubject cfg r, actionOf op, trimSpace raw, context⟩ = .ok decision ∧
        decision.allow = true ∧
        before.filter Call.isAuthorize =
          [.authorize ⟨requestSubject cfg r, actionOf op, trimSpace raw, context⟩
            (.ok decision)]
  subject_ne : requestSubject cfg r ≠ ""
  writable : isWrite op = true → t.readOnly = false
  bucket : op.bucket = t.bucket
  signer : storageSignerForTarget cfg raw = some s

theorem filter_isAuthorize_of_verify
    {calls : List Call}
    (h : ∀ k ∈ calls, ∃ token answer, k = Call.verify token answer) :
    calls.filter Call.isAuthorize = [] := by
  rw [List.filter_eq_nil_iff]
  intro k hk
  obtain ⟨token, answer, rfl⟩ := h k hk
  simp [Call.isAuthorize]

theorem resolve_eq_lookup (registry : TargetRegistry) (name : String) :
    registry.resolve (trimSpace name) = registry.lookup (trimSpace name) :=
  congrArg (fun n => (registry.lookup n : Option Target)) (trimSpace_trimSpace name)

theorem storageSignerForTarget_congr
    (cfg : Config) {target raw : String}
    (h : trimSpace target = trimSpace raw) :
    storageSignerForTarget cfg target = storageSignerForTarget cfg raw := by
  simp [storageSignerForTarget, h]

/-- An authorized faithful plan meets the specification of its call. -/
theorem Plan.Faithful.callAuthorized
    {env : Env} {cfg : Config} {route : Route} {r : Request}
    {p : Plan} {raw : String} {s : StorageSigner} {calls : List Call}
    (hp : p.Faithful cfg raw)
    (hreg : 0 < mapLen cfg.storageTargets)
    (hraw : requestedTarget env r route = some raw)
    (hauth : Authorized cfg r p.target p.action p.write calls)
    (hsigner : storageSignerForTarget cfg p.target = some s) :
    ∃ t, CallAuthorized env cfg route r calls s p.op raw t := by
  obtain ⟨t, ht, hwritable⟩ := hauth.resolved
  rw [hp.target, resolve_eq_lookup] at ht
  obtain ⟨input, hinput, hbucket⟩ := hp.bucket
  obtain ⟨t', ht', hb⟩ := requestBucket_of_registry hreg hbucket
  rw [hinput, resolve_eq_lookup, ht] at ht'
  cases ht'
  obtain ⟨policy, context, decision, workloadCalls, hpolicy, hdecision, hallow, hverify, rfl⟩ :=
    hauth.decided
  rw [hp.target, hp.action] at hdecision
  refine ⟨t, hraw, ht, ⟨policy, context, decision, hpolicy, hdecision, hallow, ?_⟩,
    hauth.subject_ne, ?_, hb, ?_⟩
  · rw [List.filter_append, filter_isAuthorize_of_verify hverify, hp.target, hp.action]
    rfl
  · rw [← hp.write]
    exact hwritable
  · rw [← storageSignerForTarget_congr cfg hp.target]
    exact hsigner

/-- **Authorization is fail-closed.**  With a target registry, every signer call
of every registered route has been authorized, and what a request does is
independent of the bucket its client names. -/
theorem signer_call_authorized
    (env : Env) (cfg : Config) (hreg : 0 < mapLen cfg.storageTargets) :
    ∀ route ∈ storageRoutes cfg, ∀ r : Request,
      (∀ before s op after,
        (handle env cfg route r).calls = before ++ .signer s op :: after →
          ∃ raw t, CallAuthorized env cfg route r before s op raw t) ∧
      ∀ bucket,
        handle (env.withBucket bucket) cfg route (r.withBucket bucket) =
          handle env cfg route r := by
  intro route _ r
  refine ⟨?_, fun bucket => handle_withBucket hreg env r bucket route⟩
  intro before s op after hcalls
  unfold handle at hcalls
  cases hplan : route.plan env cfg r with
  | error e =>
      rw [hplan] at hcalls
      simp [serve, Traced.stop] at hcalls
  | ok p =>
      rw [hplan] at hcalls
      obtain ⟨hok, rfl, hsigner, rfl⟩ := serve_signer_call hcalls
      obtain ⟨raw, hraw, hfaithful⟩ := plan_spec hplan
      rcases authorizeStorage_cases r hreg p.target p.action p.write with
        ⟨⟨resp, hresp, -⟩, -⟩ | ⟨-, hauth⟩
      · rw [hresp] at hok
        cases hok
      · exact ⟨raw, hfaithful.callAuthorized hreg hraw hauth hsigner⟩

/-- The theorem at an upload that reaches the signer. -/
theorem signer_call_authorized_upload :
    0 < mapLen (workloadConfig photos).storageTargets ∧
      Route.upload ∈ storageRoutes (workloadConfig photos) ∧
      ∃ raw t,
        CallAuthorized (fixedEnv uploadInput) (workloadConfig photos) .upload signedRequest
          [.verify "good" (.ok ⟨"svc", "sub", "iss"⟩),
            .authorize
              ⟨"ann", "storage.upload", "photos", Finmap.singleton "service_id" "svc"⟩
              (.ok ⟨true, ""⟩)]
          fixedSigner (.presignPut ⟨"bucket-a", "a/b", "", 60000000000⟩) raw t :=
  ⟨by decide, by decide,
    (signer_call_authorized (fixedEnv uploadInput) (workloadConfig photos) (by decide)
      .upload (by decide) signedRequest).1 _ _ _ [] rfl⟩

end Authorization

section Workload

variable {env : Env} {cfg : Config} {route : Route} {r : Request} {p : Plan}

/-- Workload authentication holds for a request: a signer is called only with an
accepted token, and a request without one is answered with an error. -/
def WorkloadAuthEnforced (env : Env) (cfg : Config) (route : Route) (r : Request) : Prop :=
  ((∃ s op, Call.signer s op ∈ (handle env cfg route r).calls) → TokenAccepted cfg r) ∧
    (¬TokenAccepted cfg r → 400 ≤ (answer (handle env cfg route r)).status)

/-- The request is valid for its route and the configuration has a provider
with the method that the route calls. -/
def Signable (env : Env) (cfg : Config) (route : Route) (r : Request) : Prop :=
  ∃ p s,
    route.plan env cfg r = .ok p ∧
      storageSignerForTarget cfg p.target = some s ∧
      (s.invoke p.op).isSome = true

theorem callSigner_of_signable
    {s : StorageSigner} (capability : String)
    (hs : storageSignerForTarget cfg p.target = some s)
    (hinvoke : (s.invoke p.op).isSome = true) :
    Call.signer s p.op ∈ (callSigner cfg capability p).calls := by
  obtain ⟨result, hresult⟩ := Option.isSome_iff_exists.mp hinvoke
  simp [callSigner, hs, hresult]

theorem callSigner_of_not_signable
    (capability : String)
    (h : ∀ s, storageSignerForTarget cfg p.target = some s → (s.invoke p.op).isSome = false) :
    callSigner cfg capability p = .stop (providerUnavailable .storage capability) := by
  unfold callSigner
  cases hs : storageSignerForTarget cfg p.target with
  | none =>
      rfl
  | some s =>
      have hnone : s.invoke p.op = none := by
        simpa using h s hs
      simp [hnone]

/-- The handler of an invalid request. -/
theorem handle_of_plan_error
    {e : String} (hplan : route.plan env cfg r = .error e) :
    handle env cfg route r = .stop (errorResponse 400 e) := by
  simp [handle, serve, hplan]

/-- The handler of a valid request. -/
theorem handle_of_plan_ok
    (hplan : route.plan env cfg r = .ok p) :
    handle env cfg route r =
      (authorizeStorage cfg r p.target p.action p.write >>= fun _ =>
        callSigner cfg route.capability p) := by
  simp [handle, serve, hplan]

/-- A handler that refused its request: no signer has been called and the answer
is an error. -/
def HandlerRefused (env : Env) (cfg : Config) (route : Route) (r : Request) : Prop :=
  (∀ s op, Call.signer s op ∉ (handle env cfg route r).calls) ∧
    400 ≤ (answer (handle env cfg route r)).status

theorem HandlerRefused.enforced
    (h : HandlerRefused env cfg route r) :
    WorkloadAuthEnforced env cfg route r := by
  refine ⟨?_, fun _ => h.2⟩
  rintro ⟨s, op, hmem⟩
  exact absurd hmem (h.1 s op)

theorem handlerRefused_of_plan_error
    {e : String} (hplan : route.plan env cfg r = .error e) :
    HandlerRefused env cfg route r := by
  unfold HandlerRefused
  rw [handle_of_plan_error hplan]
  refine ⟨by simp [Traced.stop], ?_⟩
  show 400 ≤ 400
  exact le_refl 400

theorem handlerRefused_of_refused
    (hplan : route.plan env cfg r = .ok p)
    (hrefused : Refused (authorizeStorage cfg r p.target p.action p.write)) :
    HandlerRefused env cfg route r := by
  obtain ⟨⟨resp, hresp, hstatus⟩, hno⟩ := hrefused
  unfold HandlerRefused
  rw [handle_of_plan_ok hplan, Traced.bind_of_error hresp]
  exact ⟨hno, hstatus⟩

/-- A request that is not signable is refused, with or without a registry. -/
theorem handlerRefused_of_not_signable
    (h : ¬Signable env cfg route r) :
    HandlerRefused env cfg route r := by
  cases hplan : route.plan env cfg r with
  | error e =>
      exact handlerRefused_of_plan_error hplan
  | ok p =>
      have hstop :
          callSigner cfg route.capability p =
            .stop (providerUnavailable .storage route.capability) := by
        apply callSigner_of_not_signable
        intro s hs
        by_contra hne
        exact h ⟨p, s, hplan, hs, Bool.of_not_eq_false hne⟩
      cases hresult : (authorizeStorage cfg r p.target p.action p.write).result with
      | error resp =>
          have hreg : 0 < mapLen cfg.storageTargets := by
            by_contra hzero
            rw [authorizeStorage_of_no_registry (by omega)] at hresult
            cases hresult
          rcases authorizeStorage_cases r hreg p.target p.action p.write with
            hrefused | ⟨hok, -⟩
          · exact handlerRefused_of_refused hplan hrefused
          · rw [hresult] at hok
            cases hok
      | ok value =>
          unfold HandlerRefused
          rw [handle_of_plan_ok hplan, Traced.bind_of_ok hresult, hstop]
          refine ⟨?_, ?_⟩
          · intro s op hmem
            have hmem' :
                Call.signer s op ∈ (authorizeStorage cfg r p.target p.action p.write).calls := by
              simpa [Traced.stop] using hmem
            exact authorizeStorage_no_signer p.target p.action p.write s op hmem'
          · show 400 ≤ 503
            decide

/-- With a registry the workload check is always made. -/
theorem enforced_of_registry
    (hon : WorkloadAuthOn cfg) (hreg : 0 < mapLen cfg.storageTargets)
    (htoken : ¬TokenAccepted cfg r) :
    HandlerRefused env cfg route r := by
  cases hplan : route.plan env cfg r with
  | error e =>
      exact handlerRefused_of_plan_error hplan
  | ok p =>
      rcases authorizeStorage_cases r hreg p.target p.action p.write with
        hrefused | ⟨-, hauth⟩
      · exact handlerRefused_of_refused hplan hrefused
      · exact absurd (hauth.workload hon) htoken

/-- Without a registry a signable request reaches the signer unchecked. -/
theorem signer_called_of_no_registry
    (hreg : mapLen cfg.storageTargets = 0) (h : Signable env cfg route r) :
    ∃ s op, Call.signer s op ∈ (handle env cfg route r).calls := by
  obtain ⟨p, s, hplan, hs, hinvoke⟩ := h
  refine ⟨s, p.op, ?_⟩
  rw [handle_of_plan_ok hplan, authorizeStorage_of_no_registry hreg,
    Traced.bind_of_ok (rfl : (Traced.done () : Traced Call Response Unit).result = .ok ())]
  exact List.mem_append_right _ (callSigner_of_signable route.capability hs hinvoke)

/-- **When workload authentication holds.**  It fails exactly for the signable
requests without an accepted token that meet an empty target registry. -/
theorem workload_auth_enforced_iff
    (env : Env) (cfg : Config) (route : Route) (r : Request) (hon : WorkloadAuthOn cfg) :
    WorkloadAuthEnforced env cfg route r ↔
      0 < mapLen cfg.storageTargets ∨ TokenAccepted cfg r ∨ ¬Signable env cfg route r := by
  refine ⟨?_, ?_⟩
  · intro henforced
    by_contra hnot
    push Not at hnot
    obtain ⟨hreg, htoken, hsignable⟩ := hnot
    exact htoken (henforced.1 (signer_called_of_no_registry (by omega) hsignable))
  · intro hcond
    by_cases htoken : TokenAccepted cfg r
    · exact ⟨fun _ => htoken, fun hnot => absurd htoken hnot⟩
    · rcases hcond with hreg | haccepted | hunsignable
      · exact (enforced_of_registry hon hreg htoken).enforced
      · exact absurd haccepted htoken
      · exact (handlerRefused_of_not_signable hunsignable).enforced

/-- In target mode the bare request is refused. -/
theorem workload_auth_enforced_target_mode :
    WorkloadAuthOn (workloadConfig photos) ∧
      WorkloadAuthEnforced (fixedEnv uploadInput) (workloadConfig photos) .upload bareRequest :=
  ⟨Or.inl rfl,
    (workload_auth_enforced_iff _ _ _ _ (Or.inl rfl)).mpr (Or.inl (by decide))⟩

/-- In bucket mode the bare request is signed although a verifier is configured
and workload authentication is required. -/
theorem workload_auth_skipped_bucket_mode :
    WorkloadAuthOn (workloadConfig ∅) ∧
      Route.upload ∈ storageRoutes (workloadConfig ∅) ∧
      ¬WorkloadAuthEnforced (fixedEnv uploadInput) (workloadConfig ∅) .upload bareRequest := by
  refine ⟨Or.inl rfl, by decide, ?_⟩
  have hcalls :
      (handle (fixedEnv uploadInput) (workloadConfig ∅) .upload bareRequest).calls =
        [.signer fixedSigner (.presignPut ⟨"bucket-b", "a/b", "", 60000000000⟩)] := rfl
  intro henforced
  obtain ⟨verify, token, principal, -, htoken, -⟩ :=
    henforced.1 ⟨fixedSigner, _, by rw [hcalls]; exact List.mem_singleton.mpr rfl⟩
  have hmissing : bearerToken bareRequest = .error "authorization header required" := rfl
  rw [hmissing] at htoken
  cases htoken

end Workload

end Storage
end GatewayRuntime
