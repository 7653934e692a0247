import GatewayRuntime.StorageContract
import GatewayRuntime.StorageSanitation

/-!
# Equivalent entry points of the storage role

An upload can be asked for at three routes and a download, by its body, at two.
With a registry of targets these routes make the same calls to the verifier, the
policy and the signer, and answer with the same status.

The routes differ in what they do before authorization: the intent routes also run
the validation of the contract, which accepts every request that has come so far
(`validateIntent_of_validateStorageRequest`), and the presign route passes the target
on as the client sent it, which is trimmed wherever it is used.
-/

namespace GatewayRuntime
namespace Storage

open GoText

section Serving

variable {cfg : Config} {r : Request}

/-- Two handlers make the same calls and answer with the same status. -/
def SameService (x y : Traced Call Response Response) : Prop :=
  x.calls = y.calls ∧ (answer x).status = (answer y).status

theorem authorizeStorage_congr
    {target target' : String} (h : trimSpace target = trimSpace target')
    (action : String) (write : Bool) :
    authorizeStorage cfg r target action write = authorizeStorage cfg r target' action write := by
  unfold authorizeStorage
  rw [h]

theorem storageSignerForTarget_of_trimSpace
    {target target' : String} (h : trimSpace target = trimSpace target') :
    storageSignerForTarget cfg target = storageSignerForTarget cfg target' := by
  unfold storageSignerForTarget
  rw [h]

/-- After authorization a plan is carried out alike for two ways to write its target, its
capability and its answer, if the answers have the same status. -/
theorem sameService_callSigner
    {target target' action : String} {write : Bool} {op : SignerOp}
    {reply reply' : op.Result → Response}
    (htarget : trimSpace target = trimSpace target')
    (hreply : ∀ result, (reply result).status = (reply' result).status)
    (capability capability' : String) :
    SameService
      (callSigner cfg capability ⟨target, action, write, op, reply⟩)
      (callSigner cfg capability' ⟨target', action, write, op, reply'⟩) := by
  unfold callSigner
  simp only [storageSignerForTarget_of_trimSpace htarget]
  cases storageSignerForTarget cfg target' with
  | none =>
      exact ⟨rfl, rfl⟩
  | some signer =>
      cases hinvoke : signer.invoke op with
      | none =>
          simp only [hinvoke]
          exact ⟨rfl, rfl⟩
      | some result =>
          simp only [hinvoke]
          cases result with
          | error e =>
              exact ⟨rfl, rfl⟩
          | ok value =>
              exact ⟨rfl, hreply value⟩

theorem sameService_bind
    {x : Traced Call Response Unit} {f g : Unit → Traced Call Response Response}
    (h : SameService (f ()) (g ())) :
    SameService (x >>= f) (x >>= g) := by
  cases hx : x.result with
  | error resp =>
      rw [Traced.bind_of_error hx, Traced.bind_of_error hx]
      exact ⟨rfl, rfl⟩
  | ok _ =>
      rw [Traced.bind_of_ok hx, Traced.bind_of_ok hx]
      exact ⟨congrArg (x.calls ++ ·) h.1, h.2⟩

/-- Two plans for the same target, action and method call are served alike. -/
theorem sameService_serve
    {target target' action : String} {write : Bool} {op : SignerOp}
    {reply reply' : op.Result → Response}
    (htarget : trimSpace target = trimSpace target')
    (hreply : ∀ result, (reply result).status = (reply' result).status)
    (capability capability' : String) :
    SameService
      (serve cfg r capability (.ok ⟨target, action, write, op, reply⟩))
      (serve cfg r capability' (.ok ⟨target', action, write, op, reply'⟩)) := by
  unfold serve
  simp only [authorizeStorage_congr htarget]
  exact sameService_bind (sameService_callSigner htarget hreply capability capability')

/-- Two refused requests are served alike. -/
theorem sameService_refused (capability capability' e : String) :
    SameService (serve cfg r capability (.error e)) (serve cfg r capability' (.error e)) :=
  ⟨rfl, rfl⟩

end Serving

section Intents

variable {cfg : Config} {input : StorageRequest} {req : PresignedRequest}

/-- With a registry the validation of an intent accepts what `validateStorageRequest`
has accepted. -/
theorem validateIntent_of_validateStorageRequest
    (hreg : 0 < mapLen cfg.storageTargets)
    (h : validateStorageRequest input cfg = .ok req) :
    validateIntent (trimSpace input.target) req.objectKey req.expiresIn = .ok () := by
  obtain ⟨hbucket, hkey, -, httl⟩ := validateStorageRequest_ok h
  have htarget : trimSpace input.target ≠ "" := by
    intro hempty
    simp [requestBucket, hreg, hempty] at hbucket
  have hnonneg : ¬req.expiresIn < 0 := Int64.not_lt.mpr (Int64.le_of_lt (requestTTL_ok httl).1)
  unfold validateIntent
  rw [trimSpace_trimSpace, if_neg htarget, validateObjectKey_of_requestKey hkey]
  simp [hnonneg]

end Intents

section EntryPoints

variable {env : Env} {cfg : Config} {r : Request}

/-- The operations that ask for an upload, in any letter case and with space around. -/
def asksUpload (operation : String) : Prop :=
  toLower (trimSpace operation) = "put" ∨ toLower (trimSpace operation) = "upload"

/-- The operations that ask for a download. -/
def asksDownload (operation : String) : Prop :=
  toLower (trimSpace operation) = "get" ∨ toLower (trimSpace operation) = "download"

/-- A storage request without its operation, which only the presign route reads. -/
def StorageRequest.withoutOperation (input : StorageRequest) : StorageRequest :=
  { input with operation := "" }

/-- `r'` is the presign request for what `r` asks of its own route: the headers and the
fields of the body are the same, and the operation names the route of `r`. -/
structure PresignOf (env : Env) (asks : String → Prop) (r r' : Request) : Prop where
  headers : r'.headers = r.headers
  fields : (env.json.storageRequest (64 * 1024) r'.body).map StorageRequest.withoutOperation =
    (env.json.storageRequest (64 * 1024) r.body).map StorageRequest.withoutOperation
  operation : ∀ input, env.json.storageRequest (64 * 1024) r'.body = some input →
    asks input.operation

/-- What a route does with the body: it does not decode, or it is not valid, or it is. -/
theorem decodeStorageRequest_cases (env : Env) (cfg : Config) (r : Request) :
    (env.json.storageRequest (64 * 1024) r.body = none ∧
        decodeStorageRequest env.json r cfg = .error "invalid_request") ∨
      ∃ input, env.json.storageRequest (64 * 1024) r.body = some input ∧
        ((∃ e, validateStorageRequest input cfg = .error e ∧
            decodeStorageRequest env.json r cfg = .error e) ∨
          ∃ req, validateStorageRequest input cfg = .ok req ∧
            decodeStorageRequest env.json r cfg = .ok (req, trimSpace input.target)) := by
  unfold decodeStorageRequest
  cases env.json.storageRequest (64 * 1024) r.body with
  | none =>
      exact Or.inl ⟨rfl, rfl⟩
  | some input =>
      refine Or.inr ⟨input, rfl, ?_⟩
      cases hvalid : validateStorageRequest input cfg with
      | error e =>
          exact Or.inl ⟨e, rfl, by simp only [hvalid]; rfl⟩
      | ok req =>
          exact Or.inr ⟨req, rfl, by simp only [hvalid]; rfl⟩

/-- A body that does not decode, or is not valid, is refused by all the routes with the
same text. -/
theorem plans_error_or_valid (env : Env) (cfg : Config) (r : Request) :
    (∃ e, uploadPlan env cfg r = .error e ∧ intentsUploadPlan env cfg r = .error e ∧
        intentsDownloadPlan env cfg r = .error e ∧ presignPlan env cfg r = .error e) ∨
      ∃ input req, env.json.storageRequest (64 * 1024) r.body = some input ∧
        validateStorageRequest input cfg = .ok req ∧
        decodeStorageRequest env.json r cfg = .ok (req, trimSpace input.target) := by
  rcases decodeStorageRequest_cases env cfg r with
    ⟨hnone, herror⟩ | ⟨input, hsome, ⟨e, hvalid, herror⟩ | ⟨req, hvalid, hok⟩⟩
  · refine Or.inl ⟨"invalid_request", ?_⟩
    simp [uploadPlan, intentsUploadPlan, intentsDownloadPlan, presignPlan, herror, hnone,
      bind, Except.bind]
  · refine Or.inl ⟨e, ?_⟩
    simp [uploadPlan, intentsUploadPlan, intentsDownloadPlan, presignPlan, herror, hsome,
      hvalid, bind, Except.bind]
  · exact Or.inr ⟨input, req, hsome, hvalid, hok⟩

/-- The plans for a valid body: the intent routes accept it as well. -/
theorem plans_of_ok
    {input : StorageRequest} {req : PresignedRequest}
    (hreg : 0 < mapLen cfg.storageTargets)
    (hvalid : validateStorageRequest input cfg = .ok req)
    (h : decodeStorageRequest env.json r cfg = .ok (req, trimSpace input.target)) :
    uploadPlan env cfg r =
        .ok ⟨trimSpace input.target, "storage.upload", true, .presignPut req, storageResult⟩ ∧
      intentsUploadPlan env cfg r =
        .ok ⟨trimSpace input.target, "storage.upload", true, .presignPut req,
          fun op => okNoStore (.grant (grantFromOperation op))⟩ ∧
      intentsDownloadPlan env cfg r =
        .ok ⟨trimSpace input.target, "storage.download", false, .presignGet req,
          fun op => okNoStore (.grant (grantFromOperation op))⟩ := by
  have hintent := validateIntent_of_validateStorageRequest hreg hvalid
  refine ⟨by rw [uploadPlan, h]; rfl, ?_, ?_⟩
  · simp only [intentsUploadPlan, h, bind, Except.bind, hintent]
  · simp only [intentsDownloadPlan, h, bind, Except.bind, hintent]

theorem presignPlan_of_upload
    {input : StorageRequest} {req : PresignedRequest}
    (hsome : env.json.storageRequest (64 * 1024) r.body = some input)
    (hvalid : validateStorageRequest input cfg = .ok req)
    (hasks : asksUpload input.operation) :
    presignPlan env cfg r =
      .ok ⟨input.target, "storage.upload", true, .presignPut req, storageResult⟩ := by
  unfold asksUpload at hasks
  simp only [presignPlan, hsome, hvalid, bind, Except.bind, hasks, if_true]

theorem presignPlan_of_download
    {input : StorageRequest} {req : PresignedRequest}
    (hsome : env.json.storageRequest (64 * 1024) r.body = some input)
    (hvalid : validateStorageRequest input cfg = .ok req)
    (hasks : asksDownload input.operation) :
    presignPlan env cfg r =
      .ok ⟨input.target, "storage.download", false, .presignGet req, storageResult⟩ := by
  have hnot : ¬(toLower (trimSpace input.operation) = "put" ∨
      toLower (trimSpace input.operation) = "upload") := by
    rcases hasks with h | h <;> rw [h] <;> decide
  unfold asksDownload at hasks
  simp only [presignPlan, hsome, hvalid, bind, Except.bind, hnot, hasks, if_true, if_false]

theorem decodeStorageRequest_of_fields
    {asks : String → Prop} {r' : Request} (h : PresignOf env asks r r') :
    decodeStorageRequest env.json r' cfg = decodeStorageRequest env.json r cfg := by
  have hfields := h.fields
  unfold decodeStorageRequest
  cases hr' : env.json.storageRequest (64 * 1024) r'.body with
  | none =>
      rw [hr'] at hfields
      rw [Option.map_eq_none_iff.mp hfields.symm]
  | some input' =>
      rw [hr'] at hfields
      obtain ⟨input, hr, hinput⟩ := Option.map_eq_some_iff.mp hfields.symm
      have htarget : input.target = input'.target := by
        have htargets := congrArg StorageRequest.target hinput
        exact htargets
      have hvalid : validateStorageRequest input.withoutOperation cfg =
          validateStorageRequest input'.withoutOperation cfg := by rw [hinput]
      rw [hr]
      show (do
          let req ← validateStorageRequest input'.withoutOperation cfg
          Except.ok (req, trimSpace input'.target)) = (do
          let req ← validateStorageRequest input.withoutOperation cfg
          Except.ok (req, trimSpace input.target))
      rw [hvalid, htarget]

theorem serve_of_headers
    {r' : Request} (h : r'.headers = r.headers)
    (capability : String) (plan : Except String Plan) :
    serve cfg r' capability plan = serve cfg r capability plan := by
  have hheader : ∀ name, r'.header name = r.header name := by
    intro name
    rw [Request.header, Request.header, h]
  have hextract : ∀ actor service legacy,
      extract r' actor service legacy = extract r actor service legacy := by
    intro actor service legacy
    simp only [extract, firstHeader, hheader]
  have htoken : bearerToken r' = bearerToken r := by
    unfold bearerToken
    rw [hheader]
  unfold serve authorizeStorage checkWorkload
  simp only [hextract, htoken]

/-- The two routes for an upload intent serve a request alike. -/
theorem sameService_intentsUpload (hreg : 0 < mapLen cfg.storageTargets) (r : Request) :
    SameService (handle env cfg .upload r) (handle env cfg .intentsUpload r) := by
  unfold handle
  simp only [Route.plan]
  rcases plans_error_or_valid env cfg r with
    ⟨e, hupload, hintent, -, -⟩ | ⟨input, req, -, hvalid, hok⟩
  · rw [hupload, hintent]
    exact sameService_refused _ _ e
  · obtain ⟨hupload, hintent, -⟩ := plans_of_ok hreg hvalid hok
    rw [hupload, hintent]
    apply sameService_serve rfl
    exact fun _ => rfl

/-- The presign route serves an upload as the upload route does. -/
theorem sameService_presign_upload
    {r' : Request} (hreg : 0 < mapLen cfg.storageTargets)
    (h : PresignOf env asksUpload r r') :
    SameService (handle env cfg .upload r) (handle env cfg .presign r') := by
  have hroute : uploadPlan env cfg r = uploadPlan env cfg r' := by
    rw [uploadPlan, uploadPlan, decodeStorageRequest_of_fields h]
  unfold handle
  simp only [Route.plan]
  rw [hroute, ← serve_of_headers h.headers]
  rcases plans_error_or_valid env cfg r' with
    ⟨e, hupload, -, -, hpresign⟩ | ⟨input, req, hsome, hvalid, hok⟩
  · rw [hupload, hpresign]
    exact sameService_refused _ _ e
  · obtain ⟨hupload, -, -⟩ := plans_of_ok hreg hvalid hok
    rw [hupload, presignPlan_of_upload hsome hvalid (h.operation input hsome)]
    apply sameService_serve (trimSpace_trimSpace _)
    exact fun _ => rfl

/-- The presign route serves a download as the route for download intents does. -/
theorem sameService_presign_download
    {r' : Request} (hreg : 0 < mapLen cfg.storageTargets)
    (h : PresignOf env asksDownload r r') :
    SameService (handle env cfg .intentsDownload r) (handle env cfg .presign r') := by
  have hroute : intentsDownloadPlan env cfg r = intentsDownloadPlan env cfg r' := by
    rw [intentsDownloadPlan, intentsDownloadPlan, decodeStorageRequest_of_fields h]
  unfold handle
  simp only [Route.plan]
  rw [hroute, ← serve_of_headers h.headers]
  rcases plans_error_or_valid env cfg r' with
    ⟨e, -, -, hintent, hpresign⟩ | ⟨input, req, hsome, hvalid, hok⟩
  · rw [hintent, hpresign]
    exact sameService_refused _ _ e
  · obtain ⟨-, -, hintent⟩ := plans_of_ok hreg hvalid hok
    rw [hintent, presignPlan_of_download hsome hvalid (h.operation input hsome)]
    apply sameService_serve (trimSpace_trimSpace _)
    exact fun _ => rfl

theorem mem_storageRoutes
    {capability : String} {route : Route}
    (hrole : Role.storage ∈ cfg.selection.roles)
    (hcapability : capability ∈ cfg.selection.capabilities .storage)
    (hroute : route ∈ registerStorageCapability capability) :
    route ∈ storageRoutes cfg := by
  unfold storageRoutes
  refine List.mem_flatMap.mpr ⟨.storage, hrole, ?_⟩
  rw [if_pos rfl]
  exact List.mem_flatMap.mpr ⟨capability, hcapability, hroute⟩

/-- **The equivalent entry points agree.**  With a registry of targets and the three
capabilities all the routes are there; those for an upload, and those for a download by
its body, make the same calls and answer with the same status. -/
theorem storage_entry_points_agree
    (env : Env) (cfg : Config)
    (hreg : 0 < mapLen cfg.storageTargets)
    (hrole : Role.storage ∈ cfg.selection.roles)
    (hcapabilities : ∀ c ∈ ["upload", "download", "presign"],
      c ∈ cfg.selection.capabilities .storage)
    (r r' : Request) :
    (∀ route ∈ [Route.upload, .intentsUpload, .intentsDownload, .presign],
      route ∈ storageRoutes cfg) ∧
      SameService (handle env cfg .upload r) (handle env cfg .intentsUpload r) ∧
      (PresignOf env asksUpload r r' →
        SameService (handle env cfg .upload r) (handle env cfg .presign r')) ∧
      (PresignOf env asksDownload r r' →
        SameService (handle env cfg .intentsDownload r) (handle env cfg .presign r')) := by
  refine ⟨?_, sameService_intentsUpload hreg r, sameService_presign_upload hreg,
    sameService_presign_download hreg⟩
  have hupload := hcapabilities "upload" (by decide)
  have hdownload := hcapabilities "download" (by decide)
  have hpresign := hcapabilities "presign" (by decide)
  intro route hroute
  simp only [List.mem_cons, List.not_mem_nil, or_false] at hroute
  rcases hroute with rfl | rfl | rfl | rfl
  · exact mem_storageRoutes hrole hupload (by decide)
  · exact mem_storageRoutes hrole hupload (by decide)
  · exact mem_storageRoutes hrole hdownload (by decide)
  · exact mem_storageRoutes hrole hpresign (by decide)

/-- The photos with the three capabilities. -/
def grantingConfig : Config :=
  { workloadConfig photos with
    selection := ⟨[.storage], fun _ => ["upload", "download", "presign"]⟩ }

/-- An upload at the presign route, with blanks and capitals. -/
def spacedInput : StorageRequest :=
  ⟨" photos ", " Put", "", " a/b", "", 60⟩

theorem storage_entry_points_agree_upload :
    SameService (handle (fixedEnv spacedInput) grantingConfig .upload signedRequest)
        (handle (fixedEnv spacedInput) grantingConfig .presign signedRequest) ∧
      Call.signer fixedSigner (.presignPut ⟨"bucket-a", "a/b", "", 60000000000⟩) ∈
        (handle (fixedEnv spacedInput) grantingConfig .presign signedRequest).calls := by
  have hasks : PresignOf (fixedEnv spacedInput) asksUpload signedRequest signedRequest := by
    refine ⟨rfl, rfl, ?_⟩
    intro input hinput
    cases hinput
    exact Or.inl (by decide)
  have hcapabilities : ∀ c ∈ ["upload", "download", "presign"],
      c ∈ grantingConfig.selection.capabilities .storage := fun _ hc => hc
  obtain ⟨-, -, hpresign, -⟩ := storage_entry_points_agree (fixedEnv spacedInput) grantingConfig
    (by decide) (by decide) hcapabilities signedRequest signedRequest
  refine ⟨hpresign hasks, ?_⟩
  have hcalls : (handle (fixedEnv spacedInput) grantingConfig .presign signedRequest).calls =
      [.verify "good" (.ok ⟨"svc", "sub", "iss"⟩),
        .authorize ⟨"ann", "storage.upload", "photos", Finmap.singleton "service_id" "svc"⟩
          (.ok ⟨true, ""⟩),
        .signer fixedSigner (.presignPut ⟨"bucket-a", "a/b", "", 60000000000⟩)] := rfl
  rw [hcalls]
  simp

end EntryPoints

end Storage
end GatewayRuntime
