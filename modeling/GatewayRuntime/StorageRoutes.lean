import GatewayRuntime.StorageAccess
import GatewayRuntime.StorageRequest

/-!
# The storage routes

The twelve handlers registered by `registerStorageCapability` and
`registerMultipartRoutes`.  Each of them first decodes and validates the request
without calling a collaborator, then runs `authorizeStorage`, chooses the signer
with `storageSignerForTarget`, asserts the interface it needs and makes one
method call.

The first part is the route's own (`Route.plan`): it fixes the target string,
the action and the write flag handed to `authorizeStorage`, the method called
with its argument, and the answer given on success.  The second part is common
(`serve`).  A failure of the first part is answered with status 400 and its
text.
-/

namespace GatewayRuntime
namespace Storage

open GoText

/-- What a route does once a request is validated. -/
structure Plan where
  target : String
  action : String
  write : Bool
  op : SignerOp
  reply : op.Result → Response

/-- The parts of the standard library that a request meets: the JSON decoder
and the order of the passes over maps. -/
structure Env where
  json : JsonDecoder
  ranges : Ranges

section Plans

variable (env : Env) (cfg : Config) (r : Request)

/-- `POST /storage/upload`. -/
def uploadPlan : Except String Plan := do
  let (req, target) ← decodeStorageRequest env.json r cfg
  .ok ⟨target, "storage.upload", true, .presignPut req, storageResult⟩

/-- `POST /storage/intents/upload`. -/
def intentsUploadPlan : Except String Plan := do
  let (req, target) ← decodeStorageRequest env.json r cfg
  validateIntent target req.objectKey req.expiresIn
  .ok ⟨target, "storage.upload", true, .presignPut req,
    fun op => okNoStore (.grant (grantFromOperation op))⟩

/-- `GET /storage/download`. -/
def downloadPlan : Except String Plan := do
  let (req, target) ← storageRequestFromQuery r cfg
  .ok ⟨target, "storage.download", false, .presignGet req, storageResult⟩

/-- `POST /storage/intents/download`. -/
def intentsDownloadPlan : Except String Plan := do
  let (req, target) ← decodeStorageRequest env.json r cfg
  validateIntent target req.objectKey req.expiresIn
  .ok ⟨target, "storage.download", false, .presignGet req,
    fun op => okNoStore (.grant (grantFromOperation op))⟩

/-- `POST /storage/presign`; the target is passed on as the client sent it. -/
def presignPlan : Except String Plan :=
  match env.json.storageRequest (64 * 1024) r.body with
  | none => .error "invalid_request"
  | some input => do
      let req ← validateStorageRequest input cfg
      let operation := toLower (trimSpace input.operation)
      if operation = "put" ∨ operation = "upload" then
        .ok ⟨input.target, "storage.upload", true, .presignPut req, storageResult⟩
      else if operation = "get" ∨ operation = "download" then
        .ok ⟨input.target, "storage.download", false, .presignGet req, storageResult⟩
      else .error "operation must be put/upload or get/download"

/-- `GET /storage/metadata`. -/
def metadataPlan : Except String Plan := do
  let (req, target) ← storageRequestFromQuery r cfg
  .ok ⟨target, "storage.metadata", false, .getMetadata ⟨req.bucket, req.objectKey⟩,
    fun out => okNoStore (.metadata out)⟩

/-- The intent of a verification request. -/
def verificationIntent (input : VerificationRequest) : UploadVerificationIntent where
  target := trimSpace input.target
  objectKey := trimSpace input.objectKey
  expectedSize := input.expectedSize
  expectedContentType := trimSpace input.expectedContentType
  expectedChecksums := input.expectedChecksums

/-- The answer of `POST /storage/intents/verify` to the metadata it got. -/
def verificationReply (intent : UploadVerificationIntent) (m : StorageMetadata) : Response :=
  match verifyUpload env.ranges intent m with
  | .error e => errorResponse 400 e
  | .ok result => okNoStore (.verification result)

/-- `POST /storage/intents/verify`. -/
def intentsVerifyPlan : Except String Plan :=
  match env.json.verificationRequest (256 * 1024) r.body with
  | none => .error "invalid_request"
  | some input => do
      let intent := verificationIntent input
      intent.validate env.ranges.validate
      let base ← validateStorageRequest
        ⟨intent.target, "", "", intent.objectKey, "", 0⟩ cfg
      .ok ⟨intent.target, "storage.metadata", false,
        .getMetadata ⟨base.bucket, base.objectKey⟩, verificationReply env intent⟩

/-- The answer of `GET /storage/references/metadata` to the metadata it got. -/
def referenceReply (target : String) (m : StorageMetadata) : Response :=
  let ref := referenceFromMetadata target m
  match ref.validate with
  | .error _ => storageProviderError
  | .ok () => okNoStore (.reference ref)

/-- `GET /storage/references/metadata`. -/
def referencesMetadataPlan : Except String Plan := do
  let (req, target) ← storageRequestFromQuery r cfg
  .ok ⟨target, "storage.metadata", false, .getMetadata ⟨req.bucket, req.objectKey⟩,
    referenceReply target⟩

/-- The common start of the multipart routes: decode the body, then validate the
storage request made of the given fields of it. -/
def multipartBase (fields : MultipartRequest → StorageRequest) :
    Except String (MultipartRequest × PresignedRequest) :=
  match env.json.multipartRequest (256 * 1024) r.body with
  | none => .error "invalid_request"
  | some input => do
      let base ← validateStorageRequest (fields input) cfg
      .ok (input, base)

/-- The trimmed upload id, which must not be empty. -/
def requiredUploadID (input : MultipartRequest) : Except String String :=
  if trimSpace input.uploadID = "" then .error "upload_id is required"
  else .ok (trimSpace input.uploadID)

/-- `POST /storage/multipart/initiate`. -/
def multipartInitiatePlan : Except String Plan := do
  let (input, base) ← multipartBase env cfg r fun input =>
    ⟨input.target, "", input.bucket, input.objectKey, input.contentType,
      input.expiresInSeconds⟩
  .ok ⟨input.target, "storage.multipart", true,
    .initiateMultipart ⟨base.bucket, base.objectKey, base.contentType, base.expiresIn⟩,
    fun out => okNoStore (.multipartUpload out)⟩

/-- `POST /storage/multipart/part`. -/
def multipartPartPlan : Except String Plan := do
  let (input, base) ← multipartBase env cfg r fun input =>
    ⟨input.target, "", input.bucket, input.objectKey, "", input.expiresInSeconds⟩
  let uploadID ← requiredUploadID input
  if input.partNumber < 1 || 10000 < input.partNumber then
    .error "part_number must be between 1 and 10000"
  else
    .ok ⟨input.target, "storage.multipart", true,
      .presignMultipartPart
        ⟨base.bucket, base.objectKey, uploadID, input.partNumber, base.expiresIn⟩,
      storageResult⟩

/-- `POST /storage/multipart/complete`; this answer carries no `Cache-Control`. -/
def multipartCompletePlan : Except String Plan := do
  let (input, base) ← multipartBase env cfg r fun input =>
    ⟨input.target, "", input.bucket, input.objectKey, "", 0⟩
  let uploadID ← requiredUploadID input
  let parts ← validateCompletedParts input.parts
  .ok ⟨input.target, "storage.multipart", true,
    .completeMultipart ⟨base.bucket, base.objectKey, uploadID, parts⟩,
    fun out => ⟨200, false, .multipartComplete out⟩⟩

/-- `POST /storage/multipart/abort`. -/
def multipartAbortPlan : Except String Plan := do
  let (input, base) ← multipartBase env cfg r fun input =>
    ⟨input.target, "", input.bucket, input.objectKey, "", 0⟩
  let uploadID ← requiredUploadID input
  .ok ⟨input.target, "storage.multipart", true,
    .abortMultipart ⟨base.bucket, base.objectKey, uploadID⟩,
    fun _ => ⟨204, false, .empty⟩⟩

end Plans

/-- The storage routes. -/
inductive Route where
  | upload
  | intentsUpload
  | download
  | intentsDownload
  | presign
  | metadata
  | intentsVerify
  | referencesMetadata
  | multipartInitiate
  | multipartPart
  | multipartComplete
  | multipartAbort
deriving DecidableEq

namespace Route

/-- The pattern a route is registered under. -/
def pattern : Route → String
  | upload => "POST /storage/upload"
  | intentsUpload => "POST /storage/intents/upload"
  | download => "GET /storage/download"
  | intentsDownload => "POST /storage/intents/download"
  | presign => "POST /storage/presign"
  | metadata => "GET /storage/metadata"
  | intentsVerify => "POST /storage/intents/verify"
  | referencesMetadata => "GET /storage/references/metadata"
  | multipartInitiate => "POST /storage/multipart/initiate"
  | multipartPart => "POST /storage/multipart/part"
  | multipartComplete => "POST /storage/multipart/complete"
  | multipartAbort => "POST /storage/multipart/abort"

/-- The capability a route belongs to. -/
def capability : Route → String
  | upload | intentsUpload => "upload"
  | download | intentsDownload => "download"
  | presign => "presign"
  | metadata | intentsVerify | referencesMetadata => "metadata"
  | multipartInitiate | multipartPart | multipartComplete | multipartAbort => "multipart"

/-- The part of a route before authorization. -/
def plan (env : Env) (cfg : Config) (r : Request) : Route → Except String Plan
  | upload => uploadPlan env cfg r
  | intentsUpload => intentsUploadPlan env cfg r
  | download => downloadPlan cfg r
  | intentsDownload => intentsDownloadPlan env cfg r
  | presign => presignPlan env cfg r
  | metadata => metadataPlan cfg r
  | intentsVerify => intentsVerifyPlan env cfg r
  | referencesMetadata => referencesMetadataPlan cfg r
  | multipartInitiate => multipartInitiatePlan env cfg r
  | multipartPart => multipartPartPlan env cfg r
  | multipartComplete => multipartCompletePlan env cfg r
  | multipartAbort => multipartAbortPlan env cfg r

end Route

/-- `registerStorageCapability`: the routes of one capability. -/
def registerStorageCapability : String → List Route
  | "upload" => [.upload, .intentsUpload]
  | "download" => [.download, .intentsDownload]
  | "presign" => [.presign]
  | "multipart" => [.multipartInitiate, .multipartPart, .multipartComplete, .multipartAbort]
  | "metadata" => [.metadata, .intentsVerify, .referencesMetadata]
  | _ => []

/-- The storage routes that `Run` registers for a configuration. -/
def storageRoutes (cfg : Config) : List Route :=
  cfg.selection.roles.flatMap fun role =>
    if role = .storage then
      (cfg.selection.capabilities .storage).flatMap registerStorageCapability
    else []

/-- Answer with what the called method returned. -/
def Plan.finish (p : Plan) : Except String p.op.Result → Traced Call Response Response
  | .error _ => .stop storageProviderError
  | .ok result => .done (p.reply result)

/-- The part of a handler after authorization: choose the signer, assert the
interface, make the call and answer. -/
def callSigner (cfg : Config) (capability : String) (p : Plan) :
    Traced Call Response Response :=
  match storageSignerForTarget cfg p.target with
  | none => .stop (providerUnavailable .storage capability)
  | some signer =>
      match signer.invoke p.op with
      | none => .stop (providerUnavailable .storage capability)
      | some answer => Traced.call (.signer signer p.op) answer >>= p.finish

/-- A handler from its plan. -/
def serve (cfg : Config) (r : Request) (capability : String) (plan : Except String Plan) :
    Traced Call Response Response :=
  match plan with
  | .error e => .stop (errorResponse 400 e)
  | .ok p => do
      authorizeStorage cfg r p.target p.action p.write
      callSigner cfg capability p

/-- The handler of a route. -/
def handle (env : Env) (cfg : Config) (route : Route) (r : Request) :
    Traced Call Response Response :=
  serve cfg r route.capability (route.plan env cfg r)

/-- The response a handler writes. -/
def answer (t : Traced Call Response Response) : Response :=
  match t.result with
  | .error resp => resp
  | .ok resp => resp

end Storage
end GatewayRuntime
