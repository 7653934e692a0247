import GatewayRuntime.AppConfig
import GatewayRuntime.Lib.GoJson
import GatewayRuntime.PresignTtl
import GatewayRuntime.StorageSanitation

/-!
# The lifetime that reaches the signer

A validated lifetime is a `time.Duration`.  `RemoteSigner` sends it to the signer of
`deploy/compose/minio-signer` in whole seconds, the rest of the division is lost, and the
signer takes 900 seconds when the number it gets is zero or missing.

A lifetime of a second or more reaches the signer rounded down.  A shorter one, which the
configured default and a wrapped product can be, reaches it as 900 seconds:
`signer_lifetime_iff`.
-/

namespace GatewayRuntime
namespace RemoteSigner

open Storage

section Wire

/-- The fields of a JSON body that the signer reads; a field is missing when it is `none`. -/
structure SignerBody where
  bucket : Option String
  objectKey : Option String
  contentType : Option String
  expiresInSeconds : Option Int
  uploadID : Option String
  partNumber : Option Int
  parts : Option (List CompletedPart)

/-- `int64(d / time.Second)`. -/
def wholeSeconds (d : Duration) : Int :=
  (d / Duration.second).toInt

/-- `presignPayload`, which has the fields of `multipartInitiatePayload`. -/
def presignPayload (bucket objectKey contentType : String) (expiresIn : Duration) :
    SignerBody where
  bucket := some bucket
  objectKey := some objectKey
  contentType := GoJson.omitEmpty contentType
  expiresInSeconds := some (wholeSeconds expiresIn)
  uploadID := none
  partNumber := none
  parts := none

/-- `multipartPartPayload`. -/
def multipartPartPayload (req : MultipartPartRequest) : SignerBody where
  bucket := some req.bucket
  objectKey := some req.objectKey
  contentType := none
  expiresInSeconds := some (wholeSeconds req.expiresIn)
  uploadID := some req.uploadID
  partNumber := some req.partNumber.toInt
  parts := none

/-- The payloads that carry no lifetime: `metadataPayload`, and with an upload
`multipartAbortPayload` and `multipartCompletePayload`. -/
def objectPayload (bucket objectKey : String) (uploadID : Option String)
    (parts : Option (List CompletedPart)) : SignerBody where
  bucket := some bucket
  objectKey := some objectKey
  contentType := none
  expiresInSeconds := none
  uploadID := uploadID
  partNumber := none
  parts := parts

/-- The route and the body that a method of `RemoteSigner` posts. -/
def remoteRequest : SignerOp → String × SignerBody
  | .presignPut req =>
      ("/api/storage/presign/put",
        presignPayload req.bucket req.objectKey req.contentType req.expiresIn)
  | .presignGet req =>
      ("/api/storage/presign/get",
        presignPayload req.bucket req.objectKey req.contentType req.expiresIn)
  | .initiateMultipart req =>
      ("/api/storage/multipart/initiate",
        presignPayload req.bucket req.objectKey req.contentType req.expiresIn)
  | .presignMultipartPart req => ("/api/storage/multipart/part", multipartPartPayload req)
  | .completeMultipart req =>
      ("/api/storage/multipart/complete",
        objectPayload req.bucket req.objectKey (some req.uploadID) (some req.parts))
  | .abortMultipart req =>
      ("/api/storage/multipart/abort",
        objectPayload req.bucket req.objectKey (some req.uploadID) none)
  | .getMetadata req =>
      ("/api/storage/metadata", objectPayload req.bucket req.objectKey none none)

end Wire

section Signer

/-- A call of the signer on its S3 client. -/
inductive S3Call where
  | presignedPut (bucket key : String) (contentType : Option String) (expiresIn : Int)
  | presignedGet (bucket key : String) (expiresIn : Int)
  | createMultipartUpload (bucket key : String) (contentType : Option String)
  | presignedUploadPart (bucket key uploadID : String) (partNumber expiresIn : Int)
  | completeMultipartUpload (bucket key uploadID : String) (parts : List CompletedPart)
  | abortMultipartUpload (bucket key uploadID : String)
  | headObject (bucket key : String)
deriving DecidableEq

/-- The lifetime of a presigned URL. -/
def S3Call.expiresIn : S3Call → Option Int
  | presignedPut _ _ _ t => some t
  | presignedGet _ _ t => some t
  | presignedUploadPart _ _ _ _ t => some t
  | _ => none

/-- What the signer does for a request: the call on S3, and the number of seconds that the
answer adds to the present for its `expires_at`. -/
structure Served where
  call : S3Call
  expiresAt : Option Int
deriving DecidableEq

/-- Every lifetime that the signer uses for a request. -/
def Served.lifetimes (s : Served) : List Int :=
  s.call.expiresIn.toList ++ s.expiresAt.toList

/-- The `ttl` of `do_POST`: a missing number and zero stand for 900. -/
def SignerBody.ttl (body : SignerBody) : Int :=
  let n := body.expiresInSeconds.getD 900
  if n = 0 then 900 else n

/-- A content type that is there and not empty. -/
def SignerBody.givenType (body : SignerBody) : Option String :=
  body.contentType.filter fun s => s != ""

/-- `do_POST`; `none` when there is no such route, or a field is missing that it needs. -/
def doPost (path : String) (body : SignerBody) : Option Served :=
  let bucket := body.bucket.getD ""
  let key := body.objectKey.getD ""
  let ttl := body.ttl
  if path = "/api/storage/presign/put" then
    some ⟨.presignedPut bucket key body.givenType ttl, some ttl⟩
  else if path = "/api/storage/presign/get" then some ⟨.presignedGet bucket key ttl, some ttl⟩
  else if path = "/api/storage/multipart/initiate" then
    some ⟨.createMultipartUpload bucket key body.givenType, some ttl⟩
  else if path = "/api/storage/multipart/part" then
    body.uploadID.bind fun uploadID =>
      body.partNumber.map fun partNumber =>
        ⟨.presignedUploadPart bucket key uploadID partNumber ttl, some ttl⟩
  else if path = "/api/storage/multipart/complete" then
    body.parts.bind fun parts =>
      body.uploadID.map fun uploadID =>
        ⟨.completeMultipartUpload bucket key uploadID parts, none⟩
  else if path = "/api/storage/multipart/abort" then
    body.uploadID.map fun uploadID => ⟨.abortMultipartUpload bucket key uploadID, none⟩
  else if path = "/api/storage/metadata" then some ⟨.headObject bucket key, none⟩
  else none

/-- The signer serves a call for a lifetime `d` with lifetimes of at least a second and at
most `d`. -/
def LifetimeKept (op : SignerOp) (d : Duration) : Prop :=
  ∃ served, doPost (remoteRequest op).1 (remoteRequest op).2 = some served ∧
    served.lifetimes ≠ [] ∧
    ∀ t ∈ served.lifetimes, 1 ≤ t ∧ t * 1000000000 ≤ d.toInt

/-- The signer uses one number of seconds for a call with a lifetime. -/
theorem doPost_lifetimes
    {op : SignerOp} {d : Duration} (hop : op.ttl = some d) :
    (remoteRequest op).2.expiresInSeconds = some (wholeSeconds d) ∧
      ∃ served, doPost (remoteRequest op).1 (remoteRequest op).2 = some served ∧
        served.lifetimes ≠ [] ∧ ∀ t ∈ served.lifetimes, t = (remoteRequest op).2.ttl := by
  cases op with
  | presignPut req =>
      obtain rfl := Option.some.inj hop
      refine ⟨rfl, _, rfl, by simp [Served.lifetimes], ?_⟩
      simp [Served.lifetimes, S3Call.expiresIn]
  | presignGet req =>
      obtain rfl := Option.some.inj hop
      refine ⟨rfl, _, rfl, by simp [Served.lifetimes], ?_⟩
      simp [Served.lifetimes, S3Call.expiresIn]
  | initiateMultipart req =>
      obtain rfl := Option.some.inj hop
      refine ⟨rfl, _, rfl, by simp [Served.lifetimes], ?_⟩
      simp [Served.lifetimes, S3Call.expiresIn]
  | presignMultipartPart req =>
      obtain rfl := Option.some.inj hop
      refine ⟨rfl, _, rfl, by simp [Served.lifetimes], ?_⟩
      simp [Served.lifetimes, S3Call.expiresIn]
  | getMetadata req =>
      cases hop
  | completeMultipart req =>
      cases hop
  | abortMultipart req =>
      cases hop

theorem wholeSeconds_of_pos
    {d : Duration} (hd : 0 < d.toInt) :
    wholeSeconds d = d.toInt / 1000000000 := by
  have hbound := Int64.toInt_lt d
  unfold wholeSeconds
  rw [Int64.toInt_div, Duration.toInt_second, Int.tdiv_eq_ediv_of_nonneg (Int.le_of_lt hd),
    Int.bmod_eq_of_le (by omega) (by omega)]

/-- A positive lifetime reaches the signer if and only if it is a second or more. -/
theorem lifetimeKept_iff
    {op : SignerOp} {d : Duration} (hop : op.ttl = some d) (hpos : 0 < d) :
    LifetimeKept op d ↔ 1000000000 ≤ d.toInt := by
  have hd : 0 < d.toInt := by
    simpa using Int64.lt_iff_toInt_lt.mp hpos
  obtain ⟨hsent, served, hserved, hne, hlifetimes⟩ := doPost_lifetimes hop
  have httl : (remoteRequest op).2.ttl =
      if d.toInt / 1000000000 = 0 then 900 else d.toInt / 1000000000 := by
    simp only [SignerBody.ttl, hsent, Option.getD_some, wholeSeconds_of_pos hd]
  constructor
  · rintro ⟨served', hserved', -, hkept⟩
    obtain rfl : served = served' := Option.some.inj (hserved.symm.trans hserved')
    obtain ⟨t, ht⟩ := List.exists_mem_of_ne_nil _ hne
    obtain ⟨-, hle⟩ := hkept t ht
    rw [hlifetimes t ht, httl] at hle
    -- Less than a second is sent as zero, for which the signer takes 900 seconds.
    split_ifs at hle <;> omega
  · intro hsecond
    refine ⟨served, hserved, hne, ?_⟩
    intro t ht
    have htime : t = d.toInt / 1000000000 := by
      rw [hlifetimes t ht, httl, if_neg (by omega)]
    omega

end Signer

section Lifetime

/-- The lifetime that a request stands for is a second or more: the wrapped number of
nanoseconds it asks for, or the default when it asks for none. -/
def asksWholeSecond (c : App.StorageRoleConfig) (input : StorageRequest) : Prop :=
  if 0 < input.expiresInSeconds then
    1000000000 ≤ wrappedNanoseconds input.expiresInSeconds
  else c.defaultTTL = 0 ∨ 1000000000 ≤ c.defaultTTL.toInt

instance (c : App.StorageRoleConfig) (input : StorageRequest) :
    Decidable (asksWholeSecond c input) := by
  unfold asksWholeSecond
  infer_instance

theorem requestTTL_default
    {cfg : Config} {input : StorageRequest} {d : Duration}
    (hasks : ¬0 < input.expiresInSeconds) (httl : requestTTL input cfg = .ok d) :
    d = if cfg.storageDefaultTTL ≤ 0 then 15 * Duration.minute else cfg.storageDefaultTTL := by
  unfold requestTTL at httl
  simp only [hasks, if_false] at httl
  generalize (if cfg.storageDefaultTTL ≤ 0 then 15 * Duration.minute
    else cfg.storageDefaultTTL) = ttl at httl ⊢
  split at httl
  · cases httl
  · exact (Except.ok.inj httl).symm

/-- An accepted lifetime is a second or more if and only if the request stands for one. -/
theorem requestTTL_second_iff
    {c : App.Config} {cfg : Config} {input : StorageRequest} {d : Duration}
    (hvalid : c.validate = .ok ())
    (hdefault : cfg.storageDefaultTTL = c.storage.defaultTTL)
    (httl : requestTTL input cfg = .ok d) :
    1000000000 ≤ d.toInt ↔ asksWholeSecond c.storage input := by
  unfold asksWholeSecond
  by_cases hasks : 0 < input.expiresInSeconds
  · rw [if_pos hasks, ((requestTTL_eq_ok_iff hasks).mp httl).1, toInt_mul_second]
  · rw [if_neg hasks]
    rw [requestTTL_default hasks httl, hdefault]
    rcases App.defaultTTL_of_validate hvalid with hunset | ⟨hpos, -⟩
    · rw [hunset]
      decide
    · have hne : c.storage.defaultTTL ≠ 0 := by
        intro hzero
        rw [hzero] at hpos
        exact absurd hpos (by decide)
      simp [Int64.not_le.mpr hpos, hne]

/-- **The lifetime that the signer uses.**  For an accepted configuration, a request that is
accepted and a call made for it, the signer keeps to the validated lifetime if and only if
that is a second or more. -/
theorem signer_lifetime_iff
    (c : App.Config) (hvalid : c.validate = .ok ())
    (signer : Option StorageSigner) (providers : ProviderRegistry)
    (policy : Option Evaluator) (verifier : Option Verifier)
    (input : StorageRequest) (req : PresignedRequest)
    (hreq : validateStorageRequest input (c.roleConfig signer providers policy verifier) = .ok req)
    (op : SignerOp) (hop : op.ttl = some req.expiresIn) :
    LifetimeKept op req.expiresIn ↔ asksWholeSecond c.storage input := by
  have httl := (validateStorageRequest_ok hreq).2.2.2
  rw [lifetimeKept_iff hop (requestTTL_ok httl).1]
  exact requestTTL_second_iff hvalid rfl httl

/-- A storage role with one bucket and a given default lifetime. -/
def presigningConfig (defaultTTL : Duration) : App.Config where
  runtime := ⟨[.storage], AList.singleton .storage ["presign"]⟩
  http := ⟨":8080", "", "http://localhost:8080"⟩
  limits := ⟨1048576, 256, 50, 100, 10000, 1, 10⟩
  oidc := ⟨"", ""⟩
  store := ⟨"memory", ""⟩
  policyProvider := "static"
  session := ⟨28800000000000, 1800000000000, 60000000000⟩
  storage :=
    { signerBaseURL := "http://signer:19002"
      signerTimeout := 5000000000
      providers := ∅
      defaultTTL := defaultTTL
      maxTTL := 3600000000000
      targets := ∅
      accessPolicyURL := ""
      accessPolicyTimeout := 3000000000
      subjectHeader := "X-Auth-Subject"
      workloadAuth := ⟨"disabled", "", "", false⟩ }

/-- What the role validates for an upload in half a second, the default here. -/
def briefUpload : PresignedRequest :=
  ⟨"bucket-a", "users/1.png", "image/png", 500000000⟩

/-- The validated lifetime is half a second, the signer uses 900 seconds. -/
theorem signer_lifetime_of_half_second :
    (presigningConfig 500000000).validate = .ok () ∧
      validateStorageRequest (bucketInput 0)
          ((presigningConfig 500000000).roleConfig none ∅ none none) = .ok briefUpload ∧
      doPost (remoteRequest (.presignPut briefUpload)).1
          (remoteRequest (.presignPut briefUpload)).2 =
        some ⟨.presignedPut "bucket-a" "users/1.png" (some "image/png") 900, some 900⟩ ∧
      ¬LifetimeKept (.presignPut briefUpload) briefUpload.expiresIn := by
  refine ⟨by decide +kernel, by decide +kernel, by decide +kernel, ?_⟩
  rw [lifetimeKept_iff rfl (by decide)]
  decide

theorem signer_lifetime_iff_minute :
    LifetimeKept (.presignGet ⟨"bucket-a", "users/1.png", "image/png", 60000000000⟩) 60000000000 := by
  have hvalid : (presigningConfig 900000000000).validate = .ok () := by
    decide +kernel
  have hreq : validateStorageRequest (bucketInput 60)
      ((presigningConfig 900000000000).roleConfig none ∅ none none) =
        .ok ⟨"bucket-a", "users/1.png", "image/png", 60000000000⟩ := by
    decide +kernel
  exact (signer_lifetime_iff (presigningConfig 900000000000) hvalid none ∅ none none
    (bucketInput 60) _ hreq _ rfl).mpr (by decide +kernel)

end Lifetime

end RemoteSigner
end GatewayRuntime
