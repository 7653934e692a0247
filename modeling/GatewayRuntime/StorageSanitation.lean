import GatewayRuntime.CompletedParts
import GatewayRuntime.StorageAuthorization

/-!
# Signer calls are sanitised

What reaches a signer is what `validateStorageRequest` and
`validateCompletedParts` made of the client's fields, never a field as it was
sent.  `Sanitised` says what the argument of a method call looks like then, and
`signer_call_sanitised` that every call of every route looks so.

The proof has two halves: what each validation establishes
(`requestKey_ok`, `requestTTL_ok`, `validateCompletedParts_ok`), and which
validated values each route puts into its call (`plan_sanitised`).
-/

namespace GatewayRuntime
namespace Storage

open GoText

section Arguments

namespace SignerOp

/-- The `ObjectKey` field of the argument. -/
def objectKey : SignerOp → String
  | presignPut req => req.objectKey
  | presignGet req => req.objectKey
  | getMetadata req => req.objectKey
  | initiateMultipart req => req.objectKey
  | presignMultipartPart req => req.objectKey
  | completeMultipart req => req.objectKey
  | abortMultipart req => req.objectKey

/-- The `ExpiresIn` field of the argument, where there is one. -/
def ttl : SignerOp → Option Duration
  | presignPut req => some req.expiresIn
  | presignGet req => some req.expiresIn
  | initiateMultipart req => some req.expiresIn
  | presignMultipartPart req => some req.expiresIn
  | _ => none

/-- The `UploadID` field of the argument, where there is one. -/
def uploadID : SignerOp → Option String
  | presignMultipartPart req => some req.uploadID
  | completeMultipart req => some req.uploadID
  | abortMultipart req => some req.uploadID
  | _ => none

/-- The `PartNumber` field of the argument, where there is one. -/
def partNumber : SignerOp → Option Int64
  | presignMultipartPart req => some req.partNumber
  | _ => none

/-- The `Parts` field of the argument, where there is one. -/
def parts : SignerOp → Option (List CompletedPart)
  | completeMultipart req => some req.parts
  | _ => none

end SignerOp

/-- An object key that stays inside its bucket. -/
structure CleanKey (key : String) : Prop where
  nonempty : key ≠ ""
  trimmed : trimSpace key = key
  relative : hasPrefix key "/" = false
  no_parent : contains key ".." = false
  no_backslash : contains key "\\" = false

/-- A list of completed parts made from the parts a client sent. -/
structure CleanParts (sent parts : List CompletedPart) : Prop where
  in_order : parts = sent.map CompletedPart.trimmed
  nonempty : 1 ≤ parts.length
  bounded : parts.length ≤ 10000
  distinct : (parts.map CompletedPart.partNumber).Nodup
  numbers : ∀ part ∈ parts, validPartNumber part.partNumber
  etags : ∀ part ∈ parts, part.etag ≠ "" ∧ trimSpace part.etag = part.etag

/-- The completed parts that the body of a request carries. -/
def sentParts (env : Env) (r : Request) : Option (List CompletedPart) :=
  (env.json.multipartRequest (256 * 1024) r.body).map MultipartRequest.parts

/-- A method call whose argument holds validated values only. -/
structure Sanitised (env : Env) (cfg : Config) (r : Request) (op : SignerOp) : Prop where
  bucket : op.bucket ≠ ""
  key : CleanKey op.objectKey
  ttl : ∀ ttl, op.ttl = some ttl → 0 < ttl ∧ ttl ≤ effectiveMaxTTL cfg
  uploadID : ∀ id, op.uploadID = some id → trimSpace id ≠ ""
  partNumber : ∀ n, op.partNumber = some n → validPartNumber n
  parts :
    ∀ parts, op.parts = some parts →
      ∃ sent, sentParts env r = some sent ∧ CleanParts sent parts

/-- Every bucket of the registry is named, as `storagetarget.Parse` checks. -/
def NamedBuckets (cfg : Config) : Prop :=
  ∀ name target, cfg.storageTargets.lookup name = some target → target.bucket ≠ ""

end Arguments

section Validation

variable {input : StorageRequest} {cfg : Config}

theorem requestBucket_ne_empty
    {bucket : String}
    (hnamed : NamedBuckets cfg)
    (h : requestBucket input cfg = .ok bucket) :
    bucket ≠ "" := by
  by_cases hreg : 0 < mapLen cfg.storageTargets
  · obtain ⟨target, hresolve, rfl⟩ := requestBucket_of_registry hreg h
    exact hnamed _ target hresolve
  · simp only [requestBucket, hreg, if_false] at h
    split_ifs at h with hempty
    cases h
    exact hempty

theorem requestKey_ok
    {key : String}
    (h : requestKey input = .ok key) :
    CleanKey key := by
  simp only [requestKey] at h
  split_ifs at h with hempty hinvalid
  cases h
  simp only [Bool.or_eq_true, not_or, Bool.not_eq_true] at hinvalid
  obtain ⟨⟨hslash, hdots⟩, hback⟩ := hinvalid
  exact ⟨hempty, trimSpace_trimSpace _, hslash, hdots, hback⟩

theorem requestTTL_ok
    {ttl : Duration}
    (h : requestTTL input cfg = .ok ttl) :
    0 < ttl ∧ ttl ≤ effectiveMaxTTL cfg := by
  unfold requestTTL at h
  extract_lets default asked at h
  split_ifs at h with hrange
  simp only [Bool.or_eq_true, decide_eq_true_eq, not_or, Int64.not_le, Int64.not_lt] at hrange
  rw [← Except.ok.inj h]
  exact hrange

theorem validateCompletedParts_ok
    {sent parts : List CompletedPart}
    (h : validateCompletedParts sent = .ok parts) :
    CleanParts sent parts := by
  obtain ⟨hwell, rfl⟩ := (validateCompletedParts_eq_ok_iff sent parts).mp h
  have htrimmed := hwell.trimmed
  refine ⟨rfl, htrimmed.nonempty, htrimmed.bounded, htrimmed.distinct, ?_, ?_⟩
  · intro part hpart
    exact (htrimmed.valid part hpart).1
  · refine List.forall_mem_map.mpr fun part hpart => ⟨(hwell.valid part hpart).2, ?_⟩
    exact trimSpace_trimSpace part.etag

end Validation

section Routes

variable {env : Env} {cfg : Config} {r : Request}

/-- The argument of a call takes its bucket, key and lifetime from a validated
request. -/
structure FromRequest (req : PresignedRequest) (op : SignerOp) : Prop where
  bucket : op.bucket = req.bucket
  key : op.objectKey = req.objectKey
  ttl : ∀ ttl, op.ttl = some ttl → ttl = req.expiresIn

/-- A call made from a validated request is sanitised if its multipart fields
are. -/
theorem FromRequest.sanitised
    {input : StorageRequest} {req : PresignedRequest} {op : SignerOp}
    (hop : FromRequest req op)
    (hnamed : NamedBuckets cfg)
    (hv : validateStorageRequest input cfg = .ok req)
    (hupload : ∀ id, op.uploadID = some id → trimSpace id ≠ "")
    (hnumber : ∀ n, op.partNumber = some n → validPartNumber n)
    (hparts : ∀ parts, op.parts = some parts →
      ∃ sent, sentParts env r = some sent ∧ CleanParts sent parts) :
    Sanitised env cfg r op := by
  obtain ⟨hbucket, hkey, -, httl⟩ := validateStorageRequest_ok hv
  refine ⟨?_, ?_, ?_, hupload, hnumber, hparts⟩
  · rw [hop.bucket]
    exact requestBucket_ne_empty hnamed hbucket
  · rw [hop.key]
    exact requestKey_ok hkey
  · intro ttl hsome
    rw [hop.ttl ttl hsome]
    exact requestTTL_ok httl

/-- The calls without multipart fields. -/
theorem FromRequest.sanitised_of_plain
    {input : StorageRequest} {req : PresignedRequest} {op : SignerOp}
    (hop : FromRequest req op)
    (hnamed : NamedBuckets cfg)
    (hv : validateStorageRequest input cfg = .ok req)
    (hupload : op.uploadID = none) (hnumber : op.partNumber = none) (hparts : op.parts = none) :
    Sanitised env cfg r op := by
  refine hop.sanitised hnamed hv ?_ ?_ ?_
  · intro id hid
    rw [hupload] at hid
    cases hid
  · intro n hn
    rw [hnumber] at hn
    cases hn
  · intro parts hp
    rw [hparts] at hp
    cases hp

theorem fromRequest_presignPut (req : PresignedRequest) :
    FromRequest req (.presignPut req) :=
  ⟨rfl, rfl, by simp [SignerOp.ttl, eq_comm]⟩

theorem fromRequest_presignGet (req : PresignedRequest) :
    FromRequest req (.presignGet req) :=
  ⟨rfl, rfl, by simp [SignerOp.ttl, eq_comm]⟩

theorem fromRequest_getMetadata (req : PresignedRequest) :
    FromRequest req (.getMetadata ⟨req.bucket, req.objectKey⟩) :=
  ⟨rfl, rfl, by simp [SignerOp.ttl]⟩

theorem requiredUploadID_ok
    {input : MultipartRequest} {id : String}
    (h : requiredUploadID input = .ok id) :
    trimSpace id ≠ "" := by
  unfold requiredUploadID at h
  split_ifs at h with hempty
  cases h
  rw [trimSpace_trimSpace]
  exact hempty

/-- **What a route puts into its call.** -/
theorem plan_sanitised
    {route : Route} {p : Plan} (hnamed : NamedBuckets cfg)
    (h : route.plan env cfg r = .ok p) :
    Sanitised env cfg r p.op := by
  cases planned_of_plan h with
  | @upload req _ hdecode | @intentsUpload req _ hdecode =>
      obtain ⟨input, -, hvalid, -⟩ := decodeStorageRequest_ok hdecode
      exact (fromRequest_presignPut req).sanitised_of_plain hnamed hvalid rfl rfl rfl
  | @intentsDownload req _ hdecode =>
      obtain ⟨input, -, hvalid, -⟩ := decodeStorageRequest_ok hdecode
      exact (fromRequest_presignGet req).sanitised_of_plain hnamed hvalid rfl rfl rfl
  | @download req _ hquery =>
      obtain ⟨seconds, hvalid, -⟩ := storageRequestFromQuery_ok hquery
      exact (fromRequest_presignGet req).sanitised_of_plain hnamed hvalid rfl rfl rfl
  | @metadata req _ hquery | @referencesMetadata req _ hquery =>
      obtain ⟨seconds, hvalid, -⟩ := storageRequestFromQuery_ok hquery
      exact (fromRequest_getMetadata req).sanitised_of_plain hnamed hvalid rfl rfl rfl
  | @presignPut _ req _ hvalid =>
      exact (fromRequest_presignPut req).sanitised_of_plain hnamed hvalid rfl rfl rfl
  | @presignGet _ req _ hvalid =>
      exact (fromRequest_presignGet req).sanitised_of_plain hnamed hvalid rfl rfl rfl
  | @intentsVerify _ base _ hvalid =>
      exact (fromRequest_getMetadata base).sanitised_of_plain hnamed hvalid rfl rfl rfl
  | multipartInitiate hbase =>
      obtain ⟨-, hvalid⟩ := multipartBase_ok hbase
      refine FromRequest.sanitised_of_plain ⟨rfl, rfl, ?_⟩ hnamed hvalid rfl rfl rfl
      rintro ttl ⟨⟩
      rfl
  | multipartPart hbase hid hnumber =>
      obtain ⟨-, hvalid⟩ := multipartBase_ok hbase
      refine FromRequest.sanitised ⟨rfl, rfl, ?_⟩ hnamed hvalid ?_ ?_ ?_
      · rintro ttl ⟨⟩
        rfl
      · rintro id ⟨⟩
        exact requiredUploadID_ok hid
      · rintro n ⟨⟩
        exact hnumber
      · rintro parts ⟨⟩
  | @multipartComplete input _ _ _ hbase hid hparts =>
      obtain ⟨hjson, hvalid⟩ := multipartBase_ok hbase
      refine FromRequest.sanitised ⟨rfl, rfl, ?_⟩ hnamed hvalid ?_ ?_ ?_
      · rintro ttl ⟨⟩
      · rintro id ⟨⟩
        exact requiredUploadID_ok hid
      · rintro n ⟨⟩
      · rintro parts ⟨⟩
        exact ⟨input.parts, by simp [sentParts, hjson], validateCompletedParts_ok hparts⟩
  | multipartAbort hbase hid =>
      obtain ⟨-, hvalid⟩ := multipartBase_ok hbase
      refine FromRequest.sanitised ⟨rfl, rfl, ?_⟩ hnamed hvalid ?_ ?_ ?_
      · rintro ttl ⟨⟩
      · rintro id ⟨⟩
        exact requiredUploadID_ok hid
      · rintro n ⟨⟩
      · rintro parts ⟨⟩

/-- **Every signer call is sanitised**, whatever the configuration, the route
and the request. -/
theorem signer_call_sanitised
    (env : Env) (cfg : Config) (route : Route) (r : Request)
    {s : StorageSigner} {op : SignerOp}
    (hnamed : NamedBuckets cfg)
    (hcall : Call.signer s op ∈ (handle env cfg route r).calls) :
    Sanitised env cfg r op := by
  obtain ⟨before, after, hcalls⟩ := List.append_of_mem hcall
  unfold handle at hcalls
  cases hplan : route.plan env cfg r with
  | error e =>
      rw [hplan] at hcalls
      simp [serve, Traced.stop] at hcalls
  | ok p =>
      rw [hplan] at hcalls
      obtain ⟨-, -, -, rfl⟩ := serve_signer_call hcalls
      exact plan_sanitised hnamed hplan

theorem photos_namedBuckets : NamedBuckets (workloadConfig photos) := by
  intro name target hlookup
  by_cases hname : name = "photos"
  · subst hname
    cases hlookup
    decide
  · have hnone : photos.lookup name = none := by
      rw [Finmap.lookup_eq_none]
      simpa [photos] using hname
    have hcontra : photos.lookup name = some target := hlookup
    rw [hnone] at hcontra
    cases hcontra

/-- An upload to the target `photos` calls the signer with the registry's bucket
and the client's key. -/
theorem upload_call_sanitised :
    NamedBuckets (workloadConfig photos) ∧
      Sanitised (fixedEnv uploadInput) (workloadConfig photos) signedRequest
        (.presignPut ⟨"bucket-a", "a/b", "", 60000000000⟩) := by
  refine ⟨photos_namedBuckets, ?_⟩
  have hcall :
      Call.signer fixedSigner (.presignPut ⟨"bucket-a", "a/b", "", 60000000000⟩) ∈
        (handle (fixedEnv uploadInput) (workloadConfig photos) .upload signedRequest).calls := by
    obtain ⟨before, hcalls⟩ :
        ∃ before,
          (handle (fixedEnv uploadInput) (workloadConfig photos) .upload signedRequest).calls =
            before ++
              [.signer fixedSigner (.presignPut ⟨"bucket-a", "a/b", "", 60000000000⟩)] :=
      ⟨[_, _], rfl⟩
    rw [hcalls]
    simp
  exact signer_call_sanitised _ _ _ _ photos_namedBuckets hcall

end Routes

end Storage
end GatewayRuntime
