import GatewayRuntime.Lib.GoError
import GatewayRuntime.StorageTypes

/-!
# Validation of storage requests

The part of every storage route that runs before authorization: decoding, the
trimming and checking of `validateStorageRequest` and `validateCompletedParts`,
and the intents of `internal/storagecontract`.  These functions make no call to
a collaborator.

Error texts are kept as the source has them.  `range` over a Go map visits the
entries in an unspecified order, so the passes over `ExpectedChecksums` and over
the checksums a provider reported take the visited entries from a `Ranges`
argument.
-/

namespace GatewayRuntime
namespace Storage

open GoText

section Validation

/-- The bucket of a request: the registry's for the named target, or, without a
registry, the one the client named. -/
def requestBucket (input : StorageRequest) (cfg : Config) : Except String String :=
  let targetName := trimSpace input.target
  let bucket := trimSpace input.bucket
  if 0 < mapLen cfg.storageTargets then
    if targetName = "" then .error "target is required"
    else
      match cfg.storageTargets.resolve targetName with
      | none => .error "unknown storage target"
      | some target => .ok target.bucket
  else if bucket = "" then .error "bucket is required"
  else .ok bucket

/-- The trimmed object key. -/
def requestKey (input : StorageRequest) : Except String String :=
  let key := trimSpace input.objectKey
  if key = "" then .error "object_key is required"
  else if hasPrefix key "/" || contains key ".." || contains key "\\" then
    .error "object_key is invalid"
  else .ok key

/-- The largest lifetime a configuration allows. -/
def effectiveMaxTTL (cfg : Config) : Duration :=
  if cfg.storageMaxTTL ≤ 0 then Duration.hour else cfg.storageMaxTTL

/-- The lifetime asked for; the product wraps as `time.Duration` does. -/
def requestTTL (input : StorageRequest) (cfg : Config) : Except String Duration :=
  let default :=
    if cfg.storageDefaultTTL ≤ 0 then 15 * Duration.minute else cfg.storageDefaultTTL
  let ttl :=
    if 0 < input.expiresInSeconds then input.expiresInSeconds * Duration.second else default
  if ttl ≤ 0 || effectiveMaxTTL cfg < ttl then
    .error "expires_in_seconds exceeds allowed TTL"
  else .ok ttl

/-- `validateStorageRequest`. -/
def validateStorageRequest (input : StorageRequest) (cfg : Config) :
    Except String PresignedRequest := do
  let bucket ← requestBucket input cfg
  let key ← requestKey input
  let ttl ← requestTTL input cfg
  .ok ⟨bucket, key, trimSpace input.contentType, ttl⟩

/-- One step of the loop of `validateCompletedParts`, on the part numbers seen
and the parts collected so far. -/
def validatePart (acc : List Int64 × List CompletedPart) (part : CompletedPart) :
    Except String (List Int64 × List CompletedPart) :=
  if part.partNumber < 1 || 10000 < part.partNumber then
    .error "part_number must be between 1 and 10000"
  else if trimSpace part.etag = "" then .error "etag is required for every part"
  else if part.partNumber ∈ acc.1 then .error "duplicate part_number"
  else .ok (part.partNumber :: acc.1, acc.2 ++ [⟨part.partNumber, trimSpace part.etag⟩])

/-- `validateCompletedParts`. -/
def validateCompletedParts (parts : List CompletedPart) : Except String (List CompletedPart) :=
  if parts.length = 0 then .error "parts are required"
  else if 10000 < parts.length then .error "too many parts"
  else (parts.foldlM validatePart ([], [])).map Prod.snd

/-- What a successful validation says about each part of its result. -/
theorem validateStorageRequest_ok
    {input : StorageRequest} {cfg : Config} {req : PresignedRequest}
    (h : validateStorageRequest input cfg = .ok req) :
    requestBucket input cfg = .ok req.bucket ∧
      requestKey input = .ok req.objectKey ∧
      req.contentType = trimSpace input.contentType ∧
      requestTTL input cfg = .ok req.expiresIn := by
  obtain ⟨bucket, hbucket, hrest⟩ := exists_of_bind_ok h
  obtain ⟨key, hkey, hrest'⟩ := exists_of_bind_ok hrest
  obtain ⟨ttl, httl, hret⟩ := exists_of_bind_ok hrest'
  cases hret
  exact ⟨hbucket, hkey, rfl, httl⟩

/-- In target mode the bucket is the registry's, whatever the client sent. -/
theorem requestBucket_of_registry
    {input : StorageRequest} {cfg : Config} {bucket : String}
    (hreg : 0 < mapLen cfg.storageTargets)
    (h : requestBucket input cfg = .ok bucket) :
    ∃ target,
      cfg.storageTargets.resolve (trimSpace input.target) = some target ∧
      bucket = target.bucket := by
  simp only [requestBucket, hreg, if_true] at h
  split at h
  · cases h
  · cases ht : cfg.storageTargets.resolve (trimSpace input.target) with
    | none =>
        rw [ht] at h
        cases h
    | some target =>
        rw [ht] at h
        cases h
        exact ⟨target, rfl, rfl⟩

end Validation

section Decoding

/-- `decodeStorageRequest`: the validated request and the trimmed target.  An
error is answered with status 400 and its text. -/
def decodeStorageRequest (json : JsonDecoder) (r : Request) (cfg : Config) :
    Except String (PresignedRequest × String) :=
  match json.storageRequest (64 * 1024) r.body with
  | none => .error "invalid_request"
  | some input => do
      let req ← validateStorageRequest input cfg
      .ok (req, trimSpace input.target)

/-- The `expires_in_seconds` value of a query; zero when it is blank. -/
def querySeconds (r : Request) : Except String Int64 :=
  let raw := trimSpace (r.queryGet "expires_in_seconds")
  if raw = "" then .ok 0
  else
    match parseInt raw with
    | none => .error "invalid expires_in_seconds"
    | some v => .ok v

/-- The storage request a query spells out. -/
def queryRequest (r : Request) (seconds : Int64) : StorageRequest where
  target := r.queryGet "target"
  operation := ""
  bucket := r.queryGet "bucket"
  objectKey := r.queryGet "object_key"
  contentType := ""
  expiresInSeconds := seconds

/-- `storageRequestFromQuery`; an error is answered with status 400. -/
def storageRequestFromQuery (r : Request) (cfg : Config) :
    Except String (PresignedRequest × String) := do
  let seconds ← querySeconds r
  let req ← validateStorageRequest (queryRequest r seconds) cfg
  .ok (req, trimSpace (r.queryGet "target"))

end Decoding

section Contract

/-- One pass of `range` over a map. -/
abbrev MapRange := StringMap → List (String × String)

/-- What the language leaves open while one request is served: the entries visited
by the passes over maps, and the case tables of `unicode`. -/
structure Ranges where
  validate : MapRange
  revalidate : MapRange
  expected : MapRange
  actual : String → MapRange
  letters : CaseTables

/-- `validateObjectKey` of `storagecontract`; its last check looks for two
backslashes in a row. -/
def validateObjectKey (v : String) : Except String Unit :=
  let key := trimSpace v
  if key = "" then .error "object_key is required"
  else if hasPrefix key "/" || contains key ".." || contains key "\\\\" then
    .error "object_key is invalid"
  else .ok ()

/-- `UploadIntent.Validate` and `DownloadIntent.Validate`. -/
def validateIntent (target objectKey : String) (expiresIn : Duration) : Except String Unit :=
  if trimSpace target = "" then .error "target is required"
  else
    match validateObjectKey objectKey with
    | .error e => .error e
    | .ok () => if expiresIn < 0 then .error "expires_in must not be negative" else .ok ()

/-- `StorageReference.Validate`. -/
def StorageReference.validate (ref : StorageReference) : Except String Unit :=
  if trimSpace ref.target = "" then .error "target is required"
  else
    match validateObjectKey ref.objectKey with
    | .error e => .error e
    | .ok () => if ref.size < 0 then .error "size must not be negative" else .ok ()

/-- `UploadVerificationIntent`. -/
structure UploadVerificationIntent where
  target : String
  objectKey : String
  expectedSize : Option Int64
  expectedContentType : String
  expectedChecksums : StringMap

/-- `UploadVerificationIntent.Validate`. -/
def UploadVerificationIntent.validate (i : UploadVerificationIntent) (range : MapRange) :
    Except String Unit :=
  if trimSpace i.target = "" then .error "target is required"
  else
    match validateObjectKey i.objectKey with
    | .error e => .error e
    | .ok () =>
        if i.expectedSize.any (fun n => n < 0) then
          .error "expected_size must not be negative"
        else if (range i.expectedChecksums).any
            (fun kv => trimSpace kv.1 = "" || trimSpace kv.2 = "") then
          .error "expected checksum algorithm and value are required"
        else .ok ()

/-- `ReferenceFromMetadata`. -/
def referenceFromMetadata (target : String) (m : StorageMetadata) : StorageReference where
  target := trimSpace target
  objectKey := m.objectKey
  versionID := m.versionID
  etag := m.etag
  size := m.size
  contentType := m.contentType
  checksums := m.checksums

/-- The size mismatch of `VerifyUpload`, if any. -/
def sizeMismatch (i : UploadVerificationIntent) (m : StorageMetadata) :
    List VerificationMismatch :=
  match i.expectedSize with
  | none => []
  | some n =>
      if m.size ≠ n then [⟨"size", toString n.toInt, toString m.size.toInt⟩] else []

/-- The content-type mismatch of `VerifyUpload`, if any. -/
def contentTypeMismatch (letters : CaseTables) (i : UploadVerificationIntent)
    (m : StorageMetadata) : List VerificationMismatch :=
  let expected := trimSpace i.expectedContentType
  let actual := trimSpace m.contentType
  if expected ≠ "" ∧ letters.equalFold expected actual = false then
    [⟨"content_type", expected, actual⟩]
  else []

/-- The mismatch of one expected checksum: the value compared is that of the
first visited entry with the same normalised algorithm name. -/
def checksumMismatch (letters : CaseTables) (actualEntries : List (String × String))
    (algorithm expected : String) : List VerificationMismatch :=
  let key := letters.toLower (trimSpace algorithm)
  let actual :=
    match actualEntries.find? (fun kv => letters.toLower (trimSpace kv.1) == key) with
    | none => ""
    | some kv => trimSpace kv.2
  if trimSpace expected ≠ actual then
    [⟨"checksum." ++ key, trimSpace expected, actual⟩]
  else []

/-- `VerifyUpload`. -/
def verifyUpload (ranges : Ranges) (i : UploadVerificationIntent) (m : StorageMetadata) :
    Except String UploadVerificationResult :=
  match i.validate ranges.revalidate with
  | .error e => .error e
  | .ok () =>
      let ref := referenceFromMetadata i.target m
      if m.present = false then .ok ⟨false, ref, [⟨"object", "exists", "not_found"⟩]⟩
      else
        let mismatches :=
          sizeMismatch i m ++ contentTypeMismatch ranges.letters i m ++
            (ranges.expected i.expectedChecksums).flatMap (fun kv =>
              checksumMismatch ranges.letters (ranges.actual kv.1 m.checksums) kv.1 kv.2)
        .ok ⟨mismatches.isEmpty, ref, mismatches⟩

/-- `UploadGrantFromOperation` and `DownloadGrantFromOperation`. -/
def grantFromOperation (op : PresignedOperation) : Grant :=
  ⟨op.url, op.method, op.expiresAt, op.headers⟩

end Contract

end Storage
end GatewayRuntime
