import GatewayRuntime.Lib.GoText
import GatewayRuntime.Lib.GoTime
import Mathlib.Data.Finmap

/-!
# Data of the storage role

The values that the storage routes of `internal/roleruntime` read and produce:
the provider interfaces of `internal/capability`, the registries of
`internal/storagetarget` and `internal/storageprovider`, the policy and
workload interfaces, the configuration, requests and responses.

* An interface value is a record of its methods.  A signer that also implements
  `MultipartStorageSigner` or `StorageMetadataProvider` carries these methods in
  an optional field, which is what a type assertion tests.
* Collaborators (signers, the policy evaluator, the workload verifier) are
  arbitrary functions: their answers are not constrained.
* A Go map is a `Finmap`.
* `encoding/json` is seen through what decoding at most so many bytes of a body
  leaves in the destination struct (`JsonDecoder`), for arbitrary results.
-/

namespace GatewayRuntime
namespace Storage

/-- `map[string]string`. -/
abbrev StringMap := Finmap (fun _ : String => String)

/-- `len(m)`. -/
def mapLen {α : Type} (m : Finmap (fun _ : String => α)) : Nat :=
  Multiset.card m.entries

theorem eq_of_lookup_singleton
    {α : Type} {name name' : String} {a a' : α}
    (h : (Finmap.singleton name a : Finmap fun _ : String => α).lookup name' = some a') :
    name' = name ∧ a' = a := by
  have hname := (Finmap.mem_singleton _ _ _).mp (Finmap.mem_of_lookup_eq_some h)
  subst hname
  rw [Finmap.lookup_singleton_eq] at h
  exact ⟨rfl, (Option.some.inj h).symm⟩

theorem eq_of_lookup_pair
    {α : Type} {name name' key : String} {a a' x : α}
    (h : ((Finmap.singleton name a : Finmap fun _ : String => α).insert name' a').lookup key =
      some x) :
    (key = name' ∧ x = a') ∨ (key = name ∧ x = a) := by
  by_cases hkey : key = name'
  · subst hkey
    rw [Finmap.lookup_insert] at h
    exact Or.inl ⟨rfl, (Option.some.inj h).symm⟩
  · rw [Finmap.lookup_insert_of_ne _ hkey] at h
    exact Or.inr (eq_of_lookup_singleton h)

section Capability

structure PresignedRequest where
  bucket : String
  objectKey : String
  contentType : String
  expiresIn : Duration
deriving DecidableEq

structure PresignedOperation where
  url : String
  method : String
  expiresAt : Int
  headers : StringMap

structure MultipartInitiateRequest where
  bucket : String
  objectKey : String
  contentType : String
  expiresIn : Duration
deriving DecidableEq

structure MultipartUpload where
  uploadID : String
  bucket : String
  objectKey : String
  expiresAt : Int

structure MultipartPartRequest where
  bucket : String
  objectKey : String
  uploadID : String
  partNumber : Int64
  expiresIn : Duration
deriving DecidableEq

structure CompletedPart where
  partNumber : Int64
  etag : String
deriving DecidableEq

structure MultipartCompleteRequest where
  bucket : String
  objectKey : String
  uploadID : String
  parts : List CompletedPart
deriving DecidableEq

structure MultipartCompleteResult where
  etag : String
  versionID : String
  location : String

structure MultipartAbortRequest where
  bucket : String
  objectKey : String
  uploadID : String
deriving DecidableEq

structure StorageMetadataRequest where
  bucket : String
  objectKey : String
deriving DecidableEq

structure StorageMetadata where
  present : Bool
  bucket : String
  objectKey : String
  size : Int64
  contentType : String
  etag : String
  versionID : String
  lastModified : Int
  checksums : StringMap
  metadata : StringMap

/-- A method call on a signer or a metadata provider, with its argument. -/
inductive SignerOp where
  | presignPut (req : PresignedRequest)
  | presignGet (req : PresignedRequest)
  | getMetadata (req : StorageMetadataRequest)
  | initiateMultipart (req : MultipartInitiateRequest)
  | presignMultipartPart (req : MultipartPartRequest)
  | completeMultipart (req : MultipartCompleteRequest)
  | abortMultipart (req : MultipartAbortRequest)
deriving DecidableEq

namespace SignerOp

/-- What the method returns on success. -/
def Result : SignerOp → Type
  | presignPut _ => PresignedOperation
  | presignGet _ => PresignedOperation
  | getMetadata _ => StorageMetadata
  | initiateMultipart _ => MultipartUpload
  | presignMultipartPart _ => PresignedOperation
  | completeMultipart _ => MultipartCompleteResult
  | abortMultipart _ => Unit

/-- The `Bucket` field of the argument. -/
def bucket : SignerOp → String
  | presignPut req => req.bucket
  | presignGet req => req.bucket
  | getMetadata req => req.bucket
  | initiateMultipart req => req.bucket
  | presignMultipartPart req => req.bucket
  | completeMultipart req => req.bucket
  | abortMultipart req => req.bucket

end SignerOp

/-- The methods that `MultipartStorageSigner` adds. -/
structure MultipartMethods where
  initiateMultipart : MultipartInitiateRequest → Except String MultipartUpload
  presignMultipartPart : MultipartPartRequest → Except String PresignedOperation
  completeMultipart : MultipartCompleteRequest → Except String MultipartCompleteResult
  abortMultipart : MultipartAbortRequest → Except String Unit

/-- A `StorageSigner`, with the further interfaces it implements. -/
structure StorageSigner where
  presignPut : PresignedRequest → Except String PresignedOperation
  presignGet : PresignedRequest → Except String PresignedOperation
  multipart : Option MultipartMethods
  metadata : Option (StorageMetadataRequest → Except String StorageMetadata)

/-- The type assertion a route makes and the method call that follows; `none`
when the signer does not implement the interface. -/
def StorageSigner.invoke (s : StorageSigner) :
    (op : SignerOp) → Option (Except String op.Result)
  | .presignPut req => some (s.presignPut req)
  | .presignGet req => some (s.presignGet req)
  | .getMetadata req => s.metadata.map (fun m => m req)
  | .initiateMultipart req => s.multipart.map (fun m => m.initiateMultipart req)
  | .presignMultipartPart req => s.multipart.map (fun m => m.presignMultipartPart req)
  | .completeMultipart req => s.multipart.map (fun m => m.completeMultipart req)
  | .abortMultipart req => s.multipart.map (fun m => m.abortMultipart req)

end Capability

section Configuration

inductive Role where
  | rebff
  | storage
  | streaming
  | webSocket
deriving DecidableEq

/-- `runtimecfg.Selection`. -/
structure Selection where
  roles : List Role
  capabilities : Role → List String

/-- `storagetarget.Target`. -/
structure Target where
  provider : String
  bucket : String
  readOnly : Bool
deriving DecidableEq

/-- `storagetarget.Registry`. -/
abbrev TargetRegistry := Finmap (fun _ : String => Target)

/-- `Registry.Resolve` of `storagetarget`. -/
def TargetRegistry.resolve (r : TargetRegistry) (name : String) : Option Target :=
  r.lookup (GoText.trimSpace name)

/-- `storageprovider.Provider`. -/
structure Provider where
  signer : Option StorageSigner

/-- `storageprovider.Registry`. -/
abbrev ProviderRegistry := Finmap (fun _ : String => Provider)

/-- `Registry.Resolve` of `storageprovider`. -/
def ProviderRegistry.resolve (r : ProviderRegistry) (name : String) : Option Provider :=
  r.lookup (GoText.trimSpace name)

/-- `accesspolicy.Request`. -/
structure AccessRequest where
  subject : String
  action : String
  target : String
  context : StringMap

/-- `accesspolicy.Decision`. -/
structure Decision where
  allow : Bool
  reason : String

/-- `accesspolicy.Evaluator`. -/
abbrev Evaluator := AccessRequest → Except String Decision

/-- `workloadauth.Principal`. -/
structure Principal where
  service : String
  subject : String
  issuer : String

/-- `workloadauth.Verifier`. -/
abbrev Verifier := String → Except String Principal

/-- `roleruntime.Config`, without the listen address and the base path. -/
structure Config where
  selection : Selection
  storageSigner : Option StorageSigner
  storageProviders : ProviderRegistry
  storageDefaultTTL : Duration
  storageMaxTTL : Duration
  storageTargets : TargetRegistry
  storageAccessPolicy : Option Evaluator
  storageSubjectHeader : String
  workloadVerifier : Option Verifier
  workloadAuthRequired : Bool

end Configuration

section Requests

/-- The parts of an `http.Request` that the routes read.  `headers` holds the
header lines under their canonical names, `query` the parsed query. -/
structure Request where
  headers : List (String × String)
  query : List (String × String)
  body : String

/-- `r.Header.Get(name)`. -/
def Request.header (r : Request) (name : String) : String :=
  (r.headers.lookup (GoText.canonicalMIMEHeaderKey name)).getD ""

/-- `r.URL.Query().Get(name)`. -/
def Request.queryGet (r : Request) (name : String) : String :=
  (r.query.lookup name).getD ""

/-- `storageRequest`. -/
structure StorageRequest where
  target : String
  operation : String
  bucket : String
  objectKey : String
  contentType : String
  expiresInSeconds : Int64

/-- `verificationRequest`. -/
structure VerificationRequest where
  target : String
  objectKey : String
  expectedSize : Option Int64
  expectedContentType : String
  expectedChecksums : StringMap

/-- `multipartRequest`. -/
structure MultipartRequest where
  target : String
  bucket : String
  objectKey : String
  contentType : String
  uploadID : String
  partNumber : Int64
  expiresInSeconds : Int64
  parts : List CompletedPart

/-- What `json.NewDecoder(http.MaxBytesReader(w, body, limit)).Decode` leaves in
a struct of each request type; `none` on an error. -/
structure JsonDecoder where
  storageRequest : Nat → String → Option StorageRequest
  verificationRequest : Nat → String → Option VerificationRequest
  multipartRequest : Nat → String → Option MultipartRequest

end Requests

section Responses

/-- `storagecontract.StorageReference`. -/
structure StorageReference where
  target : String
  objectKey : String
  versionID : String
  etag : String
  size : Int64
  contentType : String
  checksums : StringMap

/-- `storagecontract.VerificationMismatch`. -/
structure VerificationMismatch where
  field : String
  expected : String
  actual : String
deriving DecidableEq

/-- `storagecontract.UploadVerificationResult`. -/
structure UploadVerificationResult where
  verified : Bool
  reference : StorageReference
  mismatches : List VerificationMismatch

/-- `storagecontract.UploadGrant` and `DownloadGrant`, which have the same
fields. -/
structure Grant where
  url : String
  method : String
  expiresAt : Int
  headers : StringMap

/-- The JSON bodies the storage routes write. -/
inductive Payload where
  | error (message : String)
  | accessDenied (reason : String)
  | providerNotConfigured (role : Role) (capability : String)
  | operation (op : PresignedOperation)
  | grant (g : Grant)
  | metadata (m : StorageMetadata)
  | verification (r : UploadVerificationResult)
  | reference (r : StorageReference)
  | multipartUpload (u : MultipartUpload)
  | multipartComplete (r : MultipartCompleteResult)
  | empty

/-- A written response; `noStore` is the `Cache-Control: no-store` header. -/
structure Response where
  status : Nat
  noStore : Bool
  payload : Payload

/-- `writeJSON` of an object with the single key `error`. -/
def errorResponse (status : Nat) (message : String) : Response :=
  ⟨status, false, .error message⟩

/-- A 200 answer with `Cache-Control: no-store`. -/
def okNoStore (payload : Payload) : Response :=
  ⟨200, true, payload⟩

/-- `providerUnavailable`. -/
def providerUnavailable (role : Role) (capability : String) : Response :=
  ⟨503, false, .providerNotConfigured role capability⟩

/-- `writeStorageProviderError`. -/
def storageProviderError : Response :=
  errorResponse 502 "storage_provider_error"

/-- `writeStorageResult` on success. -/
def storageResult (op : PresignedOperation) : Response :=
  okNoStore (.operation op)

end Responses

end Storage
end GatewayRuntime
