import GatewayRuntime.Errors
import GatewayRuntime.Lib.GoPath
import GatewayRuntime.Lib.Traced
import GatewayRuntime.StorageTypes

/-!
# The application API

The handlers of `internal/appapi/handler.go`: `getManagedItem` and
`presignUpload`, with the checks on identifiers and object keys.  They run behind
the permission middleware, which is not part of this module.

A handler is a `Traced` computation over its actions: the call of the domain API
or of the signer, and the audit events.  Of an audit event the fields are kept
that the handlers fill in themselves.
-/

namespace GatewayRuntime
namespace AppApi

open GoText

section Data

structure ManagedItem where
  id : String
  name : String

/-- `uploadRequest`. -/
structure UploadRequest where
  objectKey : String
  contentType : String
  expiresIn : Int64

/-- The fields of an `audit.Event` that `emit` sets. -/
structure AuditEvent where
  action : String
  target : String
  resourceID : String
  outcome : String
  httpStatus : Nat
  attributes : List (String × String)
deriving DecidableEq

inductive Action where
  | getManagedItem (sessionID id : String)
  | presignPut (req : Storage.PresignedRequest)
  | audit (event : AuditEvent)
deriving DecidableEq

inductive Payload where
  | error (code : String)
  | item (item : ManagedItem)
  | operation (op : Storage.PresignedOperation)

/-- A written response; `noStore` is the `Cache-Control: no-store` header. -/
structure Response where
  status : Nat
  noStore : Bool
  payload : Payload

/-- `appapi.Handler`; `hasAudit` says that `Audit` is not nil. -/
structure Handler where
  domain : (sessionID id : String) → Except Err ManagedItem
  storage : Storage.PresignedRequest → Except Err Storage.PresignedOperation
  hasAudit : Bool
  uploadBucket : String
  uploadPrefixes : List String
  maxPresignTTL : Duration

end Data

section Errors

/-- `writeError`. -/
def writeError (status : Nat) (code : String) : Response :=
  ⟨status, false, .error code⟩

/-- The status of an `outbound.Error` of each kind. -/
def kindStatus : ErrorKind → Nat
  | .badRequest => 400
  | .unauthorized => 401
  | .forbidden => 403
  | .notFound => 404
  | .conflict => 409
  | .rateLimited => 429
  | .unavailable => 503
  | .upstream => 502

/-- `outboundHTTPStatus`. -/
def outboundHTTPStatus (e : Err) : Nat :=
  match GoError.as e ErrorValue.outboundKind with
  | none => 502
  | some kind => kindStatus kind

/-- `writeOutboundError`. -/
def writeOutboundError (e : Err) : Response :=
  match GoError.as e ErrorValue.outboundKind with
  | none => writeError (outboundHTTPStatus e) "upstream_error"
  | some kind => writeError (outboundHTTPStatus e) kind.text

end Errors

section Keys

/-- One prefix of the loop of `validateObjectKey`. -/
def matchesPrefix (cleaned raw : String) : Bool :=
  let pre := trimRight (trimLeft (trimSpace raw) '/') '/'
  pre != "" && (cleaned == pre || hasPrefix cleaned (pre ++ "/"))

/-- `validateObjectKey` of `internal/appapi`. -/
def validateObjectKey (raw : String) (prefixes : List String) : Option String :=
  let key := trimSpace raw
  if key = "" ∨ hasPrefix key "/" = true ∨ contains key "\\" = true then none
  else
    let cleaned := GoPath.clean key
    if cleaned = "." ∨ cleaned = ".." ∨ hasPrefix cleaned "../" = true ∨ cleaned ≠ key then none
    else if prefixes.any (matchesPrefix cleaned) then some cleaned
    else none

end Keys

section Handlers

variable (h : Handler)

/-- `Handler.emit`. -/
def emit (event : AuditEvent) : Traced Action Response Unit :=
  if h.hasAudit then Traced.call (.audit event) () else .done ()

/-- Emit an event, then answer. -/
def emitAndAnswer (event : AuditEvent) (resp : Response) : Traced Action Response Response := do
  emit h event
  .done resp

/-- `Handler.getManagedItem`, given the path value and the session cookie. -/
def getManagedItem (pathValue : String) (cookie : Option String) :
    Traced Action Response Response :=
  let id := trimSpace pathValue
  if id = "" ∨ contains id "/" = true then
    emitAndAnswer h
      ⟨"managed-item.read", "managed-item", id, "deny", 400, [("reason", "invalid_id")]⟩
      (writeError 400 "invalid_id")
  else if cookie.getD "" = "" then .done (writeError 401 "unauthorized")
  else do
    let answer ← Traced.call (.getManagedItem (cookie.getD "") id) (h.domain (cookie.getD "") id)
    match answer with
    | .error e =>
        emitAndAnswer h
          ⟨"managed-item.read", "managed-item", id, "failure", outboundHTTPStatus e, []⟩
          (writeOutboundError e)
    | .ok item =>
        emitAndAnswer h ⟨"managed-item.read", "managed-item", id, "success", 200, []⟩
          ⟨200, false, .item item⟩

/-- The lifetime of an upload URL; the product wraps as `time.Duration` does. -/
def uploadTTL (input : UploadRequest) : Duration :=
  let ttl := input.expiresIn * Duration.second
  if ttl ≤ 0 then 5 * Duration.minute else ttl

/-- The largest lifetime of an upload URL. -/
def Handler.effectiveMaxTTL (h : Handler) : Duration :=
  if h.maxPresignTTL ≤ 0 then 15 * Duration.minute else h.maxPresignTTL

/-- The end of `presignUpload`, once the request is checked. -/
def presignPut (req : Storage.PresignedRequest) : Traced Action Response Response := do
  let answer ← Traced.call (.presignPut req) (h.storage req)
  match answer with
  | .error e =>
      emitAndAnswer h
        ⟨"storage.presign_put", "object", req.objectKey, "failure", outboundHTTPStatus e, []⟩
        (writeOutboundError e)
  | .ok op =>
      emitAndAnswer h
        ⟨"storage.presign_put", "object", req.objectKey, "success", 200,
          [("bucket", h.uploadBucket), ("object_key", req.objectKey)]⟩
        ⟨200, true, .operation op⟩

/-- A denied upload. -/
def denyUpload (resourceID reason : String) : Traced Action Response Response :=
  emitAndAnswer h
    ⟨"storage.presign_put", "object", resourceID, "deny", 400, [("reason", reason)]⟩
    (writeError 400 reason)

/-- `Handler.presignUpload`, given the decoded body; `none` on a decoding error. -/
def presignUpload (decoded : Option UploadRequest) : Traced Action Response Response :=
  match decoded with
  | none => denyUpload h "" "invalid_request"
  | some input =>
      match validateObjectKey input.objectKey h.uploadPrefixes with
      | none => denyUpload h "" "invalid_object_key"
      | some key =>
          if trimSpace h.uploadBucket = "" then denyUpload h "" "invalid_object_key"
          else if h.effectiveMaxTTL < uploadTTL input then denyUpload h key "expiry_too_long"
          else
            presignPut h ⟨h.uploadBucket, key, trimSpace input.contentType, uploadTTL input⟩

variable {h}

@[simp] theorem emitAndAnswer_calls (event : AuditEvent) (resp : Response) :
    (emitAndAnswer h event resp).calls = if h.hasAudit then [.audit event] else [] := by
  unfold emitAndAnswer emit
  split_ifs <;> rfl

theorem presignPut_notMem_deny
    (resourceID reason : String) (req : Storage.PresignedRequest) :
    Action.presignPut req ∉ (denyUpload h resourceID reason).calls := by
  unfold denyUpload
  rw [emitAndAnswer_calls]
  split_ifs <;> simp

/-- The end of `presignUpload` hands the signer this request and no other. -/
theorem presignPut_mem_iff (req req' : Storage.PresignedRequest) :
    Action.presignPut req' ∈ (presignPut h req).calls ↔ req' = req := by
  unfold presignPut
  cases h.storage req <;> cases haudit : h.hasAudit <;> simp [haudit]

end Handlers

end AppApi
end GatewayRuntime
