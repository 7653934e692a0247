import GatewayRuntime.Lib.GoError

/-!
# The distinguished errors of the gateway

The sentinel errors of `internal/session`, `internal/token`, `internal/auth` and
`context`, and the error type of `internal/outbound`.
-/

namespace GatewayRuntime

/-- `outbound.ErrorKind`. -/
inductive ErrorKind where
  | badRequest
  | unauthorized
  | forbidden
  | notFound
  | conflict
  | rateLimited
  | unavailable
  | upstream
deriving DecidableEq

def ErrorKind.text : ErrorKind → String
  | badRequest => "bad_request"
  | unauthorized => "unauthorized"
  | forbidden => "forbidden"
  | notFound => "not_found"
  | conflict => "conflict"
  | rateLimited => "rate_limited"
  | unavailable => "unavailable"
  | upstream => "upstream_error"

/-- The errors that code of the gateway tests for. -/
inductive ErrorValue where
  | sessionNotFound
  | tokenNotFound
  | flowNotFound
  | invalidReturnTo
  | refreshUnavailable
  | refreshFailed
  | canceled
  | deadlineExceeded
  | outbound (kind : ErrorKind) (statusCode : Int) (message : String)
deriving DecidableEq

/-- The `Error()` texts; that of an `outbound.Error` leaves its message out. -/
def ErrorValue.message : ErrorValue → String
  | sessionNotFound => "session not found"
  | tokenNotFound => "token set not found"
  | flowNotFound => "auth flow not found"
  | invalidReturnTo => "invalid return_to"
  | refreshUnavailable => "token refresh unavailable"
  | refreshFailed => "token refresh failed"
  | canceled => "context canceled"
  | deadlineExceeded => "context deadline exceeded"
  | outbound kind statusCode _ => "outbound " ++ kind.text ++ ": status=" ++ toString statusCode

/-- The kind of an `outbound.Error`. -/
def ErrorValue.outboundKind : ErrorValue → Option ErrorKind
  | outbound kind _ _ => some kind
  | _ => none

/-- The error values of the gateway. -/
abbrev Err := GoError ErrorValue

/-- `err.Error()`. -/
def Err.message (e : Err) : String :=
  GoError.message ErrorValue.message e

/-- `outbound.IsKind`. -/
def Err.isKind (e : Err) (kind : ErrorKind) : Bool :=
  GoError.as e ErrorValue.outboundKind == some kind

/-- `normalizeStatus` of `internal/outbound`. -/
def normalizeStatus : Int → ErrorKind
  | 400 => .badRequest
  | 401 => .unauthorized
  | 403 => .forbidden
  | 404 => .notFound
  | 409 => .conflict
  | 429 => .rateLimited
  | 502 | 503 | 504 => .unavailable
  | _ => .upstream

/-- An `outbound.Error` with status 503. -/
def Err.unavailable (message : String) : Err :=
  .leaf (.outbound .unavailable 503 message)

end GatewayRuntime
