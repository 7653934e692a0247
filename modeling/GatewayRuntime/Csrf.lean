import GatewayRuntime.Lib.GoUrlParse
import GatewayRuntime.Lib.ServeMux
import GatewayRuntime.RateLimit

/-!
# The CSRF check

`CSRF` lets a request with an unsafe method through when its `Origin`, or else its
`Referer`, has the scheme and the host of the public URL, and its cookie is the value of its
header.  The check is meant for what a page in a browser can send.  A client that writes its
own requests chooses the headers and the cookie: it passes whenever there is an origin to
name, with any method at all.
-/

namespace GatewayRuntime
namespace Middleware

open GoText GoUrl

section Requests

/-- A value that the server accepts in a header line, without the blanks around it. -/
def validHeaderValue (v : String) : Bool :=
  let blank (c : Char) : Bool := c == ' ' || c == '\t'
  v.toList.all (fun c => c == '\t' || !isControl c) &&
    v.toList.head?.all (fun c => !blank c) && v.toList.getLast?.all (fun c => !blank c)

/-- A method, a header name or the name of a cookie. -/
def isToken (s : String) : Bool :=
  s != "" && s.toList.all isTokenRune

/-- A cookie that `net/http` reads from the header. -/
def validCookie (cookie : String × String) : Bool :=
  isToken cookie.1 &&
    cookie.2.toList.all fun c =>
      decide (32 ≤ c.toNat) && decide (c.toNat < 127) && !"\";\\".toList.contains c

/-- A request that the server accepts.  `cookies` are the cookies in its header. -/
structure ClientRequest where
  method : String
  host : String
  urlHost : String
  url : URL
  remoteAddr : String
  headers : List (String × String)
  cookies : List (String × String)
  method_token : isToken method = true
  headers_valid : ∀ line ∈ headers, validHeaderValue line.2 = true
  cookies_valid : ∀ cookie ∈ cookies, validCookie cookie = true

/-- What the mux reads of a request. -/
def ClientRequest.toMux (r : ClientRequest) : ServeMux.Request :=
  ⟨r.method, r.host, r.urlHost, r.url⟩

/-- What the limiters read of a request. -/
def ClientRequest.toLimiter (r : ClientRequest) : Request :=
  ⟨r.remoteAddr, r.url.path, r.headers⟩

/-- `r.Header.Get(name)`. -/
def ClientRequest.header (r : ClientRequest) (name : String) : String :=
  r.toLimiter.header (canonicalMIMEHeaderKey name)

/-- `r.Cookie(name)`: the value of the first cookie with the name. -/
def ClientRequest.cookie (r : ClientRequest) (name : String) : Option String :=
  r.cookies.lookup name

end Requests

section Model

/-- `middleware.CSRFCookieName`. -/
def csrfCookieName : String :=
  "__Host-bff_csrf"

/-- `middleware.CSRFHeaderName`. -/
def csrfHeaderName : String :=
  "X-CSRF-Token"

/-- `middleware.CSRFConfig`. -/
structure CSRFConfig where
  publicURL : String
  secure : Bool
  cookieName : String

/-- The name that the handler looks for. -/
def CSRFConfig.cookie (cfg : CSRFConfig) : String :=
  if cfg.cookieName = "" then csrfCookieName else cfg.cookieName

/-- `http.SameSite`. -/
inductive SameSite where
  | default
  | lax
  | strict
  | none
deriving DecidableEq

/-- The fields of an `http.Cookie` that the handler sets. -/
structure SetCookie where
  name : String
  value : String
  path : String
  secure : Bool
  httpOnly : Bool
  sameSite : SameSite
deriving DecidableEq

/-- `ensureCSRFCookie`; `token` is what `randomToken` returns. -/
def ensureCSRFCookie (token : String) (r : ClientRequest) (secure : Bool) (cookieName : String) :
    Option SetCookie :=
  match r.cookie cookieName with
  | some value => if value = "" then some ⟨cookieName, token, "/", secure, false, .lax⟩ else none
  | none => some ⟨cookieName, token, "/", secure, false, .lax⟩

/-- The methods that are not checked. -/
def safeMethods : List String :=
  ["GET", "HEAD", "OPTIONS", "TRACE"]

/-- `isUnsafeMethod`. -/
def isUnsafeMethod (method : String) : Bool :=
  !safeMethods.contains method

/-- The scheme and the host of a header value are those of a URL. -/
def sameOrigin (letters : LetterTables) (raw : String) (expected : Reference) : Bool :=
  match parse raw with
  | none => false
  | some u =>
      letters.equalFold u.scheme expected.scheme && letters.equalFold u.host expected.host

/-- The header value that names the origin of a request. -/
def ClientRequest.namedOrigin (r : ClientRequest) : String :=
  if r.header "Origin" = "" then r.header "Referer" else r.header "Origin"

/-- `sameOriginRequest`. -/
def sameOriginRequest (letters : LetterTables) (r : ClientRequest) (expected : Option Reference) :
    Bool :=
  match expected with
  | none => false
  | some expected =>
      if r.namedOrigin = "" then false else sameOrigin letters r.namedOrigin expected

/-- `constantTimeEqual`. -/
def constantTimeEqual (a b : String) : Bool :=
  if a.utf8ByteSize ≠ b.utf8ByteSize || a.utf8ByteSize = 0 then false else a == b

/-- `CSRF`: the cookie that is set, and the answer. -/
def csrf (letters : LetterTables) (cfg : CSRFConfig) (token : String) (r : ClientRequest) :
    Option SetCookie × Answer :=
  let answer : Answer :=
    if !isUnsafeMethod r.method then .next
    else if !sameOriginRequest letters r (parse cfg.publicURL) then
      .error 403 "" "csrf origin rejected" none
    else
      match r.cookie cfg.cookie with
      | none => .error 403 "" "csrf token missing" none
      | some value =>
          if value = "" then .error 403 "" "csrf token missing" none
          else if !constantTimeEqual value (r.header csrfHeaderName) then
            .error 403 "" "csrf token invalid" none
          else .next
  (ensureCSRFCookie token r cfg.secure cfg.cookie, answer)

end Model

section Answers

variable {letters : LetterTables} {cfg : CSRFConfig} {r : ClientRequest}

theorem sameOriginRequest_iff {expected : Option Reference} :
    sameOriginRequest letters r expected = true ↔
      ∃ e, expected = some e ∧ r.namedOrigin ≠ "" ∧ sameOrigin letters r.namedOrigin e = true := by
  cases expected with
  | none => simp [sameOriginRequest]
  | some e => simp [sameOriginRequest]

theorem constantTimeEqual_iff {a b : String} (ha : a ≠ "") :
    constantTimeEqual a b = true ↔ a = b := by
  constructor
  · intro h
    simp only [constantTimeEqual] at h
    split_ifs at h
    exact eq_of_beq h
  · rintro rfl
    simp [constantTimeEqual, ha]

/-- The requests that are let through. -/
theorem csrf_next_iff {token : String} :
    (csrf letters cfg token r).2 = .next ↔
      isUnsafeMethod r.method = false ∨
        sameOriginRequest letters r (parse cfg.publicURL) = true ∧
          ∃ value, r.cookie cfg.cookie = some value ∧ value ≠ "" ∧
            value = r.header csrfHeaderName := by
  unfold csrf
  cases hmethod : isUnsafeMethod r.method with
  | false =>
      simp
  | true =>
      cases horigin : sameOriginRequest letters r (parse cfg.publicURL) with
      | false =>
          simp
      | true =>
          cases hcookie : r.cookie cfg.cookie with
          | none =>
              simp
          | some value =>
              by_cases hvalue : value = ""
              · simp [hvalue]
              · have hequal := constantTimeEqual_iff (b := r.header csrfHeaderName) hvalue
                by_cases hheader : value = r.header csrfHeaderName
                · subst hheader
                  simp [hvalue, hequal]
                · have hnot : constantTimeEqual value (r.header csrfHeaderName) = false := by
                    simpa [hheader] using hequal
                  simp [hvalue, hnot, hheader]

/-- What a header line says is valid, also when there is none. -/
theorem validHeaderValue_header (name : String) :
    validHeaderValue (r.header name) = true := by
  unfold ClientRequest.header ClientRequest.toLimiter Request.header
  dsimp only
  cases hfound : r.headers.lookup (canonicalMIMEHeaderKey name) with
  | none =>
      rfl
  | some v =>
      obtain ⟨before, after, hsplit, -⟩ := List.lookup_eq_some_iff.mp hfound
      exact r.headers_valid (canonicalMIMEHeaderKey name, v) (by simp [hsplit])

theorem validHeaderValue_namedOrigin :
    validHeaderValue r.namedOrigin = true := by
  unfold ClientRequest.namedOrigin
  split_ifs
  · exact validHeaderValue_header "Referer"
  · exact validHeaderValue_header "Origin"

/-- A cookie that is found has a token as its name. -/
theorem isToken_of_cookie
    {name value : String} (h : r.cookie name = some value) :
    isToken name = true := by
  obtain ⟨before, after, hsplit, -⟩ := List.lookup_eq_some_iff.mp h
  have hvalid := r.cookies_valid (name, value) (by simp [hsplit])
  exact ((Bool.and_eq_true _ _).mp hvalid).1

end Answers

section Forging

variable {letters : LetterTables} {cfg : CSRFConfig}

/-- The header value names the public origin, in a request that has the right cookie. -/
structure CSRFConfig.Forges (letters : LetterTables) (cfg : CSRFConfig) (v : String) : Prop where
  cookie : isToken cfg.cookie = true
  valid : validHeaderValue v = true
  ne : v ≠ ""
  named : ∃ expected, parse cfg.publicURL = some expected ∧ sameOrigin letters v expected = true

/-- The public URL itself names the public origin. -/
theorem forges_publicURL
    (hcookie : isToken cfg.cookie = true)
    (hparse : (parse cfg.publicURL).isSome = true)
    (hne : cfg.publicURL ≠ "")
    (hvalid : validHeaderValue cfg.publicURL = true) :
    cfg.Forges letters cfg.publicURL := by
  obtain ⟨expected, hparse⟩ := Option.isSome_iff_exists.mp hparse
  exact ⟨hcookie, hvalid, hne, expected, hparse, by simp [sameOrigin, hparse, CaseTables.equalFold]⟩

/-- A request with an unsafe method that is let through names the public origin. -/
theorem forges_of_csrf
    {token : String} {r : ClientRequest}
    (hchecked : isUnsafeMethod r.method = true)
    (hnext : (csrf letters cfg token r).2 = .next) :
    cfg.Forges letters r.namedOrigin := by
  rcases csrf_next_iff.mp hnext with hsafe | ⟨horigin, value, hcookie, -⟩
  · rw [hsafe] at hchecked
    contradiction
  · obtain ⟨expected, hparse, hne, hsame⟩ := sameOriginRequest_iff.mp horigin
    exact ⟨isToken_of_cookie hcookie, validHeaderValue_namedOrigin, hne, expected, hparse, hsame⟩

/-- The request of a client that names the public origin and brings its own token. -/
def CSRFConfig.forged
    {v : String} (h : cfg.Forges letters v) {method : String} (hmethod : isToken method = true)
    (url : URL) : ClientRequest where
  method := method
  host := "example.com"
  urlHost := ""
  url := url
  remoteAddr := "203.0.113.7:40000"
  headers := [("Origin", v), ("X-Csrf-Token", "t")]
  cookies := [(cfg.cookie, "t")]
  method_token := hmethod
  headers_valid := by
    have ht : validHeaderValue "t" = true := by decide
    simp [h.valid, ht]
  cookies_valid := by
    have ht : (validCookie (cfg.cookie, "t")) = isToken cfg.cookie := by
      simp only [validCookie]
      rw [show ("t".toList.all _) = true by decide, Bool.and_true]
    simp [ht, h.cookie]

/-- It is let through, whatever its method. -/
theorem csrf_forged
    {v : String} (h : cfg.Forges letters v) {method : String} (hmethod : isToken method = true)
    (url : URL) (token : String) :
    (csrf letters cfg token (CSRFConfig.forged h hmethod url)).2 = .next := by
  obtain ⟨expected, hparse, hsame⟩ := h.named
  have horigin : (CSRFConfig.forged h hmethod url).header "Origin" = v := by
    have hkey : canonicalMIMEHeaderKey "Origin" = "Origin" := by decide
    simp [ClientRequest.header, ClientRequest.toLimiter, Request.header, CSRFConfig.forged, hkey]
  have htoken : (CSRFConfig.forged h hmethod url).header csrfHeaderName = "t" := by
    have hkey : canonicalMIMEHeaderKey csrfHeaderName = "X-Csrf-Token" := by decide
    simp [ClientRequest.header, ClientRequest.toLimiter, Request.header, CSRFConfig.forged, hkey,
      List.lookup_cons]
  have hnamed : (CSRFConfig.forged h hmethod url).namedOrigin = v := by
    rw [ClientRequest.namedOrigin, horigin, if_neg h.ne]
  refine csrf_next_iff.mpr (Or.inr ⟨?_, "t", ?_, by decide, ?_⟩)
  · exact sameOriginRequest_iff.mpr ⟨expected, hparse, by rw [hnamed]; exact h.ne,
      by rw [hnamed]; exact hsame⟩
  · simp [ClientRequest.cookie, CSRFConfig.forged]
  · exact htoken.symm

end Forging

end Middleware
end GatewayRuntime
