import GatewayRuntime.Lib.GoUrl

/-!
# The request multiplexer of the Go standard library

`http.ServeMux`: patterns, the order in which the routes of a table are tried, the
redirects, and the route that a request is dispatched to.

A pattern is a method, a host and the segments of a path; it ends in a wildcard for
the rest of the path when `multi` is set, which is also the meaning of a trailing
slash.  A path is matched segment by segment: a literal segment before a wildcard
for one segment, and that before a wildcard for the rest.  The segment `{$}` and the
trailing slash of a request path are the literal `"/"`.  An empty literal is kept
under the key of a wildcard, so it is one.

Registering a table with conflicting patterns panics; nothing here depends on more
than that no pattern is registered twice.
-/

namespace GatewayRuntime
namespace ServeMux

open GoUrl

universe u

section Patterns

/-- A segment of a pattern. -/
inductive Seg where
  | lit (s : String)
  | single
deriving DecidableEq

/-- A parsed pattern. -/
structure Pattern where
  method : String
  host : String
  segs : List Seg
  multi : Bool
  lit_ne : Seg.lit "" ∉ segs
deriving DecidableEq

/-- The value of a segment, as it is when its escapes are malformed. -/
def pathUnescape (l : List Char) : String :=
  String.ofList ((unescape l).getD l)

def isBlank (c : Char) : Bool :=
  c == ' ' || c == '\t'

/-- A letter or an underscore, and digits after it.  Every rune above ASCII is taken for a
letter, so this accepts names that `unicode.IsLetter` and `unicode.IsDigit` refuse. -/
def isValidWildcardName (name : List Char) : Bool :=
  let letter (c : Char) : Bool := c.isAlpha || c == '_' || decide (128 ≤ c.toNat)
  match name with
  | [] => false
  | c :: rest => letter c && rest.all fun c => letter c || c.isDigit

/-- The name of a wildcard segment; `none` for a literal one. -/
def wildcardName (part : List Char) : Option (List Char) :=
  match part with
  | '{' :: rest => if rest.getLast? = some '}' then some rest.dropLast else none
  | _ => none

/-- The segments of a pattern, with the names of the wildcards so far. -/
def parseSegments : List (List Char) → List (List Char) → Option (List Seg × Bool)
  | _, [] => some ([], false)
  | seen, part :: rest =>
      if part.contains '{' then
        match wildcardName part with
        | none => none
        | some name =>
            if name = ['$'] then if rest.isEmpty then some ([.lit "/"], false) else none
            else if ['.', '.', '.'].isSuffixOf name then
              let name := name.take (name.length - 3)
              if rest.isEmpty && isValidWildcardName name && !seen.contains name then
                some ([], true)
              else none
            else if isValidWildcardName name && !seen.contains name then
              (parseSegments (name :: seen) rest).map fun (segs, multi) => (.single :: segs, multi)
            else none
      else if part.isEmpty && rest.isEmpty then some ([], true)
      else
        let s := pathUnescape part
        (parseSegments seen rest).map fun (segs, multi) =>
          ((if s = "" then .single else .lit s) :: segs, multi)

/-- The pattern that a text stands for; `none` when registering it panics. -/
def parsePattern (s : String) : Option Pattern :=
  let (method, rest) :=
    match s.toList.span fun c => !isBlank c with
    | (path, []) => ([], path)
    | (method, _ :: rest) => (method, rest.dropWhile isBlank)
  let (host, path) := rest.span fun c => c != '/'
  if !method.all GoText.isTokenRune || path.isEmpty || host.contains '{' then none
  else if method ≠ [] && method ≠ "CONNECT".toList &&
      cleanPath (String.ofList path) ≠ String.ofList path then none
  else
    (parseSegments [] (path.tail.splitOn '/')).bind fun (segs, multi) =>
      if h : Seg.lit "" ∉ segs then
        some ⟨String.ofList method, String.ofList host, segs, multi, h⟩
      else none

end Patterns

section Matching

variable {η : Type u}

/-- A pattern with its handler. -/
structure Route (η : Type u) where
  pattern : Pattern
  handler : η

/-- The segments of a path that starts with a slash; a trailing slash is the last
one. -/
def elementsOf : List (List Char) → List String
  | [] => []
  | [last] => [if last = [] then "/" else pathUnescape last]
  | first :: second :: rest => pathUnescape first :: elementsOf (second :: rest)

def elements (path : String) : List String :=
  elementsOf (path.toList.tail.splitOn '/')

/-- The routes that go on with a segment, after it. -/
def advance (seg : Seg) (routes : List (List Seg × Route η)) : List (List Seg × Route η) :=
  routes.filterMap fun r =>
    match r.1 with
    | [] => none
    | first :: rest => if first = seg then some (rest, r.2) else none

/-- The route of a path among routes with the segments that are still to be matched. -/
def matchPath : List (List Seg × Route η) → List String → Option (Route η)
  | routes, [] =>
      (routes.find? fun r => r.1.isEmpty && !r.2.pattern.multi).map Prod.snd
  | routes, e :: rest =>
      (matchPath (advance (.lit e) routes) rest).or
        ((if e = "/" then none else matchPath (advance .single routes) rest).or
          ((routes.find? fun r => r.1.isEmpty && r.2.pattern.multi).map Prod.snd))

/-- The routes of a table for a host and a method. -/
def routesFor (table : List (Route η)) (host method : String) : List (List Seg × Route η) :=
  (table.filter fun r => r.pattern.host = host && r.pattern.method = method).map fun r =>
    (r.pattern.segs, r)

/-- The routes for the method come before those of `GET` for `HEAD`, and before those
for any method. -/
def matchMethodAndPath (table : List (Route η)) (host method : String) (path : List String) :
    Option (Route η) :=
  (matchPath (routesFor table host method) path).or
    ((if method = "HEAD" then matchPath (routesFor table host "GET") path else none).or
      (matchPath (routesFor table host "") path))

/-- The routes for the host come first. -/
def lookup (table : List (Route η)) (host method : String) (path : List String) :
    Option (Route η) :=
  (if host = "" then none else matchMethodAndPath table host method path).or
    (matchMethodAndPath table "" method path)

/-- `exactMatch`: no wildcard for the rest stands for something. -/
def exactMatch (found : Option (Route η)) (path : String) : Bool :=
  match found with
  | none => false
  | some r =>
      !r.pattern.multi ||
        (decide (path.toList.getLast? = some '/') &&
          r.pattern.segs.length + 1 == path.toList.count '/')

/-- A path that has no exact route is redirected when it has one with a trailing slash. -/
def redirects (table : List (Route η)) (host method path : String) : Bool :=
  !exactMatch (lookup table host method (elements path)) path &&
    !decide (path.toList.getLast? = some '/') &&
    exactMatch (lookup table host method (elements (path ++ "/"))) (path ++ "/")

/-- The parts of a request that the mux reads.  `host` is the host without its port;
`urlHost` is the one of the request line. -/
structure Request where
  method : String
  host : String
  urlHost : String
  url : URL

/-- The route whose handler gets a request; `none` when it is redirected or has no
route. -/
def dispatch (table : List (Route η)) (r : Request) : Option (Route η) :=
  let path := r.url.escapedPath
  if path.toList.head? ≠ some '/' then none
  else if r.method = "CONNECT" then
    if redirects table r.urlHost r.method path then none
    else lookup table r.host r.method (elements path)
  else if cleanPath path ≠ path then none
  else if redirects table r.host r.method path then none
  else lookup table r.host r.method (elements path)

end Matching

section Acceptance

variable {η : Type u}

def Seg.Accepts : Seg → String → Prop
  | .lit s, e => e = s
  | .single, e => e ≠ "/"

/-- The paths that segments match, with a wildcard for the rest or without. -/
def Accepts (multi : Bool) : List Seg → List String → Prop
  | [], path => if multi then path ≠ [] else path = []
  | _ :: _, [] => False
  | seg :: segs, e :: rest => seg.Accepts e ∧ Accepts multi segs rest

theorem mem_advance
    {seg : Seg} {routes : List (List Seg × Route η)} {segs : List Seg} {r : Route η} :
    (segs, r) ∈ advance seg routes ↔ (seg :: segs, r) ∈ routes := by
  unfold advance
  rw [List.mem_filterMap]
  constructor
  · rintro ⟨⟨segs', r'⟩, hmem, heq⟩
    cases segs' with
    | nil =>
        simp at heq
    | cons first rest =>
        simp only [Option.ite_none_right_eq_some, Option.some.injEq, Prod.mk.injEq] at heq
        obtain ⟨rfl, rfl, rfl⟩ := heq
        exact hmem
  · intro hmem
    exact ⟨_, hmem, by simp⟩

/-- A path is matched only by a route that accepts it. -/
theorem matchPath_sound
    {routes : List (List Seg × Route η)} {path : List String} {r : Route η}
    (h : matchPath routes path = some r) :
    ∃ segs, (segs, r) ∈ routes ∧ Accepts r.pattern.multi segs path := by
  induction path generalizing routes with
  | nil =>
      simp only [matchPath, Option.map_eq_some_iff] at h
      obtain ⟨⟨segs, r'⟩, hfind, rfl⟩ := h
      have hp := List.find?_some hfind
      simp only [Bool.and_eq_true, List.isEmpty_iff, Bool.not_eq_true'] at hp
      refine ⟨segs, List.mem_of_find?_eq_some hfind, ?_⟩
      simp [hp.1, hp.2, Accepts]
  | cons e rest ih =>
      simp only [matchPath, Option.or_eq_some_iff] at h
      rcases h with h | ⟨_, h | ⟨_, h⟩⟩
      · obtain ⟨segs, hmem, hacc⟩ := ih h
        exact ⟨.lit e :: segs, mem_advance.mp hmem, rfl, hacc⟩
      · split_ifs at h with he
        obtain ⟨segs, hmem, hacc⟩ := ih h
        exact ⟨.single :: segs, mem_advance.mp hmem, he, hacc⟩
      · simp only [Option.map_eq_some_iff] at h
        obtain ⟨⟨segs, r'⟩, hfind, rfl⟩ := h
        have hp := List.find?_some hfind
        simp only [Bool.and_eq_true, List.isEmpty_iff] at hp
        refine ⟨segs, List.mem_of_find?_eq_some hfind, ?_⟩
        simp [hp.1, hp.2, Accepts]

theorem matchPath_nil (path : List String) :
    matchPath ([] : List (List Seg × Route η)) path = none := by
  rw [← Option.not_isSome_iff_eq_none]
  intro hsome
  obtain ⟨r, hr⟩ := Option.isSome_iff_exists.mp hsome
  obtain ⟨_, hmem, _⟩ := matchPath_sound hr
  exact List.not_mem_nil hmem

/-- A path that some route accepts is matched. -/
theorem matchPath_isSome
    {routes : List (List Seg × Route η)} {path : List String}
    {segs : List Seg} {r : Route η}
    (hmem : (segs, r) ∈ routes)
    (hacc : Accepts r.pattern.multi segs path) :
    (matchPath routes path).isSome = true := by
  induction path generalizing routes segs with
  | nil =>
      cases segs with
      | nil =>
          have hmulti : r.pattern.multi = false := by
            simpa [Accepts] using hacc
          simp only [matchPath, Option.isSome_map, List.find?_isSome]
          exact ⟨_, hmem, by simp [hmulti]⟩
      | cons seg segs =>
          exact hacc.elim
  | cons e rest ih =>
      simp only [matchPath, Option.isSome_or, Bool.or_eq_true]
      cases segs with
      | nil =>
          have hmulti : r.pattern.multi = true := by
            simpa [Accepts] using hacc
          right; right
          rw [Option.isSome_map, List.find?_isSome]
          exact ⟨_, hmem, by simp [hmulti]⟩
      | cons seg segs =>
          obtain ⟨hseg, hacc⟩ := hacc
          cases seg with
          | lit s =>
              obtain rfl : e = s := hseg
              exact Or.inl (ih (mem_advance.mpr hmem) hacc)
          | single =>
              right; left
              rw [if_neg hseg]
              exact ih (mem_advance.mpr hmem) hacc

/-- The path of a route with a value for its wildcards. -/
def fill (v : String) (segs : List Seg) : List String :=
  segs.map fun
    | .lit s => s
    | .single => v

theorem accepts_fill
    {v : String} (hv : v ≠ "/") (multi : Bool) (segs : List Seg) {rest : List String}
    (hrest : if multi then rest ≠ [] else rest = []) :
    Accepts multi segs (fill v segs ++ rest) := by
  induction segs with
  | nil =>
      simpa [fill, Accepts] using hrest
  | cons seg segs ih =>
      cases seg with
      | lit s => exact ⟨rfl, ih⟩
      | single => exact ⟨hv, ih⟩

/-- With a value that no literal has, the routes of just these segments come first. -/
theorem matchPath_fill
    {routes : List (List Seg × Route η)} {v : String}
    {segs : List Seg} {r : Route η}
    (hv : v ≠ "/")
    (hfresh : ∀ r ∈ routes, Seg.lit v ∉ r.1)
    (hmem : (segs, r) ∈ routes)
    (hmulti : r.pattern.multi = false) :
    ∃ r', matchPath routes (fill v segs) = some r' ∧ (segs, r') ∈ routes ∧
      r'.pattern.multi = false := by
  induction segs generalizing routes with
  | nil =>
      have hfind : (routes.find? fun r => r.1.isEmpty && !r.2.pattern.multi).isSome := by
        rw [List.find?_isSome]
        exact ⟨_, hmem, by simp [hmulti]⟩
      obtain ⟨⟨segs', r'⟩, hr'⟩ := Option.isSome_iff_exists.mp hfind
      have hp := List.find?_some hr'
      simp only [Bool.and_eq_true, List.isEmpty_iff, Bool.not_eq_true'] at hp
      obtain ⟨rfl, hr'multi⟩ := hp
      exact ⟨r', by simp [fill, matchPath, hr'], List.mem_of_find?_eq_some hr', hr'multi⟩
  | cons seg segs ih =>
      have hfresh' : ∀ r ∈ advance seg routes, Seg.lit v ∉ r.1 := fun r hr hlit =>
        hfresh _ (mem_advance.mp hr) (List.mem_cons_of_mem _ hlit)
      obtain ⟨r', hmatch, hr', hr'multi⟩ := ih hfresh' (mem_advance.mpr hmem)
      refine ⟨r', ?_, mem_advance.mp hr', hr'multi⟩
      cases seg with
      | lit s =>
          exact Option.or_eq_some_iff.mpr (Or.inl hmatch)
      | single =>
          have hnone : advance (.lit v) routes = [] := by
            rw [List.eq_nil_iff_forall_not_mem]
            rintro ⟨segs', r''⟩ hr''
            exact hfresh _ (mem_advance.mp hr'') List.mem_cons_self
          rw [show fill v (.single :: segs) = v :: fill v segs from rfl, matchPath, hnone,
            matchPath_nil, Option.none_or, if_neg hv, hmatch]
          rfl

end Acceptance

section Lookup

variable {η : Type u} {table : List (Route η)} {host method : String} {path : List String}

theorem mem_routesFor
    {segs : List Seg} {r : Route η} :
    (segs, r) ∈ routesFor table host method ↔
      r ∈ table ∧ r.pattern.host = host ∧ r.pattern.method = method ∧ r.pattern.segs = segs := by
  simp only [routesFor, List.mem_map, List.mem_filter, Bool.and_eq_true, decide_eq_true_eq,
    Prod.mk.injEq]
  constructor
  · rintro ⟨r', ⟨hmem, hhost, hmethod⟩, rfl, rfl⟩
    exact ⟨hmem, hhost, hmethod, rfl⟩
  · rintro ⟨hmem, hhost, hmethod, rfl⟩
    exact ⟨r, ⟨hmem, hhost, hmethod⟩, rfl, rfl⟩

theorem matchMethodAndPath_sound
    {r : Route η}
    (h : matchMethodAndPath table host method path = some r) :
    r ∈ table ∧ Accepts r.pattern.multi r.pattern.segs path := by
  have hroutes {method : String} (h : matchPath (routesFor table host method) path = some r) :
      r ∈ table ∧ Accepts r.pattern.multi r.pattern.segs path := by
    obtain ⟨segs, hmem, hacc⟩ := matchPath_sound h
    obtain ⟨htable, _, _, rfl⟩ := mem_routesFor.mp hmem
    exact ⟨htable, hacc⟩
  simp only [matchMethodAndPath, Option.or_eq_some_iff] at h
  rcases h with h | ⟨_, h | ⟨_, h⟩⟩
  · exact hroutes h
  · split_ifs at h
    exact hroutes h
  · exact hroutes h

/-- A request is looked up in the table, and its route accepts it. -/
theorem lookup_sound
    {r : Route η}
    (h : lookup table host method path = some r) :
    r ∈ table ∧ Accepts r.pattern.multi r.pattern.segs path := by
  simp only [lookup, Option.or_eq_some_iff] at h
  rcases h with h | ⟨_, h⟩
  · split_ifs at h
    exact matchMethodAndPath_sound h
  · exact matchMethodAndPath_sound h

/-- A request is dispatched to a route of the table that accepts its path. -/
theorem dispatch_sound
    {req : Request} {r : Route η}
    (h : dispatch table req = some r) :
    req.url.escapedPath.toList.head? = some '/' ∧ r ∈ table ∧
      Accepts r.pattern.multi r.pattern.segs (elements req.url.escapedPath) := by
  unfold dispatch at h
  simp only [ne_eq] at h
  split_ifs at h with hroot _ _ _ _
  · exact ⟨hroot, lookup_sound h⟩
  · exact ⟨hroot, lookup_sound h⟩

/-- A method by which the routes of a pattern are asked first. -/
def Asks (table : List (Route η)) (p : Pattern) (method : String) : Prop :=
  if p.method = "" then method ≠ "HEAD" ∧ ∀ r ∈ table, r.pattern.method ≠ method
  else method = p.method

theorem matchMethodAndPath_of_asks
    {p : Pattern} {r : Route η}
    (hasks : Asks table p method)
    (h : matchPath (routesFor table host p.method) path = some r) :
    matchMethodAndPath table host method path = some r := by
  unfold Asks at hasks
  unfold matchMethodAndPath
  split_ifs at hasks with hany
  · have hnone : routesFor table host method = [] := by
      rw [List.eq_nil_iff_forall_not_mem]
      rintro ⟨segs, r'⟩ hr'
      obtain ⟨hmem, _, hmethod, _⟩ := mem_routesFor.mp hr'
      exact hasks.2 r' hmem hmethod
    rw [hnone, matchPath_nil, if_neg hasks.1, ← hany, h]
    rfl
  · rw [hasks, h]
    rfl

/-- A route of the pattern's own host and method is found before the others. -/
theorem lookup_of_asks
    {p : Pattern} {r : Route η}
    (hasks : Asks table p method)
    (h : matchPath (routesFor table p.host p.method) path = some r) :
    lookup table p.host method path = some r := by
  unfold lookup
  by_cases hhost : p.host = ""
  · rw [hhost] at h ⊢
    rw [if_pos rfl, matchMethodAndPath_of_asks hasks h]
    rfl
  · rw [if_neg hhost, matchMethodAndPath_of_asks hasks h]
    rfl

/-- A route for any host and any method takes what no other route does. -/
theorem lookup_isSome_of_any
    {r : Route η}
    (hmem : r ∈ table)
    (hhost : r.pattern.host = "") (hmethod : r.pattern.method = "")
    (hacc : Accepts r.pattern.multi r.pattern.segs path) :
    (lookup table host method path).isSome = true := by
  have hany := matchPath_isSome (mem_routesFor.mpr ⟨hmem, hhost, hmethod, rfl⟩) hacc
  unfold lookup matchMethodAndPath
  simp [hany]

/-- A request without a redirect goes to the route that is looked up. -/
theorem dispatch_eq_lookup
    {req : Request}
    (hroot : req.url.escapedPath.toList.head? = some '/')
    (hclean : cleanPath req.url.escapedPath = req.url.escapedPath)
    (hhost : req.urlHost = req.host)
    (hredirect : redirects table req.host req.method req.url.escapedPath = false) :
    dispatch table req = lookup table req.host req.method (elements req.url.escapedPath) := by
  unfold dispatch
  simp [hroot, hclean, hhost, hredirect]

end Lookup

section Paths

variable {η : Type u}

theorem length_eq_of_accepts
    {segs : List Seg} {path : List String}
    (h : Accepts false segs path) :
    segs.length = path.length := by
  induction segs generalizing path with
  | nil =>
      have hnil : path = [] := by
        simpa [Accepts] using h
      simp [hnil]
  | cons seg segs ih =>
      cases path with
      | nil => exact h.elim
      | cons e rest => simpa using ih h.2

/-- Literal segments accept only their own path. -/
theorem lit_mem_of_accepts
    {segs : List Seg} {path : List String}
    (hlit : Seg.single ∉ segs)
    (h : Accepts false segs path)
    {e : String} (he : e ∈ path) :
    Seg.lit e ∈ segs := by
  induction segs generalizing path with
  | nil =>
      have hnil : path = [] := by
        simpa [Accepts] using h
      simp [hnil] at he
  | cons seg segs ih =>
      cases path with
      | nil => exact h.elim
      | cons first rest =>
          simp only [List.mem_cons, not_or] at hlit
          rcases List.mem_cons.mp he with rfl | he
          · cases seg with
            | lit s =>
                obtain rfl : e = s := h.1
                exact List.mem_cons_self
            | single =>
                exact absurd rfl hlit.1
          · exact List.mem_cons_of_mem _ (ih hlit.2 h.2 he)

theorem length_elementsOf (parts : List (List Char)) :
    (elementsOf parts).length = parts.length := by
  fun_induction elementsOf parts with
  | case1 => rfl
  | case2 last => rfl
  | case3 first second rest ih => simpa using ih

/-- Without a trailing slash the segments are the decoded parts of the path. -/
theorem elementsOf_eq_map
    {parts decoded : List (List Char)}
    (h : parts.mapM unescape = some decoded)
    (hlast : parts.getLast? ≠ some []) :
    elementsOf parts = decoded.map String.ofList := by
  induction parts generalizing decoded with
  | nil =>
      obtain rfl := Option.some.inj h
      rfl
  | cons first rest ih =>
      simp only [List.mapM_cons, Option.pure_def, Option.bind_eq_bind, Option.bind_eq_some_iff,
        Option.some.injEq] at h
      obtain ⟨d, hd, ds, hds, rfl⟩ := h
      cases rest with
      | nil =>
          obtain rfl := Option.some.inj hds
          have hfirst : first ≠ [] := by
            simpa using hlast
          simp [elementsOf, hfirst, pathUnescape, hd]
      | cons second rest =>
          rw [elementsOf, ih hds (by simpa using hlast)]
          simp [pathUnescape, hd]

theorem getLast?_mapM_unescape
    {parts decoded : List (List Char)}
    (h : parts.mapM unescape = some decoded)
    (hlast : parts.getLast? = some []) :
    decoded.getLast? = some [] := by
  induction parts generalizing decoded with
  | nil =>
      simp at hlast
  | cons first rest ih =>
      simp only [List.mapM_cons, Option.pure_def, Option.bind_eq_bind, Option.bind_eq_some_iff,
        Option.some.injEq] at h
      obtain ⟨d, hd, ds, hds, rfl⟩ := h
      cases rest with
      | nil =>
          obtain rfl := Option.some.inj hds
          obtain rfl : first = [] := by
            simpa using hlast
          obtain rfl : d = [] := (Option.some.inj hd).symm
          rfl
      | cons second rest =>
          have hds' := ih hds (by simpa using hlast)
          cases ds with
          | nil => simp at hds'
          | cons d' ds => simpa using hds'

/-- A request path that does not end in a slash is its segments. -/
theorem path_eq_elements
    {escaped : String} {path : List Char}
    (hroot : escaped.toList.head? = some '/')
    (h : unescape escaped.toList = some path)
    (hslash : path.getLast? ≠ some '/') :
    elements escaped ≠ [] ∧ path = rootedPath ((elements escaped).map String.toList) := by
  have hne := List.splitOn_ne_nil '/' escaped.toList.tail
  have hrooted : escaped.toList = rootedPath (escaped.toList.tail.splitOn '/') := by
    rw [rootedPath_eq_intercalate hne, List.intercalate_splitOn]
    exact List.eq_cons_of_mem_head? hroot
  rw [hrooted] at h
  obtain ⟨decoded, hdecoded, rfl⟩ := unescape_rootedPath h
  have hlast : (escaped.toList.tail.splitOn '/').getLast? ≠ some [] := by
    intro hlast
    obtain ⟨init, rfl⟩ := List.getLast?_eq_some_iff.mp (getLast?_mapM_unescape hdecoded hlast)
    exact hslash (by simp [rootedPath])
  refine ⟨fun hnil => hne ?_, ?_⟩
  · rw [← List.length_eq_zero_iff, ← length_elementsOf]
    exact List.length_eq_zero_iff.mpr hnil
  · rw [elements, elementsOf_eq_map hdecoded hlast, List.map_map]
    simp [Function.comp_def]

/-- The segments of a path that is written with every byte escaped. -/
theorem elements_ofSegments
    {path : List String}
    (hne : path ≠ [])
    (h : ∀ e ∈ path, e ≠ "") :
    elements (URL.ofSegments (path.map String.toList)).escapedPath = path := by
  have hne' : path.map String.toList ≠ [] := by
    simpa using hne
  have hsegments : ∀ segment ∈ (path.map String.toList).map escapeAll, CleanSegment segment := by
    intro segment hsegment
    simp only [List.map_map, List.mem_map] at hsegment
    obtain ⟨e, he, rfl⟩ := hsegment
    exact cleanSegment_escapeAll fun hnil => h e he (String.ext hnil)
  have hdecoded : ((path.map String.toList).map escapeAll).mapM unescape =
      some (path.map String.toList) := by
    induction path.map String.toList with
    | nil =>
        rfl
    | cons first rest ih =>
        rw [List.map_cons, List.mapM_cons, ih, escapeAll, unescape_escapeUnless rfl]
        rfl
  have hlast : ((path.map String.toList).map escapeAll).getLast? ≠ some [] := fun hlast =>
    (hsegments [] (List.mem_of_getLast? hlast)).1 rfl
  rw [escapedPath_ofSegments hne', elements, String.toList_ofList,
    splitOn_rootedPath (by simpa using hne) fun s hs => (hsegments s hs).2.2.2,
    elementsOf_eq_map hdecoded hlast, List.map_map]
  simp [Function.comp_def]

theorem cleanPath_ofSegments
    {path : List String}
    (hne : path ≠ [])
    (h : ∀ e ∈ path, e ≠ "") :
    cleanPath (URL.ofSegments (path.map String.toList)).escapedPath =
      (URL.ofSegments (path.map String.toList)).escapedPath := by
  rw [escapedPath_ofSegments (by simpa using hne)]
  refine cleanPath_rootedPath (by simpa using hne) fun segment hsegment => ?_
  simp only [List.map_map, List.mem_map] at hsegment
  obtain ⟨e, he, rfl⟩ := hsegment
  exact cleanSegment_escapeAll fun hnil => h e he (String.ext hnil)

/-- A path that is longer than every pattern is not redirected. -/
theorem redirects_of_long
    {table : List (Route η)} {host method : String} {path : List String}
    (hne : path ≠ [])
    (hlong : ∀ r ∈ table, r.pattern.segs.length < path.length) :
    redirects table host method (URL.ofSegments (path.map String.toList)).escapedPath = false := by
  have hparts : ∀ segment ∈ (path.map String.toList).map escapeAll ++ [[]], '/' ∉ segment := by
    intro segment hsegment
    simp only [List.map_map, List.mem_append, List.mem_map, List.mem_singleton] at hsegment
    rcases hsegment with ⟨e, _, rfl⟩ | rfl
    · exact not_mem_escapeAll _ (by decide)
    · simp
  have hslashed : ((URL.ofSegments (path.map String.toList)).escapedPath ++ "/").toList =
      rootedPath ((path.map String.toList).map escapeAll ++ [[]]) := by
    rw [escapedPath_ofSegments (by simpa using hne)]
    simp [rootedPath]
  have hlength : (elements ((URL.ofSegments (path.map String.toList)).escapedPath ++ "/")).length =
      path.length + 1 := by
    rw [elements, hslashed, splitOn_rootedPath (by simp) hparts, length_elementsOf]
    simp
  have hcount : ((URL.ofSegments (path.map String.toList)).escapedPath ++ "/").toList.count '/' =
      path.length + 1 := by
    rw [hslashed, count_rootedPath hparts]
    simp
  unfold redirects
  rw [Bool.and_eq_false_iff]
  right
  unfold exactMatch
  cases hfound : lookup table host method
      (elements ((URL.ofSegments (path.map String.toList)).escapedPath ++ "/")) with
  | none =>
      rfl
  | some r =>
      obtain ⟨hmem, hacc⟩ := lookup_sound hfound
      have hshort := hlong r hmem
      cases hmulti : r.pattern.multi with
      | false =>
          rw [hmulti] at hacc
          have := length_eq_of_accepts hacc
          omega
      | true =>
          have hne : (r.pattern.segs.length + 1 == path.length + 1) = false := by
            rw [beq_eq_false_iff_ne]
            omega
          simp only [hmulti, hcount, hne, Bool.not_true, Bool.and_false, Bool.or_false]

end Paths

end ServeMux
end GatewayRuntime
