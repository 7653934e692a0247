import GatewayRuntime.Lib.ServeMux
import GatewayRuntime.RateLimit

/-!
# Routes and the paths that escape the limiters

`NewRouter` registers the system routes, the auth routes and the routes of the
application in one mux and mounts it below the base path.  In front of it stand the
limiters, which let a request through without counting it when its path ends like
the path of a system route.

The limiters see the whole decoded path, the mux matches segments after the base
path is stripped.  A pattern of the application *reaches* an operational path when
its last segments can be made to end like one: by a wildcard, by a literal, or with
the end of the base path.
-/

namespace GatewayRuntime
namespace Router

open GoUrl ServeMux Middleware

section Model

/-- Who registered a route. -/
inductive Owner where
  | system
  | auth
  | app
deriving DecidableEq

/-- `RegisterSystemRoutes`; `metrics` says whether there is a metrics handler. -/
def systemRoutes (metrics : Bool) : List (Route Owner) :=
  [⟨⟨"GET", "", [.lit "health", .lit "live"], false, by decide⟩, .system⟩,
    ⟨⟨"GET", "", [.lit "health", .lit "ready"], false, by decide⟩, .system⟩] ++
  if metrics then [⟨⟨"GET", "", [.lit "metrics"], false, by decide⟩, .system⟩] else []

/-- `auth.Handler.Register`. -/
def authRoutes : List (Route Owner) :=
  [⟨⟨"GET", "", [.lit "auth", .lit "login"], false, by decide⟩, .auth⟩,
    ⟨⟨"GET", "", [.lit "auth", .lit "callback"], false, by decide⟩, .auth⟩,
    ⟨⟨"POST", "", [.lit "auth", .lit "logout"], false, by decide⟩, .auth⟩,
    ⟨⟨"GET", "", [.lit "api", .lit "me"], false, by decide⟩, .auth⟩]

/-- The routes of a router: those of the system, of `auth.Handler` and of the
application. -/
def routes (metrics : Bool) (appRoutes : List Pattern) : List (Route Owner) :=
  systemRoutes metrics ++ authRoutes ++ appRoutes.map fun p => ⟨p, .app⟩

/-- The parts of `RouterDeps` that decide about routes.  A mux panics when a pattern is
registered twice. -/
structure RouterDeps where
  metrics : Bool
  appRoutes : List Pattern
  registered : ((routes metrics appRoutes).map Route.pattern).Nodup

/-- The mux of the application. -/
def RouterDeps.table (deps : RouterDeps) : List (Route Owner) :=
  routes deps.metrics deps.appRoutes

/-- `NewRouter`: the owner of the route that a request is dispatched to.  There is no
router when the pattern of the base path does not parse. -/
def newRouter (basePath : String) (deps : RouterDeps) (r : ServeMux.Request) : Option Owner :=
  if basePath = "" || basePath = "/" then (dispatch deps.table r).map Route.handler
  else
    let base := GoText.trimRight basePath '/'
    (parsePattern (base ++ "/")).bind fun pattern =>
      (dispatch [(⟨pattern, ()⟩ : Route Unit)] r).bind fun _ =>
        (stripPrefix base r.url).bind fun url =>
          (dispatch deps.table { r with url := url }).map Route.handler

/-- `ConcurrencyLimit`: the answer, and whether the request holds a slot. -/
def concurrencyLimit (max : Int) (metrics : Bool) (inflight : Int) (path : String) :
    Answer × Bool :=
  if max ≤ 0 then (.next, false)
  else if operationalPath path then (.next, false)
  else if inflight < max then (.next, true)
  else (.error 503 "1" "server busy" (if metrics then some "concurrency" else none), false)

/-- A limiter lets a request with the path through without counting it. -/
def EscapesLimits (path : String) : Prop :=
  (∃ max metrics inflight, 0 < max ∧ concurrencyLimit max metrics inflight path = (.next, false)) ∨
    ∃ (cfg : RateLimitConfig) (s : Limiter) (now : Int) (r : Middleware.Request),
      0 < cfg.ratePerSecond ∧ 0 < cfg.burst ∧ cfg.pathSuffixes = [] ∧ r.path = path ∧
        (rateLimit cfg s (now, r)).1.bucket = none

/-- A request that escapes the limiters is dispatched to no route but those of the system. -/
def OnlySystemEscapes (deps : RouterDeps) : Prop :=
  ∀ (basePath : String) (r : ServeMux.Request) (owner : Owner),
    EscapesLimits r.url.path → newRouter basePath deps r = some owner → owner = .system

end Model

section Limits

theorem concurrencyLimit_uncounted
    {max inflight : Int} {metrics : Bool} {path : String}
    (hmax : 0 < max) :
    concurrencyLimit max metrics inflight path = (.next, false) ↔ operationalPath path = true := by
  unfold concurrencyLimit
  rw [if_neg (not_le.mpr hmax)]
  split_ifs with hop hroom <;> simp [hop]

theorem rateLimit_uncounted
    {cfg : RateLimitConfig} {s : Limiter} {now : Int} {r : Middleware.Request}
    (hrate : 0 < cfg.ratePerSecond) (hburst : 0 < cfg.burst)
    (hsuffixes : cfg.pathSuffixes = []) :
    (rateLimit cfg s (now, r)).1.bucket = none ↔ operationalPath r.path = true := by
  have hcounted : counted cfg.withDefaults r = !operationalPath r.path := by
    simp [counted, RateLimitConfig.withDefaults, hsuffixes]
  rw [rateLimit_eq_serve hrate hburst]
  rcases serve_cases cfg.withDefaults s (now, r) with ⟨hnot, heq⟩ | ⟨hcount, heq⟩
  · rw [hcounted] at hnot
    simpa [heq] using hnot
  · obtain ⟨answer, b, hserve, _⟩ := serveCounted_eq cfg.withDefaults s now r
    rw [hcounted] at hcount
    rw [heq, hserve]
    simpa using hcount

/-- The requests that escape are those with an operational path. -/
theorem escapesLimits_iff (path : String) :
    EscapesLimits path ↔ operationalPath path = true := by
  constructor
  · rintro (⟨max, metrics, inflight, hmax, h⟩ | ⟨cfg, s, now, r, hrate, hburst, hsuffixes, rfl, h⟩)
    · exact (concurrencyLimit_uncounted hmax).mp h
    · exact (rateLimit_uncounted hrate hburst hsuffixes).mp h
  · intro h
    exact Or.inl ⟨1, false, 0, by decide, (concurrencyLimit_uncounted (by decide)).mpr h⟩

end Limits

section Reaching

/-- Segments, the last one first, that can end in `/health` below some base path. -/
def reachesHealth : List Seg → Bool
  | [] => true
  | .single :: _ => true
  | .lit s :: _ => GoText.hasSuffix ("/" ++ s) "/health"

/-- The pattern matches a path that can be operational below some base path. -/
def reaches (p : Pattern) : Bool :=
  p.multi ||
    match p.segs.reverse with
    | [] => false
    | .single :: _ => true
    | .lit last :: before =>
        operationalPath ("/" ++ last) ||
          (last == "live" || last == "ready") && reachesHealth before

theorem operationalPath_ofList (path : List Char) :
    operationalPath (String.ofList path) = true ↔
      '/' :: "health".toList ++ '/' :: "live".toList <:+ path ∨
        '/' :: "health".toList ++ '/' :: "ready".toList <:+ path ∨
        '/' :: "metrics".toList <:+ path := by
  simp [operationalPath, GoText.hasSuffix, List.isSuffixOf_iff_suffix, or_assoc]

theorem operationalPath_slash (s : String) :
    operationalPath ("/" ++ s) = operationalPath (String.ofList ('/' :: s.toList)) := by
  congr 1
  exact String.ext (by simp)

theorem hasSuffix_health (s : String) :
    GoText.hasSuffix ("/" ++ s) "/health" = true ↔
      '/' :: "health".toList <:+ '/' :: s.toList := by
  simp [GoText.hasSuffix, List.isSuffixOf_iff_suffix]

/-- A segment at the end of a path is found in the last segment. -/
theorem suffix_of_suffix_append
    {w l x : List Char}
    (hw : '/' ∉ w)
    (h : '/' :: w <:+ x ++ '/' :: l) :
    '/' :: w <:+ '/' :: l := by
  rcases List.suffix_or_suffix_of_suffix h (List.suffix_append x ('/' :: l)) with h' | h'
  · exact h'
  · rcases List.suffix_cons_iff.mp h' with heq | hsuf
    · rw [heq]
    · exact absurd (hsuf.mem List.mem_cons_self) hw

/-- Two segments at the end of a path are found in the last segment, or the second of them
is the last segment and the first is at the end of what is before it. -/
theorem suffix_of_suffix_append_two
    {v w l x : List Char}
    (hv : '/' ∉ v) (hw : '/' ∉ w)
    (h : '/' :: v ++ '/' :: w <:+ x ++ '/' :: l) :
    '/' :: v ++ '/' :: w <:+ '/' :: l ∨ l = w ∧ '/' :: v <:+ x := by
  obtain ⟨y, hy⟩ := h
  have hlast : '/' :: w <:+ '/' :: l :=
    suffix_of_suffix_append hw ⟨y ++ '/' :: v, by simpa using hy⟩
  obtain ⟨z, hz⟩ := hlast
  cases z with
  | nil =>
      obtain rfl : w = l := by
        simpa using hz
      refine Or.inr ⟨rfl, y, ?_⟩
      rw [← List.append_assoc] at hy
      exact List.append_cancel_right hy
  | cons c z =>
      obtain rfl : c = '/' := by
        simpa using congrArg List.head? hz
      left
      have hfirst : '/' :: v <:+ '/' :: z := by
        refine suffix_of_suffix_append hv (x := x) ⟨y, ?_⟩
        have hcancel : y ++ '/' :: v ++ '/' :: w = x ++ '/' :: z ++ '/' :: w := by
          rw [List.append_assoc, hy, ← hz, List.append_assoc]
        exact List.append_cancel_right hcancel
      obtain ⟨y', hy'⟩ := hfirst
      exact ⟨y', by rw [← List.append_assoc, hy', hz]⟩

theorem rootedPath_concat (segments : List (List Char)) (last : List Char) :
    rootedPath (segments ++ [last]) = rootedPath segments ++ '/' :: last := by
  simp [rootedPath]

theorem accepts_reverse
    {segs : List Seg} {path : List String}
    (h : Accepts false segs path) :
    List.Forall₂ Seg.Accepts segs.reverse path.reverse := by
  refine List.forall₂_reverse_iff.mpr ?_
  induction segs generalizing path with
  | nil =>
      obtain rfl : path = [] := by
        simpa [Accepts] using h
      exact List.Forall₂.nil
  | cons seg segs ih =>
      cases path with
      | nil => exact h.elim
      | cons e rest => exact List.Forall₂.cons h.1 (ih h.2)

/-- A segment at the end of what a base path and some segments before the last one make. -/
theorem health_of_suffix
    (base : List Char) {before : List Seg} {path : List String}
    (h : List.Forall₂ Seg.Accepts before path)
    (hsuffix : '/' :: "health".toList <:+ base ++ rootedPath (path.reverse.map String.toList)) :
    reachesHealth before = true := by
  cases h with
  | nil =>
      rfl
  | @cons seg e segs rest hseg hrest =>
      cases seg with
      | single =>
          rfl
      | lit s =>
          obtain rfl : e = s := hseg
          rw [List.reverse_cons, List.map_append, List.map_singleton, rootedPath_concat,
            ← List.append_assoc] at hsuffix
          exact (hasSuffix_health e).mpr (suffix_of_suffix_append (by decide) hsuffix)

/-- A pattern that accepts an operational path reaches one. -/
theorem reaches_of_operational
    {p : Pattern} {base : List Char} {path : List String}
    (hne : path ≠ [])
    (hacc : Accepts p.multi p.segs path)
    (hop : operationalPath (String.ofList (base ++ rootedPath (path.map String.toList))) = true) :
    reaches p = true := by
  unfold reaches
  cases hmulti : p.multi with
  | true =>
      rfl
  | false =>
      rw [hmulti] at hacc
      have hall := accepts_reverse hacc
      obtain ⟨init, last, rfl⟩ := (List.eq_nil_or_concat' path).resolve_left hne
      rw [List.reverse_append, List.reverse_singleton, List.singleton_append] at hall
      rw [Bool.false_or]
      cases hsegs : p.segs.reverse with
      | nil =>
          rw [hsegs] at hall
          cases hall
      | cons seg before =>
          rw [hsegs] at hall
          obtain ⟨hseg, hbefore⟩ := List.forall₂_cons.mp hall
          cases seg with
          | single =>
              rfl
          | lit s =>
              obtain rfl : last = s := hseg
              rw [operationalPath_ofList, List.map_append, List.map_singleton, rootedPath_concat,
                ← List.append_assoc] at hop
              have hlast : operationalPath ("/" ++ last) = true ∨
                  (last = "live" ∨ last = "ready") ∧ '/' :: "health".toList <:+
                    base ++ rootedPath (init.map String.toList) := by
                rw [operationalPath_slash, operationalPath_ofList]
                rcases hop with hlive | hready | hmetrics
                · rcases suffix_of_suffix_append_two (by decide) (by decide) hlive with h | ⟨h, hx⟩
                  · exact Or.inl (Or.inl h)
                  · exact Or.inr ⟨Or.inl (String.ext h), hx⟩
                · rcases suffix_of_suffix_append_two (by decide) (by decide) hready with h | ⟨h, hx⟩
                  · exact Or.inl (Or.inr (Or.inl h))
                  · exact Or.inr ⟨Or.inr (String.ext h), hx⟩
                · exact Or.inl (Or.inr (Or.inr (suffix_of_suffix_append (by decide) hmetrics)))
              rcases hlast with h | ⟨h, hx⟩
              · simp [h]
              · have hhealth := health_of_suffix base hbefore (by simpa using hx)
                have hname : (last == "live" || last == "ready") = true := by
                  simpa using h
                simp [hname, hhealth]

/-- A request that escapes the limiters is dispatched to a route that reaches its path. -/
theorem reaches_of_dispatch
    {table : List (Route Owner)} {req : ServeMux.Request} {r : Route Owner} (base : List Char)
    (h : dispatch table req = some r)
    (hop : operationalPath (String.ofList (base ++ req.url.path.toList)) = true) :
    r ∈ table ∧ reaches r.pattern = true := by
  obtain ⟨hroot, hmem, hacc⟩ := dispatch_sound h
  have hslash : req.url.path.toList.getLast? ≠ some '/' := by
    intro hlast
    obtain ⟨init, hinit⟩ := List.getLast?_eq_some_iff.mp hlast
    rw [operationalPath_ofList, hinit, ← List.append_assoc] at hop
    have hend {t : List Char} {c : Char} (ht : t ++ [c] <:+ base ++ init ++ ['/']) : c = '/' := by
      obtain ⟨y, hy⟩ := ht
      rw [← List.append_assoc] at hy
      simpa using (List.append_inj' hy rfl).2
    rcases hop with hop | hop | hop
    · exact absurd (hend (t := "/health/liv".toList) (c := 'e') hop) (by decide)
    · exact absurd (hend (t := "/health/read".toList) (c := 'y') hop) (by decide)
    · exact absurd (hend (t := "/metric".toList) (c := 's') hop) (by decide)
  obtain ⟨hne, hpath⟩ := path_eq_elements hroot (unescape_escapedPath req.url) hslash
  rw [hpath] at hop
  exact ⟨hmem, reaches_of_operational hne hacc hop⟩

theorem reaches_auth :
    ∀ r ∈ authRoutes, reaches r.pattern = false := by
  decide +kernel

/-- The routes that can get a request that escapes the limiters. -/
theorem owner_of_newRouter
    {deps : RouterDeps} {basePath : String} {req : ServeMux.Request} {owner : Owner}
    (h : newRouter basePath deps req = some owner)
    (hop : operationalPath req.url.path = true) :
    ∃ r ∈ deps.table, r.handler = owner ∧ reaches r.pattern = true := by
  unfold newRouter at h
  split_ifs at h
  · obtain ⟨r, hr, rfl⟩ := Option.map_eq_some_iff.mp h
    obtain ⟨hmem, hreach⟩ := reaches_of_dispatch [] hr (by simpa using hop)
    exact ⟨r, hmem, rfl, hreach⟩
  · simp only [Option.bind_eq_some_iff, Option.map_eq_some_iff] at h
    obtain ⟨_, _, _, _, url, hstrip, r, hr, rfl⟩ := h
    have hpath := path_of_stripPrefix hstrip
    obtain ⟨hmem, hreach⟩ := reaches_of_dispatch
      (GoText.trimRight basePath '/').toList hr (by simpa [← hpath] using hop)
    exact ⟨r, hmem, rfl, hreach⟩

end Reaching

section Exposing

/-- A value that ends as wanted and is none of some texts. -/
theorem exists_fresh (avoid : List String) (t : List Char) :
    ∃ v : String, v ∉ avoid ∧ t <:+ v.toList ∧ v ≠ "" := by
  let n := (avoid.map String.length).sum + 1
  refine ⟨String.ofList (List.replicate n 'z' ++ t), ?_, by simp, ?_⟩
  · intro hmem
    have hle := List.single_le_sum (by simp) _ (List.mem_map_of_mem (f := String.length) hmem)
    rw [← String.length_toList, String.toList_ofList, List.length_append,
      List.length_replicate] at hle
    omega
  · intro hempty
    have h := congrArg (fun s : String => s.toList.length) hempty
    simp [n] at h

/-- The literals of a table. -/
def literals (table : List (Route Owner)) : List String :=
  table.flatMap fun r => r.pattern.segs.filterMap fun
    | .lit s => some s
    | .single => none

theorem mem_literals
    {table : List (Route Owner)} {r : Route Owner} {s : String}
    (hr : r ∈ table)
    (h : Seg.lit s ∈ r.pattern.segs) :
    s ∈ literals table :=
  List.mem_flatMap.mpr ⟨r, hr, List.mem_filterMap.mpr ⟨_, h, rfl⟩⟩

theorem exists_asks (table : List (Route Owner)) (p : Pattern) :
    ∃ method, Asks table p method := by
  unfold Asks
  split_ifs
  · obtain ⟨method, hfresh, _⟩ := exists_fresh ("HEAD" :: table.map fun r => r.pattern.method) []
    simp only [List.mem_cons, List.mem_map, not_or, not_exists, not_and] at hfresh
    exact ⟨method, hfresh.1, hfresh.2⟩
  · exact ⟨_, rfl⟩

theorem mem_table_of_app
    {deps : RouterDeps} {p : Pattern} (hp : p ∈ deps.appRoutes) :
    (⟨p, .app⟩ : Route Owner) ∈ deps.table :=
  List.mem_append_right _ (List.mem_map_of_mem hp)

/-- A path without a wildcard for the rest, filled with a value that no literal has, is
dispatched to its own pattern. -/
theorem dispatch_of_fill
    {deps : RouterDeps} {route : Route Owner} {v : String} {req : ServeMux.Request}
    (hmem : route ∈ deps.table)
    (hmulti : route.pattern.multi = false)
    (hv : v ≠ "/")
    (hfresh : v ∉ literals deps.table)
    (hasks : Asks deps.table route.pattern req.method)
    (hhost : req.host = route.pattern.host) (hurl : req.urlHost = route.pattern.host)
    (hroot : req.url.escapedPath.toList.head? = some '/')
    (hclean : cleanPath req.url.escapedPath = req.url.escapedPath)
    (helements : elements req.url.escapedPath = fill v route.pattern.segs) :
    dispatch deps.table req = some route := by
  have hlits : ∀ r ∈ routesFor deps.table route.pattern.host route.pattern.method,
      Seg.lit v ∉ r.1 := by
    rintro ⟨segs, r⟩ hr hlit
    obtain ⟨htable, _, _, rfl⟩ := mem_routesFor.mp hr
    exact hfresh (mem_literals htable hlit)
  obtain ⟨r, hmatch, hr, hrmulti⟩ := matchPath_fill hv hlits
    (mem_routesFor.mpr ⟨hmem, rfl, rfl, rfl⟩) hmulti
  obtain ⟨htable, hrhost, hrmethod, hrsegs⟩ := mem_routesFor.mp hr
  have hpattern : r.pattern = route.pattern := by
    obtain ⟨⟨method, host, segs, multi, _⟩, owner⟩ := r
    obtain ⟨⟨method', host', segs', multi', _⟩, owner'⟩ := route
    simp_all
  obtain rfl : r = route :=
    List.inj_on_of_nodup_map deps.registered htable hmem hpattern
  have hlookup : lookup deps.table req.host req.method (elements req.url.escapedPath) =
      some r := by
    rw [hhost, helements]
    exact lookup_of_asks hasks hmatch
  have hredirect : redirects deps.table req.host req.method req.url.escapedPath = false := by
    simp [redirects, exactMatch, hlookup, hmulti]
  rw [dispatch_eq_lookup hroot hclean (hurl.trans hhost.symm) hredirect, hlookup]

theorem fill_ne_empty
    {v : String} (hv : v ≠ "") {p : Pattern} :
    ∀ e ∈ fill v p.segs, e ≠ "" := by
  intro e he
  obtain ⟨seg, hseg, rfl⟩ := List.mem_map.mp he
  cases seg with
  | lit s =>
      rintro rfl
      exact p.lit_ne hseg
  | single =>
      exact hv

/-- How the wildcards of a pattern are filled to make its path operational. -/
theorem exists_operational_fill
    {p : Pattern}
    (hmulti : p.multi = false)
    (hreach : reaches p = true)
    (hsegs : p.segs ≠ [.lit "live"] ∧ p.segs ≠ [.lit "ready"]) :
    ∃ t : List Char, ∀ v : String, t <:+ v.toList →
      operationalPath (String.ofList (rootedPath ((fill v p.segs).map String.toList))) = true := by
  unfold reaches at hreach
  rw [hmulti, Bool.false_or] at hreach
  have hpath (v : String) : rootedPath ((fill v p.segs).map String.toList) =
      rootedPath ((fill v p.segs.reverse.reverse).map String.toList) := by
    rw [List.reverse_reverse]
  cases hsegsr : p.segs.reverse with
  | nil =>
      simp [hsegsr] at hreach
  | cons last before =>
      have hconcat (v : String) (e : String) (he : fill v [last] = [e]) :
          rootedPath ((fill v p.segs).map String.toList) =
            rootedPath ((fill v before.reverse).map String.toList) ++ '/' :: e.toList := by
        rw [hpath, hsegsr, List.reverse_cons, fill, List.map_append, ← fill, ← fill, he,
          List.map_append, List.map_singleton, rootedPath_concat]
      cases last with
      | single =>
          refine ⟨'/' :: "metrics".toList, fun v hv => ?_⟩
          rw [operationalPath_ofList, hconcat v v rfl]
          exact Or.inr (Or.inr (hv.trans ((List.suffix_cons _ _).trans (List.suffix_append _ _))))
      | lit s =>
          rw [hsegsr] at hreach
          simp only [Bool.or_eq_true, Bool.and_eq_true, beq_iff_eq] at hreach
          rcases hreach with hop | ⟨hname, hhealth⟩
          · refine ⟨[], fun v _ => ?_⟩
            rw [operationalPath_slash, operationalPath_ofList] at hop
            rw [operationalPath_ofList, hconcat v s rfl]
            have hmono {t : List Char} (ht : t <:+ '/' :: s.toList) :=
              ht.trans (List.suffix_append
                (rootedPath ((fill v before.reverse).map String.toList)) ('/' :: s.toList))
            exact hop.imp hmono (Or.imp hmono hmono)
          · refine ⟨'/' :: "health".toList, fun v hv => ?_⟩
            have hbefore : '/' :: "health".toList <:+
                rootedPath ((fill v before.reverse).map String.toList) := by
              cases before with
              | nil =>
                  have hone : p.segs = [.lit s] := by
                    rw [← List.reverse_reverse p.segs, hsegsr]
                    rfl
                  rcases hname with rfl | rfl
                  · exact absurd hone hsegs.1
                  · exact absurd hone hsegs.2
              | cons seg rest =>
                  rw [List.reverse_cons, fill, List.map_append, ← fill, ← fill, List.map_append]
                  cases seg with
                  | single =>
                      rw [show fill v [.single] = [v] from rfl, List.map_singleton,
                        rootedPath_concat]
                      exact hv.trans ((List.suffix_cons _ _).trans (List.suffix_append _ _))
                  | lit m =>
                      rw [show fill v [.lit m] = [m] from rfl, List.map_singleton,
                        rootedPath_concat]
                      exact ((hasSuffix_health m).mp hhealth).trans (List.suffix_append _ _)
            obtain ⟨y, hy⟩ := hbefore
            rw [operationalPath_ofList, hconcat v s rfl, ← hy, List.append_assoc]
            rcases hname with rfl | rfl
            · exact Or.inl (List.suffix_append _ _)
            · exact Or.inr (Or.inl (List.suffix_append _ _))

theorem newRouter_root
    {deps : RouterDeps} {req : ServeMux.Request} {r : Route Owner}
    (h : dispatch deps.table req = some r) :
    newRouter "" deps req = some r.handler := by
  unfold newRouter
  rw [if_pos (by simp), h]
  rfl

/-- An application pattern that reaches an operational path gets a request for one. -/
theorem exposed_of_reaches
    {deps : RouterDeps} {p : Pattern}
    (hp : p ∈ deps.appRoutes)
    (hmulti : p.multi = false)
    (hsegs : p.segs ≠ [.lit "live"] ∧ p.segs ≠ [.lit "ready"])
    (hreach : reaches p = true) :
    ∃ req : ServeMux.Request, operationalPath req.url.path = true ∧
      newRouter "" deps req = some .app := by
  obtain ⟨t, ht⟩ := exists_operational_fill hmulti hreach hsegs
  obtain ⟨v, hfresh, hsuffix, hne⟩ := exists_fresh ("/" :: literals deps.table) t
  simp only [List.mem_cons, not_or] at hfresh
  obtain ⟨method, hasks⟩ := exists_asks deps.table p
  have hpath : fill v p.segs ≠ [] := by
    intro hnil
    have hsegs : p.segs = [] := by
      simpa [fill] using hnil
    simp [reaches, hmulti, hsegs] at hreach
  have hroot : (URL.ofSegments ((fill v p.segs).map String.toList)).escapedPath.toList.head? =
      some '/' := by
    rw [escapedPath_ofSegments (by simpa using hpath), rootedPath_eq_intercalate (by simpa using hpath)]
    simp
  let req : ServeMux.Request :=
    ⟨method, p.host, p.host, URL.ofSegments ((fill v p.segs).map String.toList)⟩
  have hdispatch : dispatch deps.table req = some ⟨p, .app⟩ :=
    dispatch_of_fill (mem_table_of_app hp) hmulti hfresh.1 hfresh.2 hasks rfl rfl hroot
      (cleanPath_ofSegments hpath (fill_ne_empty hne))
      (elements_ofSegments hpath (fill_ne_empty hne))
  exact ⟨req, ht v hsuffix, newRouter_root hdispatch⟩

/-- Only literals are registered by the system and the auth handler. -/
theorem literal_of_owner
    {deps : RouterDeps} {r : Route Owner}
    (hr : r ∈ deps.table)
    (howner : r.handler ≠ .app) :
    r.pattern.multi = false ∧ Seg.single ∉ r.pattern.segs := by
  have hfixed : ∀ metrics, ∀ r ∈ systemRoutes metrics ++ authRoutes,
      r.pattern.multi = false ∧ Seg.single ∉ r.pattern.segs := by
    decide +kernel
  rcases List.mem_append.mp hr with hr | hr
  · exact hfixed deps.metrics r hr
  · obtain ⟨p, _, rfl⟩ := List.mem_map.mp hr
    exact absurd rfl howner

/-- A wildcard for the rest of the path takes paths that are longer than every pattern. -/
theorem exposed_of_multi
    {deps : RouterDeps} {p : Pattern}
    (hp : p ∈ deps.appRoutes)
    (hmulti : p.multi = true) :
    ∃ req : ServeMux.Request, operationalPath req.url.path = true ∧
      newRouter "" deps req = some .app := by
  obtain ⟨v, hfresh, hsuffix, hne⟩ :=
    exists_fresh ("/" :: literals deps.table) ('/' :: "metrics".toList)
  simp only [List.mem_cons, not_or] at hfresh
  obtain ⟨method, hasks⟩ := exists_asks deps.table p
  let n := (deps.table.map fun r => r.pattern.segs.length).sum
  let path := fill v p.segs ++ (List.replicate n v ++ [v])
  have hpath : path ≠ [] := by
    simp [path]
  have hempty : ∀ e ∈ path, e ≠ "" := by
    intro e he
    simp only [path, List.mem_append, List.mem_replicate, List.mem_singleton] at he
    rcases he with he | ⟨_, rfl⟩ | rfl
    · exact fill_ne_empty hne e he
    · exact hne
    · exact hne
  have hlong : ∀ r ∈ deps.table, r.pattern.segs.length < path.length := by
    intro r hr
    have hle := List.single_le_sum (by simp) _
      (List.mem_map_of_mem (f := fun r : Route Owner => r.pattern.segs.length) hr)
    simp only [path, List.length_append, List.length_replicate, List.length_singleton]
    omega
  have hmem := mem_table_of_app hp
  have hacc : Accepts p.multi p.segs path :=
    accepts_fill hfresh.1 p.multi p.segs (by simp [hmulti])
  obtain ⟨r, hmatch⟩ := Option.isSome_iff_exists.mp
    (matchPath_isSome (mem_routesFor.mpr ⟨hmem, rfl, rfl, rfl⟩) hacc)
  have hlookup := lookup_of_asks hasks hmatch
  have howner : r.handler = .app := by
    by_contra howner
    obtain ⟨hr, hraccepts⟩ := lookup_sound hlookup
    obtain ⟨hrmulti, hrlit⟩ := literal_of_owner hr howner
    rw [hrmulti] at hraccepts
    have hlit := lit_mem_of_accepts hrlit hraccepts (e := v) (by simp [path])
    exact hfresh.2 (mem_literals hr hlit)
  let req : ServeMux.Request := ⟨method, p.host, p.host, URL.ofSegments (path.map String.toList)⟩
  have hroot : req.url.escapedPath.toList.head? = some '/' := by
    rw [escapedPath_ofSegments (by simpa using hpath),
      rootedPath_eq_intercalate (by simpa using hpath)]
    simp
  have hdispatch : dispatch deps.table req = some r := by
    rw [dispatch_eq_lookup hroot (cleanPath_ofSegments hpath hempty) rfl
      (redirects_of_long hpath hlong), elements_ofSegments hpath hempty]
    exact hlookup
  have hop : operationalPath (String.ofList (rootedPath (path.map String.toList))) = true := by
    rw [operationalPath_ofList, show path = fill v p.segs ++ List.replicate n v ++ [v] from
      (List.append_assoc _ _ _).symm, List.map_append, List.map_singleton, rootedPath_concat]
    exact Or.inr (Or.inr (hsuffix.trans ((List.suffix_cons _ _).trans (List.suffix_append _ _))))
  exact ⟨req, hop, by rw [newRouter_root hdispatch, howner]⟩

/-- The pattern of the base path `/health`. -/
def healthMount : Pattern :=
  ⟨"", "", [.lit "health"], true, by decide⟩

/-- Below `/health`, a request for a path of two segments goes to the mux of the application. -/
theorem newRouter_health
    {deps : RouterDeps} {method host path : String} {r : Route Owner}
    (hpath : path = "live" ∨ path = "ready")
    (h : dispatch deps.table ⟨method, host, host, ⟨"/" ++ path, ""⟩⟩ = some r) :
    newRouter "/health" deps ⟨method, host, host, ⟨"/health/" ++ path, ""⟩⟩ = some r.handler := by
  have hparse : parsePattern (GoText.trimRight "/health" '/' ++ "/") = some healthMount := by
    decide +kernel
  have hstrip : stripPrefix (GoText.trimRight "/health" '/') ⟨"/health/" ++ path, ""⟩ =
      some ⟨"/" ++ path, ""⟩ := by
    rcases hpath with rfl | rfl <;> decide +kernel
  have hescaped : (⟨"/health/" ++ path, ""⟩ : URL).escapedPath = "/health/" ++ path := by
    rcases hpath with rfl | rfl <;> decide +kernel
  have hfacts : ("/health/" ++ path).toList.head? = some '/' ∧
      cleanPath ("/health/" ++ path) = "/health/" ++ path ∧
      elements ("/health/" ++ path) = ["health", path] ∧
      ("/health/" ++ path ++ "/").toList.count '/' = 3 := by
    rcases hpath with rfl | rfl <;> decide +kernel
  have hredirect : redirects [(⟨healthMount, ()⟩ : Route Unit)] host method
      ("/health/" ++ path) = false := by
    unfold redirects
    rw [Bool.and_eq_false_iff]
    right
    unfold exactMatch
    split
    · rfl
    · next found hfound =>
        obtain ⟨hmem, _⟩ := lookup_sound hfound
        obtain rfl := List.mem_singleton.mp hmem
        rw [hfacts.2.2.2]
        simp [healthMount]
  have hroot : (dispatch [(⟨healthMount, ()⟩ : Route Unit)]
      ⟨method, host, host, ⟨"/health/" ++ path, ""⟩⟩).isSome = true := by
    rw [dispatch_eq_lookup (by rw [hescaped]; exact hfacts.1)
      (by rw [hescaped]; exact hfacts.2.1) rfl (by rw [hescaped]; exact hredirect)]
    rw [hescaped, hfacts.2.2.1]
    exact lookup_isSome_of_any List.mem_cons_self rfl rfl ⟨rfl, by simp [healthMount, Accepts]⟩
  obtain ⟨mount, hmount⟩ := Option.isSome_iff_exists.mp hroot
  unfold newRouter
  rw [if_neg (by decide)]
  simp only [hparse, Option.bind_some, hmount, hstrip, h, Option.map_some]

/-- A pattern of one such segment is exposed below the base path `/health`. -/
theorem exposed_below_health
    {deps : RouterDeps} {p : Pattern} {s : String}
    (hp : p ∈ deps.appRoutes)
    (hmulti : p.multi = false)
    (hs : s = "live" ∨ s = "ready")
    (hsegs : p.segs = [.lit s]) :
    ∃ req : ServeMux.Request, operationalPath req.url.path = true ∧
      newRouter "/health" deps req = some .app := by
  obtain ⟨v, hfresh, _, _⟩ := exists_fresh ("/" :: literals deps.table) []
  simp only [List.mem_cons, not_or] at hfresh
  obtain ⟨method, hasks⟩ := exists_asks deps.table p
  have hescaped : (⟨"/" ++ s, ""⟩ : URL).escapedPath = "/" ++ s := by
    rcases hs with rfl | rfl <;> decide +kernel
  have hfacts : ("/" ++ s).toList.head? = some '/' ∧ cleanPath ("/" ++ s) = "/" ++ s ∧
      elements ("/" ++ s) = [s] ∧ operationalPath ("/health/" ++ s) = true := by
    rcases hs with rfl | rfl <;> decide +kernel
  have hdispatch : dispatch deps.table ⟨method, p.host, p.host, ⟨"/" ++ s, ""⟩⟩ =
      some ⟨p, .app⟩ := by
    refine dispatch_of_fill (mem_table_of_app hp) hmulti hfresh.1 hfresh.2 hasks rfl rfl ?_ ?_ ?_
    · rw [hescaped]
      exact hfacts.1
    · rw [hescaped]
      exact hfacts.2.1
    · rw [hescaped, hfacts.2.2.1, hsegs]
      rfl
  have hrouter := newRouter_health hs hdispatch
  exact ⟨⟨method, p.host, p.host, ⟨"/health/" ++ s, ""⟩⟩, hfacts.2.2.2, hrouter⟩

/-- An application pattern that reaches an operational path gets a request for one. -/
theorem exists_exposed
    {deps : RouterDeps} {p : Pattern}
    (hp : p ∈ deps.appRoutes)
    (hreach : reaches p = true) :
    ∃ basePath req, operationalPath (ServeMux.Request.url req).path = true ∧
      newRouter basePath deps req = some .app := by
  cases hmulti : p.multi with
  | true =>
      exact ⟨"", exposed_of_multi hp hmulti⟩
  | false =>
      by_cases hlive : p.segs = [.lit "live"]
      · exact ⟨"/health", exposed_below_health hp hmulti (Or.inl rfl) hlive⟩
      · by_cases hready : p.segs = [.lit "ready"]
        · exact ⟨"/health", exposed_below_health hp hmulti (Or.inr rfl) hready⟩
        · exact ⟨"", exposed_of_reaches hp hmulti ⟨hlive, hready⟩ hreach⟩

end Exposing

section Results

/-- Below every base path only system routes get the requests that escape the limiters,
exactly when no pattern of the application reaches an operational path. -/
theorem only_system_escapes_iff (deps : RouterDeps) :
    OnlySystemEscapes deps ↔ ∀ p ∈ deps.appRoutes, reaches p = false := by
  constructor
  · intro h p hp
    by_contra hreach
    rw [Bool.not_eq_false] at hreach
    obtain ⟨basePath, req, hop, hrouter⟩ := exists_exposed hp hreach
    have howner := h basePath req .app ((escapesLimits_iff _).mpr hop) hrouter
    contradiction
  · intro h basePath req owner hescapes hrouter
    obtain ⟨r, hr, rfl, hreach⟩ := owner_of_newRouter hrouter ((escapesLimits_iff _).mp hescapes)
    rcases List.mem_append.mp hr with hr | hr
    · rcases List.mem_append.mp hr with hr | hr
      · have hsystem : ∀ metrics, ∀ r ∈ systemRoutes metrics, r.handler = .system := by
          decide +kernel
        exact hsystem deps.metrics r hr
      · rw [reaches_auth r hr] at hreach
        contradiction
    · obtain ⟨p, hp, rfl⟩ := List.mem_map.mp hr
      rw [h p hp] at hreach
      contradiction

/-- The routes of the shipped application. -/
def managedItems : RouterDeps where
  metrics := true
  appRoutes :=
    [⟨"GET", "", [.lit "api", .lit "managed-items", .single], false, by decide⟩,
      ⟨"POST", "", [.lit "api", .lit "storage", .lit "upload-url"], false, by decide⟩]
  registered := by decide +kernel

/-- The item with the name `metrics` is read without being counted. -/
theorem managed_item_escapes :
    EscapesLimits "/api/managed-items/metrics" ∧
      newRouter "" managedItems ⟨"GET", "example.com", "", ⟨"/api/managed-items/metrics", ""⟩⟩ =
        some .app :=
  ⟨(escapesLimits_iff _).mpr (by decide +kernel), by decide +kernel⟩

end Results

end Router
end GatewayRuntime
