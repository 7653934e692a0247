import GatewayRuntime.AppApi
import GatewayRuntime.Lib.CleanPath
import GatewayRuntime.Lib.GoBytes
import GatewayRuntime.Lib.GoUrlParse
import GatewayRuntime.OutboundClient

/-!
# The upstream path of a managed item

`getManagedItem` takes an identifier from the request path, `domainapi.Client.GetManagedItem`
appends it to the route, and `Client.newRequest` puts the route below the path of the base
URL.  `http.NewRequestWithContext` gets the text of that URL, so its path is written with
`EscapedPath` and read back.

The path of the base URL is copied with the way it was written, but that is no encoding of the
longer path, so the default encoding is sent.  It keeps the identifier in one segment.  A dot
stands for itself there, so the identifiers `.` and `..` are sent as dot segments
(`managed_item_segment_iff`).
-/

namespace GatewayRuntime
namespace DomainApi

open GoText

section Model

/-- The route of managed items. -/
def managedItems : String :=
  "/api/managed-items/"

/-- The route of `Client.GetManagedItem`. -/
def managedItemRoute (id : String) : String :=
  managedItems ++ id

/-- What `outbound.New` uses of `url.Parse`. -/
def parseBase (v : String) : Option Outbound.BaseURL :=
  (GoUrl.parse v).map fun ref => ⟨ref.scheme, ref.host, ref.url.path⟩

/-- The address in `Client.newRequest`: a copy of the base URL with another path. -/
def requestURL (c : Outbound.Client) (base : GoUrl.URL) (route : String) : GoUrl.URL :=
  ⟨Outbound.requestPath c (bytesOf route), base.rawPath⟩

/-- The address of the request, once the text of the other one was parsed. -/
def sentURL (c : Outbound.Client) (base : GoUrl.URL) (route : String) : Option GoUrl.URL :=
  GoUrl.setPath (requestURL c base route).escapedPath.toList

/-- The path of a request is that of the base, the route, and one segment for the identifier. -/
def OneSegment (base : GoUrl.URL) (id : String) (u : GoUrl.URL) : Prop :=
  ∃ segment,
    u.escapedPath.toList =
      GoUrl.escape (trimRight base.path '/').toList ++ managedItems.toList ++ segment ∧
    '/' ∉ segment ∧ GoUrl.unescape segment = some (bytesOf id).toList ∧
    segment ≠ ['.'] ∧ segment ≠ ['.', '.']

end Model

section Requests

variable {c : Outbound.Client} {base : GoUrl.URL}

theorem bytesOf_managedItemRoute (id : String) :
    bytesOf (managedItemRoute id) = managedItems ++ bytesOf id := by
  have hroute : bytesOf managedItems = managedItems := bytesOf_of_isASCII (by decide)
  rw [managedItemRoute, bytesOf_append]
  exact congrArg (· ++ bytesOf id) hroute

theorem requestPath_managedItem (c : Outbound.Client) (id : String) :
    (Outbound.requestPath c (bytesOf (managedItemRoute id))).toList =
      (trimRight c.baseURL.path '/').toList ++ managedItems.toList ++ (bytesOf id).toList := by
  have hroute : managedItems.toList = '/' :: 'a' :: "pi/managed-items/".toList := rfl
  rw [Outbound.requestPath, bytesOf_managedItemRoute]
  simp [trimLeft, hroute]

/-- After the end of a trimmed text there are slashes only. -/
theorem ne_trimRight_append
    (s : String) {rest : List Char} {x : Char} (hx : x ∈ rest) (hslash : x ≠ '/') :
    s.toList ≠ (trimRight s '/').toList ++ rest := by
  intro heq
  have hsplit : s.toList.rdropWhile (· == '/') ++ s.toList.rtakeWhile (· == '/') = s.toList :=
    List.rdropWhile_append_rtakeWhile
  rw [trimRight, String.toList_ofList] at heq
  rw [← List.append_cancel_left (hsplit.trans heq)] at hx
  exact hslash (by simpa using List.mem_rtakeWhile_imp hx)

theorem requestPath_ne_star (c : Outbound.Client) (id : String) :
    Outbound.requestPath c (bytesOf (managedItemRoute id)) ≠ "*" := by
  intro heq
  have hlength := congrArg List.length (requestPath_managedItem c id)
  rw [heq, List.length_append, List.length_append, show managedItems.toList.length = 19 from rfl,
    show "*".toList.length = 1 from rfl] at hlength
  omega

/-- The way the base path was written is no encoding of the longer path. -/
theorem escapedPath_requestURL
    (id : String) (hbase : base.Decodes) (hpath : c.baseURL.path = base.path) :
    (requestURL c base (managedItemRoute id)).escapedPath =
      String.ofList (GoUrl.escape
        (Outbound.requestPath c (bytesOf (managedItemRoute id))).toList) := by
  have hne : GoUrl.unescape base.rawPath.toList ≠
      some (Outbound.requestPath c (bytesOf (managedItemRoute id))).toList ∨ base.rawPath = "" := by
    rcases hbase with hraw | hdecoded
    · exact Or.inr hraw
    · left
      rw [hdecoded, requestPath_managedItem, hpath, ne_eq, Option.some.injEq, List.append_assoc]
      exact ne_trimRight_append (x := 'a') base.path
        (List.mem_append_left _ (by decide)) (by decide)
  unfold GoUrl.URL.escapedPath requestURL
  dsimp only
  rw [if_neg, if_neg (requestPath_ne_star c id)]
  rcases hne with hne | hraw
  · simp [hne]
  · simp [hraw]

/-- The address of the request has the longer path, in the default encoding. -/
theorem sentURL_managedItem
    (id : String) (hbase : base.Decodes) (hpath : c.baseURL.path = base.path) :
    ∃ u, sentURL c base (managedItemRoute id) = some u ∧
      u.escapedPath.toList =
        GoUrl.escape (trimRight base.path '/').toList ++ managedItems.toList ++
          GoUrl.escape (bytesOf id).toList := by
  have hsent : sentURL c base (managedItemRoute id) =
      some ⟨Outbound.requestPath c (bytesOf (managedItemRoute id)), ""⟩ := by
    rw [sentURL, escapedPath_requestURL id hbase hpath, String.toList_ofList,
      GoUrl.setPath_escape, String.ofList_toList]
  have hroute : GoUrl.escape managedItems.toList = managedItems.toList := by
    decide
  have hsplit (front route back : List Char) (h : GoUrl.escape route = route) :
      GoUrl.escape (front ++ route ++ back) =
        GoUrl.escape front ++ route ++ GoUrl.escape back := by
    rw [GoUrl.escape_append, GoUrl.escape_append, h]
  have hescaped := GoUrl.escapedPath_of_default
    (u := ⟨Outbound.requestPath c (bytesOf (managedItemRoute id)), ""⟩) rfl
    (requestPath_ne_star c id)
  refine ⟨_, hsent, ?_⟩
  rw [hescaped, String.toList_ofList, requestPath_managedItem, hpath]
  exact hsplit _ _ _ hroute

end Requests

section Results

theorem not_mem_emitAndAnswer
    (h : AppApi.Handler) (event : AppApi.AuditEvent) (resp : AppApi.Response) (sid id : String) :
    .getManagedItem sid id ∉ (AppApi.emitAndAnswer h event resp).calls := by
  unfold AppApi.emitAndAnswer AppApi.emit
  split_ifs
  · simp [Traced.done]
  · exact List.not_mem_nil

/-- The handler asks for the trimmed path value, if that is not empty and has no slash, on behalf of
a session. -/
theorem mem_getManagedItem_iff
    (h : AppApi.Handler) (pathValue sid id : String) (cookie : Option String) :
    .getManagedItem sid id ∈ (AppApi.getManagedItem h pathValue cookie).calls ↔
      id = trimSpace pathValue ∧ id ≠ "" ∧ '/' ∉ id.toList ∧ sid = cookie.getD "" ∧ sid ≠ "" := by
  unfold AppApi.getManagedItem
  dsimp only
  by_cases hid : trimSpace pathValue = "" ∨ contains (trimSpace pathValue) "/" = true
  · rw [if_pos hid]
    rw [contains_rune_iff rfl] at hid
    refine iff_of_false (not_mem_emitAndAnswer _ _ _ _ _) ?_
    rintro ⟨rfl, hempty, hslash, -⟩
    exact hid.elim hempty hslash
  rw [if_neg hid]
  rw [not_or, contains_rune_iff rfl] at hid
  by_cases hcookie : cookie.getD "" = ""
  · rw [if_pos hcookie]
    refine iff_of_false List.not_mem_nil ?_
    rintro ⟨-, -, -, rfl, hsid⟩
    exact hsid hcookie
  rw [if_neg hcookie, Traced.call_bind, List.mem_cons]
  constructor
  · rintro (heq | hcall)
    · obtain ⟨rfl, rfl⟩ := AppApi.Action.getManagedItem.inj heq
      exact ⟨rfl, hid.1, hid.2, rfl, hcookie⟩
    · cases hdomain : h.domain (cookie.getD "") (trimSpace pathValue) <;> rw [hdomain] at hcall <;>
        exact absurd hcall (not_mem_emitAndAnswer _ _ _ _ _)
  · rintro ⟨rfl, -, -, rfl, -⟩
    exact Or.inl rfl

theorem path_of_newClient
    {baseURL : String} {ref : GoUrl.Reference} {c : Outbound.Client}
    (hparse : GoUrl.parse (trimRight baseURL '/') = some ref)
    (hnew : Outbound.newClient parseBase baseURL = .ok c) :
    c.baseURL.path = ref.url.path := by
  unfold Outbound.newClient parseBase at hnew
  rw [hparse] at hnew
  dsimp only [Option.map_some] at hnew
  split_ifs at hnew
  rw [← Except.ok.inj hnew]

/-- An encoded text is a dot segment only if the text is. -/
theorem escape_bytesOf_eq_iff
    {t : String} (hascii : isASCII t = true)
    (hplain : GoUrl.escape t.toList = t.toList) (id : String) :
    GoUrl.escape (bytesOf id).toList = t.toList ↔ id = t := by
  rw [← bytesOf_eq_iff hascii id]
  constructor
  · intro heq
    have hdecoded : GoUrl.unescape (GoUrl.escape (bytesOf id).toList) = some (bytesOf id).toList :=
      GoUrl.unescape_escapeUnless (by decide) _
    have hdecoded' : GoUrl.unescape (GoUrl.escape t.toList) = some t.toList :=
      GoUrl.unescape_escapeUnless (by decide) _
    rw [heq, ← hplain, hdecoded', Option.some.injEq] at hdecoded
    exact String.toList_injective hdecoded.symm
  · intro heq
    rw [heq, hplain]

/-- **The identifier of a managed item** is one plain segment of the upstream path, for every
identifier that the handler accepts but the two dot segments. -/
theorem managed_item_segment_iff
    (h : AppApi.Handler) (pathValue sid id : String) (cookie : Option String)
    (hcall : .getManagedItem sid id ∈ (AppApi.getManagedItem h pathValue cookie).calls)
    (baseURL : String) (ref : GoUrl.Reference) (c : Outbound.Client)
    (hparse : GoUrl.parse (trimRight baseURL '/') = some ref)
    (hnew : Outbound.newClient parseBase baseURL = .ok c) :
    (∃ u, sentURL c ref.url (managedItemRoute id) = some u ∧ OneSegment ref.url id u) ↔
      id ≠ "." ∧ id ≠ ".." := by
  obtain ⟨u, hsent, hescaped⟩ := sentURL_managedItem id (GoUrl.decodes_of_parse hparse)
    (path_of_newClient hparse hnew)
  have hdot := escape_bytesOf_eq_iff (t := ".") (by decide) (by decide) id
  have hdots := escape_bytesOf_eq_iff (t := "..") (by decide) (by decide) id
  have hslash : '/' ∉ GoUrl.escape (bytesOf id).toList :=
    GoUrl.not_mem_escape fun hmem =>
      ((mem_getManagedItem_iff h pathValue sid id cookie).mp hcall).2.2.1
        ((mem_bytesOf_iff (by decide) id).mp hmem)
  rw [ne_eq, ne_eq, ← hdot, ← hdots]
  constructor
  · rintro ⟨u', hsent', segment, hsegment, -, -, hone, htwo⟩
    obtain rfl := Option.some.inj (hsent.symm.trans hsent')
    obtain rfl := List.append_cancel_left (hescaped.symm.trans hsegment)
    exact ⟨hone, htwo⟩
  · rintro ⟨hone, htwo⟩
    exact ⟨u, hsent, _, hescaped, hslash, GoUrl.unescape_escapeUnless (by decide) _, hone, htwo⟩

/-- The client of a base URL below a path. -/
def itemsClient : Outbound.Client :=
  ⟨⟨"https", "items.example", "/v1"⟩, false, 1, 1048576⟩

/-- A handler that knows every item. -/
def itemsHandler : AppApi.Handler where
  domain _ id := .ok ⟨id, ""⟩
  storage _ := .error (.leaf .sessionNotFound)
  hasAudit := false
  uploadBucket := ""
  uploadPrefixes := []
  maxPresignTTL := 0

/-- An identifier with a character that is escaped. -/
theorem managed_item_segment_escaped :
    .getManagedItem "s" "a?b" ∈ (AppApi.getManagedItem itemsHandler " a?b" (some "s")).calls ∧
      ∃ u, sentURL itemsClient ⟨"/v1", ""⟩ (managedItemRoute "a?b") = some u ∧
        OneSegment ⟨"/v1", ""⟩ "a?b" u := by
  have hcall :
      .getManagedItem "s" "a?b" ∈ (AppApi.getManagedItem itemsHandler " a?b" (some "s")).calls := by
    rw [mem_getManagedItem_iff]
    decide
  refine ⟨hcall, (managed_item_segment_iff itemsHandler " a?b" "s" "a?b" (some "s") hcall
    "https://items.example/v1/" ⟨"https", "items.example", ⟨"/v1", ""⟩, "", ""⟩ itemsClient
    (by decide) rfl).mpr (by decide)⟩

/-- The path value `..`, which a client writes as `%2E%2E`, is accepted, and the upstream is asked
for the parent of the managed items. -/
theorem managed_item_parent_requested :
    .getManagedItem "s" ".." ∈ (AppApi.getManagedItem itemsHandler ".." (some "s")).calls ∧
      (sentURL itemsClient ⟨"/v1", ""⟩ (managedItemRoute "..")).map GoUrl.URL.escapedPath =
        some "/v1/api/managed-items/.." := by
  refine ⟨?_, by decide +kernel⟩
  rw [mem_getManagedItem_iff]
  decide

end Results

end DomainApi
end GatewayRuntime
