import GatewayRuntime.Lib.GoNet

/-!
# The identity of a client behind trusted proxies

`ClientIdentity` answers with the address that rate limiting and audit use for a
request.  Behind a trusted proxy it reads `X-Forwarded-For` from the right and
takes the first entry that is an address outside the trusted networks.

Each proxy appends the address it was called from, so the entries from the
rightmost one that is not a trusted proxy onwards were written by trusted proxies
and everything to the left of it by the client.  The identity should not depend
on the left part.
-/

namespace GatewayRuntime
namespace Middleware

open GoNet

section Model

/-- `middleware.TrustedProxyConfig`. -/
structure TrustedProxyConfig where
  cidrs : List IPNet

/-- The parts of an `http.Request` that the middleware reads.  `headers` holds
the header lines under their canonical names, in the order they came. -/
structure Request where
  remoteAddr : String
  path : String
  headers : List (String × String)

/-- `r.Header.Get(name)`. -/
def Request.header (r : Request) (name : String) : String :=
  (r.headers.lookup name).getD ""

/-- `isTrusted`. -/
def isTrusted (ip : IP) (cidrs : List IPNet) : Bool :=
  cidrs.any fun network => network.contains ip

/-- The address of the immediate peer, or the whole text when it has no port. -/
def Request.host (r : Request) : String :=
  match splitHostPort r.remoteAddr with
  | some (host, _) => host
  | none => r.remoteAddr

/-- The address an entry of the header is taken for: none when it is malformed
or the address of a trusted proxy. -/
def untrustedIP (cfg : TrustedProxyConfig) (part : String) : Option IP :=
  match parseIP (GoText.trimSpace part) with
  | none => none
  | some ip => if isTrusted ip cfg.cidrs then none else some ip

/-- `middleware.ClientIdentity`: the address and where it was read from. -/
def clientIdentity (r : Request) (cfg : TrustedProxyConfig) : String × String :=
  let host := r.host
  match parseIP host with
  | none => (host, "remote-address")
  | some remoteIP =>
      if isTrusted remoteIP cfg.cidrs then
        let xff := r.header "X-Forwarded-For"
        if xff = "" then (host, "remote-address")
        else
          match (GoText.split xff ',').reverse.findSome? (untrustedIP cfg) with
          | some ip => (ip.text, "x-forwarded-for")
          | none => (host, "remote-address")
      else (host, "remote-address")

/-- `middleware.ClientIP`. -/
def clientIP (r : Request) (cfg : TrustedProxyConfig) : String :=
  (clientIdentity r cfg).1

end Model

section Forwarding

/-- The immediate peer is a trusted proxy. -/
def PeerTrusted (cfg : TrustedProxyConfig) (r : Request) : Prop :=
  ∃ ip, parseIP r.host = some ip ∧ isTrusted ip cfg.cidrs = true

/-- The lines of the header, in order. -/
def Request.forwardedFor (r : Request) : List String :=
  r.headers.filterMap fun line => if line.1 = "X-Forwarded-For" then some line.2 else none

/-- All lines of the header, read as one comma-separated list. -/
def Request.entries (r : Request) : List String :=
  r.forwardedFor.flatMap fun line => GoText.split line ','

/-- An entry that is the address of a trusted proxy. -/
def trustedEntry (cfg : TrustedProxyConfig) (entry : String) : Bool :=
  match parseIP (GoText.trimSpace entry) with
  | none => false
  | some ip => isTrusted ip cfg.cidrs

/-- The part of a list from its rightmost entry that is not a trusted proxy; the
whole list when there is no such entry. -/
def fromUntrusted (cfg : TrustedProxyConfig) : List String → List String
  | [] => []
  | entry :: rest =>
      if rest.all (trustedEntry cfg) then entry :: rest else fromUntrusted cfg rest

/-- The rightmost entry that is not a trusted proxy. -/
def rightmostUntrusted (cfg : TrustedProxyConfig) (entries : List String) : Option String :=
  entries.reverse.find? fun entry => !trustedEntry cfg entry

/-- Two requests of one peer that differ, if the peer is trusted, only to the left
of that entry. -/
def AgreeFromUntrusted (cfg : TrustedProxyConfig) (r r' : Request) : Prop :=
  r.remoteAddr = r'.remoteAddr ∧
    (PeerTrusted cfg r → fromUntrusted cfg r.entries = fromUntrusted cfg r'.entries)

/-- The rightmost entry that is not a trusted proxy stands in the first header
line and is an address. -/
def Presented (cfg : TrustedProxyConfig) (r : Request) : Prop :=
  (∀ line ∈ r.forwardedFor.tail, ∀ entry ∈ GoText.split line ',', trustedEntry cfg entry) ∧
    ∀ entry, rightmostUntrusted cfg r.entries = some entry → (untrustedIP cfg entry).isSome

/-- The trusted networks leave no address that an entry could name. -/
def AllTrusted (cfg : TrustedProxyConfig) : Prop :=
  ∀ line, ∀ entry ∈ GoText.split line ',', untrustedIP cfg entry = none

end Forwarding

section Lists

variable (cfg : TrustedProxyConfig)

theorem untrustedIP_of_trustedEntry
    {entry : String}
    (h : trustedEntry cfg entry = true) :
    untrustedIP cfg entry = none := by
  unfold trustedEntry at h
  unfold untrustedIP
  cases hip : parseIP (GoText.trimSpace entry) with
  | none =>
      rfl
  | some ip =>
      rw [hip] at h
      exact if_pos h

/-- The entry is among those that are kept. -/
theorem rightmostUntrusted_fromUntrusted (l : List String) :
    rightmostUntrusted cfg (fromUntrusted cfg l) = rightmostUntrusted cfg l := by
  induction l with
  | nil =>
      rfl
  | cons entry rest ih =>
      unfold fromUntrusted
      split_ifs with hrest
      · rfl
      · have hsome : (rest.reverse.find? fun e => !trustedEntry cfg e).isSome := by
          simpa using hrest
        rw [ih]
        unfold rightmostUntrusted
        rw [List.reverse_cons, List.find?_append]
        obtain ⟨e, he⟩ := Option.isSome_iff_exists.mp hsome
        simp [he]

theorem fromUntrusted_subset
    {l : List String} {entry : String}
    (h : entry ∈ fromUntrusted cfg l) :
    entry ∈ l := by
  induction l with
  | nil =>
      exact h
  | cons first rest ih =>
      unfold fromUntrusted at h
      split_ifs at h
      · exact h
      · exact List.mem_cons_of_mem _ (ih h)

theorem fromUntrusted_idem (l : List String) :
    fromUntrusted cfg (fromUntrusted cfg l) = fromUntrusted cfg l := by
  induction l with
  | nil =>
      rfl
  | cons entry rest ih =>
      by_cases hrest : rest.all (trustedEntry cfg) = true
      · simp [fromUntrusted, hrest]
      · simpa [fromUntrusted, hrest] using ih

theorem rightmostUntrusted_eq_none
    {l : List String} :
    rightmostUntrusted cfg l = none ↔ l.all (trustedEntry cfg) = true := by
  simp [rightmostUntrusted]

/-- A new entry in front is to the left of an entry that is not trusted. -/
theorem fromUntrusted_cons
    {l : List String} (entry : String)
    (h : rightmostUntrusted cfg l ≠ none) :
    fromUntrusted cfg (entry :: fromUntrusted cfg l) = fromUntrusted cfg l := by
  have hkept : ¬ (fromUntrusted cfg l).all (trustedEntry cfg) = true := by
    rw [← rightmostUntrusted_eq_none, rightmostUntrusted_fromUntrusted]
    exact h
  rw [fromUntrusted, if_neg hkept, fromUntrusted_idem]

/-- The scan finds nothing among trusted proxies. -/
theorem findSome?_of_all_trusted
    {l : List String}
    (h : ∀ entry ∈ l, trustedEntry cfg entry = true) :
    l.findSome? (untrustedIP cfg) = none :=
  List.findSome?_eq_none_iff.mpr fun entry hentry =>
    untrustedIP_of_trustedEntry cfg (h entry hentry)

/-- The scan answers with the first entry that is not trusted, if that is an address. -/
theorem findSome?_of_find?
    {l : List String} {entry : String} {ip : IP}
    (hfind : l.find? (fun e => !trustedEntry cfg e) = some entry)
    (hip : untrustedIP cfg entry = some ip) :
    l.findSome? (untrustedIP cfg) = some ip := by
  induction l with
  | nil =>
      simp at hfind
  | cons first rest ih =>
      by_cases hfirst : trustedEntry cfg first = true
      · rw [List.findSome?_cons, untrustedIP_of_trustedEntry cfg hfirst]
        exact ih (by simpa [hfirst] using hfind)
      · have heq : first = entry := by
          simpa [hfirst] using hfind
        subst heq
        rw [List.findSome?_cons, hip]

end Lists

section Identity

variable {cfg : TrustedProxyConfig}

theorem clientIdentity_of_not_trusted
    {r : Request}
    (h : ¬ PeerTrusted cfg r) :
    clientIdentity r cfg = (r.host, "remote-address") := by
  unfold clientIdentity
  cases hip : parseIP r.host with
  | none =>
      simp only [hip]
  | some ip =>
      have huntrusted : ¬ isTrusted ip cfg.cidrs = true := fun htrusted =>
        h ⟨ip, hip, htrusted⟩
      simp only [hip, if_neg huntrusted]

/-- Behind a trusted proxy the first header line decides. -/
theorem clientIdentity_of_trusted
    {r : Request}
    (h : PeerTrusted cfg r) :
    clientIdentity r cfg =
      if r.header "X-Forwarded-For" = "" then (r.host, "remote-address")
      else
        match (GoText.split (r.header "X-Forwarded-For") ',').reverse.findSome?
            (untrustedIP cfg) with
        | some ip => (ip.text, "x-forwarded-for")
        | none => (r.host, "remote-address") := by
  obtain ⟨ip, hip, htrusted⟩ := h
  unfold clientIdentity
  simp only [hip, if_pos htrusted]

theorem clientIdentity_of_findSome?_none
    {r : Request}
    (h : (GoText.split (r.header "X-Forwarded-For") ',').reverse.findSome?
      (untrustedIP cfg) = none) :
    clientIdentity r cfg = (r.host, "remote-address") := by
  by_cases htrusted : PeerTrusted cfg r
  · rw [clientIdentity_of_trusted htrusted, h]
    simp
  · exact clientIdentity_of_not_trusted htrusted

theorem clientIdentity_of_findSome?_some
    {r : Request} {ip : IP}
    (htrusted : PeerTrusted cfg r)
    (h : (GoText.split (r.header "X-Forwarded-For") ',').reverse.findSome?
      (untrustedIP cfg) = some ip) :
    clientIdentity r cfg = (ip.text, "x-forwarded-for") := by
  have hline : r.header "X-Forwarded-For" ≠ "" := by
    intro hempty
    have hnone : untrustedIP cfg "" = none := rfl
    rw [hempty, GoText.split_of_not_mem (by simp)] at h
    simp [hnone] at h
  rw [clientIdentity_of_trusted htrusted, if_neg hline, h]

theorem header_eq (r : Request) :
    r.header "X-Forwarded-For" = r.forwardedFor.headD "" := by
  unfold Request.header Request.forwardedFor
  induction r.headers with
  | nil =>
      rfl
  | cons line rest ih =>
      obtain ⟨name, value⟩ := line
      by_cases hname : name = "X-Forwarded-For"
      · simp [hname]
      · have hne : ("X-Forwarded-For" == name) = false := by
          simpa using fun h : "X-Forwarded-For" = name => hname h.symm
        rw [List.lookup_cons, hne, List.filterMap_cons]
        simpa [hname] using ih

/-- A request that presents the entry is known by it. -/
theorem clientIdentity_of_presented
    {r : Request}
    (htrusted : PeerTrusted cfg r)
    (h : Presented cfg r) :
    clientIdentity r cfg =
      match (rightmostUntrusted cfg r.entries).bind (untrustedIP cfg) with
      | some ip => (ip.text, "x-forwarded-for")
      | none => (r.host, "remote-address") := by
  obtain ⟨htail, hpivot⟩ := h
  cases hlines : r.forwardedFor with
  | nil =>
      have hentries : r.entries = [] := by
        simp [Request.entries, hlines]
      rw [clientIdentity_of_trusted htrusted, header_eq, hlines, hentries]
      rfl
  | cons line rest =>
      have hentries : r.entries = GoText.split line ',' ++
          rest.flatMap fun line => GoText.split line ',' := by
        simp [Request.entries, hlines]
      have hrest : (rest.flatMap fun line => GoText.split line ',').reverse.find?
          (fun e => !trustedEntry cfg e) = none := by
        rw [hlines] at htail
        simpa [List.find?_eq_none] using fun e line hline he => htail line hline e he
      have hsame : rightmostUntrusted cfg r.entries =
          (GoText.split line ',').reverse.find? fun e => !trustedEntry cfg e := by
        rw [rightmostUntrusted, hentries, List.reverse_append, List.find?_append, hrest]
        rfl
      have hheader : r.header "X-Forwarded-For" = line := by
        rw [header_eq, hlines]
        rfl
      cases hfind : rightmostUntrusted cfg r.entries with
      | none =>
          refine clientIdentity_of_findSome?_none (findSome?_of_all_trusted cfg ?_)
          rw [hsame, List.find?_eq_none] at hfind
          rw [hheader]
          simpa using hfind
      | some entry =>
          obtain ⟨ip, hip⟩ := Option.isSome_iff_exists.mp (hpivot entry hfind)
          rw [Option.bind_some, hip]
          refine clientIdentity_of_findSome?_some htrusted ?_
          rw [hheader]
          exact findSome?_of_find? cfg (hsame ▸ hfind) hip

end Identity

section Spoofing

variable {cfg : TrustedProxyConfig}

/-- The same request with the entries of `lines`, each on a header line of its own. -/
def Request.withForwarded (r : Request) (lines : List String) : Request :=
  { r with headers := lines.map fun line => ("X-Forwarded-For", line) }

theorem forwardedFor_withForwarded (r : Request) (lines : List String) :
    (r.withForwarded lines).forwardedFor = lines := by
  unfold Request.withForwarded Request.forwardedFor
  induction lines with
  | nil =>
      rfl
  | cons line rest ih =>
      rw [List.map_cons, List.filterMap_cons, if_pos rfl]
      exact congrArg (line :: ·) ih

theorem mem_entries_not_comma
    {r : Request} {entry : String}
    (h : entry ∈ r.entries) :
    ',' ∉ entry.toList := by
  obtain ⟨line, _, hentry⟩ := List.mem_flatMap.mp h
  exact GoText.not_mem_of_mem_split hentry

theorem entries_withForwarded
    (r : Request) {lines : List String}
    (h : ∀ line ∈ lines, ',' ∉ line.toList) :
    (r.withForwarded lines).entries = lines := by
  unfold Request.entries
  rw [forwardedFor_withForwarded]
  induction lines with
  | nil =>
      rfl
  | cons line rest ih =>
      rw [List.flatMap_cons, GoText.split_of_not_mem (h line List.mem_cons_self),
        ih fun l hl => h l (List.mem_cons_of_mem _ hl)]
      rfl

/-- A header line in front of the entries that must be kept changes nothing in them. -/
theorem agree_withForwarded
    {r : Request} {line : String}
    (hline : ',' ∉ line.toList)
    (hpivot : rightmostUntrusted cfg r.entries ≠ none) :
    AgreeFromUntrusted cfg r
      (r.withForwarded (line :: fromUntrusted cfg r.entries)) := by
  refine ⟨rfl, fun _ => ?_⟩
  rw [entries_withForwarded, fromUntrusted_cons cfg line hpivot]
  rintro entry (_ | ⟨_, hentry⟩)
  · exact hline
  · exact mem_entries_not_comma (fromUntrusted_subset cfg hentry)

/-- Behind a trusted proxy a header line in front of the entries changes the identity of any
request with an entry that is not a trusted proxy. -/
theorem exists_agree_ne
    {r : Request}
    (htrusted : PeerTrusted cfg r)
    (hall : ¬ AllTrusted cfg)
    (hpivot : rightmostUntrusted cfg r.entries ≠ none) :
    ∃ r', AgreeFromUntrusted cfg r r' ∧ clientIdentity r cfg ≠ clientIdentity r' cfg := by
  simp only [AllTrusted, not_forall] at hall
  obtain ⟨line, entry, hentry, hip⟩ := hall
  obtain ⟨ip, hip⟩ := Option.ne_none_iff_exists'.mp hip
  have hcomma := GoText.not_mem_of_mem_split hentry
  let silent := r.withForwarded ("" :: fromUntrusted cfg r.entries)
  let forged := r.withForwarded (entry :: fromUntrusted cfg r.entries)
  have hsilent : clientIdentity silent cfg = (r.host, "remote-address") := by
    have hheader : silent.header "X-Forwarded-For" = "" := by
      rw [header_eq, forwardedFor_withForwarded]
      rfl
    rw [clientIdentity_of_trusted (show PeerTrusted cfg silent from htrusted), if_pos hheader]
    rfl
  have hforged : clientIdentity forged cfg = (ip.text, "x-forwarded-for") := by
    have hheader : forged.header "X-Forwarded-For" = entry := by
      rw [header_eq, forwardedFor_withForwarded]
      rfl
    refine clientIdentity_of_findSome?_some (r := forged) htrusted ?_
    rw [hheader, GoText.split_of_not_mem hcomma]
    simp [hip]
  by_cases hr : clientIdentity r cfg = (r.host, "remote-address")
  · refine ⟨forged, agree_withForwarded hcomma hpivot, ?_⟩
    rw [hr, hforged]
    simp
  · refine ⟨silent, agree_withForwarded (by simp) hpivot, ?_⟩
    rw [hsilent]
    exact hr

end Spoofing

section Results

variable {cfg : TrustedProxyConfig}

theorem host_eq_of_agree
    {r r' : Request}
    (h : AgreeFromUntrusted cfg r r') :
    r.host = r'.host := by
  simp [Request.host, h.1]

theorem peerTrusted_of_agree
    {r r' : Request}
    (h : AgreeFromUntrusted cfg r r') :
    PeerTrusted cfg r ↔ PeerTrusted cfg r' := by
  simp [PeerTrusted, host_eq_of_agree h]

theorem rightmostUntrusted_of_agree
    {r r' : Request}
    (h : AgreeFromUntrusted cfg r r')
    (htrusted : PeerTrusted cfg r) :
    rightmostUntrusted cfg r'.entries = rightmostUntrusted cfg r.entries := by
  rw [← rightmostUntrusted_fromUntrusted, ← h.2 htrusted, rightmostUntrusted_fromUntrusted]

/-- **Presented entries.**  Two requests that agree from the rightmost entry that is not a
trusted proxy, and have it in the first header line and as an address, have one identity. -/
theorem clientIdentity_eq_of_presented
    {r r' : Request}
    (hagree : AgreeFromUntrusted cfg r r')
    (h : Presented cfg r)
    (h' : Presented cfg r') :
    clientIdentity r cfg = clientIdentity r' cfg := by
  have hhost := host_eq_of_agree hagree
  by_cases htrusted : PeerTrusted cfg r
  · have htrusted' := (peerTrusted_of_agree hagree).mp htrusted
    rw [clientIdentity_of_presented htrusted h, clientIdentity_of_presented htrusted' h',
      rightmostUntrusted_of_agree hagree htrusted, hhost]
  · have htrusted' := mt (peerTrusted_of_agree hagree).mpr htrusted
    rw [clientIdentity_of_not_trusted htrusted, clientIdentity_of_not_trusted htrusted', hhost]

/-- A header of trusted proxies, or none, presents its entries. -/
theorem presented_of_trusted
    {r : Request}
    (h : rightmostUntrusted cfg r.entries = none) :
    Presented cfg r := by
  have hall := (rightmostUntrusted_eq_none cfg).mp h
  rw [List.all_eq_true] at hall
  refine ⟨fun line hline entry hentry => hall entry ?_, by simp [h]⟩
  exact List.mem_flatMap.mpr ⟨line, List.mem_of_mem_tail hline, hentry⟩

theorem clientIdentity_of_allTrusted
    (h : AllTrusted cfg) (r : Request) :
    clientIdentity r cfg = (r.host, "remote-address") := by
  refine clientIdentity_of_findSome?_none ?_
  rw [List.findSome?_eq_none_iff]
  exact fun entry hentry => h _ entry (List.mem_reverse.mp hentry)

/-- What the client wrote has no influence on the identity exactly when the peer is not
trusted, no entry can name an address outside the trusted networks, or the header has no
entry but those of trusted proxies. -/
theorem client_identity_unspoofable_iff
    (cfg : TrustedProxyConfig) (r : Request) :
    (∀ r', AgreeFromUntrusted cfg r r' → clientIdentity r cfg = clientIdentity r' cfg) ↔
      ¬ PeerTrusted cfg r ∨ AllTrusted cfg ∨ rightmostUntrusted cfg r.entries = none := by
  constructor
  · intro h
    by_contra hcase
    simp only [not_or, not_not] at hcase
    obtain ⟨htrusted, hall, hpivot⟩ := hcase
    obtain ⟨r', hagree, hne⟩ := exists_agree_ne htrusted hall hpivot
    exact hne (h r' hagree)
  · intro h r' hagree
    have hhost := host_eq_of_agree hagree
    by_cases htrusted : PeerTrusted cfg r
    · rcases h.resolve_left (not_not.mpr htrusted) with hall | hnone
      · rw [clientIdentity_of_allTrusted hall, clientIdentity_of_allTrusted hall, hhost]
      · have hnone' := (rightmostUntrusted_of_agree hagree htrusted).trans hnone
        exact clientIdentity_eq_of_presented hagree (presented_of_trusted hnone)
          (presented_of_trusted hnone')
    · have htrusted' := mt (peerTrusted_of_agree hagree).mpr htrusted
      rw [clientIdentity_of_not_trusted htrusted, clientIdentity_of_not_trusted htrusted', hhost]

/-- The networks of a deployment behind proxies in `10.0.0.0/8`. -/
def proxyNetwork : TrustedProxyConfig :=
  ⟨[.v4 0x0a000000 0xff000000]⟩

/-- A request whose header came on the given lines. -/
def forwardedRequest (lines : List String) : Request where
  remoteAddr := "10.1.2.3:1234"
  path := "/api/me"
  headers := lines.map fun line => ("X-Forwarded-For", line)

/-- The trusted proxy adds a line for the client `203.0.113.10`, and the client
chooses its identity by a line of its own; an entry with a port has the same effect. -/
theorem client_identity_spoofed :
    (AgreeFromUntrusted proxyNetwork
        (forwardedRequest ["198.51.100.1", "203.0.113.10"])
        (forwardedRequest ["198.51.100.2", "203.0.113.10"]) ∧
      clientIdentity (forwardedRequest ["198.51.100.1", "203.0.113.10"]) proxyNetwork =
        ("198.51.100.1", "x-forwarded-for") ∧
      clientIdentity (forwardedRequest ["198.51.100.2", "203.0.113.10"]) proxyNetwork =
        ("198.51.100.2", "x-forwarded-for")) ∧
    (AgreeFromUntrusted proxyNetwork
        (forwardedRequest ["198.51.100.1, 203.0.113.10:4711"])
        (forwardedRequest ["198.51.100.2, 203.0.113.10:4711"]) ∧
      clientIdentity (forwardedRequest ["198.51.100.1, 203.0.113.10:4711"]) proxyNetwork ≠
        clientIdentity (forwardedRequest ["198.51.100.2, 203.0.113.10:4711"]) proxyNetwork) := by
  refine ⟨⟨⟨rfl, fun _ => ?_⟩, ?_, ?_⟩, ⟨⟨rfl, fun _ => ?_⟩, ?_⟩⟩ <;> decide +kernel

end Results

end Middleware
end GatewayRuntime
