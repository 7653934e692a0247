import GatewayRuntime.Lib.GoUrl

/-!
# Parsing URLs

`url.Parse` of the Go standard library: a text is cut into a scheme, an authority, a
path, a query and a fragment, and each part is decoded under the rules for it.

Of a parsed text only the parts are kept that a program asks for: not the user
information, and not the rest of a text with a scheme and no slash after it.
-/

namespace GatewayRuntime
namespace GoUrl

open GoNet

section Hosts

/-- The ASCII bytes that stand for themselves in a host. -/
def hostByte (c : Char) : Bool :=
  c.isAlphanum || "-_.~!$&'()*+,;=:[]<>\"".toList.contains c

/-- An escape that may stand in a host: of a byte that is not ASCII, or of the percent sign;
in a zone also of a byte that needs no escape, and of a blank. -/
def escapableInHost (zone : Bool) (a b : Char) : Bool :=
  let byte := Char.ofNat (hexDigit a * 16 + hexDigit b)
  byte == '%' || if zone then byte == ' ' || hostByte byte else decide (8 ≤ hexDigit a)

/-- The decoded text of a host, or of the zone of an address. -/
def unescapeHost (zone : Bool) : List Char → Option (List Char)
  | [] => some []
  | '%' :: a :: b :: rest =>
      if isHexDigit a && isHexDigit b && escapableInHost zone a b then
        (unescapeHost zone rest).map fun l => Char.ofNat (hexDigit a * 16 + hexDigit b) :: l
      else none
  | '%' :: _ => none
  | c :: rest =>
      if decide (c.toNat < 128) && !hostByte c then none
      else (unescapeHost zone rest).map fun l => c :: l

/-- `validOptionalPort`. -/
def validOptionalPort (l : List Char) : Bool :=
  match l with
  | [] => true
  | c :: digits => c == ':' && digits.all Char.isDigit

/-- An address and its zone, which starts with an escaped percent sign. -/
def cutZone : List Char → List Char × List Char
  | [] => ([], [])
  | c :: rest =>
      if ['%', '2', '5'].isPrefixOf (c :: rest) then ([], c :: rest)
      else
        let (address, zone) := cutZone rest
        (c :: address, zone)

/-- An IPv6 address, with a zone that is not empty if there is one. -/
def isIPv6 (l : List Char) : Bool :=
  let (address, zone) := l.span fun c => c != '%'
  (parseIPv6 address).isSome && zone != ['%']

/-- `parseHost`. -/
def parseHost (host : List Char) : Option (List Char) :=
  match host with
  | '[' :: rest =>
      let port := (rest.reverse.takeWhile fun c => c != ']').reverse
      let (address, zone) := cutZone (rest.take (rest.length - port.length - 1))
      if rest.contains '[' || !rest.contains ']' || !validOptionalPort port then none
      else
        (unescapeHost false address).bind fun address =>
          (unescapeHost true zone).bind fun zone =>
            if isIPv6 (address ++ zone) then some ('[' :: address ++ zone ++ ']' :: port) else none
  | _ =>
      if host.contains '[' || !validOptionalPort (host.dropWhile fun c => c != ':') then none
      else unescapeHost false host

def userByte (c : Char) : Bool :=
  c.isAlphanum || "-._:~!$&'()*+,;=%@".toList.contains c

/-- `parseAuthority`: the host, after user information that must be well formed. -/
def parseAuthority (authority : List Char) : Option (List Char) :=
  let host := (authority.reverse.takeWhile fun c => c != '@').reverse
  let user := ((authority.reverse.dropWhile fun c => c != '@').drop 1).reverse
  if user.all userByte && (unescape user).isSome then parseHost host else none

end Hosts

section Parse

/-- The parts of a URL. -/
structure Reference where
  scheme : String
  host : String
  url : URL
  rawQuery : String
  fragment : String
deriving DecidableEq

/-- `setPath`: the written path is kept when it is not the default encoding. -/
def setPath (p : List Char) : Option URL :=
  (unescape p).map fun path =>
    ⟨String.ofList path, if escape path = p then "" else String.ofList p⟩

/-- `getScheme`: the scheme and what follows it; `none` when the scheme is missing before its
colon. -/
def getScheme (l : List Char) : Option (List Char × List Char) :=
  if l.head? = some ':' then none
  else if hasScheme l then some (l.takeWhile fun c => c != ':', (l.dropWhile fun c => c != ':').tail)
  else some ([], l)

def isControl (c : Char) : Bool :=
  decide (c.toNat < 32) || c.toNat == 127

/-- The host and the path in what follows the scheme. -/
def parseHierarchy (scheme rest : List Char) : Option (List Char × URL) :=
  if rest.head? ≠ some '/' && scheme ≠ [] then some ([], ⟨"", ""⟩)
  else if rest.head? ≠ some '/' && (rest.takeWhile fun c => c != '/').contains ':' then none
  else if "//".toList.isPrefixOf rest && (scheme ≠ [] || !"///".toList.isPrefixOf rest) then
    let (authority, path) := (rest.drop 2).span fun c => c != '/'
    (parseAuthority authority).bind fun host => (setPath path).map fun url => (host, url)
  else (setPath rest).map fun url => ([], url)

/-- `url.Parse`. -/
def parse (v : String) : Option Reference :=
  let (u, fragment) := v.toList.span fun c => c != '#'
  if u.any isControl then none
  else
    (unescape fragment.tail).bind fun fragment =>
      if u = ['*'] then some ⟨"", "", ⟨"*", ""⟩, "", String.ofList fragment⟩
      else
        (getScheme u).bind fun (scheme, rest) =>
          let (path, query) := rest.span fun c => c != '?'
          (parseHierarchy scheme path).map fun (host, url) =>
            ⟨GoText.toLower (String.ofList scheme), String.ofList host, url,
              String.ofList query.tail, String.ofList fragment⟩

/-- The default encoding of a path is read back. -/
theorem setPath_escape (path : List Char) :
    setPath (escape path) = some ⟨String.ofList path, ""⟩ := by
  have hdecoded : unescape (escape path) = some path := unescape_escapeUnless (by decide) path
  simp [setPath, hdecoded]

end Parse

section Ends

theorem dropWhile_head
    (l : List Char) (c : Char) :
    (l.dropWhile fun x => x != c).head? = some c ∨ (l.dropWhile fun x => x != c) = [] := by
  cases hdrop : l.dropWhile fun x => x != c with
  | nil =>
      exact Or.inr rfl
  | cons first rest =>
      have hfirst := List.head?_dropWhile_not (fun x => x != c) l
      rw [hdrop] at hfirst
      exact Or.inl (by simpa using hfirst)

theorem parseAuthority_nil :
    parseAuthority [] = some [] := by
  decide

/-- A written path that is kept decodes to the path. -/
def URL.Decodes (url : URL) : Prop :=
  url.rawPath = "" ∨ unescape url.rawPath.toList = some url.path.toList

theorem decodes_of_setPath
    {p : List Char} {url : URL} (h : setPath p = some url) :
    url.Decodes := by
  obtain ⟨path, hdecoded, rfl⟩ := Option.map_eq_some_iff.mp h
  unfold URL.Decodes
  dsimp only
  split_ifs
  · exact Or.inl rfl
  · exact Or.inr (by simpa using hdecoded)

theorem decodes_of_parseHierarchy
    {scheme rest host : List Char} {url : URL}
    (h : parseHierarchy scheme rest = some (host, url)) :
    url.Decodes := by
  unfold parseHierarchy at h
  split_ifs at h
  · obtain ⟨-, rfl⟩ := Prod.mk.inj (Option.some.inj h)
    exact Or.inl rfl
  · simp only [Option.bind_eq_some_iff, Option.map_eq_some_iff, Prod.mk.injEq] at h
    obtain ⟨_, _, url', hurl, -, rfl⟩ := h
    exact decodes_of_setPath hurl
  · simp only [Option.map_eq_some_iff, Prod.mk.injEq] at h
    obtain ⟨url', hurl, -, rfl⟩ := h
    exact decodes_of_setPath hurl

theorem decodes_of_parse
    {v : String} {ref : Reference} (h : parse v = some ref) :
    ref.url.Decodes := by
  simp only [parse] at h
  split_ifs at h
  · obtain ⟨fragment, -, h⟩ := Option.bind_eq_some_iff.mp h
    obtain rfl := Option.some.inj h
    exact Or.inl rfl
  · obtain ⟨fragment, -, h⟩ := Option.bind_eq_some_iff.mp h
    obtain ⟨⟨scheme, rest⟩, -, h⟩ := Option.bind_eq_some_iff.mp h
    obtain ⟨⟨host, url⟩, hhierarchy, rfl⟩ := Option.map_eq_some_iff.mp h
    exact decodes_of_parseHierarchy hhierarchy

end Ends

section TrailingSlashes

/-- Where a text is cut at a character, a slash at its end stays in the last part. -/
theorem cut_append_slash
    {c : Char} (hc : c ≠ '/') (l : List Char) :
    (c ∉ l ∧ (l ++ ['/']).takeWhile (fun x => x != c) = l ++ ['/'] ∧
      (l ++ ['/']).dropWhile (fun x => x != c) = []) ∨
    ∃ tail, l.dropWhile (fun x => x != c) = c :: tail ∧
      (l ++ ['/']).takeWhile (fun x => x != c) = l.takeWhile (fun x => x != c) ∧
      (l ++ ['/']).dropWhile (fun x => x != c) = c :: (tail ++ ['/']) := by
  induction l with
  | nil => simp [hc.symm]
  | cons x l ih =>
      by_cases hx : x = c
      · subst hx
        exact Or.inr ⟨l, by simp⟩
      · rcases ih with ⟨hmem, htake, hdrop⟩ | ⟨tail, hl, htake, hdrop⟩
        · exact Or.inl ⟨by simp [hmem, Ne.symm hx], by simp [hx, htake], by simp [hx, hdrop]⟩
        · exact Or.inr ⟨tail, by simp [hx, hl], by simp [hx, htake], by simp [hx, hdrop]⟩

theorem cut_of_notMem {c : Char} {l : List Char} (h : c ∉ l) :
    l.takeWhile (fun x => x != c) = l ∧ l.dropWhile (fun x => x != c) = [] := by
  have hall : ∀ x ∈ l, (x != c) = true := fun x hx => by
    simpa using fun heq : x = c => h (heq ▸ hx)
  exact ⟨List.takeWhile_eq_self_iff.mpr hall, List.dropWhile_eq_nil_iff.mpr hall⟩

theorem cut_at_slash (l : List Char) :
    (l ++ ['/']).takeWhile (fun x => x != '/') = l.takeWhile (fun x => x != '/') ∧
      (l ++ ['/']).dropWhile (fun x => x != '/') = l.dropWhile (fun x => x != '/') ++ ['/'] := by
  induction l with
  | nil => simp
  | cons x l ih =>
      by_cases hx : x = '/'
      · simp [hx]
      · simp [hx, ih]

theorem unescape_of_append_slash
    {l d : List Char} (h : unescape (l ++ ['/']) = some d) :
    ∃ d', unescape l = some d' := by
  rw [unescape_append_slash] at h
  obtain ⟨d', hd', -⟩ := Option.bind_eq_some_iff.mp h
  exact ⟨d', hd'⟩

theorem getScheme_append_slash
    {l scheme rest : List Char}
    (hne : scheme ≠ [])
    (h : getScheme (l ++ ['/']) = some (scheme, rest)) :
    ∃ rest', rest = rest' ++ ['/'] ∧ getScheme l = some (scheme, rest') := by
  unfold getScheme at h
  split_ifs at h with hcolon hscheme
  · obtain ⟨hs, hr⟩ := Prod.mk.inj (Option.some.inj h)
    cases l with
    | nil => exact absurd hscheme (by decide)
    | cons c l =>
        have hc : c ≠ ':' := by simpa using hcolon
        have hself : hasScheme (c :: l) = true := by
          simp only [List.cons_append, hasScheme, Bool.and_eq_true, beq_iff_eq] at hscheme ⊢
          refine ⟨hscheme.1, ?_⟩
          have hhead := hscheme.2
          rw [List.dropWhile_append] at hhead
          split_ifs at hhead with hempty
          · cases hhead
          · rwa [List.head?_append_of_ne_nil _ (by simpa using hempty)] at hhead
        rcases cut_append_slash (c := ':') (by decide) (c :: l) with
          ⟨hmem, htake, hdrop⟩ | ⟨tail, hl, htake, hdrop⟩
        · simp only [hasScheme, Bool.and_eq_true, beq_iff_eq] at hself
          have hin := (List.dropWhile_suffix _).subset (List.mem_of_mem_head? hself.2)
          exact absurd (List.mem_cons_of_mem c hin) hmem
        · rw [htake] at hs
          rw [hdrop] at hr
          exact ⟨tail, hr.symm, by simp [getScheme, hc, hself, hl, ← hs]⟩
  · obtain ⟨rfl, -⟩ := Prod.mk.inj (Option.some.inj h)
    exact absurd rfl hne

theorem parseHierarchy_append_slash
    {scheme rest host : List Char} {url : URL}
    (hscheme : scheme ≠ []) (hhost : host ≠ [])
    (h : parseHierarchy scheme (rest ++ ['/']) = some (host, url)) :
    ∃ url', parseHierarchy scheme rest = some (host, url') := by
  unfold parseHierarchy at h
  split_ifs at h with hrelative hcolon hslashes
  · obtain ⟨rfl, -⟩ := Prod.mk.inj (Option.some.inj h)
    exact absurd rfl hhost
  · simp only [List.span_eq_takeWhile_dropWhile, Option.bind_eq_some_iff,
      Option.map_eq_some_iff, Prod.mk.injEq] at h
    obtain ⟨host', hauthority, url', hurl, rfl, rfl⟩ := h
    obtain ⟨r, hr⟩ := List.isPrefixOf_iff_prefix.mp (Bool.and_eq_true_iff.mp hslashes).1
    match rest, hr with
    | [], hr => simp at hr
    | [x], hr =>
        -- the second slash is the one at the end, and no host follows it
        obtain ⟨rfl, -⟩ : '/' = x ∧ _ := by simpa using hr
        exact absurd (Option.some.inj (parseAuthority_nil.symm.trans hauthority)).symm hhost
    | x :: y :: rest, hr =>
        obtain ⟨rfl, rfl, -⟩ : '/' = x ∧ '/' = y ∧ _ := by simpa using hr
        obtain ⟨htake, hdrop⟩ := cut_at_slash rest
        simp only [List.cons_append, List.drop_succ_cons, List.drop_zero, htake, hdrop]
          at hauthority hurl
        obtain ⟨path, hpath, -⟩ := Option.map_eq_some_iff.mp hurl
        obtain ⟨path', hpath'⟩ := unescape_of_append_slash hpath
        obtain ⟨url'', hset⟩ : ∃ u, setPath (rest.dropWhile fun x => x != '/') = some u := by
          rw [setPath, hpath']
          exact ⟨_, rfl⟩
        exact ⟨url'', by
          simp [parseHierarchy, hscheme, List.span_eq_takeWhile_dropWhile, hauthority, hset]⟩
  · obtain ⟨_, _, heq⟩ := Option.map_eq_some_iff.mp h
    obtain ⟨rfl, -⟩ := Prod.mk.inj heq
    exact absurd rfl hhost

/-- An absolute URL stays one without a slash at its end. -/
theorem parse_append_slash
    {l : List Char} {ref : Reference}
    (h : parse (String.ofList (l ++ ['/'])) = some ref)
    (hscheme : ref.scheme ≠ "") (hhost : ref.host ≠ "") :
    ∃ ref', parse (String.ofList l) = some ref' ∧ ref'.scheme = ref.scheme ∧ ref'.host = ref.host := by
  simp only [parse, List.span_eq_takeWhile_dropWhile, String.toList_ofList] at h ⊢
  split_ifs at h with hcontrol hstar
  · obtain ⟨_, -, h⟩ := Option.bind_eq_some_iff.mp h
    obtain rfl := Option.some.inj h
    exact absurd rfl hscheme
  · obtain ⟨fragment, hfragment, h⟩ := Option.bind_eq_some_iff.mp h
    obtain ⟨⟨scheme, rest⟩, hget, h⟩ := Option.bind_eq_some_iff.mp h
    obtain ⟨⟨host, url⟩, hhierarchy, rfl⟩ := Option.map_eq_some_iff.mp h
    have hs : scheme ≠ [] := by
      rintro rfl
      exact hscheme rfl
    have hh : host ≠ [] := by
      rintro rfl
      exact hhost rfl
    rcases cut_append_slash (c := '#') (by decide) l with
      ⟨hmem, htake, hdrop⟩ | ⟨tail, hl, htake, hdrop⟩
    · -- the text has no fragment, so the slash ends its address or its query
      obtain ⟨hself, hnone⟩ := cut_of_notMem hmem
      rw [htake] at hcontrol hget
      obtain ⟨rest', rfl, hget'⟩ := getScheme_append_slash hs hget
      have hplain : l ≠ ['*'] := by
        rintro rfl
        obtain ⟨rfl, -⟩ := Prod.mk.inj (Option.some.inj hget')
        exact hs rfl
      have hcontrol' : ¬l.any isControl = true := fun hany =>
        hcontrol (by rw [List.any_append, hany]; rfl)
      obtain ⟨url', hhierarchy'⟩ :
          ∃ url', parseHierarchy scheme (rest'.takeWhile fun c => c != '?') = some (host, url') := by
        rcases cut_append_slash (c := '?') (by decide) rest' with
          ⟨hmem', htake', -⟩ | ⟨_, -, htake', -⟩
        · rw [htake'] at hhierarchy
          rw [(cut_of_notMem hmem').1]
          exact parseHierarchy_append_slash hs hh hhierarchy
        · rw [htake'] at hhierarchy
          exact ⟨url, hhierarchy⟩
      simp [hself, hnone, hcontrol', hplain, hget', hhierarchy', unescape]
    · -- the slash ends the fragment
      rw [htake] at hcontrol hstar hget
      rw [hdrop] at hfragment
      obtain ⟨fragment', hfragment'⟩ := unescape_of_append_slash hfragment
      simp [hl, hcontrol, hstar, hget, hhierarchy, hfragment']

theorem parse_append_slashes
    {l : List Char} (n : Nat) {ref : Reference}
    (h : parse (String.ofList (l ++ List.replicate n '/')) = some ref)
    (hscheme : ref.scheme ≠ "") (hhost : ref.host ≠ "") :
    ∃ ref', parse (String.ofList l) = some ref' ∧ ref'.scheme = ref.scheme ∧ ref'.host = ref.host := by
  induction n generalizing ref with
  | zero => exact ⟨ref, by simpa using h, rfl, rfl⟩
  | succ n ih =>
      rw [List.replicate_succ', ← List.append_assoc] at h
      obtain ⟨ref', hparse, hscheme', hhost'⟩ := parse_append_slash h hscheme hhost
      rw [← hscheme', ← hhost']
      exact ih hparse (by rwa [hscheme']) (by rwa [hhost'])

/-- **An absolute URL stays one when the slashes at its end are trimmed**, with its scheme and
its host. -/
theorem parse_trimRight
    {v : String} {ref : Reference}
    (h : parse v = some ref)
    (hscheme : ref.scheme ≠ "") (hhost : ref.host ≠ "") :
    ∃ ref', parse (GoText.trimRight v '/') = some ref' ∧ ref'.scheme = ref.scheme ∧
      ref'.host = ref.host := by
  have hslashes : v.toList.rtakeWhile (· == '/') =
      List.replicate (v.toList.rtakeWhile (· == '/')).length '/' :=
    List.eq_replicate_of_mem fun c hc => by simpa using List.mem_rtakeWhile_imp hc
  have hsplit : v = String.ofList (v.toList.rdropWhile (· == '/') ++
      List.replicate (v.toList.rtakeWhile (· == '/')).length '/') := by
    rw [← hslashes, List.rdropWhile_append_rtakeWhile, String.ofList_toList]
  rw [hsplit] at h
  exact parse_append_slashes _ h hscheme hhost

end TrailingSlashes

end GoUrl
end GatewayRuntime
