import GatewayRuntime.Lib.Accumulate
import GatewayRuntime.Lib.GoUrlParse

/-!
# URL queries

`url.ParseQuery` and `Values.Encode` of the Go standard library.

A query is cut at its ampersands.  A piece with a semicolon or with a malformed escape is left
out, every other one adds a value to the list of its key.  The encoding writes the keys in
order, each with its values in theirs.  No separator is left in an encoded component, so parsing
gives the lists back (`lookup_parseQuery_encode`).

The last section writes a whole URL, as `URL.String` does, and finds the query in it again
(`queryText_text`).
-/

namespace GatewayRuntime
namespace GoQuery

open GoUrl GoNet Accumulate

section Components

/-- The bytes that stay as they are in a component of a query. -/
def componentByte (c : Char) : Bool :=
  c.isAlphanum || "-_.~".toList.contains c

/-- `url.QueryEscape`. -/
def queryEscape (l : List Char) : List Char :=
  l.flatMap fun c =>
    if c = ' ' then ['+']
    else if componentByte c || decide (256 ≤ c.toNat) then [c]
    else escapeByte c

def plusToBlank (c : Char) : Char :=
  if c = '+' then ' ' else c

/-- `url.QueryUnescape`; a plus sign cannot be part of an escape. -/
def queryUnescape (l : List Char) : Option (List Char) :=
  unescape (l.map plusToBlank)

/-- The bytes that are kept, and the blank. -/
def keptByte (c : Char) : Bool :=
  c == ' ' || componentByte c

theorem plusToBlank_of_ne {c : Char} (h : c ≠ '+') : plusToBlank c = c :=
  if_neg h

theorem ne_plus_of_isHexDigit {c : Char} (h : isHexDigit c = true) : c ≠ '+' := by
  rintro rfl
  revert h
  decide

theorem map_plusToBlank_escapeByte {c : Char} (h : c.toNat < 256) :
    (escapeByte c).map plusToBlank = escapeByte c := by
  have hhigh := (hexDigit_upperHex (c.toNat / 16) (by omega)).1
  have hlow := (hexDigit_upperHex (c.toNat % 16) (by omega)).1
  simp only [escapeByte, List.map_cons, List.map_nil,
    plusToBlank_of_ne (ne_plus_of_isHexDigit hhigh), plusToBlank_of_ne (ne_plus_of_isHexDigit hlow),
    plusToBlank_of_ne (show '%' ≠ '+' by decide)]

/-- With blanks for the plus signs, a component is encoded like any other text. -/
theorem map_plusToBlank_queryEscape (l : List Char) :
    (queryEscape l).map plusToBlank = escapeUnless keptByte l := by
  rw [queryEscape, escapeUnless, List.map_flatMap]
  congr 1
  funext c
  by_cases hblank : c = ' '
  · subst hblank
    decide
  · have hkept : keptByte c = componentByte c := by simp [keptByte, hblank]
    rw [if_neg hblank, hkept]
    split_ifs with hkeep
    · have hplus : c ≠ '+' := by
        rintro rfl
        revert hkeep
        decide
      simp only [List.map_cons, List.map_nil, plusToBlank_of_ne hplus]
    · simp only [Bool.or_eq_true, decide_eq_true_eq, not_or, not_le] at hkeep
      exact map_plusToBlank_escapeByte hkeep.2

theorem queryUnescape_queryEscape (l : List Char) :
    queryUnescape (queryEscape l) = some l := by
  rw [queryUnescape, map_plusToBlank_queryEscape]
  exact unescape_escapeUnless (by decide) l

/-- A byte that does not occur in an encoded component. -/
def isSeparator (c : Char) : Bool :=
  !(keptByte c || isHexDigit c || c == '%' || c == '+') && decide (c.toNat < 256)

theorem not_mem_queryEscape {c : Char} (h : isSeparator c = true) (l : List Char) :
    c ∉ queryEscape l := by
  simp only [isSeparator, Bool.and_eq_true, Bool.not_eq_true', Bool.or_eq_false_iff,
    beq_eq_false_iff_ne, decide_eq_true_eq] at h
  obtain ⟨⟨⟨⟨hkept, hhex⟩, hpercent⟩, hplus⟩, hbyte⟩ := h
  intro hmem
  have hmem' : c ∈ escapeUnless keptByte l := by
    rw [← map_plusToBlank_queryEscape, ← plusToBlank_of_ne hplus]
    exact List.mem_map_of_mem hmem
  rcases escapeUnless_chars hmem' with ⟨_, hkeep⟩ | hc | hc
  · simp only [hkept, Bool.false_or, decide_eq_true_eq] at hkeep
    omega
  · exact hpercent hc
  · rw [hhex] at hc
    contradiction

end Components

section Pairs

theorem bne_of_not_mem {sep : Char} {l : List Char} (h : sep ∉ l) :
    ∀ c ∈ l, (c != sep) = true := by
  intro c hc
  rw [bne_iff_ne]
  rintro rfl
  exact h hc

/-- The key and the value in a piece of a query, if it counts. -/
def parsePair (piece : List Char) : Option (String × String) :=
  if ';' ∈ piece ∨ piece = [] then none
  else
    let (key, value) := piece.span fun c => c != '='
    (queryUnescape key).bind fun key =>
      (queryUnescape value.tail).map fun value => (String.ofList key, String.ofList value)

/-- A number of pieces that is not over the limit, if there is one. -/
def Within (limit : Option Nat) (pieces : Nat) : Prop :=
  ∀ n ∈ limit, pieces ≤ n

instance (limit : Option Nat) (pieces : Nat) : Decidable (Within limit pieces) :=
  inferInstanceAs (Decidable (∀ n ∈ limit, pieces ≤ n))

/-- The pairs of a query, in order; none when the query has too many pieces. -/
def parsePairs (limit : Option Nat) (query : String) : List (String × String) :=
  let pieces := query.toList.splitOn '&'
  if Within limit pieces.length then pieces.filterMap parsePair else []

def encodePair (pair : String × String) : List Char :=
  queryEscape pair.1.toList ++ '=' :: queryEscape pair.2.toList

def encodePairs (pairs : List (String × String)) : String :=
  String.ofList (['&'].intercalate (pairs.map encodePair))

theorem not_mem_encodePair
    {c : Char} (hsep : isSeparator c = true) (hc : c ≠ '=') (pair : String × String) :
    c ∉ encodePair pair := by
  simp only [encodePair, List.mem_append, List.mem_cons, not_or]
  exact ⟨not_mem_queryEscape hsep _, hc, not_mem_queryEscape hsep _⟩

theorem parsePair_encodePair (pair : String × String) :
    parsePair (encodePair pair) = some pair := by
  have hsemicolon : ';' ∉ encodePair pair := not_mem_encodePair (by decide) (by decide) pair
  have hne : encodePair pair ≠ [] := by simp [encodePair]
  have hspan : (encodePair pair).span (fun c => c != '=') =
      (queryEscape pair.1.toList, '=' :: queryEscape pair.2.toList) := by
    have hkey := bne_of_not_mem (not_mem_queryEscape (c := '=') (by decide) pair.1.toList)
    rw [List.span_eq_takeWhile_dropWhile, encodePair, List.takeWhile_append_of_pos hkey,
      List.dropWhile_append_of_pos hkey]
    simp
  simp only [parsePair, if_neg (not_or.mpr ⟨hsemicolon, hne⟩), hspan, List.tail_cons,
    queryUnescape_queryEscape, Option.bind_some, Option.map_some, String.ofList_toList]

/-- Encoded pairs are read back, if there are not too many. -/
theorem parsePairs_encodePairs
    {limit : Option Nat} {pairs : List (String × String)}
    (hlimit : Within limit pairs.length) :
    parsePairs limit (encodePairs pairs) = pairs := by
  cases pairs with
  | nil =>
      -- one empty piece, within the limit or not
      have hpieces : (encodePairs []).toList.splitOn '&' = [[]] := by
        rw [encodePairs, String.toList_ofList]
        rfl
      simp only [parsePairs, hpieces]
      split_ifs <;> rfl
  | cons pair pairs =>
      have hsep : ∀ l ∈ (pair :: pairs).map encodePair, '&' ∉ l := by
        intro l hl
        obtain ⟨p, _, rfl⟩ := List.mem_map.mp hl
        exact not_mem_encodePair (by decide) (by decide) p
      have hpieces : (encodePairs (pair :: pairs)).toList.splitOn '&' =
          (pair :: pairs).map encodePair := by
        rw [encodePairs, String.toList_ofList]
        exact List.splitOn_intercalate '&' hsep (by simp)
      simp only [parsePairs, hpieces]
      rw [List.length_map, if_pos hlimit, List.filterMap_map]
      simp only [Function.comp_def, parsePair_encodePair, List.filterMap_some]

end Pairs

section Values

/-- `url.Values`. -/
abbrev Values : Type :=
  AList fun _ : String => List String

/-- `url.ParseQuery`, for a limit on the number of pieces; its error is ignored. -/
def parseQuery (limit : Option Nat) (query : String) : Values :=
  run (fun values value => values ++ [value]) [] (parsePairs limit query)

/-- The values under a key. -/
def valuesOf (m : Values) (key : String) : List String :=
  (m.lookup key).getD []

/-- The keys in increasing order. -/
def sortedKeys (m : Values) : List String :=
  m.keys.insertionSort (· ≤ ·)

/-- The pairs in the order in which they are written. -/
def pairsOf (m : Values) : List (String × String) :=
  (sortedKeys m).flatMap fun key => (valuesOf m key).map fun value => (key, value)

/-- `Values.Encode`. -/
def encode (m : Values) : String :=
  encodePairs (pairsOf m)

/-- Every key has a value. -/
def Filled (m : Values) : Prop :=
  ∀ key values, m.lookup key = some values → values ≠ []

theorem mem_sortedKeys {m : Values} {key : String} : key ∈ sortedKeys m ↔ key ∈ m := by
  rw [sortedKeys, List.mem_insertionSort, AList.mem_keys]

theorem sortedLT_sortedKeys (m : Values) : (sortedKeys m).SortedLT :=
  GoText.sortedLT_insertionSort m.keys_nodup

/-- Maps with the same entries are encoded alike. -/
theorem encode_congr {m m' : Values} (h : ∀ key, m.lookup key = m'.lookup key) :
    encode m = encode m' := by
  have hkeys : sortedKeys m = sortedKeys m' := by
    refine (sortedLT_sortedKeys m).eq_of_mem_iff (sortedLT_sortedKeys m') ?_
    intro key
    rw [mem_sortedKeys, mem_sortedKeys, ← AList.lookup_isSome, ← AList.lookup_isSome, h key]
  simp only [encode, pairsOf, valuesOf, hkeys, h]

theorem lookup_parseQuery (limit : Option Nat) (query key : String) :
    (parseQuery limit query).lookup key =
      if valuesAt key (parsePairs limit query) = [] then none
      else some (valuesAt key (parsePairs limit query)) := by
  rw [parseQuery, lookup_run, List.foldl_append_eq_append, List.nil_append, ← List.flatMap_def,
    List.flatMap_singleton']

theorem filled_parseQuery (limit : Option Nat) (query : String) :
    Filled (parseQuery limit query) := by
  intro key values hvalues
  rw [lookup_parseQuery] at hvalues
  split_ifs at hvalues with hnil
  exact Option.some.inj hvalues ▸ hnil

theorem valuesOf_parseQuery (limit : Option Nat) (query key : String) :
    valuesOf (parseQuery limit query) key = valuesAt key (parsePairs limit query) := by
  rw [valuesOf, lookup_parseQuery]
  split_ifs with hnil
  · exact hnil.symm
  · rfl

/-- The values that a list of distinct keys is written with. -/
theorem valuesAt_flatMap
    {keys : List String} (hkeys : keys.Nodup) (values : String → List String) (key : String) :
    valuesAt key (keys.flatMap fun k => (values k).map fun value => (k, value)) =
      if key ∈ keys then values key else [] := by
  induction keys with
  | nil =>
      rfl
  | cons k keys ih =>
      obtain ⟨hk, hkeys⟩ := List.nodup_cons.mp hkeys
      rw [List.flatMap_cons, valuesAt_append, ih hkeys]
      by_cases heq : k = key
      · subst heq
        simp [valuesAt, List.filter_map, Function.comp_def, hk]
      · have heq' : key ≠ k := fun h => heq h.symm
        simp [valuesAt, List.filter_map, Function.comp_def, heq, heq']

theorem valuesAt_pairsOf (m : Values) (key : String) :
    valuesAt key (pairsOf m) = valuesOf m key := by
  rw [pairsOf, valuesAt_flatMap (sortedLT_sortedKeys m).nodup]
  split_ifs with hmem
  · rfl
  · have hnone : m.lookup key = none :=
      AList.lookup_eq_none.mpr fun h => hmem (mem_sortedKeys.mpr h)
    rw [valuesOf, hnone]
    rfl

/-- What is written is read back. -/
theorem lookup_parseQuery_encode
    {limit : Option Nat} {m : Values}
    (hfilled : Filled m)
    (hlimit : Within limit (pairsOf m).length)
    (key : String) :
    (parseQuery limit (encode m)).lookup key = m.lookup key := by
  rw [lookup_parseQuery, encode, parsePairs_encodePairs hlimit, valuesAt_pairsOf, valuesOf]
  cases hlookup : m.lookup key with
  | none =>
      rfl
  | some values =>
      exact if_neg (hfilled key values hlookup)

end Values

section Sizes

theorem length_pairsOf (m : Values) :
    (pairsOf m).length = ∑ key ∈ Entries.keySet m, (valuesOf m key).length := by
  have hkeys : (sortedKeys m).toFinset = Entries.keySet m := by
    ext key
    rw [List.mem_toFinset, mem_sortedKeys, Entries.mem_keySet]
  rw [← hkeys, List.sum_toFinset _ (sortedLT_sortedKeys m).nodup, pairsOf, List.length_flatMap]
  simp

/-- A query with few pieces has few pairs. -/
theorem within_length_pairsOf_parseQuery (limit : Option Nat) (query : String) :
    Within limit (pairsOf (parseQuery limit query)).length := by
  have hlength : (pairsOf (parseQuery limit query)).length = (parsePairs limit query).length := by
    rw [length_pairsOf]
    simp only [valuesOf_parseQuery]
    have hsum := sum_length_valuesAt (fun values value => values ++ [value]) []
      (parsePairs limit query) fun _ => True
    simpa [parseQuery] using hsum
  intro n hn
  rw [hlength]
  simp only [parsePairs]
  split_ifs with hwithin
  · exact (List.length_filterMap_le _ _).trans (hwithin n hn)
  · exact Nat.zero_le n

/-- A map with the same keys and shorter lists has fewer pairs. -/
theorem length_pairsOf_le
    {m m' : Values}
    (hkeys : ∀ key, key ∈ m ↔ key ∈ m')
    (hvalues : ∀ key, (valuesOf m key).length ≤ (valuesOf m' key).length) :
    (pairsOf m).length ≤ (pairsOf m').length := by
  have hset : Entries.keySet m = Entries.keySet m' := by
    ext key
    rw [Entries.mem_keySet, Entries.mem_keySet, hkeys key]
  rw [length_pairsOf, length_pairsOf, hset]
  exact Finset.sum_le_sum fun key _ => hvalues key

end Sizes

section Texts

/-- `url.Userinfo`. -/
structure Userinfo where
  username : String
  password : Option String
deriving DecidableEq

/-- The URL of a request, as a server reads it from the request line: there is no fragment, and
what stands before the query has no question mark. -/
structure RequestURL where
  scheme : String
  opaqueText : String
  user : Option Userinfo
  host : String
  url : URL
  omitHost : Bool
  forceQuery : Bool
  rawQuery : String
  scheme_plain : '?' ∉ scheme.toList
  opaqueText_plain : '?' ∉ opaqueText.toList

/-- The bytes that stay as they are in user information. -/
def userinfoByte (c : Char) : Bool :=
  c.isAlphanum || "-_.~$&+,;=".toList.contains c

/-- `Userinfo.String`. -/
def Userinfo.text (user : Userinfo) : List Char :=
  if user.username = "" ∧ user.password.getD "" = "" then []
  else
    escapeUnless userinfoByte user.username.toList ++
      match user.password with
      | some password => ':' :: escapeUnless userinfoByte password.toList
      | none => []

namespace RequestURL

/-- The user information and the host, after the slashes. -/
def authority (u : RequestURL) : List Char :=
  if u.scheme = "" ∧ u.host = "" ∧ u.user = none then []
  else if u.omitHost = true ∧ u.host = "" ∧ u.user = none then []
  else
    (if u.host ≠ "" ∨ u.url.path ≠ "" ∨ u.user ≠ none then ['/', '/'] else []) ++
      (match u.user with
      | some user => user.text ++ ['@']
      | none => []) ++
      escapeUnless hostByte u.host.toList

/-- The path, kept apart from what is in front of it: from a host by a slash, and a first
element with a colon from a scheme. -/
def hierarchy (u : RequestURL) (before : List Char) : List Char :=
  let path := u.url.escapedPath.toList
  let slash := if path ≠ [] ∧ path.head? ≠ some '/' ∧ u.host ≠ "" then ['/'] else []
  let dot :=
    if before ++ slash = [] ∧ ':' ∈ path.takeWhile (fun c => c != '/') then ['.', '/'] else []
  slash ++ dot ++ path

/-- What stands in front of the query. -/
def front (u : RequestURL) : List Char :=
  let scheme := if u.scheme = "" then [] else u.scheme.toList ++ [':']
  if u.opaqueText ≠ "" then scheme ++ u.opaqueText.toList
  else scheme ++ u.authority ++ u.hierarchy (scheme ++ u.authority)

/-- `URL.String`. -/
def text (u : RequestURL) : String :=
  String.ofList
    (u.front ++ if u.forceQuery = true ∨ u.rawQuery ≠ "" then '?' :: u.rawQuery.toList else [])

end RequestURL

/-- The query of a written URL: what follows the first question mark. -/
def queryText (text : String) : String :=
  String.ofList (text.toList.dropWhile fun c => c != '?').tail

theorem not_mem_escapeUnless
    (keep : Char → Bool) (h : keep '?' = false) (l : List Char) :
    '?' ∉ escapeUnless keep l := by
  intro hmem
  rcases escapeUnless_chars hmem with ⟨_, hkeep⟩ | hc | hc
  · rw [h] at hkeep
    revert hkeep
    decide
  · revert hc
    decide
  · revert hc
    decide

theorem not_mem_escapedPath (url : URL) : '?' ∉ url.escapedPath.toList := by
  unfold URL.escapedPath
  split_ifs with hraw
  · simp only [Bool.and_eq_true, validEncoded, List.all_eq_true] at hraw
    intro hmem
    exact absurd (hraw.1.2 '?' hmem) (by decide)
  · decide
  · rw [String.toList_ofList]
    exact not_mem_escapeUnless pathByte (by decide) _

theorem not_mem_userinfo (user : Userinfo) : '?' ∉ user.text := by
  have hescape := not_mem_escapeUnless userinfoByte (by decide)
  unfold Userinfo.text
  split_ifs
  · simp
  · cases user.password with
    | none => simp [hescape]
    | some password => simp [hescape]

namespace RequestURL

theorem not_mem_authority (u : RequestURL) : '?' ∉ u.authority := by
  have hhost := not_mem_escapeUnless hostByte (by decide) u.host.toList
  unfold authority
  split_ifs
  · simp
  · simp
  · cases u.user with
    | none => simp [hhost]
    | some user => simp [hhost, not_mem_userinfo]
  · cases u.user with
    | none => simp [hhost]
    | some user => simp [hhost, not_mem_userinfo]

theorem not_mem_hierarchy (u : RequestURL) (before : List Char) :
    '?' ∉ u.hierarchy before := by
  have hpath := not_mem_escapedPath u.url
  simp only [hierarchy, List.mem_append, not_or]
  refine ⟨⟨?_, ?_⟩, hpath⟩
  · split_ifs <;> simp
  · split_ifs <;> simp

theorem not_mem_front (u : RequestURL) : '?' ∉ u.front := by
  have hscheme : '?' ∉ if u.scheme = "" then [] else u.scheme.toList ++ [':'] := by
    split_ifs
    · simp
    · simp [u.scheme_plain]
  simp only [front]
  by_cases hopaque : u.opaqueText ≠ ""
  · rw [if_pos hopaque]
    exact List.not_mem_append hscheme u.opaqueText_plain
  · rw [if_neg hopaque]
    exact List.not_mem_append (List.not_mem_append hscheme u.not_mem_authority)
      (u.not_mem_hierarchy _)

/-- The query is found in the written URL. -/
theorem queryText_text (u : RequestURL) : queryText u.text = u.rawQuery := by
  rw [queryText, text, String.toList_ofList,
    List.dropWhile_append_of_pos (bne_of_not_mem u.not_mem_front)]
  split_ifs with hquery
  · simp
  · simp only [not_or, not_not] at hquery
    simp [hquery.2]

end RequestURL

end Texts

end GoQuery
end GatewayRuntime
