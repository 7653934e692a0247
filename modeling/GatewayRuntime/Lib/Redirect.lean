import GatewayRuntime.Lib.CleanPath
import GatewayRuntime.Lib.GoUrlParse

/-!
# Redirects

The `Location` that `http.Redirect` of the Go standard library writes, and what a
browser makes of it.

An address without a scheme and without a host is made absolute by the directory of
the request, and what stands before its first question mark is cleaned as a path;
that includes a fragment.  In the written header a newline is a blank.  A browser
ignores tabs and newlines, and takes a backslash for a slash: `StaysLocal` says that
the text it reads starts with one slash only.

`staysLocal_location_iff` says when a rooted address keeps the browser at its origin:
it depends on the first element of the cleaned path.
-/

namespace GatewayRuntime
namespace Redirect

open GoUrl

section Location

/-- `path.Split`: the directory of a path, with its slash. -/
def directory (path : List Char) : List Char :=
  (path.reverse.dropWhile fun c => c != '/').reverse

/-- The address combined with the path of the request. -/
def absolute (oldPath url : List Char) : List Char :=
  if url.head? = some '/' then url
  else directory (if oldPath = [] then ['/'] else oldPath) ++ url

/-- The path is cleaned but keeps a slash at its end; the query stays as it is. -/
def cleaned (url : List Char) : List Char :=
  let (path, query) := url.span fun c => c != '?'
  let np := (GoPath.clean (String.ofList path)).toList
  (if path.getLast? = some '/' && np.getLast? != some '/' then np ++ ['/'] else np) ++ query

/-- The escape of a rune that is not ASCII: its bytes in hexadecimal. -/
def hexEscape (c : Char) : List Char :=
  (String.utf8EncodeChar c).flatMap fun b =>
    ['%', Nat.digitChar (b.toNat / 16), Nat.digitChar (b.toNat % 16)]

/-- `hexEscapeNonASCII`. -/
def hexEscapeNonASCII (l : List Char) : List Char :=
  l.flatMap fun c => if c.toNat < 128 then [c] else hexEscape c

/-- The `Location` of `http.Redirect`, for a request with the given path. -/
def location (oldPath url : String) : String :=
  String.ofList (hexEscapeNonASCII
    (match parse url with
    | none => url.toList
    | some ref =>
        if ref.scheme = "" && ref.host = "" then cleaned (absolute oldPath.toList url.toList)
        else url.toList))

end Location

section Browser

/-- A header value as it is written. -/
def headerValue (l : List Char) : List Char :=
  l.map fun c => if c = '\n' ∨ c = '\r' then ' ' else c

/-- The text that a browser parses. -/
def browserText (l : List Char) : List Char :=
  l.filter fun c => c != '\t' && c != '\n' && c != '\r'

/-- What a browser reads of a header value. -/
def seen (l : List Char) : List Char :=
  browserText (headerValue l)

/-- The reference starts with exactly one slash, where a backslash counts as one. -/
def StaysLocal (l : List Char) : Prop :=
  l.head? = some '/' ∧ l.tail.head? ≠ some '/' ∧ l.tail.head? ≠ some '\\'

instance (l : List Char) : Decidable (StaysLocal l) := by
  unfold StaysLocal
  infer_instance

@[simp]
theorem seen_nil :
    seen [] = [] :=
  rfl

theorem seen_append (l l' : List Char) :
    seen (l ++ l') = seen l ++ seen l' := by
  simp [seen, headerValue, browserText]

theorem seen_cons (c : Char) (l : List Char) :
    seen (c :: l) = seen [c] ++ seen l :=
  seen_append [c] l

theorem staysLocal_seen_slash (l : List Char) :
    StaysLocal (seen ('/' :: l)) ↔ (seen l).head? ≠ some '/' ∧ (seen l).head? ≠ some '\\' := by
  rw [seen_cons]
  simp [StaysLocal, seen, headerValue, browserText]

/-- A slash or a backslash is seen only where one stands. -/
theorem mem_of_mem_seen
    {c : Char} {l : List Char} (hc : c ≠ ' ') (h : c ∈ seen l) :
    c ∈ l := by
  simp only [seen, browserText, headerValue, List.mem_filter, List.mem_map] at h
  obtain ⟨⟨d, hd, rfl⟩, -⟩ := h
  split_ifs at hc ⊢ with hnewline
  · exact absurd rfl hc
  · exact hd

end Browser

section Escaping

theorem hexEscape_eq (c : Char) :
    ∃ rest, hexEscape c = '%' :: rest := by
  have hne : String.utf8EncodeChar c ≠ [] := by
    rw [← List.length_pos_iff, String.length_utf8EncodeChar]
    exact Char.utf8Size_pos c
  obtain ⟨b, bytes, hb⟩ := List.exists_cons_of_ne_nil hne
  exact ⟨_, by rw [hexEscape, hb, List.flatMap_cons]; rfl⟩

/-- A rune is not seen, or it is seen alone. -/
theorem seen_singleton (c : Char) :
    seen [c] = [] ∨ ∃ d, seen [c] = [d] := by
  by_cases hnewline : c = '\n' ∨ c = '\r'
  · refine Or.inr ⟨' ', ?_⟩
    simp [seen, headerValue, browserText, hnewline]
  · by_cases htab : c = '\t'
    · left
      simp [seen, headerValue, browserText, htab]
    · refine Or.inr ⟨c, ?_⟩
      simp only [not_or] at hnewline
      simp [seen, headerValue, browserText, hnewline, htab]

theorem seen_of_not_ascii
    {c : Char} (h : 128 ≤ c.toNat) :
    seen [c] = [c] := by
  have hne (d : Char) (hd : d.toNat < 128) : c ≠ d := by
    rintro rfl
    omega
  simp [seen, headerValue, browserText, hne '\n' (by decide), hne '\r' (by decide),
    hne '\t' (by decide)]

/-- Escaping what is not ASCII does not change where another character is seen first. -/
theorem head_seen_hexEscapeNonASCII
    {c : Char} (hascii : c.toNat < 128) (hpercent : c ≠ '%') (l : List Char) :
    (seen (hexEscapeNonASCII l)).head? = some c ↔ (seen l).head? = some c := by
  induction l with
  | nil =>
      rfl
  | cons d l ih =>
      by_cases hd : d.toNat < 128
      · have hcons : hexEscapeNonASCII (d :: l) = d :: hexEscapeNonASCII l := by
          simp [hexEscapeNonASCII, hd]
        rw [hcons, seen_cons, seen_cons d l]
        rcases seen_singleton d with hseen | ⟨d', hseen⟩
        · rw [hseen, List.nil_append, List.nil_append]
          exact ih
        · rw [hseen]
          rfl
      · obtain ⟨rest, hrest⟩ := hexEscape_eq d
        have hcons : hexEscapeNonASCII (d :: l) = '%' :: (rest ++ hexEscapeNonASCII l) := by
          simp [hexEscapeNonASCII, hd, hrest]
        have hdc : d ≠ c := by
          rintro rfl
          exact hd hascii
        have hseen : seen [d] = [d] := seen_of_not_ascii (not_lt.mp hd)
        rw [hcons, seen_cons, seen_cons d l, hseen, show seen ['%'] = ['%'] by decide]
        simp [hdc, hpercent.symm]

end Escaping

section Cleaning

/-- The elements of the cleaned path of a rooted address. -/
def elements (url : List Char) : List (List Char) :=
  GoPath.cleanElements true ((url.takeWhile fun c => c != '?').tail.splitOn '/')

/-- The path of the address ends with a slash. -/
def hasTrailingSlash (url : List Char) : Bool :=
  (url.takeWhile fun c => c != '?').getLast? == some '/'

theorem cleanSegment_elements (url : List Char) :
    ∀ element ∈ elements url, CleanSegment element :=
  cleanSegment_cleanElements fun _ hpart => GoText.not_mem_of_mem_splitOn hpart

theorem cleaned_slash (l : List Char) :
    cleaned ('/' :: l) =
      '/' :: (['/'].intercalate (elements ('/' :: l)) ++
        ((if hasTrailingSlash ('/' :: l) = true ∧ elements ('/' :: l) ≠ [] then ['/'] else []) ++
          l.dropWhile fun c => c != '?')) := by
  have hclean := clean_slash (l.takeWhile fun c => c != '?')
  have hpath : ('/' :: l).takeWhile (fun c => c != '?') =
      '/' :: l.takeWhile fun c => c != '?' := by
    simp
  have hquery : ('/' :: l).dropWhile (fun c => c != '?') = l.dropWhile fun c => c != '?' := by
    simp
  have htrailing : hasTrailingSlash ('/' :: l) =
      (('/' :: l.takeWhile fun c => c != '?').getLast? == some '/') := by
    rw [hasTrailingSlash, hpath]
  have helements : GoPath.cleanElements true ((l.takeWhile fun c => c != '?').splitOn '/') =
      elements ('/' :: l) := by
    rw [elements, hpath, List.tail_cons]
  simp only [cleaned, List.span_eq_takeWhile_dropWhile, hquery, hpath, hclean, helements,
    String.toList_ofList]
  by_cases hne : elements ('/' :: l) = []
  · simp [hne]
  · have hlast := getLast?_rootedPath hne (cleanSegment_elements _)
    rw [rootedPath_eq_intercalate hne] at hlast
    by_cases hslash : ('/' :: l.takeWhile fun c => c != '?').getLast? = some '/'
    · simp [htrailing, hslash, hlast, hne]
    · simp [htrailing, hslash]

end Cleaning

section Local

/-- A cleaned path whose start a browser does not take for a second slash: the first
element does not start with a backslash, and something of it is seen if a slash
follows. -/
def OpensPlain (elements : List (List Char)) (trailing : Bool) : Prop :=
  match elements with
  | [] => True
  | first :: rest =>
      (seen first).head? ≠ some '\\' ∧ (seen first = [] → rest = [] ∧ trailing = false)

instance : ∀ (elements : List (List Char)) (trailing : Bool),
    Decidable (OpensPlain elements trailing)
  | [], _ => isTrue trivial
  | _ :: _, _ => inferInstanceAs (Decidable (_ ∧ (_ → _)))

/-- What is seen first is neither a slash nor a backslash. -/
def NoSlashFirst (l : List Char) : Prop :=
  (seen l).head? ≠ some '/' ∧ (seen l).head? ≠ some '\\'

theorem noSlashFirst_query (l : List Char) :
    NoSlashFirst (l.dropWhile fun c => c != '?') := by
  rcases dropWhile_head l '?' with hhead | hnil
  · obtain ⟨rest, hrest⟩ := List.head?_eq_some_iff.mp hhead
    rw [hrest, NoSlashFirst, seen_cons, show seen ['?'] = ['?'] by decide]
    simp
  · rw [hnil, NoSlashFirst]
    simp

theorem not_noSlashFirst_slash (l : List Char) :
    ¬NoSlashFirst ('/' :: l) := by
  rw [NoSlashFirst, seen_cons, show seen ['/'] = ['/'] by decide]
  simp

theorem intercalate_cons_eq (first : List Char) (rest : List (List Char)) :
    ['/'].intercalate (first :: rest) = first ++ rootedPath rest := by
  have h := rootedPath_eq_intercalate (List.cons_ne_nil first rest)
  rw [rootedPath, List.flatMap_cons, ← rootedPath, List.cons_append] at h
  exact (List.cons.inj h).2.symm

theorem noSlashFirst_append
    {first : List Char} (hslash : '/' ∉ first) (rest : List Char) :
    NoSlashFirst (first ++ rest) ↔
      (seen first).head? ≠ some '\\' ∧ (seen first = [] → NoSlashFirst rest) := by
  unfold NoSlashFirst
  rw [seen_append]
  cases hseen : seen first with
  | nil =>
      simp
  | cons c more =>
      have hc : c ≠ '/' := by
        rintro rfl
        exact hslash (mem_of_mem_seen (by decide) (hseen ▸ List.mem_cons_self))
      simp [hc]

theorem noSlashFirst_iff
    {elements : List (List Char)}
    (h : ∀ element ∈ elements, CleanSegment element) (trailing : Bool) (l : List Char) :
    NoSlashFirst (['/'].intercalate elements ++
        ((if trailing = true ∧ elements ≠ [] then ['/'] else []) ++
          l.dropWhile fun c => c != '?')) ↔
      OpensPlain elements trailing := by
  cases elements with
  | nil =>
      simpa [OpensPlain] using noSlashFirst_query l
  | cons first rest =>
      have hslash : '/' ∉ first := (h first List.mem_cons_self).2.2.2
      rw [intercalate_cons_eq, List.append_assoc, noSlashFirst_append hslash, OpensPlain]
      refine and_congr_right fun _ => imp_congr_right fun _ => ?_
      cases rest with
      | cons second rest =>
          simpa [rootedPath] using not_noSlashFirst_slash _
      | nil =>
          cases trailing with
          | true => simpa [rootedPath] using not_noSlashFirst_slash _
          | false => simpa [rootedPath] using noSlashFirst_query l

/-- **When a redirect to a rooted address keeps the browser at its origin.** -/
theorem staysLocal_location_iff
    {oldPath url : String} {ref : Reference} {l : List Char}
    (hparse : parse url = some ref) (hscheme : ref.scheme = "") (hhost : ref.host = "")
    (habsolute : absolute oldPath.toList url.toList = '/' :: l) :
    StaysLocal (seen (location oldPath url).toList) ↔
      OpensPlain (elements ('/' :: l)) (hasTrailingSlash ('/' :: l)) := by
  have hlocation : (location oldPath url).toList = hexEscapeNonASCII (cleaned ('/' :: l)) := by
    simp [location, hparse, hscheme, hhost, habsolute]
  have hslash (body : List Char) : hexEscapeNonASCII ('/' :: body) = '/' :: hexEscapeNonASCII body :=
    rfl
  rw [hlocation, cleaned_slash, hslash, staysLocal_seen_slash]
  simp only [ne_eq, head_seen_hexEscapeNonASCII (c := '/') (by decide) (by decide),
    head_seen_hexEscapeNonASCII (c := '\\') (by decide) (by decide)]
  exact noSlashFirst_iff (cleanSegment_elements _) _ l

end Local

end Redirect
end GatewayRuntime
