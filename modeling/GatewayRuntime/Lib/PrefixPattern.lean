import GatewayRuntime.Lib.CleanPath
import GatewayRuntime.Lib.ServeMux

/-!
# The pattern of a prefix

A prefix is read as the text of a pattern when a mux is mounted below it, and as a part of
the path that a client writes.  The two agree on segments that are *plain*: without a
brace, which starts a wildcard, without a blank, which ends the method of a pattern, and
equal to their own decoding.
-/

namespace GatewayRuntime
namespace ServeMux

open GoUrl

universe u

section Acceptance

/-- What a pattern accepts starts with what its segments accept. -/
theorem accepts_iff
    {multi : Bool} {segs : List Seg} {path : List String} :
    Accepts multi segs path ↔
      ∃ front rest, path = front ++ rest ∧ List.Forall₂ Seg.Accepts segs front ∧
        if multi then rest ≠ [] else rest = [] := by
  induction segs generalizing path with
  | nil =>
      simp [Accepts]
  | cons seg segs ih =>
      cases path with
      | nil =>
          simp [Accepts]
      | cons e path =>
          rw [Accepts, ih]
          constructor
          · rintro ⟨he, front, rest, rfl, hfront, hrest⟩
            exact ⟨e :: front, rest, rfl, .cons he hfront, hrest⟩
          · rintro ⟨front, rest, hpath, hfront, hrest⟩
            cases hfront with
            | cons he hfront =>
                obtain ⟨rfl, rfl⟩ := List.cons.inj hpath
                exact ⟨he, _, _, rfl, hfront, hrest⟩

/-- Below a path of segments come the elements of the segments. -/
theorem elementsOf_append
    (front : List (List Char)) {back : List (List Char)} (hback : back ≠ []) :
    elementsOf (front ++ back) = front.map pathUnescape ++ elementsOf back := by
  induction front with
  | nil =>
      rfl
  | cons first rest ih =>
      obtain ⟨second, rest', hrest⟩ :=
        List.exists_cons_of_ne_nil (List.append_ne_nil_of_right_ne_nil rest hback)
      rw [List.cons_append, hrest, elementsOf, ← hrest, ih]
      rfl

/-- A path that is deeper than patterns with a wildcard for the rest is not redirected. -/
theorem redirects_of_deep
    {η : Type u} {table : List (Route η)} {path : String} (host method : String)
    (h : ∀ route ∈ table,
      route.pattern.multi = true ∧ route.pattern.segs.length < path.toList.count '/') :
    redirects table host method path = false := by
  unfold redirects
  rw [Bool.and_eq_false_iff]
  right
  unfold exactMatch
  cases hfound : lookup table host method (elements (path ++ "/")) with
  | none =>
      rfl
  | some route =>
      obtain ⟨hmulti, hlength⟩ := h route (lookup_sound hfound).1
      have hcount : (path ++ "/").toList.count '/' = path.toList.count '/' + 1 := by
        simp
      have hne : (route.pattern.segs.length + 1 == path.toList.count '/' + 1) = false := by
        rw [beq_eq_false_iff_ne]
        omega
      simp only [hmulti, hcount, hne, Bool.not_true, Bool.and_false, Bool.or_false]

end Acceptance

section Prefixes

/-- A segment that means the same in a pattern, in a prefix and in a path. -/
def PlainSegment (segment : List Char) : Prop :=
  '{' ∉ segment ∧ (∀ c ∈ segment, isBlank c = false) ∧ pathUnescape segment = String.ofList segment

/-- What a part of a pattern is read as. -/
def Reads (part : List Char) : Seg → Prop
  | .lit s => '{' ∉ part ∧ s = pathUnescape part
  | .single => '{' ∈ part ∧ pathUnescape part = String.ofList part

theorem unescape_of_not_mem
    {l : List Char} (h : '%' ∉ l) :
    unescape l = some l := by
  induction l with
  | nil =>
      rfl
  | cons c l ih =>
      simp only [List.mem_cons, not_or] at h
      rw [unescape_cons_of_ne (Ne.symm h.1), ih h.2]
      rfl

theorem pathUnescape_ne_empty
    {l : List Char} (hne : l ≠ []) :
    pathUnescape l ≠ "" := by
  intro hempty
  have hnil : (unescape l).getD l = [] := by
    simpa [pathUnescape] using congrArg String.toList hempty
  cases hd : unescape l with
  | none => exact hne (by simpa [hd] using hnil)
  | some d => exact ne_nil_of_unescape hne hd (by simpa [hd] using hnil)

theorem not_mem_of_isValidWildcardName
    {name : List Char} (h : isValidWildcardName name = true) :
    '%' ∉ name := by
  intro hmem
  cases name with
  | nil =>
      simp at hmem
  | cons c rest =>
      simp only [isValidWildcardName, Bool.and_eq_true, List.all_eq_true] at h
      rcases List.mem_cons.mp hmem with rfl | hmem
      · exact absurd h.1 (by decide)
      · exact absurd (h.2 '%' hmem) (by decide)

/-- A part in braces is its own decoding. -/
theorem pathUnescape_of_wildcardName
    {part name : List Char}
    (h : wildcardName part = some name)
    (hname : isValidWildcardName name = true) :
    pathUnescape part = String.ofList part := by
  unfold wildcardName at h
  split at h
  · next rest =>
      split_ifs at h with hlast
      obtain rfl := Option.some.inj h
      obtain ⟨init, rfl⟩ := List.getLast?_eq_some_iff.mp hlast
      rw [List.dropLast_concat] at hname
      have hplain : '%' ∉ '{' :: (init ++ ['}']) := by
        simpa using not_mem_of_isValidWildcardName hname
      rw [pathUnescape, unescape_of_not_mem hplain]
      rfl
  · simp at h

theorem parseSegments_brace
    {part : List Char} {rest seen : List (List Char)} {segs : List Seg} {multi : Bool}
    (hbrace : '{' ∈ part) (hrest : rest ≠ [])
    (h : parseSegments seen (part :: rest) = some (segs, multi)) :
    ∃ name segs', wildcardName part = some name ∧ isValidWildcardName name = true ∧
      segs = .single :: segs' ∧ parseSegments (name :: seen) rest = some (segs', multi) := by
  have hne : rest.isEmpty = false := by
    simpa using hrest
  have hcontains : part.contains '{' = true := by
    simpa using hbrace
  rw [parseSegments, if_pos hcontains] at h
  cases hname : wildcardName part with
  | none =>
      simp [hname] at h
  | some name =>
      simp only [hname, hne, Bool.false_and, Bool.false_eq_true, if_false] at h
      split_ifs at h with hend hdots hvalid
      simp only [Option.map_eq_some_iff, Prod.mk.injEq] at h
      obtain ⟨⟨segs', multi'⟩, hparsed, rfl, rfl⟩ := h
      simp only [Bool.and_eq_true] at hvalid
      exact ⟨name, segs', rfl, hvalid.1, rfl, hparsed⟩

theorem parseSegments_lit
    {part : List Char} (hbrace : '{' ∉ part) (hpart : part ≠ []) (rest seen : List (List Char)) :
    parseSegments seen (part :: rest) =
      (parseSegments seen rest).map fun parsed =>
        (.lit (pathUnescape part) :: parsed.1, parsed.2) := by
  rw [parseSegments, if_neg (by simpa using hbrace), if_neg (by simp [hpart])]
  simp [pathUnescape_ne_empty hpart]

/-- The segments of the pattern of a prefix. -/
theorem parseSegments_sound
    {parts seen : List (List Char)} {segs : List Seg} {multi : Bool}
    (hparts : ∀ part ∈ parts, part ≠ [])
    (h : parseSegments seen (parts ++ [[]]) = some (segs, multi)) :
    multi = true ∧ List.Forall₂ Reads parts segs := by
  induction parts generalizing seen segs with
  | nil =>
      obtain ⟨rfl, rfl⟩ : segs = [] ∧ multi = true := by
        simpa [parseSegments, eq_comm] using h
      exact ⟨rfl, .nil⟩
  | cons part rest ih =>
      rw [List.forall_mem_cons] at hparts
      by_cases hbrace : '{' ∈ part
      · obtain ⟨name, segs', hname, hvalid, rfl, hrest⟩ := parseSegments_brace hbrace (by simp) h
        obtain ⟨hmulti, hreads⟩ := ih hparts.2 hrest
        exact ⟨hmulti, .cons ⟨hbrace, pathUnescape_of_wildcardName hname hvalid⟩ hreads⟩
      · rw [List.cons_append, parseSegments_lit hbrace hparts.1] at h
        simp only [Option.map_eq_some_iff, Prod.mk.injEq] at h
        obtain ⟨⟨segs', multi'⟩, hrest, rfl, rfl⟩ := h
        obtain ⟨hmulti, hreads⟩ := ih hparts.2 hrest
        exact ⟨hmulti, .cons ⟨hbrace, rfl⟩ hreads⟩

theorem parseSegments_plain
    {parts seen : List (List Char)}
    (hparts : ∀ part ∈ parts, part ≠ [])
    (hbrace : ∀ part ∈ parts, '{' ∉ part) :
    parseSegments seen (parts ++ [[]]) =
      some (parts.map fun part => .lit (pathUnescape part), true) := by
  induction parts with
  | nil =>
      simp [parseSegments]
  | cons part rest ih =>
      rw [List.forall_mem_cons] at hparts hbrace
      rw [List.cons_append, parseSegments_lit hbrace.1 hparts.1, ih hparts.2 hbrace.2]
      rfl

/-- A text without a blank is a path when it starts with a slash. -/
theorem parsePattern_of_not_blank
    {s : String}
    (hroot : s.toList.head? = some '/')
    (hblank : ∀ c ∈ s.toList, isBlank c = false) :
    parsePattern s =
      (parseSegments [] (s.toList.tail.splitOn '/')).bind fun parsed =>
        if h : Seg.lit "" ∉ parsed.1 then some ⟨"", "", parsed.1, parsed.2, h⟩ else none := by
  obtain ⟨l, hl⟩ := List.head?_eq_some_iff.mp hroot
  have hspan : s.toList.span (fun c => !isBlank c) = (s.toList, []) := by
    rw [List.span_eq_takeWhile_dropWhile, List.takeWhile_eq_self_iff.mpr, List.dropWhile_eq_nil_iff.mpr]
    · simpa using hblank
    · simpa using hblank
  unfold parsePattern
  simp only [hspan]
  rw [hl, List.span_eq_takeWhile_dropWhile]
  simp

/-- The text of a prefix with a slash after it, as a path. -/
theorem rootedPath_slash (segments : List (List Char)) :
    (String.ofList (rootedPath segments) ++ "/").toList = rootedPath (segments ++ [[]]) := by
  simp [rootedPath]

variable {segments : List (List Char)}

/-- The pattern of a prefix of clean segments. -/
theorem parsePattern_below
    (hclean : ∀ segment ∈ segments, CleanSegment segment)
    (hblank : ∀ segment ∈ segments, ∀ c ∈ segment, isBlank c = false) :
    parsePattern (String.ofList (rootedPath segments) ++ "/") =
      (parseSegments [] (segments ++ [[]])).bind fun parsed =>
        if h : Seg.lit "" ∉ parsed.1 then some ⟨"", "", parsed.1, parsed.2, h⟩ else none := by
  have hsplit : (rootedPath (segments ++ [[]])).tail.splitOn '/' = segments ++ [[]] := by
    refine splitOn_rootedPath (by simp) fun segment hsegment => ?_
    rcases List.mem_append.mp hsegment with hs | hs
    · exact (hclean segment hs).2.2.2
    · simp [List.mem_singleton.mp hs]
  rw [parsePattern_of_not_blank, rootedPath_slash, hsplit]
  · rw [rootedPath_slash, rootedPath_eq_intercalate (by simp)]
    rfl
  · intro c hc
    rw [rootedPath_slash] at hc
    obtain ⟨segment, hsegment, hc⟩ := List.mem_flatMap.mp hc
    rcases List.mem_cons.mp hc with rfl | hc
    · decide
    · rcases List.mem_append.mp hsegment with hs | hs
      · exact hblank segment hs c hc
      · simp [List.mem_singleton.mp hs] at hc

/-- What is known of the pattern of a prefix. -/
theorem parsePattern_sound
    {pattern : Pattern}
    (hclean : ∀ segment ∈ segments, CleanSegment segment)
    (hblank : ∀ segment ∈ segments, ∀ c ∈ segment, isBlank c = false)
    (h : parsePattern (String.ofList (rootedPath segments) ++ "/") = some pattern) :
    pattern.method = "" ∧ pattern.host = "" ∧ pattern.multi = true ∧
      List.Forall₂ Reads segments pattern.segs := by
  rw [parsePattern_below hclean hblank] at h
  obtain ⟨⟨segs, multi⟩, hparsed, h⟩ := Option.bind_eq_some_iff.mp h
  split_ifs at h
  obtain rfl := Option.some.inj h
  obtain ⟨hmulti, hreads⟩ := parseSegments_sound (fun s hs => (hclean s hs).1) hparsed
  exact ⟨rfl, rfl, hmulti, hreads⟩

/-- The pattern of a prefix of plain segments. -/
theorem exists_parsePattern
    (hclean : ∀ segment ∈ segments, CleanSegment segment)
    (hplain : ∀ segment ∈ segments, PlainSegment segment) :
    ∃ pattern, parsePattern (String.ofList (rootedPath segments) ++ "/") = some pattern := by
  have hlit : Seg.lit "" ∉ segments.map fun segment => Seg.lit (pathUnescape segment) := by
    intro hmem
    obtain ⟨segment, hsegment, heq⟩ := List.mem_map.mp hmem
    exact pathUnescape_ne_empty (hclean segment hsegment).1 (Seg.lit.inj heq)
  rw [parsePattern_below hclean fun s hs => (hplain s hs).2.1,
    parseSegments_plain (fun s hs => (hclean s hs).1) fun s hs => (hplain s hs).1]
  exact ⟨_, by rw [Option.bind_some, dif_pos hlit]⟩

end Prefixes

section Below

variable {segments : List (List Char)}

/-- The elements of a path that is written below other segments. -/
theorem elements_rootedPath_append
    {names : List (List Char)} {l : List Char} {path : String}
    (hne : names ≠ [])
    (hslash : ∀ name ∈ names, '/' ∉ name)
    (h : path.toList = rootedPath names ++ '/' :: l) :
    elements path = names.map pathUnescape ++ elementsOf (l.splitOn '/') ∧
      path.toList.count '/' = names.length + 1 + l.count '/' := by
  constructor
  · rw [elements, h, rootedPath_eq_intercalate hne, List.cons_append, List.tail_cons,
      splitOn_append_slash, List.splitOn_intercalate '/' hslash hne,
      elementsOf_append names (List.splitOn_ne_nil '/' l)]
  · rw [h, List.count_append, count_rootedPath hslash, List.count_cons_self]
    omega

theorem elementsOf_ne_nil (l : List Char) :
    elementsOf (l.splitOn '/') ≠ [] := by
  rw [Ne, ← List.length_eq_zero_iff, length_elementsOf, List.length_eq_zero_iff]
  exact List.splitOn_ne_nil '/' l

theorem map_pathUnescape_escape (segments : List (List Char)) :
    (segments.map escape).map pathUnescape = segments.map String.ofList := by
  rw [List.map_map]
  refine List.map_congr_left fun segment _ => ?_
  have hdecoded : unescape (escape segment) = some segment :=
    unescape_escapeUnless (by decide) segment
  simp [pathUnescape, hdecoded]

theorem not_mem_map_escape
    (hclean : ∀ segment ∈ segments, CleanSegment segment) :
    ∀ name ∈ segments.map escape, '/' ∉ name := by
  intro name hname
  obtain ⟨segment, hsegment, rfl⟩ := List.mem_map.mp hname
  exact not_mem_escape (hclean segment hsegment).2.2.2

/-- The elements of an address below a path of clean segments. -/
theorem elements_below
    {u : URL}
    (hurl : u.Clean)
    (hne : segments ≠ [])
    (hclean : ∀ segment ∈ segments, CleanSegment segment)
    (hraw : u.rawPath = "" ∨
      ∀ segment ∈ segments, pathUnescape segment = String.ofList segment) :
    (∃ rest ≠ [], elements (u.below (String.ofList (rootedPath segments))).escapedPath =
        segments.map String.ofList ++ rest) ∧
      segments.length <
        (u.below (String.ofList (rootedPath segments))).escapedPath.toList.count '/' := by
  obtain ⟨l, ⟨hl, hraw'⟩ | hl⟩ := hurl.escapedPath_below hne
  · obtain ⟨helements, hcount⟩ :=
      elements_rootedPath_append hne (fun s hs => (hclean s hs).2.2.2) hl
    rw [List.map_congr_left (hraw.resolve_left hraw')] at helements
    exact ⟨⟨_, elementsOf_ne_nil l, helements⟩, by omega⟩
  · obtain ⟨helements, hcount⟩ :=
      elements_rootedPath_append (by simpa using hne) (not_mem_map_escape hclean) hl
    rw [map_pathUnescape_escape] at helements
    rw [List.length_map] at hcount
    exact ⟨⟨_, elementsOf_ne_nil l, helements⟩, by omega⟩

theorem forall₂_accepts_lit
    {names front : List String} :
    List.Forall₂ Seg.Accepts (names.map Seg.lit) front ↔ front = names := by
  rw [List.forall₂_map_left_iff]
  constructor
  · intro h
    exact (List.forall₂_eq_eq_eq ▸ h.imp fun _ _ hab => hab.symm : names = front).symm
  · rintro rfl
    exact List.forall₂_same.mpr fun _ _ => rfl

theorem segs_of_plain
    {segs : List Seg}
    (hreads : List.Forall₂ Reads segments segs)
    (hplain : ∀ segment ∈ segments, PlainSegment segment) :
    segs = (segments.map String.ofList).map Seg.lit := by
  induction hreads with
  | nil =>
      rfl
  | @cons segment seg segments segs hread _ ih =>
      rw [List.forall_mem_cons] at hplain
      cases seg with
      | lit s =>
          rw [ih hplain.2, hread.2, hplain.1.2.2]
          rfl
      | single =>
          exact absurd hread.1 hplain.1.1

end Below

end ServeMux
end GatewayRuntime
