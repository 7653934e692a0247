import GatewayRuntime.Lib.GoUrl

/-!
# Clean request paths

A path is clean when cleaning leaves it as it is: it starts with a slash and none of its
segments is empty or made of dots, up to the empty one after a trailing slash.

Cleaning is done on the escaped path.  An encoding has at most the segments of what it
encodes, so every encoding of a clean path is clean.  A clean path below a path of clean
segments is clean too.
-/

namespace GatewayRuntime
namespace GoUrl

section Segments

/-- Segments that cleaning keeps, with an empty one after a trailing slash. -/
def CleanSegments : List (List Char) → Prop
  | [] => False
  | [last] => last = [] ∨ CleanSegment last
  | first :: second :: rest => CleanSegment first ∧ CleanSegments (second :: rest)

theorem cleanSegments_append
    {front back : List (List Char)} (hback : back ≠ []) :
    CleanSegments (front ++ back) ↔
      (∀ segment ∈ front, CleanSegment segment) ∧ CleanSegments back := by
  induction front with
  | nil =>
      simp
  | cons first rest ih =>
      obtain ⟨second, rest', hrest⟩ := List.exists_cons_of_ne_nil (List.append_ne_nil_of_right_ne_nil rest hback)
      rw [List.cons_append, hrest, CleanSegments, ← hrest, ih]
      simp [and_assoc]

theorem cleanSegments_of_forall
    {segments : List (List Char)}
    (hne : segments ≠ [])
    (h : ∀ segment ∈ segments, CleanSegment segment) :
    CleanSegments segments := by
  obtain ⟨init, last, rfl⟩ := (List.eq_nil_or_concat' segments).resolve_left hne
  refine (cleanSegments_append (by simp)).mpr ⟨fun s hs => h s (by simp [hs]), ?_⟩
  exact Or.inr (h last (by simp))

/-- Clean segments are all kept, or all but the last one. -/
theorem CleanSegments.cases
    {segments : List (List Char)}
    (h : CleanSegments segments) :
    ∃ kept, (∀ segment ∈ kept, CleanSegment segment) ∧
      (segments = kept ∧ kept ≠ [] ∨ segments = kept ++ [[]]) := by
  rcases List.eq_nil_or_concat' segments with rfl | ⟨init, last, rfl⟩
  · exact h.elim
  · obtain ⟨hinit, hlast⟩ := (cleanSegments_append (by simp)).mp h
    rcases hlast with rfl | hlast
    · exact ⟨init, hinit, Or.inr rfl⟩
    · refine ⟨init ++ [last], ?_, Or.inl ⟨rfl, by simp⟩⟩
      intro segment hsegment
      rcases List.mem_append.mp hsegment with hs | hs
      · exact hinit segment hs
      · rwa [List.mem_singleton.mp hs]

theorem splitOn_of_not_mem
    {l : List Char} (h : '/' ∉ l) :
    l.splitOn '/' = [l] := by
  have hpieces : ∀ piece ∈ [l], '/' ∉ piece := by
    simpa using h
  simpa using List.splitOn_intercalate '/' hpieces (by simp)

end Segments

section Cleaning

theorem cleanSegment_pushElement
    {kept : List (List Char)} {element : List Char}
    (hslash : '/' ∉ element)
    (h : ∀ segment ∈ kept, CleanSegment segment) :
    ∀ segment ∈ GoPath.pushElement true kept element, CleanSegment segment := by
  unfold GoPath.pushElement
  by_cases hdrop : element = [] ∨ element = ['.']
  · rwa [if_pos hdrop]
  · rw [if_neg hdrop]
    rw [not_or] at hdrop
    by_cases hdots : element = ['.', '.']
    · rw [if_pos hdots]
      cases kept with
      | nil =>
          simp
      | cons last before =>
          obtain ⟨hlast, hbefore⟩ := List.forall_mem_cons.mp h
          simpa only [hlast.2.2.1, if_false] using hbefore
    · rw [if_neg hdots]
      exact List.forall_mem_cons.mpr ⟨⟨hdrop.1, hdrop.2, hdots, hslash⟩, h⟩

/-- The elements that cleaning leaves of a rooted path. -/
theorem cleanSegment_cleanElements
    {parts : List (List Char)}
    (h : ∀ part ∈ parts, '/' ∉ part) :
    ∀ segment ∈ GoPath.cleanElements true parts, CleanSegment segment := by
  have hkept (kept : List (List Char)) (hclean : ∀ s ∈ kept, CleanSegment s) :
      ∀ s ∈ parts.foldl (GoPath.pushElement true) kept, CleanSegment s := by
    induction parts generalizing kept with
    | nil =>
        exact hclean
    | cons first rest ih =>
        rw [List.forall_mem_cons] at h
        exact ih h.2 _ (cleanSegment_pushElement h.1 hclean)
  intro segment hsegment
  exact hkept [] (by simp) segment (List.mem_reverse.mp hsegment)

/-- The cleaned path, from the elements that are left of it. -/
theorem cleanPath_slash (l : List Char) :
    cleanPath (String.ofList ('/' :: l)) =
      if ('/' :: l).getLast? = some '/' ∧
          ['/'].intercalate (GoPath.cleanElements true (l.splitOn '/')) ≠ [] then
        String.ofList ('/' :: ['/'].intercalate (GoPath.cleanElements true (l.splitOn '/')) ++ ['/'])
      else
        String.ofList ('/' :: ['/'].intercalate (GoPath.cleanElements true (l.splitOn '/'))) := by
  unfold cleanPath
  rw [if_neg (by simp [String.ext_iff])]
  simp only [String.toList_ofList, List.head?_cons, if_true, clean_slash]
  simp [String.ext_iff, String.append_assoc]

theorem cleanSegments_intercalate
    {kept : List (List Char)}
    (h : ∀ segment ∈ kept, CleanSegment segment) :
    CleanSegments ((['/'].intercalate kept).splitOn '/') := by
  by_cases hne : kept = []
  · rw [hne]
    exact Or.inl rfl
  · rw [List.splitOn_intercalate '/' (fun s hs => (h s hs).2.2.2) hne]
    exact cleanSegments_of_forall hne h

theorem cleanSegments_intercalate_slash
    {kept : List (List Char)}
    (h : ∀ segment ∈ kept, CleanSegment segment)
    (hne : ['/'].intercalate kept ≠ []) :
    CleanSegments ((['/'].intercalate kept ++ ['/']).splitOn '/') := by
  have hkept : kept ≠ [] := by
    rintro rfl
    exact hne rfl
  rw [splitOn_append_slash, List.splitOn_intercalate '/' (fun s hs => (h s hs).2.2.2) hkept]
  exact (cleanSegments_append (by simp)).mpr ⟨h, Or.inl rfl⟩

theorem cleanPath_rootedPath_slash
    {kept : List (List Char)}
    (h : ∀ segment ∈ kept, CleanSegment segment) :
    cleanPath (String.ofList (rootedPath kept ++ ['/'])) =
      String.ofList (rootedPath kept ++ ['/']) := by
  by_cases hne : kept = []
  · subst hne
    decide
  · have heq := rootedPath_eq_intercalate hne
    have hnil : ['/'].intercalate kept ≠ [] := by
      intro hnil
      have hlast := getLast?_rootedPath hne h
      rw [heq, hnil] at hlast
      exact hlast rfl
    have hsplit : (['/'].intercalate kept ++ ['/']).splitOn '/' = kept ++ [[]] := by
      rw [splitOn_append_slash, List.splitOn_intercalate '/' (fun s hs => (h s hs).2.2.2) hne]
      rfl
    have hlast : ('/' :: (['/'].intercalate kept ++ ['/'])).getLast? = some '/' := by
      rw [← List.cons_append, List.getLast?_concat]
    rw [heq, List.cons_append, cleanPath_slash, hsplit, cleanElements_append_nil h,
      List.append_nil, cleanElements_of_forall h, if_pos ⟨hlast, hnil⟩]
    rfl

/-- The paths that cleaning leaves as they are. -/
theorem cleanPath_eq_iff (l : List Char) :
    cleanPath (String.ofList ('/' :: l)) = String.ofList ('/' :: l) ↔
      CleanSegments (l.splitOn '/') := by
  constructor
  · intro h
    have hparts : ∀ part ∈ l.splitOn '/', '/' ∉ part := fun _ hpart =>
      GoText.not_mem_of_mem_splitOn hpart
    have hkept := cleanSegment_cleanElements hparts
    rw [cleanPath_slash] at h
    split_ifs at h with hlast
    · have hl := String.ofList_injective h
      rw [List.cons_append, List.cons_inj_right] at hl
      rw [← hl]
      exact cleanSegments_intercalate_slash hkept hlast.2
    · have hl := String.ofList_injective h
      rw [List.cons_inj_right] at hl
      rw [← hl]
      exact cleanSegments_intercalate hkept
  · intro h
    have hl : '/' :: l = rootedPath (l.splitOn '/') := by
      rw [rootedPath_eq_intercalate (List.splitOn_ne_nil '/' l), List.intercalate_splitOn]
    obtain ⟨kept, hkept, ⟨hsplit, hne⟩ | hsplit⟩ := h.cases
    · rw [hl, hsplit]
      exact cleanPath_rootedPath hne hkept
    · rw [hl, hsplit, rootedPath, List.flatMap_append]
      exact cleanPath_rootedPath_slash hkept

end Cleaning

section Relative

/-- What cleaning keeps of a path that is not rooted, the last element first: names below a number
of parent elements. -/
def BelowParents (kept : List (List Char)) : Prop :=
  ∃ names k, kept = names ++ List.replicate k ['.', '.'] ∧ ∀ name ∈ names, CleanSegment name

theorem belowParents_pushElement
    {kept : List (List Char)} {element : List Char}
    (hslash : '/' ∉ element)
    (h : BelowParents kept) :
    BelowParents (GoPath.pushElement false kept element) := by
  obtain ⟨names, k, rfl, hnames⟩ := h
  unfold GoPath.pushElement
  by_cases hdrop : element = [] ∨ element = ['.']
  · rw [if_pos hdrop]
    exact ⟨names, k, rfl, hnames⟩
  rw [if_neg hdrop]
  rw [not_or] at hdrop
  by_cases hdots : element = ['.', '.']
  · rw [if_pos hdots]
    cases names with
    | nil =>
        refine ⟨[], k + 1, ?_, hnames⟩
        cases k <;> simp [hdots, List.replicate_succ]
    | cons last names =>
        obtain ⟨hlast, hnames⟩ := List.forall_mem_cons.mp hnames
        refine ⟨names, k, ?_, hnames⟩
        simp [hlast.2.2.1]
  · rw [if_neg hdots]
    exact ⟨element :: names, k, rfl,
      List.forall_mem_cons.mpr ⟨⟨hdrop.1, hdrop.2, hdots, hslash⟩, hnames⟩⟩

theorem belowParents_foldl
    {parts kept : List (List Char)}
    (hslash : ∀ part ∈ parts, '/' ∉ part)
    (h : BelowParents kept) :
    BelowParents (parts.foldl (GoPath.pushElement false) kept) := by
  induction parts generalizing kept with
  | nil =>
      exact h
  | cons first rest ih =>
      rw [List.forall_mem_cons] at hslash
      exact ih hslash.2 (belowParents_pushElement hslash.1 h)

/-- The elements that cleaning leaves of a path that is not rooted. -/
theorem cleanElements_relative
    {parts : List (List Char)}
    (hslash : ∀ part ∈ parts, '/' ∉ part) :
    ∃ names k, GoPath.cleanElements false parts = List.replicate k ['.', '.'] ++ names ∧
      ∀ name ∈ names, CleanSegment name := by
  have hempty : BelowParents [] := ⟨[], 0, rfl, by simp⟩
  obtain ⟨names, k, hkept, hnames⟩ := belowParents_foldl hslash hempty
  refine ⟨names.reverse, k, ?_, by simpa using hnames⟩
  rw [GoPath.cleanElements, hkept]
  simp

theorem clean_relative {l : List Char} (h : l.head? ≠ some '/') :
    GoPath.clean (String.ofList l) =
      if ['/'].intercalate (GoPath.cleanElements false (l.splitOn '/')) = [] then "."
      else String.ofList (['/'].intercalate (GoPath.cleanElements false (l.splitOn '/'))) := by
  have hrooted : (l.head? == some '/') = false := by simpa using h
  unfold GoPath.clean
  simp [hrooted]

/-- A path that starts with a parent element. -/
def StartsWithParent (l : List Char) : Prop :=
  l = ['.', '.'] ∨ ['.', '.', '/'] <+: l

theorem startsWithParent_intercalate (elements : List (List Char)) :
    StartsWithParent (['/'].intercalate (['.', '.'] :: elements)) := by
  cases elements with
  | nil =>
      exact Or.inl rfl
  | cons second rest =>
      right
      rw [List.intercalate_cons_cons]
      exact ⟨['/'].intercalate (second :: rest), by simp⟩

/-- The paths of plain names: not rooted, left as they are by cleaning, and neither the directory
itself nor a way out of it. -/
theorem forall_cleanSegment_iff (l : List Char) :
    (∀ segment ∈ l.splitOn '/', CleanSegment segment) ↔
      l.head? ≠ some '/' ∧ l ≠ ['.'] ∧ ¬StartsWithParent l ∧
        GoPath.clean (String.ofList l) = String.ofList l := by
  constructor
  · intro h
    have hhead : l.head? ≠ some '/' := by
      intro hslash
      obtain ⟨rest, rfl⟩ := List.head?_eq_some_iff.mp hslash
      have hsplit : ('/' :: rest).splitOn '/' = [] :: rest.splitOn '/' :=
        splitOn_append_slash [] rest
      exact (h [] (by simp [hsplit])).1 rfl
    refine ⟨hhead, ?_, ?_, ?_⟩
    · rintro rfl
      exact (h ['.'] (by decide)).2.1 rfl
    · have hparent : ['.', '.'] ∉ l.splitOn '/' := fun hmem => (h _ hmem).2.2.1 rfl
      rintro (rfl | ⟨rest, rfl⟩)
      · exact hparent (by decide)
      · apply hparent
        rw [show ['.', '.', '/'] ++ rest = ['.', '.'] ++ '/' :: rest from rfl,
          splitOn_append_slash]
        exact List.mem_append_left _ (by decide)
    · rw [clean_relative hhead, cleanElements_of_forall h, List.intercalate_splitOn, if_neg]
      rintro rfl
      exact (h [] (by simp)).1 rfl
  · rintro ⟨hhead, hdot, hparent, hclean⟩
    have hslash : ∀ part ∈ l.splitOn '/', '/' ∉ part := fun _ hpart =>
      GoText.not_mem_of_mem_splitOn hpart
    obtain ⟨names, k, hkept, hnames⟩ := cleanElements_relative hslash
    rw [clean_relative hhead] at hclean
    split_ifs at hclean with hempty
    · exact absurd (String.ofList_injective hclean).symm hdot
    · have hl := String.ofList_injective hclean
      rw [hkept] at hl hempty
      cases k with
      | zero =>
          have hne : names ≠ [] := by
            rintro rfl
            exact hempty rfl
          rw [← hl]
          simpa [List.splitOn_intercalate '/' (fun s hs => (hnames s hs).2.2.2) hne] using hnames
      | succ k =>
          rw [List.replicate_succ, List.cons_append] at hl
          exact absurd (hl ▸ startsWithParent_intercalate _) hparent

/-- The segments of a path begin with those of another one exactly if it is that path or lies
below it. -/
theorem splitOn_prefix_iff (front l : List Char) :
    front.splitOn '/' <+: l.splitOn '/' ↔ l = front ∨ front ++ ['/'] <+: l := by
  constructor
  · rintro ⟨rest, hrest⟩
    have hinj (l' : List Char) (h : l'.splitOn '/' = l.splitOn '/') : l = l' := by
      have hjoined := congrArg ['/'].intercalate h
      rw [List.intercalate_splitOn, List.intercalate_splitOn] at hjoined
      exact hjoined.symm
    by_cases hnil : rest = []
    · left
      rw [hnil, List.append_nil] at hrest
      exact hinj front hrest
    · right
      have hslash : ∀ piece ∈ rest, '/' ∉ piece := fun piece hpiece =>
        GoText.not_mem_of_mem_splitOn (hrest ▸ List.mem_append_right _ hpiece)
      rw [hinj (front ++ '/' :: ['/'].intercalate rest)
        (by rw [splitOn_append_slash, List.splitOn_intercalate '/' hslash hnil, hrest])]
      exact ⟨['/'].intercalate rest, by simp⟩
  · rintro (rfl | ⟨rest, rfl⟩)
    · exact List.prefix_refl _
    · rw [List.append_assoc, List.singleton_append, splitOn_append_slash]
      exact List.prefix_append _ _

end Relative

section Encodings

/-- A segment whose value is clean is clean. -/
theorem cleanSegment_of_unescape
    {e d : List Char}
    (hslash : '/' ∉ e) (hne : e ≠ [])
    (h : unescape e = some d)
    (hd : CleanSegments (d.splitOn '/')) :
    CleanSegment e := by
  have hsame (hplain : unescape e = some e) : CleanSegment e := by
    obtain rfl := Option.some.inj (h.symm.trans hplain)
    rw [splitOn_of_not_mem hslash] at hd
    exact hd.resolve_left hne
  refine ⟨hne, ?_, ?_, hslash⟩
  · rintro rfl
    exact (hsame rfl).2.1 rfl
  · rintro rfl
    exact (hsame rfl).2.2.1 rfl

/-- Segments whose values make a clean path are clean. -/
theorem cleanSegments_of_unescape
    {parts decoded : List (List Char)}
    (hslash : ∀ part ∈ parts, '/' ∉ part)
    (hne : parts ≠ [])
    (h : parts.mapM unescape = some decoded)
    (hclean : CleanSegments ((['/'].intercalate decoded).splitOn '/')) :
    CleanSegments parts := by
  induction parts generalizing decoded with
  | nil =>
      exact absurd rfl hne
  | cons first rest ih =>
      simp only [List.mapM_cons, Option.pure_def, Option.bind_eq_bind, Option.bind_eq_some_iff,
        Option.some.injEq] at h
      obtain ⟨d, hd, ds, hds, rfl⟩ := h
      rw [List.forall_mem_cons] at hslash
      cases rest with
      | nil =>
          obtain rfl := Option.some.inj hds
          by_cases hempty : first = []
          · exact Or.inl hempty
          · exact Or.inr (cleanSegment_of_unescape hslash.1 hempty hd (by simpa using hclean))
      | cons second rest =>
          have hds' : ds ≠ [] := by
            rintro rfl
            simp [Option.bind_eq_some_iff] at hds
          have hjoin : ['/'].intercalate (d :: ds) = d ++ '/' :: ['/'].intercalate ds := by
            rw [List.intercalate_cons_of_ne_nil hds']
            simp
          rw [hjoin, splitOn_append_slash,
            cleanSegments_append (List.splitOn_ne_nil '/' _)] at hclean
          refine ⟨cleanSegment_of_unescape hslash.1 ?_ hd ?_, ih hslash.2 (by simp) hds hclean.2⟩
          · rintro rfl
            obtain rfl := Option.some.inj hd
            exact (hclean.1 [] (by simp)).1 rfl
          · exact cleanSegments_of_forall (List.splitOn_ne_nil '/' d) hclean.1

/-- Every encoding of a clean path is clean. -/
theorem cleanPath_of_unescape
    {escaped path : List Char}
    (h : unescape ('/' :: escaped) = some path)
    (hclean : cleanPath (String.ofList path) = String.ofList path) :
    cleanPath (String.ofList ('/' :: escaped)) = String.ofList ('/' :: escaped) := by
  have hne := List.splitOn_ne_nil '/' escaped
  have hrooted : '/' :: escaped = rootedPath (escaped.splitOn '/') := by
    rw [rootedPath_eq_intercalate hne, List.intercalate_splitOn]
  rw [hrooted] at h
  obtain ⟨decoded, hdecoded, rfl⟩ := unescape_rootedPath h
  have hdecoded' : decoded ≠ [] := by
    rintro rfl
    obtain ⟨first, rest, hparts⟩ := List.exists_cons_of_ne_nil hne
    rw [hparts] at hdecoded
    simp [Option.bind_eq_some_iff] at hdecoded
  rw [rootedPath_eq_intercalate hdecoded', cleanPath_eq_iff] at hclean
  rw [cleanPath_eq_iff]
  exact cleanSegments_of_unescape (fun _ hpart => GoText.not_mem_of_mem_splitOn hpart) hne
    hdecoded hclean

end Encodings

section Requests

/-- A clean address, as a server reads it. -/
structure URL.Clean (u : URL) : Prop where
  rooted : u.path.toList.head? = some '/'
  raw_rooted : u.rawPath = "" ∨ u.rawPath.toList.head? = some '/'
  clean : cleanPath u.path = u.path

theorem escape_append (l rest : List Char) :
    escape (l ++ rest) = escape l ++ escape rest :=
  List.flatMap_append

theorem escape_slash (l : List Char) :
    escape ('/' :: l) = '/' :: escape l :=
  rfl

theorem escape_rootedPath (segments : List (List Char)) :
    escape (rootedPath segments) = rootedPath (segments.map escape) := by
  induction segments with
  | nil =>
      rfl
  | cons first rest ih =>
      rw [rootedPath, List.flatMap_cons, ← rootedPath, escape_append, escape_slash, ih]
      rfl

theorem not_mem_escape
    {l : List Char} (h : '/' ∉ l) :
    '/' ∉ escape l := by
  intro hslash
  rcases escapeUnless_chars hslash with ⟨hmem, _⟩ | hpercent | hhex
  · exact h hmem
  · exact absurd hpercent (by decide)
  · exact absurd hhex (by decide)

theorem URL.clean_rootedPath
    {segments : List (List Char)}
    (hne : segments ≠ [])
    (h : ∀ segment ∈ segments, CleanSegment segment) :
    URL.Clean ⟨String.ofList (rootedPath segments), ""⟩ where
  rooted := by simp [rootedPath_eq_intercalate hne]
  raw_rooted := Or.inl rfl
  clean := cleanPath_rootedPath hne h

variable {u : URL}

/-- How the path of a clean address is written. -/
theorem URL.Clean.escapedPath_eq (h : u.Clean) :
    ∃ l, u.escapedPath.toList = '/' :: l := by
  have hescape : ∃ l, (escape u.path.toList) = '/' :: l := by
    obtain ⟨l, hl⟩ := List.head?_eq_some_iff.mp h.rooted
    exact ⟨escape l, by rw [hl, escape_slash]⟩
  unfold URL.escapedPath
  split_ifs with hraw hstar
  · simp only [Bool.and_eq_true, decide_eq_true_eq] at hraw
    exact List.head?_eq_some_iff.mp (h.raw_rooted.resolve_left hraw.1.1)
  · have hrooted := h.rooted
    rw [hstar] at hrooted
    exact absurd hrooted (by decide)
  · simpa using hescape

theorem URL.Clean.escapedPath_head (h : u.Clean) :
    u.escapedPath.toList.head? = some '/' := by
  obtain ⟨l, hl⟩ := h.escapedPath_eq
  rw [hl, List.head?_cons]

theorem URL.Clean.escapedPath_clean (h : u.Clean) :
    cleanPath u.escapedPath = u.escapedPath := by
  obtain ⟨l, hl⟩ := h.escapedPath_eq
  have hdecoded := unescape_escapedPath u
  rw [hl] at hdecoded
  have hclean := cleanPath_of_unescape hdecoded (by simpa using h.clean)
  rwa [← hl, String.ofList_toList] at hclean

/-- The address below a base path. -/
def URL.below (base : String) (u : URL) : URL where
  path := base ++ u.path
  rawPath := if u.rawPath = "" then "" else base ++ u.rawPath

@[simp]
theorem URL.below_empty (u : URL) :
    u.below "" = u := by
  obtain ⟨path, rawPath⟩ := u
  by_cases hraw : rawPath = ""
  · simp [URL.below, hraw]
  · simp [URL.below, hraw]

theorem stripPrefix_below (base : String) (u : URL) :
    stripPrefix base (u.below base) = some u := by
  obtain ⟨path, rawPath⟩ := u
  unfold stripPrefix URL.below
  by_cases hbase : base = ""
  · subst hbase
    simp
  · by_cases hraw : rawPath = ""
    · simp [hbase, hraw, GoText.hasPrefix, List.isPrefixOf_iff_prefix]
    · simp [hbase, hraw, GoText.hasPrefix, List.isPrefixOf_iff_prefix]

section Below

variable {segments : List (List Char)}

/-- Below clean segments a clean address is clean. -/
theorem URL.Clean.below
    (h : u.Clean)
    (hsegments : ∀ segment ∈ segments, CleanSegment segment) :
    (u.below (String.ofList (rootedPath segments))).Clean := by
  by_cases hne : segments = []
  · subst hne
    simpa [rootedPath] using h
  have hhead (rest : List Char) : (rootedPath segments ++ rest).head? = some '/' := by
    rw [rootedPath_eq_intercalate hne]
    rfl
  obtain ⟨l, hl⟩ := List.head?_eq_some_iff.mp h.rooted
  have hclean := h.clean
  rw [← String.ofList_toList (s := u.path), hl, cleanPath_eq_iff] at hclean
  refine ⟨by simp [URL.below, hhead], ?_, ?_⟩
  · by_cases hraw : u.rawPath = ""
    · exact Or.inl (by simp [URL.below, hraw])
    · exact Or.inr (by simp [URL.below, hraw, hhead])
  · have hpath : (u.below (String.ofList (rootedPath segments))).path =
        String.ofList ('/' :: (['/'].intercalate segments ++ '/' :: l)) := by
      rw [← List.cons_append, ← rootedPath_eq_intercalate hne, ← hl]
      simp [URL.below]
    rw [hpath, cleanPath_eq_iff, splitOn_append_slash,
      List.splitOn_intercalate '/' (fun s hs => (hsegments s hs).2.2.2) hne]
    exact (cleanSegments_append (List.splitOn_ne_nil '/' l)).mpr ⟨hsegments, hclean⟩

/-- The base path is written as it is, or in the default encoding. -/
theorem URL.Clean.escapedPath_below
    (h : u.Clean) (hne : segments ≠ []) :
    ∃ l, (u.below (String.ofList (rootedPath segments))).escapedPath.toList =
          rootedPath segments ++ '/' :: l ∧ u.rawPath ≠ "" ∨
      (u.below (String.ofList (rootedPath segments))).escapedPath.toList =
          rootedPath (segments.map escape) ++ '/' :: l := by
  unfold URL.escapedPath
  split_ifs with hraw hstar
  · have hraw' : u.rawPath ≠ "" := by
      rintro hempty
      simp [URL.below, hempty] at hraw
    obtain ⟨l, hl⟩ := List.head?_eq_some_iff.mp (h.raw_rooted.resolve_left hraw')
    exact ⟨l, Or.inl ⟨by simp [URL.below, hraw', hl], hraw'⟩⟩
  · have hhead := congrArg (fun s : String => s.toList.head?) hstar
    simp [URL.below, rootedPath_eq_intercalate hne] at hhead
  · obtain ⟨l, hl⟩ := List.head?_eq_some_iff.mp h.rooted
    refine ⟨escape l, Or.inr ?_⟩
    simp [URL.below, hl, escape_append, escape_rootedPath, escape_slash]

end Below

end Requests

end GoUrl
end GatewayRuntime
