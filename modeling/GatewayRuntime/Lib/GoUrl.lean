import GatewayRuntime.Lib.GoNet
import GatewayRuntime.Lib.GoPath

/-!
# Paths of URLs in the Go standard library

The path of a `url.URL` is kept twice: decoded in `Path`, and as it was written in
`RawPath` when that is not the default encoding.  `EscapedPath` gives back an
encoding of `Path`, `http.StripPrefix` takes a prefix off both.

A Go string is a sequence of bytes.  A path is a string here whose runes stand for
its bytes, so a byte is escaped by the two digits of its rune.

`escapeAll` escapes every byte.  A path whose segments are written that way is
clean and decodes to the segments, whatever they are.
-/

namespace GatewayRuntime
namespace GoUrl

open GoNet

section Escaping

/-- The decoded text; `none` when an escape is malformed. -/
def unescape : List Char → Option (List Char)
  | [] => some []
  | '%' :: a :: b :: rest =>
      if isHexDigit a && isHexDigit b then
        (unescape rest).map fun l => Char.ofNat (hexDigit a * 16 + hexDigit b) :: l
      else none
  | '%' :: _ => none
  | c :: rest => (unescape rest).map fun l => c :: l

def upperHex (n : Nat) : Char :=
  if n < 10 then Char.ofNat (48 + n) else Char.ofNat (55 + n)

/-- The escape of a byte. -/
def escapeByte (c : Char) : List Char :=
  ['%', upperHex (c.toNat / 16), upperHex (c.toNat % 16)]

/-- The text with every byte escaped that is not to be kept. -/
def escapeUnless (keep : Char → Bool) (l : List Char) : List Char :=
  l.flatMap fun c => if keep c || decide (256 ≤ c.toNat) then [c] else escapeByte c

/-- The bytes that stay as they are in a path. -/
def pathByte (c : Char) : Bool :=
  c.isAlphanum || "-_.~$&+,/:;=@".toList.contains c

/-- The default encoding of a path. -/
def escape (l : List Char) : List Char :=
  escapeUnless pathByte l

/-- The text with every byte escaped. -/
def escapeAll (l : List Char) : List Char :=
  escapeUnless (fun _ => false) l

/-- `validEncoded` for a path. -/
def validEncoded (l : List Char) : Bool :=
  l.all fun c =>
    "!$&'()*+,;=:@[]%".toList.contains c || pathByte c || decide (256 ≤ c.toNat)

theorem unescape_cons_of_ne
    {c : Char} (h : c ≠ '%') (l : List Char) :
    unescape (c :: l) = (unescape l).map fun l => c :: l := by
  conv_lhs => unfold unescape
  split
  · simp_all
  · simp_all
  · simp_all
  · next h' =>
      obtain ⟨rfl, rfl⟩ := List.cons.inj h'
      rfl

theorem ne_nil_of_unescape
    {l d : List Char} (hne : l ≠ []) (h : unescape l = some d) :
    d ≠ [] := by
  rintro rfl
  unfold unescape at h
  split at h
  · exact hne rfl
  · split_ifs at h
    simp at h
  · simp at h
  · simp at h

theorem hexDigit_upperHex :
    ∀ n < 16, isHexDigit (upperHex n) = true ∧ hexDigit (upperHex n) = n := by
  decide

theorem unescape_escapeByte
    {c : Char} (h : c.toNat < 256) (l : List Char) :
    unescape (escapeByte c ++ l) = (unescape l).map fun l => c :: l := by
  obtain ⟨hhigh, hhigh'⟩ := hexDigit_upperHex (c.toNat / 16) (by omega)
  obtain ⟨hlow, hlow'⟩ := hexDigit_upperHex (c.toNat % 16) (by omega)
  have hc : Char.ofNat (c.toNat / 16 * 16 + c.toNat % 16) = c := by
    rw [Nat.div_add_mod']
    exact Char.ofNat_toNat c
  rw [escapeByte, List.cons_append, List.cons_append, List.cons_append, List.nil_append, unescape]
  simp only [hhigh, hlow, hhigh', hlow', hc, Bool.and_self, if_true]

/-- An encoding that escapes the percent sign is undone. -/
theorem unescape_escapeUnless_append
    {keep : Char → Bool} (hkeep : keep '%' = false) (l rest : List Char) :
    unescape (escapeUnless keep l ++ rest) = (unescape rest).map fun r => l ++ r := by
  induction l with
  | nil =>
      simp [escapeUnless]
  | cons c l ih =>
      have hcons : escapeUnless keep (c :: l) ++ rest =
          (if keep c || decide (256 ≤ c.toNat) then [c] else escapeByte c) ++
            (escapeUnless keep l ++ rest) := by
        simp [escapeUnless]
      have hpercent : c = '%' → ¬ (keep c || decide (256 ≤ c.toNat)) = true := by
        rintro rfl
        simp [hkeep]
      rw [hcons]
      split_ifs with hkept
      · rw [List.singleton_append, unescape_cons_of_ne fun h => hpercent h hkept, ih]
        simp [Function.comp_def]
      · have hbyte : c.toNat < 256 := by
          simp only [Bool.or_eq_true, decide_eq_true_eq, not_or] at hkept
          omega
        rw [unescape_escapeByte hbyte, ih]
        simp [Function.comp_def]

theorem unescape_escapeUnless
    {keep : Char → Bool} (hkeep : keep '%' = false) (l : List Char) :
    unescape (escapeUnless keep l) = some l := by
  have h := unescape_escapeUnless_append hkeep l []
  simpa [unescape] using h

/-- Decoding goes segment by segment. -/
theorem unescape_append_slash (l rest : List Char) :
    unescape (l ++ '/' :: rest) =
      (unescape l).bind fun d => (unescape rest).map fun r => d ++ '/' :: r := by
  fun_induction unescape l with
  | case1 =>
      rw [List.nil_append, unescape_cons_of_ne (by decide)]
      simp
  | case2 a b l hhex ih =>
      rw [List.cons_append, List.cons_append, List.cons_append, unescape, if_pos hhex, ih]
      cases unescape l <;> cases unescape rest <;> rfl
  | case3 a b l hhex =>
      rw [List.cons_append, List.cons_append, List.cons_append, unescape, if_neg hhex]
      rfl
  | case4 l hshort =>
      have hslash : isHexDigit '/' = false := by decide
      match l with
      | [] =>
          cases rest with
          | nil => rfl
          | cons b rest => simp [unescape, hslash]
      | [a] =>
          simp [unescape, hslash]
      | a :: b :: l =>
          exact absurd rfl (hshort a b l)
  | case5 c l hpercent hne ih =>
      rw [List.cons_append, unescape_cons_of_ne hne, ih]
      cases unescape l <;> cases unescape rest <;> rfl

/-- The characters of an encoding: those that are kept, and those of the escapes. -/
theorem escapeUnless_chars
    {keep : Char → Bool} {l : List Char} {c : Char}
    (h : c ∈ escapeUnless keep l) :
    c ∈ l ∧ (keep c || decide (256 ≤ c.toNat)) = true ∨ c = '%' ∨ isHexDigit c = true := by
  obtain ⟨b, hb, hc⟩ := List.mem_flatMap.mp h
  split_ifs at hc with hkept
  · obtain rfl := List.mem_singleton.mp hc
    exact Or.inl ⟨hb, hkept⟩
  · right
    simp only [Bool.or_eq_true, decide_eq_true_eq, not_or] at hkept
    have hhigh := (hexDigit_upperHex (b.toNat / 16) (by omega)).1
    have hlow := (hexDigit_upperHex (b.toNat % 16) (by omega)).1
    simp only [escapeByte, List.mem_cons, List.not_mem_nil, or_false] at hc
    rcases hc with rfl | rfl | rfl
    · exact Or.inl rfl
    · exact Or.inr hhigh
    · exact Or.inr hlow

theorem escapeAll_chars
    {l : List Char} {c : Char}
    (h : c ∈ escapeAll l) :
    c = '%' ∨ isHexDigit c = true ∨ 256 ≤ c.toNat := by
  rcases escapeUnless_chars h with ⟨_, hbig⟩ | hpercent | hhex
  · exact Or.inr (Or.inr (by simpa using hbig))
  · exact Or.inl hpercent
  · exact Or.inr (Or.inl hhex)

theorem not_mem_escapeAll
    {c : Char} (l : List Char)
    (h : c ≠ '%' ∧ isHexDigit c = false ∧ c.toNat < 256) :
    c ∉ escapeAll l := by
  intro hc
  rcases escapeAll_chars hc with h' | h' | h'
  · exact h.1 h'
  · rw [h.2.1] at h'
    contradiction
  · omega

theorem escapeAll_ne_nil
    {l : List Char} (h : l ≠ []) :
    escapeAll l ≠ [] := by
  intro hnil
  have hun : unescape (escapeAll l) = some l := unescape_escapeUnless rfl l
  rw [hnil] at hun
  exact h (Option.some.inj hun).symm

theorem isHexDigit_pathByte
    {c : Char} (h : isHexDigit c = true) :
    pathByte c = true := by
  have hall : ∀ n < 128, isHexDigit (Char.ofNat n) = true → pathByte (Char.ofNat n) = true := by
    decide +kernel
  have hlt : c.toNat < 128 := by
    simp only [isHexDigit, Char.isDigit, Bool.or_eq_true, Bool.and_eq_true, decide_eq_true_eq,
      ge_iff_le, Char.le_def, UInt32.le_iff_toNat_le] at h
    simp only [Char.toNat]
    rcases h with (h | h) | h
    · exact lt_of_le_of_lt h.2 (by decide)
    · exact lt_of_le_of_lt h.2 (by decide)
    · exact lt_of_le_of_lt h.2 (by decide)
  have hc := hall c.toNat hlt
  rw [Char.ofNat_toNat] at hc
  exact hc h

end Escaping

section Rooted

/-- The path with the given segments. -/
def rootedPath (segments : List (List Char)) : List Char :=
  segments.flatMap fun segment => '/' :: segment

theorem rootedPath_eq_intercalate
    {segments : List (List Char)} (h : segments ≠ []) :
    rootedPath segments = '/' :: ['/'].intercalate segments := by
  induction segments with
  | nil =>
      contradiction
  | cons first rest ih =>
      cases rest with
      | nil =>
          simp [rootedPath, List.intercalate]
      | cons second rest =>
          rw [rootedPath, List.flatMap_cons, ← rootedPath, ih (by simp)]
          simp [List.intercalate]

/-- The segments of a rooted path are found again at its slashes. -/
theorem splitOn_rootedPath
    {segments : List (List Char)}
    (hne : segments ≠ [])
    (h : ∀ segment ∈ segments, '/' ∉ segment) :
    (rootedPath segments).tail.splitOn '/' = segments := by
  rw [rootedPath_eq_intercalate hne, List.tail_cons]
  exact List.splitOn_intercalate '/' h hne

theorem count_rootedPath
    {segments : List (List Char)}
    (h : ∀ segment ∈ segments, '/' ∉ segment) :
    (rootedPath segments).count '/' = segments.length := by
  induction segments with
  | nil =>
      rfl
  | cons first rest ih =>
      have hfirst : first.count '/' = 0 := List.count_eq_zero.mpr (h first List.mem_cons_self)
      rw [rootedPath, List.flatMap_cons, ← rootedPath, List.count_append, List.count_cons_self,
        hfirst, ih fun s hs => h s (List.mem_cons_of_mem _ hs), List.length_cons]
      omega

/-- Decoding a rooted path decodes its segments. -/
theorem unescape_rootedPath
    {segments : List (List Char)} {path : List Char}
    (h : unescape (rootedPath segments) = some path) :
    ∃ decoded, segments.mapM unescape = some decoded ∧ path = rootedPath decoded := by
  induction segments generalizing path with
  | nil =>
      exact ⟨[], rfl, (Option.some.inj h).symm⟩
  | cons first rest ih =>
      rw [rootedPath, List.flatMap_cons, List.cons_append, unescape_cons_of_ne (by decide),
        ← rootedPath] at h
      cases rest with
      | nil =>
          simp only [rootedPath, List.flatMap_nil, List.append_nil, Option.map_eq_some_iff] at h
          obtain ⟨d, hd, rfl⟩ := h
          exact ⟨[d], by simp [hd], by simp [rootedPath]⟩
      | cons second rest =>
          have htail : rootedPath (second :: rest) = '/' :: (rootedPath (second :: rest)).tail := by
            simp [rootedPath]
          rw [htail, unescape_append_slash] at h
          simp only [Option.map_eq_some_iff, Option.bind_eq_some_iff] at h
          obtain ⟨_, ⟨d, hd, r, hr, rfl⟩, rfl⟩ := h
          have hrest : unescape (rootedPath (second :: rest)) = some ('/' :: r) := by
            rw [htail, unescape_cons_of_ne (by decide), hr]
            rfl
          obtain ⟨decoded, hdecoded, hpath⟩ := ih hrest
          refine ⟨d :: decoded, ?_, ?_⟩
          · rw [List.mapM_cons, hd, hdecoded]
            rfl
          · rw [rootedPath, List.flatMap_cons, ← rootedPath, ← hpath]
            rfl

theorem unescape_rootedPath_escapeAll (segments : List (List Char)) :
    unescape (rootedPath (segments.map escapeAll)) = some (rootedPath segments) := by
  induction segments with
  | nil =>
      rfl
  | cons first rest ih =>
      rw [List.map_cons, rootedPath, List.flatMap_cons, List.cons_append,
        unescape_cons_of_ne (by decide), ← rootedPath, escapeAll,
        unescape_escapeUnless_append rfl, ih]
      rfl

end Rooted

section Cleaning

/-- `cleanPath` of the server's mux. -/
def cleanPath (p : String) : String :=
  if p = "" then "/"
  else
    let p := if p.toList.head? = some '/' then p else "/" ++ p
    let np := GoPath.clean p
    if p.toList.getLast? = some '/' && np != "/" then np ++ "/" else np

/-- Segments that cleaning keeps. -/
def CleanSegment (segment : List Char) : Prop :=
  segment ≠ [] ∧ segment ≠ ['.'] ∧ segment ≠ ['.', '.'] ∧ '/' ∉ segment

instance (segment : List Char) : Decidable (CleanSegment segment) := by
  unfold CleanSegment
  infer_instance

theorem foldl_pushElement
    {rooted : Bool} {segments : List (List Char)}
    (h : ∀ segment ∈ segments, CleanSegment segment)
    (kept : List (List Char)) :
    segments.foldl (GoPath.pushElement rooted) kept = segments.reverse ++ kept := by
  induction segments generalizing kept with
  | nil =>
      rfl
  | cons first rest ih =>
      obtain ⟨hne, hdot, hdots, _⟩ := h first List.mem_cons_self
      have hpush : GoPath.pushElement rooted kept first = first :: kept := by
        simp [GoPath.pushElement, hne, hdot, hdots]
      rw [List.foldl_cons, hpush, ih fun s hs => h s (List.mem_cons_of_mem _ hs)]
      simp

theorem getLast?_rootedPath
    {segments : List (List Char)}
    (hne : segments ≠ [])
    (h : ∀ segment ∈ segments, CleanSegment segment) :
    (rootedPath segments).getLast? ≠ some '/' := by
  obtain ⟨init, last, rfl⟩ := (List.eq_nil_or_concat' segments).resolve_left hne
  obtain ⟨hlast, _, _, hslash⟩ := h last (by simp)
  rw [rootedPath, List.flatMap_append, List.flatMap_singleton, List.getLast?_append,
    List.getLast?_cons, List.getLast?_eq_some_getLast hlast]
  simp only [Option.getD_some, Option.some_or, ne_eq, Option.some.injEq]
  intro hlast'
  exact hslash (hlast' ▸ List.getLast_mem hlast)

theorem cleanElements_of_forall
    {rooted : Bool} {segments : List (List Char)}
    (h : ∀ segment ∈ segments, CleanSegment segment) :
    GoPath.cleanElements rooted segments = segments := by
  simp [GoPath.cleanElements, foldl_pushElement h]

theorem cleanElements_append_nil
    {segments : List (List Char)}
    (h : ∀ segment ∈ segments, CleanSegment segment) (rest : List (List Char)) :
    GoPath.cleanElements true (segments ++ [] :: rest) =
      GoPath.cleanElements true (segments ++ rest) := by
  simp [GoPath.cleanElements, List.foldl_append, foldl_pushElement h, GoPath.pushElement]

theorem splitOn_append_slash (l rest : List Char) :
    (l ++ '/' :: rest).splitOn '/' = l.splitOn '/' ++ rest.splitOn '/' :=
  List.splitOnP_append_cons l rest (by simp)

theorem clean_slash (l : List Char) :
    GoPath.clean (String.ofList ('/' :: l)) =
      String.ofList ('/' :: ['/'].intercalate (GoPath.cleanElements true (l.splitOn '/'))) := by
  have hsplit : ('/' :: l).splitOn '/' = [] :: l.splitOn '/' := splitOn_append_slash [] l
  have hrooted : GoPath.cleanElements true ([] :: l.splitOn '/') =
      GoPath.cleanElements true (l.splitOn '/') :=
    rfl
  unfold GoPath.clean
  simp [hsplit, hrooted]

theorem clean_rootedPath
    {segments : List (List Char)}
    (hne : segments ≠ [])
    (h : ∀ segment ∈ segments, CleanSegment segment) :
    GoPath.clean (String.ofList (rootedPath segments)) = String.ofList (rootedPath segments) := by
  rw [rootedPath_eq_intercalate hne, clean_slash,
    List.splitOn_intercalate '/' (fun s hs => (h s hs).2.2.2) hne, cleanElements_of_forall h]

/-- A rooted path of clean segments is clean. -/
theorem cleanPath_rootedPath
    {segments : List (List Char)}
    (hne : segments ≠ [])
    (h : ∀ segment ∈ segments, CleanSegment segment) :
    cleanPath (String.ofList (rootedPath segments)) = String.ofList (rootedPath segments) := by
  have heq := rootedPath_eq_intercalate hne
  have hlast := getLast?_rootedPath hne h
  unfold cleanPath
  rw [if_neg (by simp [String.ext_iff, heq])]
  simp only [String.toList_ofList, show (rootedPath segments).head? = some '/' by simp [heq],
    if_true, clean_rootedPath hne h, hlast, decide_false, Bool.false_and]
  rfl

theorem cleanSegment_escapeAll
    {l : List Char} (h : l ≠ []) :
    CleanSegment (escapeAll l) := by
  have hdot : '.' ∉ escapeAll l := not_mem_escapeAll l (by decide)
  refine ⟨escapeAll_ne_nil h, ?_, ?_, not_mem_escapeAll l (by decide)⟩
  · intro heq
    simp [heq] at hdot
  · intro heq
    simp [heq] at hdot

end Cleaning

section Parsing

/-- A text that starts with a scheme, or with the colon of a missing one. -/
def hasScheme (l : List Char) : Bool :=
  match l with
  | ':' :: _ => true
  | c :: rest =>
      c.isAlpha &&
        (rest.dropWhile fun c => c.isAlphanum || "+-.".toList.contains c).head? == some ':'
  | [] => false

end Parsing

section Urls

/-- The path of a `url.URL`. -/
structure URL where
  path : String
  rawPath : String
deriving DecidableEq

/-- `URL.EscapedPath`. -/
def URL.escapedPath (u : URL) : String :=
  if u.rawPath ≠ "" && validEncoded u.rawPath.toList &&
      decide (unescape u.rawPath.toList = some u.path.toList) then u.rawPath
  else if u.path = "*" then "*"
  else String.ofList (escape u.path.toList)

/-- The address that `http.StripPrefix` passes on; `none` when it answers that
there is no such page. -/
def stripPrefix (pre : String) (u : URL) : Option URL :=
  if pre = "" then some u
  else if GoText.hasPrefix u.path pre && (u.rawPath = "" || GoText.hasPrefix u.rawPath pre) then
    some ⟨String.ofList (u.path.toList.drop pre.toList.length),
      String.ofList (u.rawPath.toList.drop pre.toList.length)⟩
  else none

/-- The escaped path is an encoding of the path. -/
theorem unescape_escapedPath (u : URL) :
    unescape u.escapedPath.toList = some u.path.toList := by
  unfold URL.escapedPath
  split_ifs with hraw hstar
  · simp only [Bool.and_eq_true, decide_eq_true_eq] at hraw
    exact hraw.2
  · rw [hstar]
    rfl
  · rw [String.toList_ofList]
    exact unescape_escapeUnless (by decide) _

theorem escapedPath_of_default
    {u : URL} (hraw : u.rawPath = "") (hstar : u.path ≠ "*") :
    u.escapedPath = String.ofList (escape u.path.toList) := by
  simp [URL.escapedPath, hraw, hstar]

/-- A request to a path whose segments are written with every byte escaped. -/
def URL.ofSegments (segments : List (List Char)) : URL where
  path := String.ofList (rootedPath segments)
  rawPath := String.ofList (rootedPath (segments.map escapeAll))

theorem validEncoded_rootedPath_escapeAll (segments : List (List Char)) :
    validEncoded (rootedPath (segments.map escapeAll)) = true := by
  rw [validEncoded, List.all_eq_true]
  intro c hc
  obtain ⟨segment, hsegment, hc⟩ := List.mem_flatMap.mp hc
  obtain ⟨l, _, rfl⟩ := List.mem_map.mp hsegment
  rcases List.mem_cons.mp hc with rfl | hc
  · decide
  · rcases escapeAll_chars hc with rfl | hhex | hbig
    · decide
    · simp [isHexDigit_pathByte hhex]
    · simp [hbig]

theorem escapedPath_ofSegments
    {segments : List (List Char)} (hne : segments ≠ []) :
    (URL.ofSegments segments).escapedPath =
      String.ofList (rootedPath (segments.map escapeAll)) := by
  have hraw : String.ofList (rootedPath (segments.map escapeAll)) ≠ "" := by
    rw [rootedPath_eq_intercalate (by simpa using hne)]
    simp [String.ext_iff]
  unfold URL.escapedPath URL.ofSegments
  simp only [String.toList_ofList, validEncoded_rootedPath_escapeAll,
    unescape_rootedPath_escapeAll, hraw, ne_eq, not_false_eq_true, decide_true, Bool.and_self,
    if_true]

/-- What remains of the path after the prefix. -/
theorem path_of_stripPrefix
    {pre : String} {u v : URL}
    (h : stripPrefix pre u = some v) :
    u.path.toList = pre.toList ++ v.path.toList := by
  unfold stripPrefix at h
  split_ifs at h with hempty hhas
  · obtain rfl := Option.some.inj h
    simp [hempty]
  · obtain rfl := Option.some.inj h
    simp only [Bool.and_eq_true, GoText.hasPrefix, List.isPrefixOf_iff_prefix] at hhas
    obtain ⟨rest, hrest⟩ := hhas.1
    rw [String.toList_ofList, ← hrest]
    simp

end Urls

end GoUrl
end GatewayRuntime
