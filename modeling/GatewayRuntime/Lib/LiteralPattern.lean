import GatewayRuntime.Lib.PrefixPattern

/-!
# Patterns without wildcards

A text `METHOD /segment/segment` of clean segments is a pattern that matches one
path.  Different texts of this kind are different patterns, so a table of them is
registered without a panic when no text occurs twice.
-/

namespace GatewayRuntime
namespace ServeMux

open GoUrl

/-- A text with a method and clean segments, without wildcards and escapes. -/
def isLiteral (s : String) : Bool :=
  match s.toList.span fun c => !isBlank c with
  | (method, ' ' :: '/' :: rest) =>
      !method.isEmpty && method.all GoText.isTokenRune && (rest.splitOn '/').all fun segment =>
        decide (CleanSegment segment) && !segment.contains '{' && !segment.contains '%'
  | _ => false

theorem parseSegments_literal
    {parts seen : List (List Char)}
    (hparts : ∀ part ∈ parts, part ≠ [])
    (hbrace : ∀ part ∈ parts, '{' ∉ part) :
    parseSegments seen parts = some (parts.map fun part => .lit (pathUnescape part), false) := by
  induction parts with
  | nil =>
      rfl
  | cons part rest ih =>
      rw [List.forall_mem_cons] at hparts hbrace
      rw [parseSegments_lit hbrace.1 hparts.1, ih hparts.2 hbrace.2]
      rfl

/-- The pattern of a literal text. -/
theorem parsePattern_literal
    {s : String} (h : isLiteral s = true) :
    ∃ method rest pattern, s.toList = method ++ ' ' :: '/' :: rest ∧
      parsePattern s = some pattern ∧ pattern.method = String.ofList method ∧
      pattern.segs = (rest.splitOn '/').map fun part => .lit (String.ofList part) := by
  unfold isLiteral at h
  split at h
  · rename_i method rest hspan
    have htext : s.toList = method ++ ' ' :: '/' :: rest := by
      have happend := List.takeWhile_append_dropWhile (p := fun c => !isBlank c) (l := s.toList)
      rw [List.span_eq_takeWhile_dropWhile, Prod.mk.injEq] at hspan
      rw [← happend, hspan.1, hspan.2]
    simp only [Bool.and_eq_true, Bool.not_eq_true', List.isEmpty_eq_false_iff, List.all_eq_true,
      decide_eq_true_eq, List.contains_eq_mem, decide_eq_false_iff_not] at h
    obtain ⟨⟨hmethod, htoken⟩, hsegments⟩ := h
    have hclean : cleanPath (String.ofList ('/' :: rest)) = String.ofList ('/' :: rest) :=
      (cleanPath_eq_iff rest).mpr
        (cleanSegments_of_forall (List.splitOn_ne_nil _ _) fun part hpart =>
          (hsegments part hpart).1.1)
    have hparsed : parseSegments [] (rest.splitOn '/') = _ :=
      parseSegments_literal (fun part hpart => (hsegments part hpart).1.1.1)
        fun part hpart => (hsegments part hpart).1.2
    have hunescape : (rest.splitOn '/').map (fun part => Seg.lit (pathUnescape part)) =
        (rest.splitOn '/').map fun part => .lit (String.ofList part) := by
      apply List.map_congr_left
      intro part hpart
      rw [pathUnescape, unescape_of_not_mem (hsegments part hpart).2]
      rfl
    have hlit : Seg.lit "" ∉ (rest.splitOn '/').map fun part => Seg.lit (pathUnescape part) := by
      intro hmem
      obtain ⟨part, hpart, heq⟩ := List.mem_map.mp hmem
      exact pathUnescape_ne_empty (hsegments part hpart).1.1.1 (Seg.lit.inj heq)
    refine ⟨method, rest, ⟨String.ofList method, "", _, false, hlit⟩, htext, ?_, rfl, hunescape⟩
    have hall : method.all GoText.isTokenRune = true := List.all_eq_true.mpr htoken
    have hblank : isBlank '/' = false := by decide
    simp only [parsePattern, hspan, List.dropWhile_cons, hblank, Bool.false_eq_true, if_false,
      List.span_eq_takeWhile_dropWhile, List.takeWhile_cons, bne_self_eq_false, hall, hclean,
      List.isEmpty_cons, List.contains_nil, Bool.not_true, Bool.or_self, ne_eq, not_true_eq_false,
      decide_false, Bool.and_false, List.tail_cons, hparsed, Option.bind_some, dif_pos hlit]
  · cases h

/-- A literal text can be registered. -/
theorem parsePattern_isSome_of_literal
    {s : String} (h : isLiteral s = true) :
    (parsePattern s).isSome = true := by
  obtain ⟨_, _, pattern, _, hparse, _⟩ := parsePattern_literal h
  rw [hparse]
  rfl

/-- Different literal texts are different patterns. -/
theorem eq_of_parsePattern_eq
    {s t : String}
    (hs : isLiteral s = true)
    (ht : isLiteral t = true)
    (h : parsePattern s = parsePattern t) :
    s = t := by
  obtain ⟨method, rest, pattern, htext, hparse, hmethod, hsegs⟩ := parsePattern_literal hs
  obtain ⟨method', rest', pattern', htext', hparse', hmethod', hsegs'⟩ := parsePattern_literal ht
  rw [hparse, hparse'] at h
  cases h
  have hm : method = method' := String.ofList_injective (hmethod.symm.trans hmethod')
  have hinj : Function.Injective fun part => Seg.lit (String.ofList part) := fun _ _ heq =>
    String.ofList_injective (Seg.lit.inj heq)
  have hr : rest = rest' := by
    have hparts := List.map_injective_iff.mpr hinj (hsegs.symm.trans hsegs')
    have hrest : ['/'].intercalate (rest.splitOn '/') = rest := List.intercalate_splitOn '/'
    rw [← hrest, hparts, List.intercalate_splitOn]
  apply String.toList_inj.mp
  rw [htext, htext', hm, hr]

/-- A table of literal texts has no pattern twice when it has no text twice. -/
theorem nodup_map_parsePattern
    {table : List String}
    (hliteral : ∀ s ∈ table, isLiteral s = true)
    (h : table.Nodup) :
    (table.map parsePattern).Nodup :=
  h.map_on fun _ hs _ ht heq => eq_of_parsePattern_eq (hliteral _ hs) (hliteral _ ht) heq

end ServeMux
end GatewayRuntime
