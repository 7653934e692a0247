import GatewayRuntime.Lib.ServeMux

/-!
# The pattern of a served request

A mux writes into a request the text of the pattern that it has found: also when it
redirects to the clean path, and nothing when there is no route.  When it redirects to the
path with a slash after it, the text is the new path or the pattern found there, depending
on the release of Go; here it is a parameter.

A table in which no pattern ends in a slash makes no redirect of this kind, and the texts
are then those of its patterns.
-/

namespace GatewayRuntime
namespace ServeMux

open GoUrl

universe u

variable {η : Type u}

/-- `r.Pattern` after `ServeMux.ServeHTTP`.  `text` is the text that a pattern was registered
with, `slashText` the text for a redirect to the path with a slash. -/
def patternOf (text : Pattern → String) (slashText : Request → String)
    (table : List (Route η)) (r : Request) : String :=
  let path := r.url.escapedPath
  let found (path : String) : String :=
    ((lookup table r.host r.method (elements path)).map fun route => text route.pattern).getD ""
  -- the request line `OPTIONS *` is answered before a route is looked for
  if path = "*" then ""
  else if r.method = "CONNECT" then
    if redirects table r.urlHost r.method path then slashText r else found path
  else if redirects table r.host r.method (cleanPath path) then slashText r
  else found (cleanPath path)

/-- No path with a slash at its end has the pattern. -/
def Pattern.slashFree (p : Pattern) : Bool :=
  !p.multi && !p.segs.contains (.lit "/")

/-- The last element of a path with a slash at its end. -/
theorem slash_mem_elements (path : String) :
    "/" ∈ elements (path ++ "/") := by
  have hmem (parts : List (List Char)) : "/" ∈ elementsOf (parts ++ [[]]) := by
    induction parts with
    | nil =>
        simp [elementsOf]
    | cons first rest ih =>
        obtain ⟨second, rest', hrest⟩ := List.exists_cons_of_ne_nil
          (List.append_ne_nil_of_right_ne_nil rest (List.cons_ne_nil [] []))
        rw [List.cons_append, hrest, elementsOf, ← hrest]
        exact List.mem_cons_of_mem _ ih
  unfold elements
  rw [String.toList_append]
  cases path.toList with
  | nil =>
      exact hmem []
  | cons c rest =>
      have hsplit : (rest ++ ['/']).splitOn '/' = rest.splitOn '/' ++ [[]] :=
        splitOn_append_slash rest []
      simpa [hsplit] using hmem (rest.splitOn '/')

/-- Only the literal slash stands for a slash. -/
theorem lit_slash_mem
    {segs : List Seg} {path : List String}
    (h : Accepts false segs path) (hslash : "/" ∈ path) :
    Seg.lit "/" ∈ segs := by
  induction segs generalizing path with
  | nil =>
      have hnil : path = [] := by
        simpa [Accepts] using h
      simp [hnil] at hslash
  | cons seg segs ih =>
      cases path with
      | nil => exact h.elim
      | cons first rest =>
          obtain ⟨hseg, hrest⟩ := h
          rcases List.mem_cons.mp hslash with rfl | hslash
          · cases seg with
            | lit s =>
                obtain rfl : "/" = s := hseg
                exact List.mem_cons_self
            | single =>
                exact absurd rfl hseg
          · exact List.mem_cons_of_mem _ (ih hrest hslash)

variable {table : List (Route η)}

/-- Nothing is redirected to a path with a slash after it. -/
theorem redirects_of_slashFree
    (hfree : ∀ route ∈ table, route.pattern.slashFree = true)
    (host method path : String) :
    redirects table host method path = false := by
  have hnone : lookup table host method (elements (path ++ "/")) = none := by
    cases hfound : lookup table host method (elements (path ++ "/")) with
    | none =>
        rfl
    | some route =>
        obtain ⟨hmem, hacc⟩ := lookup_sound hfound
        have hplain := hfree route hmem
        simp only [Pattern.slashFree, Bool.and_eq_true, Bool.not_eq_true',
          List.contains_eq_mem, decide_eq_false_iff_not] at hplain
        rw [hplain.1] at hacc
        exact absurd (lit_slash_mem hacc (slash_mem_elements path)) hplain.2
  simp [redirects, hnone, exactMatch]

/-- The text is that of a pattern of the table, or empty. -/
theorem patternOf_cases
    (hfree : ∀ route ∈ table, route.pattern.slashFree = true)
    (text : Pattern → String) (slashText : Request → String) (r : Request) :
    patternOf text slashText table r = "" ∨
      ∃ route ∈ table, patternOf text slashText table r = text route.pattern := by
  have hfound (path : String) :
      let found := ((lookup table r.host r.method (elements path)).map
        fun route => text route.pattern).getD ""
      found = "" ∨ ∃ route ∈ table, found = text route.pattern := by
    cases h : lookup table r.host r.method (elements path) with
    | none => exact Or.inl rfl
    | some route => exact Or.inr ⟨route, (lookup_sound h).1, rfl⟩
  simp only [patternOf, redirects_of_slashFree hfree, Bool.false_eq_true, if_false]
  split_ifs
  · exact Or.inl rfl
  · exact hfound _
  · exact hfound _

end ServeMux
end GatewayRuntime
