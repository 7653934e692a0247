import Mathlib.Data.List.Basic

/-!
# Slash-separated paths

`path.Clean` of the Go standard library: the shortest path name equivalent to a
given one by purely lexical processing, and `path.Join`.
-/

namespace GatewayRuntime
namespace GoPath

/-- Take one more element of a path, given the elements kept so far, the last
one first. -/
def pushElement (rooted : Bool) (kept : List (List Char)) (element : List Char) :
    List (List Char) :=
  if element = [] ∨ element = ['.'] then kept
  else if element = ['.', '.'] then
    match kept with
    | [] => if rooted then [] else [element]
    | last :: rest => if last = ['.', '.'] then element :: kept else rest
  else element :: kept

/-- The elements of the cleaned path. -/
def cleanElements (rooted : Bool) (elements : List (List Char)) : List (List Char) :=
  (elements.foldl (pushElement rooted) []).reverse

/-- `path.Clean`. -/
def clean (s : String) : String :=
  let rooted := s.toList.head? == some '/'
  let body := ['/'].intercalate (cleanElements rooted (s.toList.splitOn '/'))
  let cleaned := if rooted then '/' :: body else body
  if cleaned = [] then "." else String.ofList cleaned

/-- `path.Join`: empty elements in front are left out, and the result is cleaned. -/
def join (elements : List String) : String :=
  match elements.dropWhile fun element => element == "" with
  | [] => ""
  | first :: rest => clean (String.intercalate "/" (first :: rest))

end GoPath
end GatewayRuntime
