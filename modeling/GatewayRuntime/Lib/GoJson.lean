import Mathlib.Data.Option.Basic

/-!
# Optional members of JSON objects

A Go struct is written as a JSON object with one member for each field, and a field with
the option `omitempty` has none when it is empty.  Reading the object back leaves a field
without a member at its zero value: the empty string, or a slice that is nil.

A slice is a list here, or `none` when it is nil.
-/

namespace GatewayRuntime
namespace GoJson

universe u

/-- The member of a string with `omitempty`. -/
def omitEmpty (s : String) : Option String :=
  if s = "" then none else some s

/-- The member of a slice with `omitempty`. -/
def omitEmptySlice {α : Type u} : Option (List α) → Option (List α)
  | some (a :: l) => some (a :: l)
  | _ => none

@[simp] theorem omitEmpty_getD (s : String) : (omitEmpty s).getD "" = s := by
  by_cases h : s = ""
  · simp [omitEmpty, h]
  · simp [omitEmpty, h]

@[simp] theorem omitEmptySlice_omitEmptySlice {α : Type u} (l : Option (List α)) :
    omitEmptySlice (omitEmptySlice l) = omitEmptySlice l := by
  rcases l with _ | _ | _ <;> rfl

end GoJson
end GatewayRuntime
