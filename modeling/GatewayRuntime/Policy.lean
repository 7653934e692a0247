import Mathlib.Data.List.Dedup
import GatewayRuntime.Errors
import GatewayRuntime.Lib.GoText
import GatewayRuntime.Lib.Table

/-!
# Policies

`internal/policy`: what a subject with some roles may do.  An `Evaluator` is asked for the
whole decision, or for one permission; `Static` reads both off two maps from roles to
lists of names.
-/

namespace GatewayRuntime
namespace Policy

structure Subject where
  id : String
  roles : List String
deriving DecidableEq

structure Decision where
  permissions : List String
  capabilities : List String
  authLevel : String
deriving DecidableEq

/-- `policy.Evaluator`. -/
structure Evaluator where
  evaluate : Subject → Except Err Decision
  allowed : Subject → String → Except Err Bool

/-- `keysSorted`: the keys of a map that the given values were put into.  The order in which
the map is walked does not matter, since the keys are sorted. -/
def keysSorted (values : List String) : List String :=
  values.dedup.insertionSort (· ≤ ·)

@[simp] theorem mem_keysSorted {values : List String} {value : String} :
    value ∈ keysSorted values ↔ value ∈ values := by
  simp [keysSorted]

/-- The keys are strictly increasing. -/
theorem sortedLT_keysSorted (values : List String) :
    (keysSorted values).SortedLT :=
  GoText.sortedLT_insertionSort (List.nodup_dedup values)

/-- Only which values there are matters. -/
theorem keysSorted_congr
    {values values' : List String} (h : ∀ value, value ∈ values ↔ value ∈ values') :
    keysSorted values = keysSorted values' := by
  refine (sortedLT_keysSorted values).eq_of_mem_iff (sortedLT_keysSorted values') ?_
  intro value
  rw [mem_keysSorted, mem_keysSorted, h value]

/-- `policy.Static`. -/
structure Static where
  rolePermissions : Table String (List String)
  roleCapabilities : Table String (List String)

namespace Static

/-- The values that a map has for the roles of a subject. -/
def valuesFor (table : Table String (List String)) (subject : Subject) : List String :=
  subject.roles.flatMap fun role => (table.find role).getD []

theorem mem_valuesFor
    {table : Table String (List String)} {subject : Subject} {value : String} :
    value ∈ valuesFor table subject ↔
      ∃ role ∈ subject.roles, ∃ values, table.find role = some values ∧ value ∈ values := by
  unfold valuesFor
  rw [List.mem_flatMap]
  refine exists_congr fun role => and_congr_right fun _ => ?_
  cases table.find role <;> simp

/-- `Static.Evaluate`. -/
def evaluate (p : Static) (subject : Subject) : Decision where
  permissions := keysSorted (valuesFor p.rolePermissions subject)
  capabilities := keysSorted (valuesFor p.roleCapabilities subject)
  authLevel := "authenticated"

/-- `Static.Allowed`. -/
def allowed (p : Static) (subject : Subject) (permission : String) : Bool :=
  (p.evaluate subject).permissions.contains permission

theorem allowed_eq_true_iff {p : Static} {subject : Subject} {permission : String} :
    p.allowed subject permission = true ↔ permission ∈ (p.evaluate subject).permissions := by
  unfold allowed
  rw [List.contains_iff_mem]

/-- A static policy never fails. -/
def evaluator (p : Static) : Evaluator where
  evaluate subject := .ok (p.evaluate subject)
  allowed subject permission := .ok (p.allowed subject permission)

end Static

end Policy
end GatewayRuntime
