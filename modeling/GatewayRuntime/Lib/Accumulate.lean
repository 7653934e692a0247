import GatewayRuntime.Lib.Table
import Mathlib.Algebra.BigOperators.Group.Finset.Defs

/-!
# Maps that accumulate by key

A map that is updated by `m[k] = f(m[k], v)`, where a missing entry counts as an initial
value.  After a list of updates the entry under a key is the fold over the values that came
with this key, and there is an entry exactly if there were any.
-/

namespace GatewayRuntime
namespace Accumulate

universe u v w

variable {κ : Type u} {α : Type v} {β : Type w} [DecidableEq κ]

/-- One update. -/
def step (f : α → β → α) (init : α) (t : AList fun _ : κ => α) (e : κ × β) :
    AList fun _ : κ => α :=
  t.insert e.1 (f ((t.lookup e.1).getD init) e.2)

/-- The map after the updates. -/
def run (f : α → β → α) (init : α) (es : List (κ × β)) : AList fun _ : κ => α :=
  es.foldl (step f init) ∅

/-- The values that came with a key. -/
def valuesAt (k : κ) (es : List (κ × β)) : List β :=
  (es.filter fun e => e.1 = k).map Prod.snd

theorem run_append_singleton
    (f : α → β → α) (init : α) (es : List (κ × β)) (e : κ × β) :
    run f init (es ++ [e]) = step f init (run f init es) e := by
  simp [run]

theorem valuesAt_append (k : κ) (es es' : List (κ × β)) :
    valuesAt k (es ++ es') = valuesAt k es ++ valuesAt k es' := by
  simp [valuesAt]

theorem length_valuesAt (k : κ) (es : List (κ × β)) :
    (valuesAt k es).length = (es.map Prod.fst).count k := by
  rw [valuesAt, List.length_map, ← List.countP_eq_length_filter, List.count, List.countP_map]
  exact List.countP_congr fun e _ => by simp

theorem valuesAt_eq_nil_iff {k : κ} {es : List (κ × β)} :
    valuesAt k es = [] ↔ k ∉ es.map Prod.fst := by
  rw [← List.length_eq_zero_iff, length_valuesAt, List.count_eq_zero]

/-- The entry under a key, by induction on the updates from the last one. -/
theorem lookup_run (f : α → β → α) (init : α) (es : List (κ × β)) (k : κ) :
    (run f init es).lookup k =
      if valuesAt k es = [] then none else some ((valuesAt k es).foldl f init) := by
  induction es using List.reverseRecOn with
  | nil =>
      rfl
  | append_singleton es e ih =>
      rw [run_append_singleton, valuesAt_append, step]
      by_cases hk : e.1 = k
      · have hvalues : valuesAt k [e] = [e.2] := by simp [valuesAt, hk]
        have hne : valuesAt k es ++ [e.2] ≠ [] := by simp
        rw [hk, AList.lookup_insert, ih, hvalues, if_neg hne, List.foldl_append]
        split_ifs with hnil
        · rw [hnil]
          rfl
        · rfl
      · have hvalues : valuesAt k [e] = [] := by simp [valuesAt, hk]
        rw [AList.lookup_insert_ne (Ne.symm hk), ih, hvalues, List.append_nil]

theorem keySet_run (f : α → β → α) (init : α) (es : List (κ × β)) :
    Entries.keySet (run f init es) = (es.map Prod.fst).toFinset := by
  ext k
  rw [Entries.mem_keySet, ← AList.lookup_isSome, lookup_run, List.mem_toFinset,
    ← not_iff_not, ← valuesAt_eq_nil_iff]
  split_ifs with hnil <;> simp [hnil]

/-- Numbers of updates by key add up to the number of updates of these keys. -/
theorem sum_length_valuesAt
    (f : α → β → α) (init : α) (es : List (κ × β)) (p : κ → Prop) [DecidablePred p] :
    ∑ k ∈ Entries.keySet (run f init es) with p k, (valuesAt k es).length =
      es.countP fun e => p e.1 := by
  simp only [keySet_run, length_valuesAt]
  rw [Finset.sum_filter_count_eq_countP, List.countP_map]
  rfl

end Accumulate
end GatewayRuntime
