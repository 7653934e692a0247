import GatewayRuntime.Lib.GoError
import Mathlib.Data.List.Nodup

/-!
# Loops that refuse a repeated key

A loop over a list may keep the keys it has met, so that it can stop at an item whose key it
has met before.  `Fresh` says that this does not happen: the keys of the items are pairwise
distinct, and none of them has been met.

`Collects` is the contract of a loop body that also checks every item and appends what it
makes of it.  A loop with such a body succeeds exactly if all items pass and their keys are
fresh, and then its result is determined (`Collects.foldlM_eq_ok_iff`).
-/

namespace GatewayRuntime
namespace Distinct

universe u v

section Keys

variable {α : Type u} {κ : Type v} {key : α → κ} {seen : List κ} {a : α} {l : List α}

/-- The keys of the items are pairwise distinct, and none of them has been met. -/
structure Fresh (key : α → κ) (seen : List κ) (l : List α) : Prop where
  nodup : (l.map key).Nodup
  unseen : ∀ a ∈ l, key a ∉ seen

theorem fresh_nil : Fresh key seen [] :=
  ⟨List.nodup_nil, by simp⟩

/-- The first key has not been met, and the others are fresh once it has. -/
theorem fresh_cons :
    Fresh key seen (a :: l) ↔ key a ∉ seen ∧ Fresh key (key a :: seen) l := by
  constructor
  · intro h
    obtain ⟨hnot, hnodup⟩ := List.nodup_cons.mp h.nodup
    obtain ⟨hfirst, hrest⟩ := List.forall_mem_cons.mp h.unseen
    refine ⟨hfirst, hnodup, ?_⟩
    intro b hb hmem
    rcases List.mem_cons.mp hmem with heq | hseen
    · exact hnot (heq ▸ List.mem_map_of_mem hb)
    · exact hrest b hb hseen
  · rintro ⟨hfirst, hrest⟩
    refine ⟨List.nodup_cons.mpr ⟨?_, hrest.nodup⟩, List.forall_mem_cons.mpr ⟨hfirst, ?_⟩⟩
    · intro hmem
      obtain ⟨b, hb, heq⟩ := List.mem_map.mp hmem
      exact hrest.unseen b hb (heq ▸ List.mem_cons_self)
    · intro b hb hseen
      exact hrest.unseen b hb (List.mem_cons_of_mem _ hseen)

/-- At the start of a loop only the items count. -/
theorem fresh_nil_iff : Fresh key [] l ↔ (l.map key).Nodup :=
  ⟨Fresh.nodup, fun h => ⟨h, by simp⟩⟩

end Keys

section Loops

variable {α κ β ε : Type}
variable {step : List κ × List β → α → Except ε (List κ × List β)}
variable {ok : α → Prop} {key : α → κ} {out : α → β}

/-- A loop body that takes an item if it passes and its key has not been met; the key is kept,
and what the body makes of the item comes after what it has collected. -/
def Collects
    (step : List κ × List β → α → Except ε (List κ × List β))
    (ok : α → Prop) (key : α → κ) (out : α → β) : Prop :=
  ∀ seen done a acc, step (seen, done) a = .ok acc ↔
    ok a ∧ key a ∉ seen ∧ acc = (key a :: seen, done ++ [out a])

/-- The whole loop, from any point of it. -/
theorem Collects.foldlM_eq_ok_iff
    (hstep : Collects step ok key out)
    (l : List α) (seen : List κ) (done : List β) (acc : List κ × List β) :
    l.foldlM step (seen, done) = .ok acc ↔
      (∀ a ∈ l, ok a) ∧ Fresh key seen l ∧
        acc = ((l.map key).reverse ++ seen, done ++ l.map out) := by
  -- induction on the items left, with what was met and collected before them
  induction l generalizing seen done with
  | nil =>
      rw [List.foldlM_nil]
      constructor
      · intro h
        obtain rfl := Except.ok.inj h
        exact ⟨by simp, fresh_nil, by simp⟩
      · rintro ⟨-, -, rfl⟩
        simp [pure, Except.pure]
  | cons a l ih =>
      have hresult : ((l.map key).reverse ++ key a :: seen, done ++ [out a] ++ l.map out) =
          (((a :: l).map key).reverse ++ seen, done ++ (a :: l).map out) := by
        simp
      rw [List.foldlM_cons, bind_eq_ok_iff, List.forall_mem_cons, fresh_cons, ← hresult]
      constructor
      · rintro ⟨acc', hfirst, hrest⟩
        obtain ⟨hok, hnew, rfl⟩ := (hstep seen done a acc').mp hfirst
        obtain ⟨hall, hfresh, hacc⟩ := (ih _ _).mp hrest
        exact ⟨⟨hok, hall⟩, ⟨hnew, hfresh⟩, hacc⟩
      · rintro ⟨⟨hok, hall⟩, ⟨hnew, hfresh⟩, hacc⟩
        refine ⟨_, (hstep seen done a _).mpr ⟨hok, hnew, rfl⟩, ?_⟩
        exact (ih _ _).mpr ⟨hall, hfresh, hacc⟩

end Loops

end Distinct
end GatewayRuntime
