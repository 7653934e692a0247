import Mathlib.Data.Set.Card
import Mathlib.Logic.Function.Basic

/-!
# Counting the members of a family

A system runs any number of processes, and a shared counter is to say how many of them are at
some place.  `Counts p f n` says that `n` members of the family `f` have the property `p`.  When
one member moves, the number changes by what the member counted before and counts now; this is
all that an invariant about the counter needs.
-/

namespace GatewayRuntime
namespace Census

universe u v

variable {ι : Type u} {α : Type v}

/-- As many members of the family have the property as the number says. -/
def Counts (p : α → Bool) (f : ι → α) (n : Nat) : Prop :=
  ∃ s : Finset ι, (∀ i, i ∈ s ↔ p (f i) = true) ∧ s.card = n

variable {p : α → Bool} {f g : ι → α} {n : Nat}

/-- Nobody has the property. -/
theorem counts_zero (h : ∀ i, p (f i) = false) :
    Counts p f 0 :=
  ⟨∅, fun i => by simp [h i], rfl⟩

/-- A member that has the property is counted. -/
theorem Counts.pos {i : ι} (h : Counts p f n) (hi : p (f i) = true) :
    0 < n := by
  obtain ⟨s, hmem, rfl⟩ := h
  exact Finset.card_pos.mpr ⟨i, (hmem i).mpr hi⟩

/-- Where the counter is zero nobody has the property, and the other way round. -/
theorem Counts.eq_zero_iff (h : Counts p f n) :
    n = 0 ↔ ∀ i, p (f i) = false := by
  obtain ⟨s, hmem, rfl⟩ := h
  simp [Finset.card_eq_zero, Finset.eq_empty_iff_forall_notMem, hmem]

/-- A member moves from one place that does not matter to another. -/
theorem Counts.congr (h : Counts p f n) (hsame : ∀ i, p (g i) = p (f i)) :
    Counts p g n := by
  obtain ⟨s, hmem, hcard⟩ := h
  exact ⟨s, fun i => by rw [hmem, hsame], hcard⟩

/-- One member moves. -/
theorem Counts.update
    [DecidableEq ι] {i : ι} {a : α}
    (h : Counts p f n) (hg : g = Function.update f i a) :
    Counts p g (n - (p (f i)).toNat + (p a).toNat) := by
  obtain ⟨s, hmem, rfl⟩ := h
  have hother (j : ι) (hj : j ≠ i) : g j = f j := by rw [hg, Function.update_of_ne hj]
  have hself : g i = a := by rw [hg, Function.update_self]
  have herase : (s.erase i).card = s.card - (p (f i)).toNat := by
    cases hi : p (f i) with
    | true => rw [Finset.card_erase_of_mem ((hmem i).mpr hi), Bool.toNat_true]
    | false => rw [Finset.erase_eq_of_notMem (by simp [hmem, hi]), Bool.toNat_false, Nat.sub_zero]
  cases ha : p a with
  | true =>
      refine ⟨insert i (s.erase i), fun j => ?_, ?_⟩
      · by_cases hj : j = i
        · simp [hj, hself, ha]
        · simp [hj, hother j hj, hmem]
      · rw [Finset.card_insert_of_notMem (Finset.notMem_erase i s), herase, Bool.toNat_true]
  | false =>
      refine ⟨s.erase i, fun j => ?_, by simpa using herase⟩
      by_cases hj : j = i
      · simp [hj, hself, ha]
      · simp [hj, hother j hj, hmem]

/-- One member gets the property. -/
theorem Counts.enter
    [DecidableEq ι] {i : ι} {a : α}
    (h : Counts p f n) (hg : g = Function.update f i a)
    (hbefore : p (f i) = false) (hafter : p a = true) :
    Counts p g (n + 1) := by
  simpa [hbefore, hafter] using h.update hg

/-- One member loses the property. -/
theorem Counts.leave
    [DecidableEq ι] {i : ι} {a : α}
    (h : Counts p f n) (hg : g = Function.update f i a)
    (hbefore : p (f i) = true) (hafter : p a = false) :
    Counts p g (n - 1) := by
  simpa [hbefore, hafter] using h.update hg

/-- One member moves and keeps the property, or moves without it. -/
theorem Counts.stay
    [DecidableEq ι] {i : ι} {a : α}
    (h : Counts p f n) (hg : g = Function.update f i a) (hsame : p a = p (f i)) :
    Counts p g n := by
  refine h.congr fun j => ?_
  subst hg
  by_cases hj : j = i
  · rw [hj, Function.update_self, hsame]
  · rw [Function.update_of_ne hj]

/-- The count as the size of a set. -/
theorem Counts.encard_eq (h : Counts p f n) :
    {i | p (f i) = true}.encard = n := by
  obtain ⟨s, hmem, rfl⟩ := h
  have hs : {i | p (f i) = true} = (s : Set ι) := by
    ext i
    exact (hmem i).symm
  rw [hs, Set.encard_coe_eq_coe_finsetCard]

end Census
end GatewayRuntime
