import Mathlib.Data.Finset.Card
import Mathlib.Data.List.AList

/-!
# Finite maps as partial functions

A map of a program from keys to values, seen as a partial function.  `set` and
`erase` are the two updates, `has` says whether a key is present.  The lemmas
say what an update does at its own key and at every other key, where the keys
present after an update come from, and how two maps that are updated together
stay related.

A map whose entries are counted or walked over is an `AList` instead; `keep` is
the loop that deletes some of its entries.
-/

namespace GatewayRuntime

universe u v

/-- A map from keys to values. -/
def Table (κ : Type u) (α : Type v) : Type (max u v) :=
  κ → Option α

namespace Table

variable {κ : Type u} {α : Type v}

/-- The map without entries. -/
def empty : Table κ α :=
  fun _ => none

/-- The value under a key. -/
def find (t : Table κ α) (k : κ) : Option α :=
  t k

/-- The key is present. -/
def has (t : Table κ α) (k : κ) : Bool :=
  (t.find k).isSome

theorem has_of_find
    {t : Table κ α} {k : κ} {a : α} (h : t.find k = some a) :
    t.has k = true := by
  simp [has, h]

variable [DecidableEq κ]

/-- Write a value under a key. -/
def set (t : Table κ α) (k : κ) (a : α) : Table κ α :=
  fun k' => if k' = k then some a else t.find k'

/-- Remove a key. -/
def erase (t : Table κ α) (k : κ) : Table κ α :=
  fun k' => if k' = k then none else t.find k'

@[simp] theorem find_set_self (t : Table κ α) (k : κ) (a : α) :
    (t.set k a).find k = some a := by
  simp [find, set]

theorem find_set_of_ne (t : Table κ α) {k k' : κ} (a : α) (hk : k' ≠ k) :
    (t.set k a).find k' = t.find k' := by
  simp [find, set, hk]

@[simp] theorem find_erase_self (t : Table κ α) (k : κ) :
    (t.erase k).find k = none := by
  simp [find, erase]

theorem find_erase_of_ne (t : Table κ α) {k k' : κ} (hk : k' ≠ k) :
    (t.erase k).find k' = t.find k' := by
  simp [find, erase, hk]

/-- A value found after a write is the written one or was there before. -/
theorem find_set_cases
    {t : Table κ α} {k k' : κ} {a b : α} (h : (t.set k a).find k' = some b) :
    (k' = k ∧ b = a) ∨ (k' ≠ k ∧ t.find k' = some b) := by
  by_cases hk : k' = k
  · subst hk
    left
    simpa using h.symm
  · right
    exact ⟨hk, by rwa [find_set_of_ne t a hk] at h⟩

/-- A value found after a removal was there before, under another key. -/
theorem find_erase_cases
    {t : Table κ α} {k k' : κ} {b : α} (h : (t.erase k).find k' = some b) :
    k' ≠ k ∧ t.find k' = some b := by
  by_cases hk : k' = k
  · subst hk
    simp at h
  · exact ⟨hk, by rwa [find_erase_of_ne t hk] at h⟩

theorem has_of_has_set
    {t : Table κ α} {k k' : κ} {a : α} (h : (t.set k a).has k' = true) :
    t.has k' = true ∨ k = k' := by
  by_cases hk : k' = k
  · exact Or.inr hk.symm
  · left
    simpa [has, find_set_of_ne t a hk] using h

theorem has_of_has_erase
    {t : Table κ α} {k k' : κ} (h : (t.erase k).has k' = true) :
    t.has k' = true := by
  by_cases hk : k' = k
  · subst hk
    simp [has] at h
  · simpa [has, find_erase_of_ne t hk] using h

@[simp] theorem has_erase_self (t : Table κ α) (k : κ) :
    (t.erase k).has k = false := by
  simp [has]

/-- Removing a key whose value has a property: every other entry stays, and what is gone had
the property. -/
theorem find_erase_same_or_gone
    {t : Table κ α} {k : κ} {a : α} {P : α → Prop}
    (hfind : t.find k = some a) (ha : P a) (k' : κ) :
    (t.erase k).find k' = t.find k' ∨
      (t.erase k).find k' = none ∧ ∀ b, t.find k' = some b → P b := by
  by_cases hk : k' = k
  · subst hk
    right
    refine ⟨find_erase_self t k', ?_⟩
    intro b hb
    cases hfind.symm.trans hb
    exact ha
  · exact Or.inl (find_erase_of_ne t hk)

/-- A write, seen on the whole map. -/
theorem find_set (t : Table κ α) (k : κ) (a : α) :
    (t.set k a).find = Function.update t.find k (some a) := by
  funext k'
  by_cases hk : k' = k
  · subst hk
    simp
  · rw [find_set_of_ne t a hk, Function.update_of_ne hk]

/-- A removal, seen on the whole map. -/
theorem find_erase (t : Table κ α) (k : κ) :
    (t.erase k).find = Function.update t.find k none := by
  funext k'
  by_cases hk : k' = k
  · subst hk
    simp
  · rw [find_erase_of_ne t hk, Function.update_of_ne hk]

section Two

variable {β : Type*} {t : Table κ α} {u : Table κ β}
variable {P : κ → Option α → Option β → Prop}

/-- A relation between two maps after a write under the same key. -/
theorem forall_set
    {k : κ} {a : α} {b : β}
    (hself : P k (some a) (some b))
    (hother : ∀ k', k' ≠ k → P k' (t.find k') (u.find k'))
    (k' : κ) :
    P k' ((t.set k a).find k') ((u.set k b).find k') := by
  by_cases hk : k' = k
  · subst hk
    rw [find_set_self, find_set_self]
    exact hself
  · rw [find_set_of_ne t a hk, find_set_of_ne u b hk]
    exact hother k' hk

/-- A relation between two maps after the removal of the same key. -/
theorem forall_erase
    {k : κ}
    (hself : P k none none)
    (hother : ∀ k', k' ≠ k → P k' (t.find k') (u.find k'))
    (k' : κ) :
    P k' ((t.erase k).find k') ((u.erase k).find k') := by
  by_cases hk : k' = k
  · subst hk
    rw [find_erase_self, find_erase_self]
    exact hself
  · rw [find_erase_of_ne t hk, find_erase_of_ne u hk]
    exact hother k' hk

end Two

end Table

namespace Entries

variable {κ : Type u} {α : Type v}

/-- The number of entries. -/
def size (s : AList fun _ : κ => α) : Nat :=
  s.entries.length

/-- The entries that a loop over the map does not delete. -/
def keep (p : α → Bool) (s : AList fun _ : κ => α) : AList fun _ : κ => α where
  entries := s.entries.filter fun entry => p entry.2
  nodupKeys := s.nodupKeys.sublist List.filter_sublist

theorem lookup_keep
    [DecidableEq κ]
    (p : α → Bool) (s : AList fun _ : κ => α) (k : κ) :
    (keep p s).lookup k = (s.lookup k).filter p := by
  ext a
  rw [← Option.mem_def, AList.mem_lookup_iff]
  simp only [keep, List.mem_filter, ← AList.mem_lookup_iff, Option.mem_def,
    Option.filter_eq_some_iff]

/-- An entry found after an insertion is the new one or an old one. -/
theorem lookup_insert_cases
    [DecidableEq κ] {s : AList fun _ : κ => α} {k k' : κ} {a a' : α}
    (h : (s.insert k a).lookup k' = some a') :
    k' = k ∧ a' = a ∨ s.lookup k' = some a' := by
  by_cases hk : k' = k
  · subst hk
    rw [AList.lookup_insert] at h
    exact Or.inl ⟨rfl, (Option.some.inj h).symm⟩
  · rw [AList.lookup_insert_ne hk] at h
    exact Or.inr h

/-- The keys of a map, as a set. -/
def keySet [DecidableEq κ] (s : AList fun _ : κ => α) : Finset κ :=
  s.keys.toFinset

theorem mem_keySet
    [DecidableEq κ] {s : AList fun _ : κ => α} {k : κ} :
    k ∈ keySet s ↔ k ∈ s := by
  rw [keySet, List.mem_toFinset, AList.mem_keys]

@[simp] theorem keySet_insert
    [DecidableEq κ] (s : AList fun _ : κ => α) (k : κ) (a : α) :
    keySet (s.insert k a) = insert k (keySet s) := by
  ext k'
  simp [mem_keySet]

theorem card_keySet [DecidableEq κ] (s : AList fun _ : κ => α) :
    (keySet s).card = size s := by
  rw [keySet, List.toFinset_card_of_nodup s.keys_nodup, AList.keys, List.keys, List.length_map,
    size]

end Entries
end GatewayRuntime
