import Mathlib.Order.WithBot

/-!
# Entries that expire

An entry of a store is a value together with the time at which it ends, `⊤` if it
never does.  A store may remove an entry once it has ended (`Pruned`).

`Covered t e f` says that from the time `t` on the entry `e` is live only as long as
`f` is.  The relation is kept when time passes, when either entry is pruned, and it
says what one wants to know: while `e` is live, so is `f` (`Covered.live`).
-/

namespace GatewayRuntime
namespace Expiring

universe u v w

/-- What a store holds under a key. -/
abbrev Entry (τ : Type u) (α : Type v) := Option (α × WithTop τ)

section Entries

variable {τ : Type u} [LinearOrder τ] {α : Type v} {β : Type w}

/-- The value of an entry that has not ended. -/
def live (t : τ) (e : Entry τ α) : Option α :=
  e.bind fun x => if (t : WithTop τ) < x.2 then some x.1 else none

theorem live_eq_some
    {t : τ} {e : Entry τ α} {a : α} :
    live t e = some a ↔ ∃ d, e = some (a, d) ∧ (t : WithTop τ) < d := by
  cases e with
  | none =>
      simp [live]
  | some x =>
      obtain ⟨b, d⟩ := x
      simp only [live, Option.bind_some, Option.ite_none_right_eq_some, Option.some.injEq,
        Prod.mk.injEq]
      constructor
      · rintro ⟨hlt, rfl⟩
        exact ⟨d, ⟨rfl, rfl⟩, hlt⟩
      · rintro ⟨d', ⟨rfl, rfl⟩, hlt⟩
        exact ⟨hlt, rfl⟩

/-- What has ended stays so. -/
theorem live_eq_none_later
    {t t' : τ} {e : Entry τ α}
    (h : live t e = none) (hle : t ≤ t') :
    live t' e = none := by
  by_contra hne
  obtain ⟨a, ha⟩ := Option.ne_none_iff_exists'.mp hne
  obtain ⟨d, he, hlt⟩ := live_eq_some.mp ha
  rw [live_eq_some.mpr ⟨d, he, (WithTop.coe_le_coe.mpr hle).trans_lt hlt⟩] at h
  cases h

/-- The entry is as before, or it had ended and has been removed. -/
def Pruned (t : τ) (e e' : Entry τ α) : Prop :=
  e' = e ∨ (e' = none ∧ live t e = none)

namespace Pruned

variable {t : τ} {e e' : Entry τ α}

theorem refl (t : τ) (e : Entry τ α) : Pruned t e e :=
  Or.inl rfl

theorem live_eq (h : Pruned t e e') : live t e' = live t e := by
  rcases h with rfl | ⟨rfl, hnone⟩
  · rfl
  · rw [hnone]
    rfl

/-- A live entry is not removed. -/
theorem eq_of_live
    {a : α} (h : Pruned t e e') (ha : live t e = some a) :
    e' = e := by
  rcases h with rfl | ⟨-, hnone⟩
  · rfl
  · rw [hnone] at ha
    cases ha

theorem eq_of_some
    {x : α × WithTop τ} (h : Pruned t e e') (hx : e' = some x) :
    e = some x := by
  rcases h with rfl | ⟨rfl, -⟩
  · exact hx
  · cases hx

end Pruned

/-- From `t` on, the first entry is live only as long as the second. -/
def Covered (t : τ) (e : Entry τ α) (f : Entry τ β) : Prop :=
  ∀ a d, e = some (a, d) → (t : WithTop τ) < d → ∃ b d', f = some (b, d') ∧ d ≤ d'

namespace Covered

variable {t : τ} {e e' : Entry τ α} {f f' : Entry τ β}

theorem live
    (h : Covered t e f) {a : α} (ha : live t e = some a) :
    ∃ b, Expiring.live t f = some b := by
  obtain ⟨d, he, hlt⟩ := live_eq_some.mp ha
  obtain ⟨b, d', hf, hle⟩ := h a d he hlt
  exact ⟨b, live_eq_some.mpr ⟨d', hf, hlt.trans_le hle⟩⟩

theorem of_not_live (h : Expiring.live t e = none) : Covered t e f := by
  intro a d he hlt
  rw [live_eq_some.mpr ⟨d, he, hlt⟩] at h
  cases h

theorem later
    (h : Covered t e f) {t' : τ} (hle : t ≤ t') :
    Covered t' e f :=
  fun a d he hlt => h a d he ((WithTop.coe_le_coe.mpr hle).trans_lt hlt)

theorem pruned_left
    (h : Covered t e f) (hpruned : Pruned t e e') :
    Covered t e' f :=
  fun a d he' hlt => h a d (hpruned.eq_of_some he') hlt

theorem pruned_right
    (h : Covered t e f) (hpruned : Pruned t f f') :
    Covered t e f' := by
  intro a d he hlt
  obtain ⟨b, d', hf, hle⟩ := h a d he hlt
  have hlive : Expiring.live t f = some b := live_eq_some.mpr ⟨d', hf, hlt.trans_le hle⟩
  exact ⟨b, d', (hpruned.eq_of_live hlive).trans hf, hle⟩

/-- The second entry is replaced by one that ends at the same time. -/
theorem replace_right
    (h : Covered t e f) {b : β} {d : WithTop τ} (hf : f = some (b, d)) (b' : β) :
    Covered t e (some (b', d)) := by
  intro a d₁ he hlt
  obtain ⟨b₁, d', hf', hle⟩ := h a d₁ he hlt
  rw [hf] at hf'
  cases hf'
  exact ⟨b', d, rfl, hle⟩

end Covered

end Entries

end Expiring
end GatewayRuntime
