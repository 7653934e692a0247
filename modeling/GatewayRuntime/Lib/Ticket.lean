import Mathlib.Logic.Function.Basic
import Mathlib.Logic.Relation
import Mathlib.Data.List.Nodup

/-!
# Tickets that pass through stages

Tickets are minted by callers and pass through numbered stages.  Only the caller
that holds a ticket can move it: pass it through its next stage, deposit it in a
store from which some caller takes it again, or drop it.  The tickets in the store
have passed the same number of stages, `depot`.

`Move` is one move of such a system, `Sound` its invariant: a ticket is at most in
one place, and it has passed exactly the stages before that place.  So no ticket
passes a stage twice, in whatever order the callers move (`Sound.of_moves`).

A system with tickets is related to this one by showing that each of its steps is
some moves.
-/

namespace GatewayRuntime
namespace Ticket

universe u v

/-- Where the tickets are. -/
structure State (ι : Type u) (γ : Type v) where
  minted : ι → Prop
  stored : ι → Prop
  holder : γ → Option (ι × Nat)
  passed : Nat → List ι

section Moves

variable {ι : Type u} {γ : Type v}

/-- One move.  Tickets may get lost from the store, and names may be used up. -/
inductive Move [DecidableEq γ] (depot : Nat) : State ι γ → State ι γ → Prop
  | mint
      {s : State ι γ} (c : γ) (i : ι)
      (hfree : s.holder c = none)
      (hnew : ¬ s.minted i) :
      Move depot s
        { s with
          minted := fun j => s.minted j ∨ j = i
          holder := Function.update s.holder c (some (i, 0)) }
  | pass
      {s : State ι γ} {c : γ} {i : ι} {n : Nat}
      (hheld : s.holder c = some (i, n)) :
      Move depot s
        { s with
          holder := Function.update s.holder c (some (i, n + 1))
          passed := Function.update s.passed n (i :: s.passed n) }
  | deposit
      {s : State ι γ} {c : γ} {i : ι}
      (hheld : s.holder c = some (i, depot)) :
      Move depot s
        { s with
          stored := fun j => s.stored j ∨ j = i
          holder := Function.update s.holder c none }
  | take
      {s : State ι γ} {c : γ} {i : ι}
      (hfree : s.holder c = none)
      (hstored : s.stored i) :
      Move depot s
        { s with
          stored := fun j => s.stored j ∧ j ≠ i
          holder := Function.update s.holder c (some (i, depot)) }
  | drop
      {s : State ι γ} (c : γ) :
      Move depot s { s with holder := Function.update s.holder c none }
  | lose
      {s t : State ι γ}
      (hminted : ∀ j, s.minted j → t.minted j)
      (hstored : ∀ j, t.stored j → s.stored j)
      (hholder : t.holder = s.holder)
      (hpassed : t.passed = s.passed) :
      Move depot s t

/-- A ticket is in one place at most and has passed the stages before it. -/
structure Sound (depot : Nat) (s : State ι γ) : Prop where
  held_minted : ∀ {c i n}, s.holder c = some (i, n) → s.minted i
  held_not_stored : ∀ {c i n}, s.holder c = some (i, n) → ¬ s.stored i
  held_unique : ∀ {c d i n m}, s.holder c = some (i, n) → s.holder d = some (i, m) → c = d
  held_passed : ∀ {c i n}, s.holder c = some (i, n) → ∀ m, i ∈ s.passed m ↔ m < n
  stored_minted : ∀ {i}, s.stored i → s.minted i
  stored_passed : ∀ {i}, s.stored i → ∀ m, i ∈ s.passed m ↔ m < depot
  passed_minted : ∀ {i m}, i ∈ s.passed m → s.minted i
  passed_nodup : ∀ m, (s.passed m).Nodup

variable {depot : Nat} {s t : State ι γ}

namespace Sound

/-- Nothing is held, stored or passed. -/
theorem of_empty
    (hholder : ∀ c, s.holder c = none)
    (hstored : ∀ i, ¬ s.stored i)
    (hpassed : ∀ m, s.passed m = []) :
    Sound depot s where
  held_minted hd := by simp [hholder] at hd
  held_not_stored hd := by simp [hholder] at hd
  held_unique hd := by simp [hholder] at hd
  held_passed hd := by simp [hholder] at hd
  stored_minted hs := absurd hs (hstored _)
  stored_passed hs := absurd hs (hstored _)
  passed_minted hp := by simp [hpassed] at hp
  passed_nodup m := by simp [hpassed]

theorem lose
    (h : Sound depot s)
    (hminted : ∀ j, s.minted j → t.minted j)
    (hstored : ∀ j, t.stored j → s.stored j)
    (hholder : t.holder = s.holder)
    (hpassed : t.passed = s.passed) :
    Sound depot t where
  held_minted hd := hminted _ (h.held_minted (hholder ▸ hd))
  held_not_stored hd hs := h.held_not_stored (hholder ▸ hd) (hstored _ hs)
  held_unique hd he := h.held_unique (hholder ▸ hd) (hholder ▸ he)
  held_passed hd m := hpassed ▸ h.held_passed (hholder ▸ hd) m
  stored_minted hs := hminted _ (h.stored_minted (hstored _ hs))
  stored_passed hs m := hpassed ▸ h.stored_passed (hstored _ hs) m
  passed_minted hp := hminted _ (h.passed_minted (hpassed ▸ hp))
  passed_nodup m := hpassed ▸ h.passed_nodup m

/-- A ticket that is in no place is put into the store. -/
theorem keep
    (h : Sound depot s) {i : ι}
    (hminted : s.minted i)
    (hheld : ∀ d m, s.holder d ≠ some (i, m))
    (hpassed : ∀ m, i ∈ s.passed m ↔ m < depot) :
    Sound depot { s with stored := fun j => s.stored j ∨ j = i } where
  held_minted := h.held_minted
  held_not_stored hd := by
    rintro (hs | rfl)
    · exact h.held_not_stored hd hs
    · exact hheld _ _ hd
  held_unique := h.held_unique
  held_passed := h.held_passed
  stored_minted := by
    rintro j (hs | rfl)
    · exact h.stored_minted hs
    · exact hminted
  stored_passed := by
    rintro j (hs | rfl)
    · exact h.stored_passed hs
    · exact hpassed
  passed_minted := h.passed_minted
  passed_nodup := h.passed_nodup

/-- A ticket that is in no place passes the next stage. -/
theorem log
    (h : Sound depot s) {i : ι} {n : Nat}
    (hminted : s.minted i)
    (hstored : ¬ s.stored i)
    (hheld : ∀ d m, s.holder d ≠ some (i, m))
    (hpassed : i ∉ s.passed n) :
    Sound depot { s with passed := Function.update s.passed n (i :: s.passed n) } := by
  have hmem {j : ι} {m : Nat} :
      j ∈ Function.update s.passed n (i :: s.passed n) m ↔ j ∈ s.passed m ∨ (j = i ∧ m = n) := by
    by_cases hm : m = n
    · subst hm
      rw [Function.update_self, List.mem_cons]
      tauto
    · rw [Function.update_of_ne hm]
      simp [hm]
  have hother {j : ι} {m : Nat} (hj : j ≠ i) :
      j ∈ Function.update s.passed n (i :: s.passed n) m ↔ j ∈ s.passed m := by
    rw [hmem]
    simp [hj]
  exact {
    held_minted := h.held_minted
    held_not_stored := h.held_not_stored
    held_unique := h.held_unique
    held_passed := by
      intro c j k hd m
      have hj : j ≠ i := by
        rintro rfl
        exact hheld c k hd
      exact (hother hj).trans (h.held_passed hd m)
    stored_minted := h.stored_minted
    stored_passed := by
      intro j hs m
      have hj : j ≠ i := by
        rintro rfl
        exact hstored hs
      exact (hother hj).trans (h.stored_passed hs m)
    passed_minted := fun hp => by
      rcases hmem.mp hp with hp | ⟨rfl, -⟩
      · exact h.passed_minted hp
      · exact hminted
    passed_nodup := by
      intro m
      show (Function.update s.passed n (i :: s.passed n) m).Nodup
      by_cases hm : m = n
      · subst hm
        rw [Function.update_self]
        exact List.nodup_cons.mpr ⟨hpassed, h.passed_nodup m⟩
      · rw [Function.update_of_ne hm]
        exact h.passed_nodup m }

variable [DecidableEq γ]

theorem drop
    (h : Sound depot s) (c : γ) :
    Sound depot { s with holder := Function.update s.holder c none } := by
  have hold {d : γ} {i : ι} {n : Nat}
      (hd : Function.update s.holder c none d = some (i, n)) : s.holder d = some (i, n) := by
    by_cases hdc : d = c
    · subst hdc
      simp at hd
    · rwa [Function.update_of_ne hdc] at hd
  exact {
    held_minted := fun hd => h.held_minted (hold hd)
    held_not_stored := fun hd => h.held_not_stored (hold hd)
    held_unique := fun hd he => h.held_unique (hold hd) (hold he)
    held_passed := fun hd => h.held_passed (hold hd)
    stored_minted := h.stored_minted
    stored_passed := h.stored_passed
    passed_minted := h.passed_minted
    passed_nodup := h.passed_nodup }

/-- A caller gets a ticket that is in no other place. -/
theorem give
    (h : Sound depot s) {c : γ} {i : ι} {n : Nat}
    (hfree : s.holder c = none)
    (hminted : s.minted i)
    (hstored : ¬ s.stored i)
    (hheld : ∀ d m, s.holder d ≠ some (i, m))
    (hpassed : ∀ m, i ∈ s.passed m ↔ m < n) :
    Sound depot { s with holder := Function.update s.holder c (some (i, n)) } := by
  have hold {d : γ} {j : ι} {m : Nat}
      (hd : Function.update s.holder c (some (i, n)) d = some (j, m)) :
      d = c ∧ j = i ∧ m = n ∨ d ≠ c ∧ j ≠ i ∧ s.holder d = some (j, m) := by
    by_cases hdc : d = c
    · subst hdc
      rw [Function.update_self] at hd
      cases hd
      exact Or.inl ⟨rfl, rfl, rfl⟩
    · rw [Function.update_of_ne hdc] at hd
      refine Or.inr ⟨hdc, ?_, hd⟩
      rintro rfl
      exact hheld d m hd
  exact {
    held_minted := fun hd => by
      rcases hold hd with ⟨-, rfl, -⟩ | ⟨-, -, hd⟩
      · exact hminted
      · exact h.held_minted hd
    held_not_stored := fun hd => by
      rcases hold hd with ⟨-, rfl, -⟩ | ⟨-, -, hd⟩
      · exact hstored
      · exact h.held_not_stored hd
    held_unique := fun hd he => by
      rcases hold hd with ⟨rfl, rfl, -⟩ | ⟨-, hj, hd⟩
      · rcases hold he with ⟨rfl, -, -⟩ | ⟨-, hj, -⟩
        · rfl
        · exact absurd rfl hj
      · rcases hold he with ⟨-, rfl, -⟩ | ⟨-, -, he⟩
        · exact absurd rfl hj
        · exact h.held_unique hd he
    held_passed := fun hd => by
      rcases hold hd with ⟨-, rfl, rfl⟩ | ⟨-, -, hd⟩
      · exact hpassed
      · exact h.held_passed hd
    stored_minted := h.stored_minted
    stored_passed := h.stored_passed
    passed_minted := h.passed_minted
    passed_nodup := h.passed_nodup }

/-- After the holder of a ticket has let it go, it is in no place. -/
theorem not_held_after_drop
    (h : Sound depot s) {c : γ} {i : ι} {n : Nat}
    (hheld : s.holder c = some (i, n))
    (d : γ) (m : Nat) :
    Function.update s.holder c none d ≠ some (i, m) := by
  by_cases hdc : d = c
  · subst hdc
    simp
  · rw [Function.update_of_ne hdc]
    exact fun hd => hdc (h.held_unique hd hheld)

/-- A move keeps the tickets sound. -/
theorem of_move
    (h : Sound depot s) (hmove : Move depot s t) :
    Sound depot t := by
  cases hmove with
  | mint c i hfree hnew =>
      have hlost := h.lose (t := { s with minted := fun j => s.minted j ∨ j = i })
        (fun j => Or.inl) (fun j => id) rfl rfl
      refine hlost.give hfree (Or.inr rfl) (fun hs => hnew (h.stored_minted hs))
        (fun d m hd => hnew (h.held_minted hd)) fun m => ?_
      simpa using fun hp => hnew (h.passed_minted hp)
  | @pass c i n hheld =>
      have hpassed := h.held_passed hheld
      have hlogged := (h.drop c).log (n := n) (h.held_minted hheld) (h.held_not_stored hheld)
        (h.not_held_after_drop hheld) (by simp [hpassed])
      have hgiven := hlogged.give (c := c) (n := n + 1) (i := i) (by simp)
        (h.held_minted hheld) (h.held_not_stored hheld) (h.not_held_after_drop hheld) (fun m => by
          by_cases hm : m = n
          · subst hm
            simp
          · simp only [Function.update_of_ne hm, hpassed]
            omega)
      simpa using hgiven
  | @deposit c i hheld =>
      exact (h.drop c).keep (h.held_minted hheld) (h.not_held_after_drop hheld)
        (h.held_passed hheld)
  | @take c i hfree hstored =>
      have hlost := h.lose (t := { s with stored := fun j => s.stored j ∧ j ≠ i })
        (fun j => id) (fun j => And.left) rfl rfl
      exact hlost.give hfree (h.stored_minted hstored) (fun hs => hs.2 rfl)
        (fun d m hd => h.held_not_stored hd hstored) (h.stored_passed hstored)
  | drop c =>
      exact h.drop c
  | lose hminted hstored hholder hpassed =>
      exact h.lose hminted hstored hholder hpassed

/-- Whatever moves are made, the tickets stay sound. -/
theorem of_moves
    (h : Sound depot s) (hmoves : Relation.ReflTransGen (Move depot) s t) :
    Sound depot t := by
  induction hmoves with
  | refl => exact h
  | tail _ hmove ih => exact ih.of_move hmove

end Sound

end Moves

end Ticket
end GatewayRuntime
