import Mathlib.Tactic

/-!
# Computations that log their calls and may stop early

`Traced κ ε α` is the outcome of a request handler: the calls it made to its
collaborators, in order, and either an early answer `ε` or a value `α` with
which it goes on.  Sequencing keeps the calls made before an early answer, so a
statement about the list `calls` is a statement about what had happened before
a given call.
-/

namespace GatewayRuntime

universe u v w

/-- The calls made so far and the early answer or the value reached. -/
structure Traced (κ : Type u) (ε : Type v) (α : Type w) where
  calls : List κ
  result : Except ε α

namespace Traced

variable {κ : Type u} {ε : Type v} {α β : Type w}

/-- Go on with a value, without a call. -/
def done (a : α) : Traced κ ε α :=
  ⟨[], .ok a⟩

/-- Answer early, without a call. -/
def stop (e : ε) : Traced κ ε α :=
  ⟨[], .error e⟩

/-- A computation that makes no call. -/
def lift (x : Except ε α) : Traced κ ε α :=
  ⟨[], x⟩

/-- Make one call and go on with what it returned. -/
def call (k : κ) (a : α) : Traced κ ε α :=
  ⟨[k], .ok a⟩

/-- Run `x`, then `f` on its value unless `x` answered early. -/
def andThen (x : Traced κ ε α) (f : α → Traced κ ε β) : Traced κ ε β :=
  match x.result with
  | .error e => ⟨x.calls, .error e⟩
  | .ok a => ⟨x.calls ++ (f a).calls, (f a).result⟩

instance : Monad (Traced κ ε) where
  pure := done
  bind := andThen

theorem bind_of_error
    {x : Traced κ ε α} {e : ε} {f : α → Traced κ ε β}
    (hx : x.result = .error e) :
    (x >>= f) = ⟨x.calls, .error e⟩ := by
  show andThen x f = _
  simp [andThen, hx]

theorem bind_of_ok
    {x : Traced κ ε α} {a : α} {f : α → Traced κ ε β}
    (hx : x.result = .ok a) :
    (x >>= f) = ⟨x.calls ++ (f a).calls, (f a).result⟩ := by
  show andThen x f = _
  simp [andThen, hx]

@[simp] theorem lift_error_bind (e : ε) (f : α → Traced κ ε β) :
    (lift (.error e) >>= f) = stop e := by
  rfl

@[simp] theorem lift_ok_bind (a : α) (f : α → Traced κ ε β) :
    (lift (.ok a) >>= f) = f a := by
  rfl

@[simp] theorem call_bind (k : κ) (a : α) (f : α → Traced κ ε β) :
    (call k a >>= f) = ⟨k :: (f a).calls, (f a).result⟩ := by
  rfl

/-- A call that the first of two parts did not make was made by the second. -/
theorem split_of_notMem
    {front rest before after : List κ} {k : κ}
    (hk : k ∉ front) (h : front ++ rest = before ++ k :: after) :
    ∃ before', before = front ++ before' ∧ rest = before' ++ k :: after := by
  rcases List.append_eq_append_iff.mp h with ⟨between, hbefore, hrest⟩ | ⟨between, hfront, hrest⟩
  · exact ⟨between, hbefore, hrest⟩
  · cases between with
    | nil =>
        exact ⟨[], by simpa using hfront.symm, by simpa using hrest.symm⟩
    | cons k' between =>
        obtain ⟨rfl, -⟩ := List.cons.inj hrest
        rw [hfront] at hk
        exact absurd (List.mem_append_right _ List.mem_cons_self) hk

/-- A call logged by a sequence was made by its first part, or by its second
part after the first had succeeded. -/
theorem bind_split
    {x : Traced κ ε α} {f : α → Traced κ ε β}
    {before after : List κ} {k : κ}
    (h : (x >>= f).calls = before ++ k :: after) :
    k ∈ x.calls ∨
      ∃ a before',
        x.result = .ok a ∧
        before = x.calls ++ before' ∧
        (f a).calls = before' ++ k :: after := by
  cases hx : x.result with
  | error e =>
      rw [bind_of_error hx] at h
      left
      rw [show x.calls = before ++ k :: after from h]
      simp
  | ok a =>
      rw [bind_of_ok hx] at h
      by_cases hk : k ∈ x.calls
      · exact Or.inl hk
      · obtain ⟨before', hbefore, hrest⟩ := split_of_notMem hk h
        exact Or.inr ⟨a, before', rfl, hbefore, hrest⟩

end Traced
end GatewayRuntime
