import Mathlib.Data.Option.Basic

/-!
# Error values of Go

An `error` is one of the distinguished values `ι` of a program (sentinels and
values of its own error types), a plain text, or the result of `fmt.Errorf` with
one `%w`, which keeps the wrapped error.  Unwrapping such a value meets at most
one distinguished value, at the end of the chain (`root`), and that is what
`errors.Is` and `errors.As` look at.

The result of a fallible computation is an `Except`.
-/

namespace GatewayRuntime

/-- An `error` value. -/
inductive GoError (ι : Type) where
  | leaf (e : ι)
  | text (message : String)
  | wrap (before after : String) (cause : GoError ι)
deriving DecidableEq

namespace GoError

variable {ι : Type}

/-- `err.Error()`, given the texts of the distinguished values. -/
def message (leafMessage : ι → String) : GoError ι → String
  | leaf e => leafMessage e
  | text m => m
  | wrap before after cause => before ++ cause.message leafMessage ++ after

/-- The distinguished value at the end of the chain of wrapped errors. -/
def root : GoError ι → Option ι
  | leaf e => some e
  | text _ => none
  | wrap _ _ cause => cause.root

/-- `errors.Is(err, target)`. -/
def is [DecidableEq ι] (err : GoError ι) (target : ι) : Bool :=
  err.root == some target

/-- `errors.As(err, &target)`, where `select` recognises the type of `target`. -/
def as {β : Type} (err : GoError ι) (select : ι → Option β) : Option β :=
  err.root.bind select

end GoError

section Sequences

variable {ε α β : Type} {x : Except ε α} {f : α → Except ε β} {b : β}

/-- A sequence of two computations succeeds when both do. -/
theorem bind_eq_ok_iff :
    (x >>= f) = .ok b ↔ ∃ a : α, x = .ok a ∧ f a = .ok b := by
  constructor
  · intro h
    cases hx : x with
    | error e =>
        rw [hx] at h
        cases h
    | ok a =>
        rw [hx] at h
        exact ⟨a, rfl, h⟩
  · rintro ⟨a, rfl, h⟩
    exact h

/-- Take a successful sequence of fallible computations apart. -/
theorem exists_of_bind_ok (h : (x >>= f) = .ok b) :
    ∃ a : α, x = .ok a ∧ f a = .ok b :=
  bind_eq_ok_iff.mp h

/-- A loop of checks succeeds when each of them does. -/
theorem forM_eq_ok_iff {check : α → Except ε Unit} {l : List α} :
    forM l check = .ok () ↔ ∀ a ∈ l, check a = .ok () := by
  induction l with
  | nil => exact iff_of_true rfl (by simp)
  | cons a l ih =>
      rw [List.forM_cons, bind_eq_ok_iff, List.forall_mem_cons, ← ih]
      exact ⟨fun ⟨_, ha, hl⟩ => ⟨ha, hl⟩, fun ⟨ha, hl⟩ => ⟨(), ha, hl⟩⟩

end Sequences

section Faults

variable {ε σ α : Type} {fault : Option ε} {before : σ} {normal : σ × Except ε α}

/-- An operation on a state which may fail; then it has no effect. -/
def withFault (fault : Option ε) (before : σ) (normal : σ × Except ε α) : σ × Except ε α :=
  match fault with
  | none => normal
  | some e => (before, .error e)

/-- What succeeds has not failed. -/
theorem withFault_ok {a : α} (h : (withFault fault before normal).2 = .ok a) :
    withFault fault before normal = normal ∧ normal.2 = .ok a := by
  cases fault with
  | none => exact ⟨rfl, h⟩
  | some e => cases h

/-- An error of an operation that has no effect when it returns one. -/
theorem withFault_error
    (hnormal : ∀ e, normal.2 = .error e → normal.1 = before)
    {e : ε} (h : (withFault fault before normal).2 = .error e) :
    (withFault fault before normal).1 = before := by
  cases fault with
  | none => exact hnormal e h
  | some e' => rfl

end Faults
end GatewayRuntime
