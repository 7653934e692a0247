import Mathlib.Data.List.Induction
import Mathlib.Data.Option.Basic
import Mathlib.Logic.Function.Basic

/-!
# Finite runs of a partial step function

A system is given by its states `σ`, its events `ε` and a partial step
function: `step s e = none` says that the event `e` is not enabled in `s`.
A run executes a list of events.  Nothing here depends on what the states and
the events are.

`Guarded step G s es` says that every event of the run meets the condition `G`
in the state in which it is taken.  The condition is on the state before the
step, so it can exclude a branch of the system without looking at its result.

Main facts:
* `exec_append_success`: a run splits at any point;
* `Reaches.here`, `Reaches.after`: a run that exists, step by step;
* `invariant_of_guarded`: what one guarded step preserves, a guarded run
  preserves;
* `exec_invariant`: the same rule when no event is excluded;
* `Guarded.iff_of_invariant`, `Guarded.imp_of_invariant`: guards may be exchanged
  or weakened under an invariant;
* `history_rule`: the rule for what depends on the events of the run as well;
  `EstablishedBy` names the event that made a property true for good;
* `update_cases`: what a step does to a family of which one component moves;
  `forall_update`: what holds of the whole family then.
-/

namespace GatewayRuntime
namespace Run

universe u v

variable {σ : Type u} {ε : Type v}

/-- Execute the events in order; `none` once an event is not enabled. -/
def exec (step : σ → ε → Option σ) : σ → List ε → Option σ
  | s, [] => some s
  | s, e :: es => (step s e).bind (fun s' => exec step s' es)

variable {step : σ → ε → Option σ}

/-- Peel the first event from a successful run. -/
theorem exec_cons_success
    {s t : σ} {e : ε} {es : List ε}
    (hrun : exec step s (e :: es) = some t) :
    ∃ s' : σ, step s e = some s' ∧ exec step s' es = some t := by
  simpa [exec, Option.bind_eq_some_iff] using hrun

/-- A run of a concatenation is the run of its parts one after the other. -/
theorem exec_append (s : σ) (es fs : List ε) :
    exec step s (es ++ fs) = (exec step s es).bind (fun s' => exec step s' fs) := by
  induction es generalizing s with
  | nil =>
      rfl
  | cons e es ih =>
      cases hstep : step s e with
      | none =>
          simp [exec, hstep]
      | some s' =>
          simp [exec, hstep, ih]

/-- Split a successful run after a prefix of its events. -/
theorem exec_append_success
    {s t : σ} {es fs : List ε}
    (hrun : exec step s (es ++ fs) = some t) :
    ∃ s' : σ, exec step s es = some s' ∧ exec step s' fs = some t := by
  rw [exec_append] at hrun
  exact Option.bind_eq_some_iff.mp hrun

/-- Some run from `s` leads to a state with the property `P`. -/
def Reaches (step : σ → ε → Option σ) (s : σ) (P : σ → Prop) : Prop :=
  ∃ es t, exec step s es = some t ∧ P t

theorem Reaches.here
    {s : σ} {P : σ → Prop}
    (h : P s) :
    Reaches step s P :=
  ⟨[], s, rfl, h⟩

/-- Take one step, and go on from there. -/
theorem Reaches.after
    {s s' : σ} {P : σ → Prop} {e : ε}
    (hstep : step s e = some s')
    (h : Reaches step s' P) :
    Reaches step s P := by
  obtain ⟨es, t, hrun, ht⟩ := h
  exact ⟨e :: es, t, by simp [exec, hstep, hrun], ht⟩

/-- Every event of the run meets `G` in the state in which it is taken. -/
def Guarded (step : σ → ε → Option σ) (G : σ → ε → Prop) : σ → List ε → Prop
  | _, [] => True
  | s, e :: es => G s e ∧ ∀ s', step s e = some s' → Guarded step G s' es

instance Guarded.decidable
    {G : σ → ε → Prop} [∀ s e, Decidable (G s e)] :
    ∀ (s : σ) (es : List ε), Decidable (Guarded step G s es)
  | _, [] => isTrue trivial
  | s, e :: es =>
      match hstep : step s e with
      | none =>
          decidable_of_iff (G s e) (by simp [Guarded, hstep])
      | some s' =>
          have := Guarded.decidable (G := G) s' es
          decidable_of_iff (G s e ∧ Guarded step G s' es) (by
            simp [Guarded, hstep])

/-- A prefix of a guarded run is guarded. -/
theorem Guarded.append_left
    {G : σ → ε → Prop} {s : σ} {es fs : List ε}
    (hg : Guarded step G s (es ++ fs)) :
    Guarded step G s es := by
  induction es generalizing s with
  | nil =>
      trivial
  | cons e es ih =>
      exact ⟨hg.1, fun s' hstep => ih (hg.2 s' hstep)⟩

/-- A guarded run stays guarded after any prefix. -/
theorem Guarded.append_right
    {G : σ → ε → Prop} {s t : σ} {es fs : List ε}
    (hg : Guarded step G s (es ++ fs))
    (hrun : exec step s es = some t) :
    Guarded step G t fs := by
  induction es generalizing s with
  | nil =>
      cases hrun
      exact hg
  | cons e es ih =>
      obtain ⟨s', hstep, hrest⟩ := exec_cons_success hrun
      exact ih (hg.2 s' hstep) hrest

/-- A run is guarded if its parts are. -/
theorem Guarded.append
    {G : σ → ε → Prop} {s : σ} {es fs : List ε}
    (hes : Guarded step G s es)
    (hfs : ∀ t, exec step s es = some t → Guarded step G t fs) :
    Guarded step G s (es ++ fs) := by
  induction es generalizing s with
  | nil =>
      exact hfs s rfl
  | cons e es ih =>
      refine ⟨hes.1, ?_⟩
      intro s' hstep
      refine ih (hes.2 s' hstep) ?_
      intro t hrun
      exact hfs t (by simp [exec, hstep, hrun])

/-- Two guards on one run. -/
theorem Guarded.and
    {G H : σ → ε → Prop} {s : σ} {es : List ε}
    (hg : Guarded step G s es) (hh : Guarded step H s es) :
    Guarded step (fun s e => G s e ∧ H s e) s es := by
  induction es generalizing s with
  | nil =>
      trivial
  | cons e es ih =>
      exact ⟨⟨hg.1, hh.1⟩, fun s' hstep => ih (hg.2 s' hstep) (hh.2 s' hstep)⟩

/-- Guards that agree on the enabled events of the states an invariant allows
agree on the runs from such a state. -/
theorem Guarded.iff_of_invariant
    {G H : σ → ε → Prop} {I : σ → Prop}
    (hinv : ∀ s e s', I s → step s e = some s' → I s')
    (hiff : ∀ s e s', I s → step s e = some s' → (G s e ↔ H s e))
    {s t : σ} {es : List ε}
    (hs : I s)
    (hrun : exec step s es = some t) :
    Guarded step G s es ↔ Guarded step H s es := by
  induction es generalizing s with
  | nil =>
      exact Iff.rfl
  | cons e es ih =>
      obtain ⟨s', hstep, hrest⟩ := exec_cons_success hrun
      have htail := ih (hinv s e s' hs hstep) hrest
      simp only [Guarded, hiff s e s' hs hstep, hstep, Option.some.injEq, forall_eq', htail]

/-- A guard follows from another one under an invariant that the first one
preserves. -/
theorem Guarded.imp_of_invariant
    {G H : σ → ε → Prop} {I : σ → Prop}
    (hinv : ∀ s e s', I s → G s e → step s e = some s' → I s')
    (himp : ∀ s e, I s → G s e → H s e)
    {s : σ} {es : List ε}
    (hs : I s)
    (hg : Guarded step G s es) :
    Guarded step H s es := by
  induction es generalizing s with
  | nil =>
      trivial
  | cons e es ih =>
      exact
        ⟨himp s e hs hg.1,
          fun s' hstep => ih (hinv s e s' hs hg.1 hstep) (hg.2 s' hstep)⟩

/-- **Invariant rule.**  What one guarded step preserves, a guarded run
preserves. -/
theorem invariant_of_guarded
    {G : σ → ε → Prop} {I : σ → Prop}
    (hinv : ∀ s e s', I s → G s e → step s e = some s' → I s')
    {s t : σ} {es : List ε}
    (hs : I s)
    (hg : Guarded step G s es)
    (hrun : exec step s es = some t) :
    I t := by
  induction es generalizing s with
  | nil =>
      cases hrun
      exact hs
  | cons e es ih =>
      obtain ⟨s', hstep, hrest⟩ := exec_cons_success hrun
      exact ih (hinv s e s' hs hg.1 hstep) (hg.2 s' hstep) hrest

/-- The invariant rule when no event is excluded. -/
theorem exec_invariant
    {I : σ → Prop}
    (hinv : ∀ s e s', I s → step s e = some s' → I s')
    {s t : σ} {es : List ε}
    (hs : I s)
    (hrun : exec step s es = some t) :
    I t := by
  induction es generalizing s with
  | nil =>
      cases hrun
      exact hs
  | cons e es ih =>
      obtain ⟨s', hstep, hrest⟩ := exec_cons_success hrun
      exact ih (hinv s e s' hs hstep) hrest

section History

/-- **History rule.**  What holds of the empty run and is kept when a run takes one
more event holds of every run and the state it leads to. -/
theorem history_rule
    {P : List ε → σ → Prop} {s : σ}
    (hnil : P [] s)
    (hsnoc : ∀ es t e t', exec step s es = some t → P es t → step t e = some t' →
      P (es ++ [e]) t')
    {es : List ε} {t : σ}
    (hrun : exec step s es = some t) :
    P es t := by
  induction es using List.reverseRecOn generalizing t with
  | nil =>
      cases hrun
      exact hnil
  | append_singleton es e ih =>
      obtain ⟨u, hes, hlast⟩ := exec_append_success hrun
      obtain ⟨u', hstep, hend⟩ := exec_cons_success hlast
      cases hend
      exact hsnoc es u e t hes (ih hes) hstep

/-- In the run `es` from `s` the event `e` made the states satisfy `P`, and they
have done so ever since. -/
def EstablishedBy (step : σ → ε → Option σ) (P : σ → Prop) (s : σ) (es : List ε) (e : ε) : Prop :=
  ∃ before after t u,
    es = before ++ e :: after ∧
      exec step s before = some t ∧
      ¬P t ∧
      step t e = some u ∧
      ∀ mid rest v, after = mid ++ rest → exec step u mid = some v → P v

variable {P : σ → Prop} {s t u : σ} {es : List ε} {e f : ε}

/-- The last event of the run. -/
theorem EstablishedBy.last
    (hrun : exec step s es = some t) (hbefore : ¬P t)
    (hstep : step t e = some u) (hafter : P u) :
    EstablishedBy step P s (es ++ [e]) e := by
  refine ⟨es, [], t, u, rfl, hrun, hbefore, hstep, ?_⟩
  intro mid rest v hsplit hmid
  obtain ⟨rfl, -⟩ := List.append_eq_nil_iff.mp hsplit.symm
  cases hmid
  exact hafter

/-- One more event that leads to a state with `P`. -/
theorem EstablishedBy.snoc
    (h : EstablishedBy step P s es e)
    (hrun : exec step s es = some t)
    (hstep : step t f = some u) (hafter : P u) :
    EstablishedBy step P s (es ++ [f]) e := by
  obtain ⟨before, after, t₁, u₁, rfl, hbefore, hnot, hfirst, hsince⟩ := h
  refine ⟨before, after ++ [f], t₁, u₁, by simp, hbefore, hnot, hfirst, ?_⟩
  intro mid rest v hsplit hmid
  rcases List.eq_nil_or_concat rest with rfl | ⟨rest', g, rfl⟩
  · obtain rfl : after ++ [f] = mid := by simpa using hsplit
    rw [exec_append, hbefore] at hrun
    simp only [Option.bind_some, exec, hfirst] at hrun
    simp only [exec_append, hrun, Option.bind_some, exec, hstep, Option.some.injEq] at hmid
    rwa [← hmid]
  · rw [List.concat_eq_append, ← List.append_assoc] at hsplit
    exact hsince mid rest' v (List.append_inj' hsplit rfl).1 hmid

end History

/-- One component of a family moves: it has its new value, and the others keep
theirs. -/
theorem update_cases
    {ι α : Type*} [DecidableEq ι] {f g : ι → α} {i : ι} {a : α}
    (h : g = Function.update f i a) (j : ι) :
    (j = i ∧ g j = a) ∨ (j ≠ i ∧ g j = f j) := by
  subst h
  by_cases hji : j = i
  · subst hji
    exact Or.inl ⟨rfl, Function.update_self j a f⟩
  · exact Or.inr ⟨hji, Function.update_of_ne hji a f⟩

/-- What holds of the new value, and of the others as they were, holds of the family. -/
theorem forall_update
    {ι α : Type*} [DecidableEq ι] {f g : ι → α} {i : ι} {a : α} {P : ι → α → Prop}
    (h : g = Function.update f i a)
    (hself : P i a)
    (hothers : ∀ j, j ≠ i → P j (f j)) :
    ∀ j, P j (g j) := by
  subst h
  exact (Function.forall_update_iff f P).mpr ⟨hself, hothers⟩

end Run
end GatewayRuntime
