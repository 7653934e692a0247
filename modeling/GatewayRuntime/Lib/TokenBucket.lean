import Mathlib.Tactic

/-!
# Amortised bounds for systems that spend credit

A system works through timed events and spends some credit at each of them.  The
credit of a state at a time is a potential: it never exceeds `burst`, it grows by
at most `rate` for a unit of time, and a step pays for what it spends out of it.

Then a run spends at most `burst + rate * (hi - lo)` on its events between the
times `lo` and `hi`, whatever happened before.  A token bucket is such a system; the plain one
stands at the end.
-/

namespace GatewayRuntime
namespace TokenBucket

universe u v

section Metering

variable {σ : Type u} {ε : Type v}

/-- What the events of a run between two times spend. -/
def spentIn
    (step : σ → ε → σ) (time : ε → ℚ) (spent : σ → ε → ℚ) (lo hi : ℚ) :
    σ → List ε → ℚ
  | _, [] => 0
  | s, e :: rest =>
      (if lo ≤ time e ∧ time e ≤ hi then spent s e else 0) +
        spentIn step time spent lo hi (step s e) rest

/-- The credit of a system pays for its events.  `Inv s t` says that the state
`s` has been reached by the time `t`. -/
structure Metered
    (step : σ → ε → σ) (time : ε → ℚ) (spent : σ → ε → ℚ)
    (Inv : σ → ℚ → Prop) (Valid : ε → Prop)
    (credit : σ → ℚ → ℚ) (rate burst : ℚ) : Prop where
  rate_nonneg : 0 ≤ rate
  inv_step : ∀ {s t e}, Inv s t → Valid e → t ≤ time e → Inv (step s e) (time e)
  credit_nonneg : ∀ {s t}, Inv s t → 0 ≤ credit s t
  credit_le : ∀ s t, credit s t ≤ burst
  credit_later : ∀ {s t t'}, Inv s t → t ≤ t' → credit s t' ≤ credit s t + rate * (t' - t)
  spent_nonneg : ∀ s e, 0 ≤ spent s e
  spent_le : ∀ {s t e}, Inv s t → Valid e → t ≤ time e →
    spent s e + credit (step s e) (time e) ≤ credit s (time e)

namespace Metered

variable {step : σ → ε → σ} {time : ε → ℚ} {spent : σ → ε → ℚ}
variable {Inv : σ → ℚ → Prop} {Valid : ε → Prop}
variable {credit : σ → ℚ → ℚ} {rate burst hi : ℚ}

/-- Nothing is spent between two times after the later one. -/
theorem spentIn_eq_zero
    {s : σ} {es : List ε}
    (h : ∀ e ∈ es, hi < time e) :
    spentIn step time spent lo hi s es = 0 := by
  induction es generalizing s with
  | nil =>
      rfl
  | cons e rest ih =>
      have hout : ¬ (lo ≤ time e ∧ time e ≤ hi) := fun hin =>
        absurd hin.2 (not_le.mpr (h e List.mem_cons_self))
      rw [spentIn, if_neg hout, ih fun e' he' => h e' (List.mem_cons_of_mem _ he')]
      exact zero_add 0

/-- From a time before `hi`, a run spends at most its credit and what comes in
until `hi`. -/
theorem spentIn_le_credit
    (h : Metered step time spent Inv Valid credit rate burst)
    (lo : ℚ) {s : σ} {t : ℚ} {es : List ε}
    (hinv : Inv s t)
    (ht : t ≤ hi)
    (hvalid : ∀ e ∈ es, Valid e)
    (hafter : ∀ e ∈ es, t ≤ time e)
    (hsorted : es.Pairwise fun e e' => time e ≤ time e') :
    spentIn step time spent lo hi s es ≤ credit s t + rate * (hi - t) := by
  induction es generalizing s t with
  | nil =>
      exact add_nonneg (h.credit_nonneg hinv) (mul_nonneg h.rate_nonneg (sub_nonneg.mpr ht))
  | cons e rest ih =>
      obtain ⟨hlater, hsorted⟩ := List.pairwise_cons.mp hsorted
      have hte := hafter e List.mem_cons_self
      have hve := hvalid e List.mem_cons_self
      by_cases hhi : time e ≤ hi
      · have hrest := ih (h.inv_step hinv hve hte) hhi
          (fun e' he' => hvalid e' (List.mem_cons_of_mem _ he')) hlater hsorted
        have hspent : (if lo ≤ time e ∧ time e ≤ hi then spent s e else 0) ≤ spent s e := by
          split_ifs
          · exact le_rfl
          · exact h.spent_nonneg s e
        calc spentIn step time spent lo hi s (e :: rest)
            ≤ spent s e + (credit (step s e) (time e) + rate * (hi - time e)) :=
              add_le_add hspent hrest
          _ ≤ credit s (time e) + rate * (hi - time e) := by
              linarith [h.spent_le hinv hve hte]
          _ ≤ credit s t + rate * (time e - t) + rate * (hi - time e) := by
              linarith [h.credit_later hinv hte]
          _ = credit s t + rate * (hi - t) := by
              ring
      · rw [spentIn_eq_zero]
        · exact add_nonneg (h.credit_nonneg hinv) (mul_nonneg h.rate_nonneg (sub_nonneg.mpr ht))
        · rintro e' (_ | ⟨_, he'⟩)
          · exact not_le.mp hhi
          · exact lt_of_lt_of_le (not_le.mp hhi) (hlater e' he')

/-- What a run spends between two times. -/
theorem spentIn_le
    (h : Metered step time spent Inv Valid credit rate burst)
    (hburst : 0 ≤ burst)
    (es : List ε) (lo hi : ℚ) {s : σ} {t : ℚ}
    (hinv : Inv s t)
    (hlo : lo ≤ hi)
    (hvalid : ∀ e ∈ es, Valid e)
    (hafter : ∀ e ∈ es, t ≤ time e)
    (hsorted : es.Pairwise fun e e' => time e ≤ time e') :
    spentIn step time spent lo hi s es ≤ burst + rate * (hi - lo) := by
  have hroom : 0 ≤ rate * (hi - lo) := mul_nonneg h.rate_nonneg (sub_nonneg.mpr hlo)
  induction es generalizing s t with
  | nil =>
      exact add_nonneg hburst hroom
  | cons e rest ih =>
      have hte := hafter e List.mem_cons_self
      have hve := hvalid e List.mem_cons_self
      obtain ⟨hlater, hsorted'⟩ := List.pairwise_cons.mp hsorted
      by_cases hin : lo ≤ time e ∧ time e ≤ hi
      · have hstep := h.inv_step hinv hve hte
        have hrest := h.spentIn_le_credit lo hstep hin.2
          (fun e' he' => hvalid e' (List.mem_cons_of_mem _ he')) hlater hsorted'
        have hrate : rate * (hi - time e) ≤ rate * (hi - lo) :=
          mul_le_mul_of_nonneg_left (by linarith [hin.1]) h.rate_nonneg
        rw [spentIn, if_pos hin]
        linarith [h.spent_le hinv hve hte, h.credit_le s (time e)]
      · rw [spentIn, if_neg hin, zero_add]
        exact ih (h.inv_step hinv hve hte)
          (fun e' he' => hvalid e' (List.mem_cons_of_mem _ he')) hlater hsorted'

end Metered

end Metering

section Buckets

/-- A token bucket: what it held when it was last used. -/
structure Bucket where
  tokens : ℚ
  last : ℚ

/-- A bucket that is full at a time. -/
def Bucket.full (burst start : ℚ) : Bucket :=
  ⟨burst, start⟩

variable (rate burst : ℚ)

/-- What the bucket holds at a time. -/
def Bucket.level (b : Bucket) (t : ℚ) : ℚ :=
  min burst (b.tokens + rate * (t - b.last))

/-- The bucket after a request: a whole token is taken if there is one. -/
def Bucket.take (b : Bucket) (t : ℚ) : Bool × Bucket :=
  if 1 ≤ b.level rate burst t then (true, ⟨b.level rate burst t - 1, t⟩)
  else (false, ⟨b.level rate burst t, t⟩)

/-- Whether each of the requests at some times gets a token. -/
def Bucket.answers : Bucket → List ℚ → List Bool
  | _, [] => []
  | b, t :: rest => (b.take rate burst t).1 :: Bucket.answers (b.take rate burst t).2 rest

variable {rate burst}

/-- Filling up until a time and then until a later one is filling up until the later one. -/
theorem min_fill
    {tokens last t t' : ℚ}
    (hrate : 0 ≤ rate) (ht : t ≤ t') :
    min burst (tokens + rate * (t' - last)) =
      min burst (min burst (tokens + rate * (t - last)) + rate * (t' - t)) := by
  have hroom : 0 ≤ rate * (t' - t) := mul_nonneg hrate (sub_nonneg.mpr ht)
  have hsplit : tokens + rate * (t - last) + rate * (t' - t) = tokens + rate * (t' - last) := by
    ring
  have hfull : min burst (burst + rate * (t' - t)) = burst := min_eq_left (by linarith)
  rw [min_add, hsplit, ← min_assoc, hfull]

theorem Bucket.level_later
    {b : Bucket} {t t' : ℚ}
    (hrate : 0 ≤ rate) (ht : t ≤ t') :
    b.level rate burst t' = min burst (b.level rate burst t + rate * (t' - t)) :=
  min_fill hrate ht

@[simp] theorem Bucket.level_full (start : ℚ) :
    (Bucket.full burst start).level rate burst start = burst := by
  simp [Bucket.level, Bucket.full]

/-- What is left in a bucket after a request. -/
theorem Bucket.level_take (b : Bucket) (t : ℚ) :
    (b.take rate burst t).2.level rate burst t =
      b.level rate burst t - if (b.take rate burst t).1 then 1 else 0 := by
  have hle : b.level rate burst t ≤ burst := min_le_left _ _
  have hused (x : ℚ) (hx : x ≤ burst) : (⟨x, t⟩ : Bucket).level rate burst t = x := by
    simp [Bucket.level, hx]
  by_cases htoken : 1 ≤ b.level rate burst t
  · simpa [Bucket.take, htoken] using hused _ (by linarith)
  · simpa [Bucket.take, htoken] using hused _ hle

end Buckets

end TokenBucket
end GatewayRuntime
