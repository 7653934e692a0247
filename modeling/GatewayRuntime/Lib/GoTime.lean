import Mathlib.Tactic

/-!
# Instants and durations of the Go standard library

* An instant (`time.Time`) is an `Int`: the nanoseconds since the zero Time,
  January 1 of year 1.  The zero Time itself is the value `0`, which Go programs
  use for "not set" (`IsZero`).  The seconds of a `time.Time` are a signed
  64-bit number, so sums of an instant and a duration do not wrap in the range
  of any clock and are taken in `Int`.
* A duration (`time.Duration`) is a signed 64-bit number of nanoseconds with
  wrapping arithmetic, `Int64`.
* `Sub` saturates at the ends of the range of a duration.
* `time.Unix` adds the seconds of the year-1 epoch in wrapping 64-bit
  arithmetic before it forms the instant.
-/

namespace GatewayRuntime

/-- `time.Duration`: nanoseconds in a signed 64-bit word. -/
abbrev Duration := Int64

namespace Duration

def millisecond : Duration := 1000000

def second : Duration := 1000000000

def minute : Duration := 60000000000

def hour : Duration := 3600000000000

/-- `d.Seconds()`, as an exact number. -/
def seconds (d : Duration) : ℚ :=
  d.toInt / 1000000000

@[simp] theorem toInt_second : second.toInt = 1000000000 := by
  decide

end Duration

namespace GoTime

/-- `Time.IsZero`. -/
def isZero (t : Int) : Bool :=
  t == 0

/-- `t.After(u)`. -/
def after (t u : Int) : Bool :=
  decide (u < t)

/-- `t.Add(d)`. -/
def add (t : Int) (d : Duration) : Int :=
  t + d.toInt

/-- `t.Sub(u)`, saturating at the largest and the smallest duration. -/
def sub (t u : Int) : Duration :=
  if t - u < -2 ^ 63 then Int64.minValue
  else if 2 ^ 63 ≤ t - u then Int64.maxValue
  else Int64.ofInt (t - u)

/-- The seconds from the zero Time to an instant, as an exact number. -/
def seconds (t : Int) : ℚ :=
  t / 1000000000

/-- Seconds from the zero Time to January 1, 1970. -/
def unixToInternal : Int64 := 62135596800

/-- `time.Unix(sec, 0)`. -/
def unix (sec : Int64) : Int :=
  (sec + unixToInternal).toInt * 1000000000

/-- `t.Unix()`. -/
def unixSeconds (t : Int) : Int :=
  t / 1000000000 - unixToInternal.toInt

@[simp] theorem isZero_iff (t : Int) :
    isZero t = true ↔ t = 0 := by
  simp [isZero]

@[simp] theorem after_iff (t u : Int) :
    after t u = true ↔ u < t := by
  simp [after]

@[simp] theorem after_eq_false_iff (t u : Int) :
    after t u = false ↔ t ≤ u := by
  simp [after]

/-- The exact value of a saturated difference. -/
theorem toInt_sub (t u : Int) :
    (sub t u).toInt = max (-2 ^ 63) (min (t - u) (2 ^ 63 - 1)) := by
  unfold sub
  split_ifs with hlow hhigh
  · rw [show Int64.minValue.toInt = -2 ^ 63 by decide]
    omega
  · rw [show Int64.maxValue.toInt = 2 ^ 63 - 1 by decide]
    omega
  · rw [Int64.toInt_ofInt, show Int64.size = 2 ^ 64 from rfl,
      Int.bmod_eq_of_le (by omega) (by omega)]
    omega

/-- Comparing a saturated difference with a positive duration is comparing the
exact difference. -/
theorem le_sub_iff
    {d : Duration} (hd : 0 < d) (t u : Int) :
    d ≤ sub t u ↔ d.toInt ≤ t - u := by
  have hpos : 0 < d.toInt := by
    simpa using Int64.lt_iff_toInt_lt.mp hd
  have hmax := Int64.toInt_lt d
  rw [Int64.le_iff_toInt_le, toInt_sub]
  omega

theorem sub_lt_iff
    {d : Duration} (hd : 0 < d) (t u : Int) :
    sub t u < d ↔ t - u < d.toInt := by
  have hle := le_sub_iff hd t u
  rw [← Int64.not_le, hle]
  omega

theorem sub_pos
    {t u : Int} (h : u < t) :
    0 < sub t u := by
  rw [Int64.lt_iff_toInt_lt, toInt_sub]
  simp only [Int64.toInt_zero]
  omega

theorem seconds_le_seconds
    {t u : Int} :
    seconds t ≤ seconds u ↔ t ≤ u := by
  unfold seconds
  rw [div_le_div_iff_of_pos_right (by norm_num), Int.cast_le]

/-- A difference that is not negative is at most the exact one. -/
theorem seconds_sub_le
    {t u : Int} (h : u ≤ t) :
    (sub t u).seconds ≤ seconds t - seconds u := by
  have hle : (sub t u).toInt ≤ t - u := by
    rw [toInt_sub]
    omega
  unfold Duration.seconds seconds
  rw [← sub_div, div_le_div_iff_of_pos_right (by norm_num)]
  exact_mod_cast hle

theorem seconds_sub_nonneg
    {t u : Int} (h : u ≤ t) :
    0 ≤ (sub t u).seconds := by
  have hle : 0 ≤ (sub t u).toInt := by
    rw [toInt_sub]
    omega
  unfold Duration.seconds
  exact div_nonneg (by exact_mod_cast hle) (by norm_num)

/-- An instant in whole seconds is later than a clock reading only if its
seconds are. -/
theorem unixSeconds_lt_of_lt_unix
    {sec : Int64} {t : Int}
    (hlt : t < unix sec) :
    unixSeconds t < sec.toInt := by
  have hsum := Int64.toInt_add sec unixToInternal
  have hoff : unixToInternal.toInt = 62135596800 := by decide
  have hhigh := Int64.toInt_lt sec
  have hlow := Int64.le_toInt sec
  unfold unix at hlt
  unfold unixSeconds
  rw [hoff] at hsum ⊢
  have hle : (sec + unixToInternal).toInt ≤ sec.toInt + 62135596800 := by
    rw [hsum, Int.bmod_def]
    split_ifs <;> omega
  omega

end GoTime
end GatewayRuntime
