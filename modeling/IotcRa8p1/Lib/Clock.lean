import Mathlib.Algebra.Order.Floor.Semiring
import Mathlib.Algebra.Order.Floor.Ring
import Mathlib.Tactic.FieldSimp
import Mathlib.Tactic.Linarith
import Mathlib.Tactic.Ring

/-!
# A counter of elapsed time that wraps

A time `u` (in seconds, in any ordered field with a floor) is counted in ticks, `rate` of them a
second, and the counter keeps the count modulo `m`.  `elapsed_readings` says what the difference of two
readings is, `counter_div` which seconds are read off one, `floor_latch` how far whole seconds can drift
when a second clock is latched against it.
-/

namespace IotcRa8p1.Clock

/-! ### Readings -/

/-- What a program that reads the counter at `start` and at `now` gets as their difference. -/
def elapsed (m start now : ℕ) : ℕ := (now + (m - start)) % m

/-- **The difference of two readings** is the time between them, up to whole turns. -/
theorem elapsed_readings {m start now : ℕ} (hm : 0 < m) (h : start ≤ now) :
    elapsed m (start % m) (now % m) = (now - start) % m := by
  have hlt : start % m < m := Nat.mod_lt start hm
  have hdiv : start % m + m * (start / m) = start := Nat.mod_add_div start m
  have hsplit : now + (m - start % m) = now - start + m + m * (start / m) := by omega
  rw [elapsed, Nat.mod_add_mod, hsplit, Nat.add_mul_mod_self_left, Nat.add_mod_right]

theorem elapsed_le {m start now : ℕ} (hm : 0 < m) (h : start ≤ now) :
    elapsed m (start % m) (now % m) ≤ now - start :=
  (elapsed_readings hm h).trans_le (Nat.mod_le _ _)

/-! ### Ticks of a time -/

variable {K : Type*} [Field K] [LinearOrder K] [FloorRing K]

/-- The ticks counted by the time `u`. -/
def ticks (rate : ℕ) (u : K) : ℕ := ⌊u * rate⌋₊

/-- What the counter reads. -/
def counter (m rate : ℕ) (u : K) : ℕ := ticks rate u % m

/-- How often it has wrapped. -/
def wraps (m rate : ℕ) (u : K) : ℕ := ticks rate u / m

variable [IsStrictOrderedRing K]

theorem wraps_mono (m rate : ℕ) {u v : K} (h : u ≤ v) : wraps m rate u ≤ wraps m rate v :=
  Nat.div_le_div_right (Nat.floor_le_floor (mul_le_mul_of_nonneg_right h (Nat.cast_nonneg rate)))

/-- **The seconds on the counter** are those since its last wrap. -/
theorem counter_div (m : ℕ) {rate : ℕ} (hrate : 0 < rate) {u : K} (hu : 0 ≤ u) :
    ((counter m rate u / rate : ℕ) : ℤ) = ⌊u - wraps m rate u * m / rate⌋ := by
  have hr : (0 : K) < rate := Nat.cast_pos.mpr hrate
  have hsplit : ticks rate u = counter m rate u + m * wraps m rate u :=
    (Nat.mod_add_div (ticks rate u) m).symm
  have hlow : (ticks rate u : K) ≤ u * rate := Nat.floor_le (mul_nonneg hu hr.le)
  have hhigh : u * rate < ticks rate u + 1 := Nat.lt_floor_add_one (u * rate)
  have hcast : (ticks rate u : K) = counter m rate u + m * wraps m rate u := by
    rw [hsplit]
    push_cast
    ring
  rw [hcast] at hlow hhigh
  -- the counter in whole seconds
  have hq1 : rate * (counter m rate u / rate) ≤ counter m rate u := Nat.mul_div_le _ _
  have hq2 : counter m rate u + 1 ≤ rate * (counter m rate u / rate) + rate :=
    Nat.lt_mul_div_succ _ hrate
  generalize counter m rate u / rate = q at hq1 hq2
  have hq1' : (rate : K) * q ≤ counter m rate u := by exact_mod_cast hq1
  have hq2' : (counter m rate u : K) + 1 ≤ rate * q + rate := by exact_mod_cast hq2
  have hscaled : (u - wraps m rate u * m / rate) * rate = u * rate - m * wraps m rate u := by
    field_simp
  symm
  rw [Int.floor_eq_iff]
  constructor
  · refine le_of_mul_le_mul_right ?_ hr
    rw [hscaled]
    push_cast
    linarith
  · refine lt_of_mul_lt_mul_right ?_ hr.le
    rw [hscaled]
    push_cast
    linarith

/-- **Latching whole seconds.**  A clock that shows `t`, latched in whole seconds against one that shows
`x`, is at most one second off the whole seconds of its own time when the other shows `y`. -/
theorem floor_latch (t x y : K) : |⌊t⌋ - ⌊x⌋ + ⌊y⌋ - ⌊t + (y - x)⌋| ≤ 1 := by
  have ht := Int.floor_le t
  have ht' := Int.lt_floor_add_one t
  have hx := Int.floor_le x
  have hx' := Int.lt_floor_add_one x
  have hy := Int.floor_le y
  have hy' := Int.lt_floor_add_one y
  have hlow : ⌊t⌋ - ⌊x⌋ + ⌊y⌋ - 1 ≤ ⌊t + (y - x)⌋ := by
    rw [Int.le_floor]
    push_cast
    linarith
  have hhigh : ⌊t + (y - x)⌋ < ⌊t⌋ - ⌊x⌋ + ⌊y⌋ + 2 := by
    rw [Int.floor_lt]
    push_cast
    linarith
  rw [abs_le]
  constructor <;> linarith

end IotcRa8p1.Clock
