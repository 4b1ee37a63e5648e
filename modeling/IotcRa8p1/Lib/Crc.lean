import Mathlib.Algebra.Polynomial.Div
import Mathlib.Algebra.CharP.Two
import Mathlib.Algebra.Field.ZMod
import Mathlib.RingTheory.Polynomial.Basic

/-!
# Cyclic redundancy codes

A register of `w` bits stands for a polynomial over `ZMod 2`, the low bit for the highest power.  The
reflected register shifts to the right and takes up the generator when a one falls out, which is a
multiplication by `X` modulo the generator; a word of input is added to the low bits before as many shifts
as it has bits.

`register_eq_mod` says what a register that has taken up a message holds: the remainder of the message, shifted
to the left by `w`, with the initial register in front of it.
-/

namespace IotcRa8p1.Crc

open Polynomial

variable {v w : ℕ}

/-- A bit as a coefficient. -/
def bit (b : Bool) : ZMod 2 := if b = true then 1 else 0

theorem bit_xor (a b : Bool) : bit (a ^^ b) = bit a + bit b := by
  cases a <;> cases b <;> decide

/-- Bit `i` of a register is the coefficient of `X ^ (w - 1 - i)`. -/
noncomputable def toPoly (c : BitVec w) : (ZMod 2)[X] :=
  ∑ i ∈ Finset.range w, C (bit (c.getLsbD i)) * X ^ (w - 1 - i)

/-- The generator with the bits of `g` below `X ^ w`. -/
noncomputable def generator (g : BitVec w) : (ZMod 2)[X] := X ^ w + toPoly g

/-- One shift of the reflected register. -/
def shift (g c : BitVec w) : BitVec w := (c >>> 1) ^^^ (if c.getLsbD 0 = true then g else 0#w)

/-- A word of input. -/
def feed (g c : BitVec w) (b : BitVec v) : BitVec w := (shift g)^[v] (c ^^^ b.setWidth w)

/-- The bits of a message as coefficients, the low bit of its first word for the highest power. -/
noncomputable def message (bs : List (BitVec v)) : (ZMod 2)[X] :=
  bs.foldl (fun m b => X ^ v * m + toPoly b) 0

/-! ### Registers as polynomials -/

theorem coeff_toPoly (c : BitVec w) (k : ℕ) :
    (toPoly c).coeff k = if k < w then bit (c.getLsbD (w - 1 - k)) else 0 := by
  rw [toPoly, finsetSum_coeff]
  simp only [coeff_C_mul_X_pow]
  split_ifs with hk
  · rw [Finset.sum_eq_single (w - 1 - k)]
    · rw [if_pos (by omega)]
    · intro i hi hne
      rw [Finset.mem_range] at hi
      exact if_neg (by omega)
    · intro hnot
      rw [Finset.mem_range] at hnot
      omega
  · refine Finset.sum_eq_zero fun i hi => if_neg ?_
    rw [Finset.mem_range] at hi
    omega

theorem toPoly_inj {a b : BitVec w} (h : toPoly a = toPoly b) : a = b := by
  apply BitVec.eq_of_getLsbD_eq
  intro i hi
  have hcoeff := congrArg (fun p => p.coeff (w - 1 - i)) h
  simp only [coeff_toPoly, show w - 1 - i < w by omega, if_true,
    show w - 1 - (w - 1 - i) = i by omega] at hcoeff
  revert hcoeff
  cases a.getLsbD i <;> cases b.getLsbD i <;> decide

theorem degree_toPoly_lt (c : BitVec w) : (toPoly c).degree < w := by
  rw [degree_lt_iff_coeff_zero]
  intro k hk
  rw [coeff_toPoly, if_neg (by omega)]

theorem toPoly_xor (a b : BitVec w) : toPoly (a ^^^ b) = toPoly a + toPoly b := by
  ext k
  rw [coeff_add, coeff_toPoly, coeff_toPoly, coeff_toPoly]
  split_ifs
  · rw [BitVec.getLsbD_xor, bit_xor]
  · rw [add_zero]

theorem toPoly_zero : toPoly (0#w) = 0 := by
  ext k
  rw [coeff_toPoly, coeff_zero]
  split_ifs
  · simp [bit]
  · rfl

/-- The words of a message stand in the low bits. -/
theorem toPoly_setWidth (h : v ≤ w) (b : BitVec v) :
    toPoly (b.setWidth w) = X ^ (w - v) * toPoly b := by
  ext k
  rw [coeff_toPoly, coeff_X_pow_mul', coeff_toPoly]
  by_cases hk : k < w
  · rw [if_pos hk, BitVec.getLsbD_setWidth]
    by_cases hlow : w - v ≤ k
    · rw [if_pos hlow, if_pos (by omega), show w - 1 - k = v - 1 - (k - (w - v)) by omega]
      simp [show v - 1 - (k - (w - v)) < w by omega]
    · rw [if_neg hlow, BitVec.getLsbD_of_ge b (w - 1 - k) (by omega)]
      simp [bit]
  · rw [if_neg hk, if_pos (by omega), if_neg (by omega)]

/-! ### The shift -/

/-- A shift multiplies by `X`, up to the generator. -/
theorem X_mul_toPoly (hw : 0 < w) (g c : BitVec w) :
    X * toPoly c = toPoly (shift g c) + C (bit (c.getLsbD 0)) * generator g := by
  have hshift : X * toPoly c = toPoly (c >>> 1) + C (bit (c.getLsbD 0)) * X ^ w := by
    ext k
    rw [coeff_add, coeff_C_mul, coeff_X_pow, coeff_toPoly, BitVec.getLsbD_ushiftRight]
    cases k with
    | zero =>
      rw [coeff_X_mul_zero, if_pos hw, if_neg (by omega), BitVec.getLsbD_of_ge c _ (by omega)]
      simp [bit]
    | succ k =>
      rw [coeff_X_mul, coeff_toPoly]
      by_cases hk : k + 1 < w
      · rw [if_pos (by omega), if_pos hk, if_neg (by omega), mul_zero, add_zero,
          show 1 + (w - 1 - (k + 1)) = w - 1 - k by omega]
      · by_cases hlast : k + 1 = w
        · rw [if_pos (by omega), if_neg hk, if_pos hlast, mul_one, zero_add,
            show w - 1 - k = 0 by omega]
        · rw [if_neg (by omega), if_neg hk, if_neg hlast, mul_zero, add_zero]
  rw [hshift, shift, toPoly_xor, generator]
  cases c.getLsbD 0 with
  | false => simp [bit, toPoly_zero]
  | true =>
    simp only [bit, if_true, C_1, one_mul]
    rw [add_assoc, ← add_assoc (toPoly g), add_comm (toPoly g), add_assoc (X ^ w),
      CharTwo.add_self_eq_zero, add_zero]

theorem generator_dvd_shift (hw : 0 < w) (g c : BitVec w) :
    generator g ∣ X * toPoly c - toPoly (shift g c) := by
  rw [X_mul_toPoly hw g c, add_sub_cancel_left]
  exact dvd_mul_left _ _

theorem generator_dvd_shifts (hw : 0 < w) (g c : BitVec w) (n : ℕ) :
    generator g ∣ X ^ n * toPoly c - toPoly ((shift g)^[n] c) := by
  induction n generalizing c with
  | zero => simp
  | succ n ih =>
    have hsplit : X ^ (n + 1) * toPoly c - toPoly ((shift g)^[n + 1] c) =
        X ^ n * (X * toPoly c - toPoly (shift g c)) +
          (X ^ n * toPoly (shift g c) - toPoly ((shift g)^[n] (shift g c))) := by
      rw [Function.iterate_succ_apply]
      ring
    rw [hsplit]
    exact dvd_add (Dvd.dvd.mul_left (generator_dvd_shift hw g c) _) (ih (shift g c))

/-- A word of input. -/
theorem generator_dvd_feed (hw : 0 < w) (hvw : v ≤ w) (g c : BitVec w) (b : BitVec v) :
    generator g ∣ (X ^ v * toPoly c + X ^ w * toPoly b) - toPoly (feed g c b) := by
  have hin : X ^ v * toPoly (c ^^^ b.setWidth w) = X ^ v * toPoly c + X ^ w * toPoly b := by
    rw [toPoly_xor, toPoly_setWidth hvw, mul_add, ← mul_assoc, ← pow_add,
      show v + (w - v) = w by omega]
  rw [← hin]
  exact generator_dvd_shifts hw g _ v

/-! ### The register behind a message -/

theorem message_concat (bs : List (BitVec v)) (b : BitVec v) :
    message (bs ++ [b]) = X ^ v * message bs + toPoly b := by
  rw [message, List.foldl_append]
  rfl

theorem generator_dvd_register (hw : 0 < w) (hvw : v ≤ w) (g init : BitVec w)
    (bs : List (BitVec v)) :
    generator g ∣ (X ^ (v * bs.length) * toPoly init + X ^ w * message bs) -
      toPoly (bs.foldl (feed g) init) := by
  induction bs using List.reverseRecOn with
  | nil => simp [message]
  | append_singleton bs b ih =>
    have hsplit : (X ^ (v * (bs ++ [b]).length) * toPoly init + X ^ w * message (bs ++ [b])) -
          toPoly ((bs ++ [b]).foldl (feed g) init) =
        X ^ v * ((X ^ (v * bs.length) * toPoly init + X ^ w * message bs) -
            toPoly (bs.foldl (feed g) init)) +
          ((X ^ v * toPoly (bs.foldl (feed g) init) + X ^ w * toPoly b) -
            toPoly (feed g (bs.foldl (feed g) init) b)) := by
      rw [message_concat, List.foldl_concat, List.length_append, List.length_singleton]
      ring
    rw [hsplit]
    exact dvd_add (Dvd.dvd.mul_left ih _) (generator_dvd_feed hw hvw g _ b)

theorem monic_generator (g : BitVec w) : (generator g).Monic :=
  monic_X_pow_add (degree_toPoly_lt g)

theorem degree_generator (g : BitVec w) : (generator g).degree = w := by
  rw [generator, degree_add_eq_left_of_degree_lt, degree_X_pow]
  rw [degree_X_pow]
  exact degree_toPoly_lt g

/-- **The register** holds the remainder of the message by the generator. -/
theorem register_eq_mod (hw : 0 < w) (hvw : v ≤ w) (g init : BitVec w) (bs : List (BitVec v)) :
    toPoly (bs.foldl (feed g) init) =
      (X ^ (v * bs.length) * toPoly init + X ^ w * message bs) %ₘ generator g := by
  have hmonic := monic_generator g
  have hself : toPoly (bs.foldl (feed g) init) %ₘ generator g = toPoly (bs.foldl (feed g) init) :=
    (modByMonic_eq_self_iff hmonic).mpr (by rw [degree_generator]; exact degree_toPoly_lt _)
  rw [modByMonic_eq_of_dvd_sub hmonic (generator_dvd_register hw hvw g init bs), hself]

end IotcRa8p1.Crc
