import IotcRa8p1.Lib.ByteMem
import Mathlib.Data.Nat.Bitwise

/-!
# Bit fields of a word

A mask reads a field of a word where it stands (`and_mask`, `and_bit`), a disjunction with a shorter number is a
sum (`or_low`), and bytes are the number they stand for (`beBytes_beNat`, `beNat_lt`).
-/

namespace IotcRa8p1.BitField

open ByteMem

/-- The field of `n` bits at bit `loc`, left in its place. -/
theorem and_mask (w loc n : ℕ) : w &&& (2 ^ n - 1) * 2 ^ loc = w / 2 ^ loc % 2 ^ n * 2 ^ loc := by
  apply Nat.eq_of_testBit_eq
  intro i
  rw [Nat.testBit_and, Nat.testBit_mul_two_pow, Nat.testBit_mul_two_pow, Nat.testBit_two_pow_sub_one,
    Nat.testBit_mod_two_pow, Nat.testBit_div_two_pow]
  rcases Nat.lt_or_ge i loc with hlt | hge
  · simp [Nat.not_le.mpr hlt]
  · rw [Nat.sub_add_cancel hge]
    cases w.testBit i <;> simp

theorem and_bit (w loc : ℕ) : w &&& 2 ^ loc = w / 2 ^ loc % 2 * 2 ^ loc := by
  have h := and_mask w loc 1
  rwa [show (2 ^ 1 - 1) * 2 ^ loc = 2 ^ loc from Nat.one_mul _] at h

/-- Below a multiple of `2 ^ k` there is room for `k` bits. -/
theorem or_low {a b : ℕ} (k : ℕ) (ha : a % 2 ^ k = 0) (hb : b < 2 ^ k) : a ||| b = a + b := by
  obtain ⟨q, rfl⟩ := Nat.dvd_of_mod_eq_zero ha
  exact (Nat.two_pow_add_eq_or_of_lt hb q).symm

/-! ### Bytes of a word -/

theorem leBytes_leNat (bs : List UInt8) : leBytes bs.length (leNat bs) = bs := by
  induction bs with
  | nil => rfl
  | cons b bs ih =>
    have hlt := b.toNat_lt
    have hlow : UInt8.ofNat (b.toNat + 256 * leNat bs) = b := by
      apply UInt8.toNat_inj.mp
      rw [UInt8.toNat_ofNat']
      omega
    have hhigh : (b.toNat + 256 * leNat bs) / 256 = leNat bs := by omega
    rw [List.length_cons, leNat, leBytes, hlow, hhigh, ih]

theorem beBytes_beNat (bs : List UInt8) : beBytes bs.length (beNat bs) = bs := by
  have h := leBytes_leNat bs.reverse
  rw [List.length_reverse] at h
  rw [beBytes, beNat, h, List.reverse_reverse]

theorem leNat_lt (bs : List UInt8) : leNat bs < 256 ^ bs.length := by
  induction bs with
  | nil => exact Nat.one_pos
  | cons b bs ih =>
    have hlt := b.toNat_lt
    rw [leNat, List.length_cons, Nat.pow_succ]
    omega

theorem beNat_lt (bs : List UInt8) : beNat bs < 256 ^ bs.length := by
  have h := leNat_lt bs.reverse
  rwa [List.length_reverse] at h

end IotcRa8p1.BitField
