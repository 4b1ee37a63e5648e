import Mathlib.Data.Int.Basic

/-!
# A sliding window over the numbers seen

A window of `size` bits says of every number from `start` to `start + size - 1` whether it was seen; below the
window nothing is remembered, above it nothing was seen.  `Tracks` is this, for the bits `bit` and the set `seen`.
A number in the window is marked, and for one above it the window slides first.
-/

namespace IotcRa8p1.SlidingWindow

/-- The bits tell which numbers of the window were seen; none above it was. -/
structure Tracks (size : ℕ) (start : ℤ) (bit : ℕ → Bool) (seen : ℤ → Prop) : Prop where
  below : ∀ i, seen i → i < start + size
  bits : ∀ k < size, (bit k = true ↔ seen (start + k))

variable {size : ℕ} {start : ℤ} {bit bit' : ℕ → Bool} {seen : ℤ → Prop}

theorem tracks_empty (h : ∀ k < size, bit k = false) : Tracks size start bit fun _ => False where
  below _ hseen := hseen.elim
  bits k hk := by
    rw [h k hk]
    simp

/-- Bits that agree in the window track the same numbers. -/
theorem Tracks.congr (h : Tracks size start bit seen) (hbits : ∀ k < size, bit' k = bit k) :
    Tracks size start bit' seen where
  below := h.below
  bits k hk := by
    rw [hbits k hk]
    exact h.bits k hk

/-- One more number is seen, inside the window. -/
theorem Tracks.mark (h : Tracks size start bit seen) {k : ℕ} (hk : k < size) (bit' : ℕ → Bool)
    (hbits : ∀ j < size, (bit' j = true ↔ j = k ∨ bit j = true)) :
    Tracks size start bit' fun i => i = start + k ∨ seen i where
  below i hi := by
    rcases hi with rfl | hi
    · omega
    · exact h.below i hi
  bits j hj := by
    rw [hbits j hj, h.bits j hj]
    refine or_congr_left ?_
    constructor <;> intro heq <;> omega

/-- The window moves up by `d`; what leaves it is forgotten. -/
theorem Tracks.slide (h : Tracks size start bit seen) (d : ℕ) (bit' : ℕ → Bool)
    (hbits : ∀ j < size, (bit' j = true ↔ j + d < size ∧ bit (j + d) = true)) :
    Tracks size (start + d) bit' seen where
  below i hi := by
    have := h.below i hi
    omega
  bits j hj := by
    rw [hbits j hj, show start + d + j = start + (j + d : ℕ) by omega]
    constructor
    · rintro ⟨hlt, hbit⟩
      exact (h.bits _ hlt).mp hbit
    · intro hseen
      have hlt := h.below _ hseen
      exact ⟨by omega, (h.bits _ (by omega)).mpr hseen⟩

/-- A window far above everything seen is empty. -/
theorem Tracks.jump (h : Tracks size start bit seen) {start' : ℤ} (hfar : start + size ≤ start')
    (hbits : ∀ k < size, bit' k = false) : Tracks size start' bit' seen where
  below i hi := by
    have := h.below i hi
    omega
  bits k hk := by
    rw [hbits k hk]
    refine ⟨fun hno => absurd hno Bool.false_ne_true, fun hseen => ?_⟩
    have := h.below _ hseen
    omega

/-- A number is fresh when the window still covers it and it was not seen. -/
def Fresh (start : ℤ) (seen : ℤ → Prop) (i : ℤ) : Prop := start ≤ i ∧ ¬ seen i

/-- A number above the window is fresh. -/
theorem Tracks.fresh_above (h : Tracks size start bit seen) {i : ℤ} (hi : start + size ≤ i) : Fresh start seen i :=
  ⟨by omega, fun hseen => by have := h.below i hseen; omega⟩

/-- A number in the window is fresh when its bit is not set. -/
theorem Tracks.fresh_iff (h : Tracks size start bit seen) {k : ℕ} (hk : k < size) :
    Fresh start seen (start + k) ↔ bit k = false := by
  rw [Fresh, ← h.bits k hk, Bool.not_eq_true]
  exact and_iff_right (by omega)

end IotcRa8p1.SlidingWindow
