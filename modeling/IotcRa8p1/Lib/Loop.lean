import Mathlib.Data.List.Basic

/-!
# Counted loops

`forLoop n body s` is `for (i = 0; i < n; i++) s = body (i, s)`, by recursion on the bound.
`forLoop_invariant` is the loop rule: an invariant indexed by the number of iterations done.
-/

namespace IotcRa8p1.Loop

variable {σ : Type*}

/-- `for (i = 0; i < n; i++)`. -/
def forLoop : ℕ → (ℕ → σ → σ) → σ → σ
  | 0, _, s => s
  | n + 1, body, s => body n (forLoop n body s)

/-- **Loop rule.** -/
theorem forLoop_invariant (I : ℕ → σ → Prop) {n : ℕ} {body : ℕ → σ → σ} {s : σ} (h0 : I 0 s)
    (hstep : ∀ i t, i < n → I i t → I (i + 1) (body i t)) : I n (forLoop n body s) := by
  induction n with
  | zero => exact h0
  | succ n ih =>
    exact hstep n _ (Nat.lt_succ_self n) (ih fun i t hi ht => hstep i t (by omega) ht)

/-- **Log rule.**  A body that appends to a log appends, over the loop, what its iterations append. -/
theorem forLoop_log {β : Type*} (log : σ → List β) (out : ℕ → List β) {n : ℕ} {body : ℕ → σ → σ}
    (hbody : ∀ i t, log (body i t) = log t ++ out i) (s : σ) :
    log (forLoop n body s) = log s ++ (List.range n).flatMap out := by
  induction n with
  | zero => simp [forLoop]
  | succ n ih =>
    rw [forLoop, hbody, ih, List.range_succ, List.flatMap_append, List.append_assoc,
      List.flatMap_singleton]

/-- **Membership rule.**  The same for what a body adds to a log, whatever the order. -/
theorem forLoop_mem {β : Type*} (log : σ → List β) (P : ℕ → β → Prop) {n : ℕ} {body : ℕ → σ → σ}
    (hbody : ∀ i t b, b ∈ log (body i t) ↔ b ∈ log t ∨ P i b) (s : σ) (b : β) :
    b ∈ log (forLoop n body s) ↔ b ∈ log s ∨ ∃ i, i < n ∧ P i b := by
  induction n with
  | zero => simp [forLoop]
  | succ n ih =>
    rw [forLoop, hbody, ih, or_assoc]
    refine or_congr_right ?_
    constructor
    · rintro (⟨i, hi, hP⟩ | hP)
      · exact ⟨i, Nat.lt_succ_of_lt hi, hP⟩
      · exact ⟨n, Nat.lt_succ_self n, hP⟩
    · rintro ⟨i, hi, hP⟩
      rcases Nat.lt_succ_iff_lt_or_eq.mp hi with hi | rfl
      · exact Or.inl ⟨i, hi, hP⟩
      · exact Or.inr hP

end IotcRa8p1.Loop
