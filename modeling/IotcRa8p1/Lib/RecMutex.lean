import Mathlib.Data.Nat.Notation
import Mathlib.Data.Option.Basic
import Mathlib.Tactic.SplitIfs

/-!
# A recursive mutex

The state is the owner and how often it took the mutex beyond the first time, so a free mutex has no
count.  `take` is `none` where the caller would block; a `give` by somebody else has no effect.

Proofs about users of the mutex only need its *depth* in a task: at most one task has a positive
depth, `take` and `give` move the caller's by one and leave everyone else's.  A user whose program
counter says how often it holds the mutex keeps that count by `Moves.depth_eq`.
-/

namespace IotcRa8p1

/-- The owner, and the number of further takes. -/
def RecMutex (α : Type*) := Option (α × ℕ)

namespace RecMutex

variable {α : Type*}

def free : RecMutex α := none

variable [DecidableEq α]

def take (m : RecMutex α) (x : α) : Option (RecMutex α) :=
  match m with
  | none => some (some (x, 0))
  | some (y, n) => if y = x then some (some (y, n + 1)) else none

def give (m : RecMutex α) (x : α) : RecMutex α :=
  match m with
  | none => none
  | some (y, 0) => if y = x then none else m
  | some (y, n + 1) => if y = x then some (y, n) else m

/-- How often `x` holds the mutex. -/
def depth (m : RecMutex α) (x : α) : ℕ :=
  match m with
  | none => 0
  | some (y, n) => if y = x then n + 1 else 0

/-- **Mutual exclusion.** -/
theorem depth_unique {m : RecMutex α} {x y : α} (hx : 0 < m.depth x) (hy : 0 < m.depth y) :
    x = y := by
  rcases m with _ | ⟨z, n⟩
  · exact absurd hx (Nat.lt_irrefl 0)
  · simp only [depth] at hx hy
    split_ifs at hx hy with hzx hzy
    · exact hzx.symm.trans hzy
    all_goals contradiction

theorem depth_take {m m' : RecMutex α} {x : α} (h : m.take x = some m') :
    m'.depth x = m.depth x + 1 ∧ ∀ y, y ≠ x → m'.depth y = m.depth y := by
  rcases m with _ | ⟨z, n⟩
  · obtain rfl := Option.some.inj h
    exact ⟨if_pos rfl, fun y hy => if_neg hy.symm⟩
  · simp only [take] at h
    split_ifs at h with hzx
    obtain rfl := Option.some.inj h
    subst hzx
    exact ⟨by simp [depth], fun y hy => by simp [depth, hy.symm]⟩

theorem depth_give {m : RecMutex α} {x : α} (h : 0 < m.depth x) :
    (m.give x).depth x + 1 = m.depth x ∧ ∀ y, y ≠ x → (m.give x).depth y = m.depth y := by
  rcases m with _ | ⟨z, n⟩
  · exact absurd h (Nat.lt_irrefl 0)
  · have hzx : z = x := by
      by_contra hne
      rw [depth, if_neg hne] at h
      exact absurd h (Nat.lt_irrefl 0)
    subst hzx
    cases n with
    | zero => exact ⟨by simp [give, depth], fun y hy => by simp [give, depth, hy.symm]⟩
    | succ n => exact ⟨by simp [give, depth], fun y hy => by simp [give, depth, hy.symm]⟩

/-! ### A task that keeps count -/

/-- `x` moves from holding the mutex `n` times to `n'` times, and nobody else's depth changes. -/
def Moves (m m' : RecMutex α) (x : α) (n n' : ℕ) : Prop :=
  n ≤ m.depth x → m'.depth x + n = m.depth x + n' ∧ ∀ y, y ≠ x → m'.depth y = m.depth y

variable {m m' : RecMutex α} {x : α} {n n' : ℕ}

theorem Moves.same (m : RecMutex α) (x : α) (n : ℕ) : Moves m m x n n :=
  fun _ => ⟨rfl, fun _ _ => rfl⟩

theorem moves_take (h : m.take x = some m') (n : ℕ) : Moves m m' x n (n + 1) := by
  intro _
  obtain ⟨hx, hy⟩ := depth_take h
  exact ⟨by omega, hy⟩

theorem moves_give (m : RecMutex α) (x : α) (n : ℕ) : Moves m (m.give x) x (n + 1) n := by
  intro hn
  have hpos : 0 < m.depth x := by omega
  obtain ⟨hx, hy⟩ := depth_give hpos
  exact ⟨by omega, hy⟩

/-- The same move by a task that holds the mutex `k` times more. -/
theorem Moves.add (h : Moves m m' x n n') (k : ℕ) : Moves m m' x (n + k) (n' + k) := by
  intro hn
  obtain ⟨hx, hy⟩ := h (by omega)
  exact ⟨by omega, hy⟩

/-- **Count rule.**  If every task's count is its depth, it stays so when the mutex follows the count
of the one task that moves. -/
theorem Moves.depth_eq {held held' : α → ℕ} (hm : Moves m m' x (held x) (held' x))
    (hs : ∀ y, m.depth y = held y) (hothers : ∀ y, y ≠ x → held' y = held y) (y : α) :
    m'.depth y = held' y := by
  obtain ⟨hx, hy⟩ := hm (Nat.le_of_eq (hs x).symm)
  by_cases hyx : y = x
  · subst hyx
    have hcount := hs y
    omega
  · rw [hy y hyx, hothers y hyx, hs y]

end RecMutex

end IotcRa8p1
