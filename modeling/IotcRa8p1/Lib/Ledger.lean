import Mathlib.Data.Nat.Notation
import Mathlib.Data.Option.Basic

/-!
# One answer for each accepted request

Requests are taken one at a time: the one in hand is in a slot, and its answer is sent before the slot is
cleared for the next.  `Ledger` says how often each request has been answered, `sent` whether the one in
the slot has been; a request that is refused is answered at once and never accepted.
-/

namespace IotcRa8p1

variable {ι : Type*}

structure Ledger (accepted : ι → Prop) (answers : ι → ℕ) (slot : Option ι) (sent : Bool) : Prop where
  settled : ∀ i, accepted i → slot ≠ some i → answers i = 1
  current : ∀ i, slot = some i → accepted i ∧ answers i = if sent = true then 1 else 0
  once : ∀ i, answers i ≤ 1

namespace Ledger

variable {accepted accepted' : ι → Prop} {answers answers' : ι → ℕ} {slot : Option ι} {sent : Bool}

theorem congr (h : Ledger accepted answers slot sent) (haccepted : ∀ i, accepted' i ↔ accepted i)
    (hanswers : ∀ i, answers' i = answers i) : Ledger accepted' answers' slot sent where
  settled i hi hslot := (hanswers i).trans (h.settled i ((haccepted i).mp hi) hslot)
  current i hslot :=
    ⟨(haccepted i).mpr (h.current i hslot).1, (hanswers i).trans (h.current i hslot).2⟩
  once i := by
    rw [hanswers i]
    exact h.once i

/-- With nothing in hand it does not matter whether something was sent. -/
theorem empty (h : Ledger accepted answers none sent) (sent' : Bool) :
    Ledger accepted answers none sent' :=
  ⟨h.settled, fun i hi => by contradiction, h.once⟩

/-- The answer of the request in hand. -/
theorem send {i : ι} (h : Ledger accepted answers (some i) false)
    (hi : answers' i = answers i + 1) (hother : ∀ j, j ≠ i → answers' j = answers j) :
    Ledger accepted answers' (some i) true := by
  have hzero : answers i = 0 := by simpa using (h.current i rfl).2
  constructor
  · intro j hj hslot
    have hne : j ≠ i := fun he => hslot (congrArg some he.symm)
    rw [hother j hne]
    exact h.settled j hj hslot
  · intro j hslot
    obtain rfl := Option.some.inj hslot
    exact ⟨(h.current i rfl).1, by rw [hi, hzero]; rfl⟩
  · intro j
    by_cases hne : j = i
    · exact Nat.le_of_eq (by rw [hne, hi, hzero])
    · rw [hother j hne]
      exact h.once j

/-- Clear the slot when its request is answered. -/
theorem release (h : Ledger accepted answers slot sent) (hsent : slot = none ∨ sent = true)
    (sent' : Bool) : Ledger accepted answers none sent' := by
  constructor
  · intro i hi _
    by_cases hslot : slot = some i
    · obtain hnone | hs := hsent
      · exact absurd (hslot.symm.trans hnone) (by simp)
      · simpa [hs] using (h.current i hslot).2
    · exact h.settled i hi hslot
  · intro i hi
    contradiction
  · exact h.once

/-- Take the next request. -/
theorem accept {i : ι} (h : Ledger accepted answers none sent) (hi : answers i = 0)
    (haccepted : ∀ j, accepted' j ↔ accepted j ∨ j = i) (hanswers : ∀ j, answers' j = answers j) :
    Ledger accepted' answers' (some i) false := by
  constructor
  · intro j hj hslot
    rw [hanswers j]
    obtain hj | rfl := (haccepted j).mp hj
    · exact h.settled j hj (by simp)
    · exact absurd rfl hslot
  · intro j hslot
    obtain rfl := Option.some.inj hslot
    exact ⟨(haccepted i).mpr (Or.inr rfl), (hanswers i).trans hi⟩
  · intro j
    rw [hanswers j]
    exact h.once j

/-- Refuse a request. -/
theorem refuse {i : ι} (h : Ledger accepted answers slot sent) (hnot : ¬ accepted i)
    (hzero : answers i = 0) (hi : answers' i = answers i + 1)
    (hother : ∀ j, j ≠ i → answers' j = answers j) : Ledger accepted answers' slot sent := by
  have hne {j : ι} (hj : accepted j) : j ≠ i := fun he => hnot (he ▸ hj)
  constructor
  · intro j hj hslot
    rw [hother j (hne hj)]
    exact h.settled j hj hslot
  · intro j hslot
    obtain ⟨hj, hcount⟩ := h.current j hslot
    exact ⟨hj, (hother j (hne hj)).trans hcount⟩
  · intro j
    by_cases he : j = i
    · exact Nat.le_of_eq (by rw [he, hi, hzero])
    · rw [hother j he]
      exact h.once j

end Ledger

end IotcRa8p1
