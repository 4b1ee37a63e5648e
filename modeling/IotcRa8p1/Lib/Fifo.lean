import Mathlib.Data.List.Basic
import Mathlib.Logic.Function.Basic

/-!
# Bounded queues in a ring of slots

`Bounded α cap` is a queue of at most `cap` items, the bound a field.  A ring keeps it in `cap` slots: the item
number `k` of the history stands in slot `k % cap`, and `Holds` says that of every item not taken yet.
Slots outside the window between the two counters may hold anything.
-/

namespace IotcRa8p1.Fifo

variable {α : Type*} {cap : ℕ}

/-! ### The queue -/

/-- A queue of at most `cap` items. -/
structure Bounded (α : Type*) (cap : ℕ) where
  items : List α
  fits : items.length ≤ cap

/-- Append an item, unless the queue is full. -/
def Bounded.push (q : Bounded α cap) (a : α) : Option (Bounded α cap) :=
  if h : q.items.length < cap then
    some ⟨q.items ++ [a], by rw [List.length_append, List.length_singleton]; exact h⟩
  else none

/-- Take the oldest item. -/
def Bounded.pop (q : Bounded α cap) : Option (α × Bounded α cap) :=
  match h : q.items with
  | [] => none
  | a :: items => some (a, ⟨items, by
      have hfits := q.fits
      rw [h, List.length_cons] at hfits
      omega⟩)

theorem Bounded.ext_items {q r : Bounded α cap} (h : q.items = r.items) : q = r := by
  cases q
  cases r
  subst h
  rfl

theorem Bounded.push_of_lt {q r : Bounded α cap} {a : α} (h : r.items = q.items ++ [a]) :
    q.push a = some r := by
  have hlt : q.items.length < cap := by
    have hfits := r.fits
    rw [h, List.length_append, List.length_singleton] at hfits
    exact hfits
  rw [push, dif_pos hlt]
  exact congrArg some (ext_items h.symm)

theorem Bounded.push_eq_none {q : Bounded α cap} {a : α} : q.push a = none ↔ q.items.length = cap := by
  have hfits := q.fits
  rw [push]
  split_ifs with h
  · refine ⟨fun hn => ?_, fun hlen => absurd hlen (Nat.ne_of_lt h)⟩
    exact nomatch hn
  · exact ⟨fun _ => by omega, fun _ => rfl⟩

theorem Bounded.pop_of_cons {q r : Bounded α cap} {a : α} (h : q.items = a :: r.items) :
    q.pop = some (a, r) := by
  rw [pop]
  split
  · next hnil =>
    rw [hnil] at h
    exact nomatch h
  · next b items hcons =>
    obtain ⟨rfl, rfl⟩ := List.cons.inj (hcons.symm.trans h)
    rfl

theorem Bounded.pop_eq_none {q : Bounded α cap} : q.pop = none ↔ q.items = [] := by
  rw [pop]
  split
  · next h => exact ⟨fun _ => h, fun _ => rfl⟩
  · next a items h =>
    refine ⟨fun hn => ?_, fun hnil => ?_⟩
    · exact nomatch hn
    · exact nomatch h.symm.trans hnil

theorem Bounded.push_items {q r : Bounded α cap} {a : α} (h : q.push a = some r) : r.items = q.items ++ [a] := by
  rw [push] at h
  split_ifs at h
  rw [← Option.some.inj h]

theorem Bounded.pop_items {q r : Bounded α cap} {a : α} (h : q.pop = some (a, r)) : q.items = a :: r.items := by
  rw [pop] at h
  split at h
  · exact nomatch h
  · next b items hcons =>
    obtain ⟨rfl, rfl⟩ := Prod.mk.inj (Option.some.inj h)
    exact hcons

/-! ### The slots -/

/-- Every item from number `taken` on stands in its slot. -/
def Holds (cap : ℕ) (slot : ℕ → α) (history : List α) (taken : ℕ) : Prop :=
  ∀ k, taken ≤ k → ∀ a, history[k]? = some a → slot (k % cap) = a

variable {slot : ℕ → α} {history : List α} {taken : ℕ}

theorem holds_nil (slot : ℕ → α) : Holds cap slot [] 0 := nofun

/-- Numbers less than a round apart have different slots. -/
theorem slot_ne {i j : ℕ} (hij : i < j) (hround : j < i + cap) : i % cap ≠ j % cap := by
  intro h
  have hdvd : cap ∣ j - i := Nat.dvd_of_mod_eq_zero (Nat.sub_mod_eq_zero_of_mod_eq h.symm)
  exact absurd (Nat.le_of_dvd (by omega) hdvd) (by omega)

/-- Storing the next item disturbs none of the window while that is not full. -/
theorem Holds.store (h : Holds cap slot history taken) (hroom : history.length < taken + cap) (a : α) :
    Holds cap (Function.update slot (history.length % cap) a) history taken := by
  intro k hk b hb
  have hlt : k < history.length := (List.getElem?_eq_some_iff.mp hb).1
  rw [Function.update_of_ne (slot_ne hlt (by omega))]
  exact h k hk b hb

/-- The stored item joins the window. -/
theorem Holds.push (h : Holds cap slot history taken) {a : α} (ha : slot (history.length % cap) = a) :
    Holds cap slot (history ++ [a]) taken := by
  intro k hk b hb
  rcases Nat.lt_or_ge k history.length with hlt | hge
  · rw [List.getElem?_append_left hlt] at hb
    exact h k hk b hb
  · have hk' : k = history.length := by
      have hlen := (List.getElem?_eq_some_iff.mp hb).1
      rw [List.length_append, List.length_singleton] at hlen
      omega
    rw [hk', List.getElem?_concat_length] at hb
    rw [hk', ha]
    exact Option.some.inj hb

theorem Holds.pop (h : Holds cap slot history taken) : Holds cap slot history (taken + 1) :=
  fun k hk => h k (Nat.le_of_succ_le hk)

/-- The oldest item of the window. -/
theorem Holds.get (h : Holds cap slot history taken) (hlt : taken < history.length) :
    history[taken]? = some (slot (taken % cap)) := by
  rw [List.getElem?_eq_getElem hlt, h taken (Nat.le_refl _) history[taken] (List.getElem?_eq_getElem hlt)]

/-- What was taken so far, and the item after it. -/
theorem prefix_concat {taken : List α} {a : α} (h : taken <+: history)
    (ha : history[taken.length]? = some a) : taken ++ [a] <+: history := by
  obtain ⟨rest, rfl⟩ := h
  rw [List.getElem?_append_right (Nat.le_refl _), Nat.sub_self] at ha
  cases rest with
  | nil => exact nomatch ha
  | cons b rest =>
    obtain rfl : b = a := Option.some.inj ha
    exact ⟨rest, List.append_assoc ..⟩

end IotcRa8p1.Fifo
