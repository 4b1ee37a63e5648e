import Mathlib.Data.List.Basic

/-!
# The greedy choice

`greedy conf` goes through a list, keeps the first item, drops every later one in conflict with it and goes
on.  What is kept has no conflict from an earlier item to a later one, and what is dropped conflicts with an
earlier item that is kept.  Items are told apart by their places: `greedy_covers` splits the list, so of two
equal items one may be kept and one dropped.
-/

namespace IotcRa8p1.Greedy

variable {α : Type*} (conf : α → α → Bool)

/-- The items that an item has no conflict with. -/
def spared (a : α) (as : List α) : List α := as.filter fun b => !conf a b

theorem length_spared_le (a : α) (as : List α) : (spared conf a as).length ≤ as.length :=
  List.length_filter_le _ as

def greedy : List α → List α
  | [] => []
  | a :: as => a :: greedy (spared conf a as)
termination_by as => as.length
decreasing_by exact Nat.lt_succ_of_le (length_spared_le conf a as)

theorem greedy_nil : greedy conf [] = [] := by
  rw [greedy]

theorem greedy_cons (a : α) (as : List α) :
    greedy conf (a :: as) = a :: greedy conf (spared conf a as) := by
  rw [greedy]

theorem greedy_sublist (as : List α) : (greedy conf as).Sublist as := by
  induction as using greedy.induct conf with
  | case1 =>
    rw [greedy_nil]
  | case2 a as ih =>
    rw [greedy_cons]
    exact (ih.trans List.filter_sublist).cons_cons a

/-- What is kept has no conflict. -/
theorem greedy_pairwise (as : List α) : (greedy conf as).Pairwise fun a b => conf a b = false := by
  induction as using greedy.induct conf with
  | case1 =>
    rw [greedy_nil]
    exact List.Pairwise.nil
  | case2 a as ih =>
    rw [greedy_cons]
    refine List.pairwise_cons.mpr ⟨fun b hb => ?_, ih⟩
    have hmem := (greedy_sublist conf _).subset hb
    exact Bool.not_eq_true' _ ▸ (List.mem_filter.mp hmem).2

/-- What is dropped conflicts with an item kept before it. -/
theorem greedy_covers {r : α → α → Prop} {as : List α} (h : as.Pairwise r) :
    ∃ lost, (greedy conf as ++ lost).Perm as ∧
      ∀ b ∈ lost, ∃ a ∈ greedy conf as, conf a b = true ∧ r a b := by
  induction as using greedy.induct conf with
  | case1 =>
    rw [greedy_nil]
    exact ⟨[], List.Perm.refl _, fun b hb => nomatch hb⟩
  | case2 a as ih =>
    obtain ⟨hhead, htail⟩ := List.pairwise_cons.mp h
    obtain ⟨lost, hperm, hlost⟩ := ih (htail.sublist List.filter_sublist)
    rw [greedy_cons]
    refine ⟨lost ++ as.filter fun b => !!conf a b, ?_, fun b hb => ?_⟩
    · rw [List.cons_append, ← List.append_assoc]
      exact ((hperm.append_right _).trans (List.filter_append_perm _ as)).cons a
    · rcases List.mem_append.mp hb with hb | hb
      · obtain ⟨c, hc, hconf⟩ := hlost b hb
        exact ⟨c, List.mem_cons_of_mem _ hc, hconf⟩
      · obtain ⟨hmem, hconf⟩ := List.mem_filter.mp hb
        rw [Bool.not_not] at hconf
        exact ⟨a, List.mem_cons_self, hconf, hhead b hmem⟩

end IotcRa8p1.Greedy
