import Mathlib.Data.List.Basic
import Mathlib.Data.Nat.Log

/-!
# The sort of the signing library (`sigv4_quicksort.c`)

`quickSort` sorts in place and keeps the ranges it has not sorted yet on a stack of 14 entries.  An access
outside the array and a push on the full stack are `none`; so is running out of fuel, which the loop
`while (top > 0)` takes one unit of for every range.

The array is cut into what lies before a range, the range and what lies behind it.  `partition_spec` says what
one pass does to a range, `helperLoop_range` that a range on the stack ends up arranged with everything else as
it was: of two parts the smaller one lies on top, so the stack holds at most one pair for every halving.
-/

namespace IotcRa8p1.Kvs.QuickSort

/-- `SIGV4_WORST_CASE_SORT_STACK_SIZE` -/
def sigv4WorstCaseSortStackSize : ℕ := 14

variable {α : Type*}

/-- `PUSH_STACK` -/
def pushStack (value : ℕ) (stack : List ℕ) : Option (List ℕ) :=
  if stack.length < sigv4WorstCaseSortStackSize then some (value :: stack) else none

/-- `swap` -/
def swap (a : List α) (i j : ℕ) : Option (List α) :=
  a[i]?.bind fun first => a[j]?.bind fun second => some ((a.set i second).set j first)

section

variable (comparator : α → α → Int)

/-- The loop of `partition` with `n` items to go; `k` is the source's `i + 1U`, since `i` starts at `low - 1U`. -/
def partitionLoop (high : ℕ) : ℕ → ℕ → ℕ → List α → Option (List α × ℕ)
  | 0, k, _, a => some (a, k)
  | n + 1, k, j, a =>
    a[j]?.bind fun item => a[high]?.bind fun pivot =>
      if comparator item pivot < 0 then (swap a k j).bind (partitionLoop high n (k + 1) (j + 1))
      else partitionLoop high n k (j + 1) a

/-- `partition` -/
def partition (a : List α) (low high : ℕ) : Option (List α × ℕ) :=
  (partitionLoop comparator high (high - low) low low a).bind fun r => (swap r.1 r.2 high).map fun a' => (a', r.2)

end

/-- Push the two ends of a range. -/
def pushRange (lo hi : ℕ) (stack : List ℕ) : Option (List ℕ) :=
  (pushStack lo stack).bind (pushStack hi)

/-- What the loop of `quickSortHelper` pushes: the larger part first. -/
def pushPartitions (lo partitionIndex hi : ℕ) (stack : List ℕ) : Option (List ℕ) :=
  let len1 := if partitionIndex ≠ 0 ∧ partitionIndex - 1 > lo then partitionIndex - lo else 0
  let len2 := if partitionIndex + 1 < hi then hi - partitionIndex else 0
  if len1 > len2 then
    (pushRange lo (partitionIndex - 1) stack).bind fun stack =>
      if len2 > 0 then pushRange (partitionIndex + 1) hi stack else some stack
  else
    (if len2 > 0 then pushRange (partitionIndex + 1) hi stack else some stack).bind fun stack =>
      if len1 > 0 then pushRange lo (partitionIndex - 1) stack else some stack

section

variable (comparator : α → α → Int)

/-- The loop of `quickSortHelper`. -/
def helperLoop : ℕ → List α → List ℕ → Option (List α)
  | _, a, [] => some a
  | fuel + 1, a, hi :: lo :: stack =>
    (partition comparator a lo hi).bind fun r => (pushPartitions lo r.2 hi stack).bind (helperLoop fuel r.1)
  | _, _, _ => none

/-- `quickSort` -/
def quickSort (fuel : ℕ) (a : List α) : Option (List α) :=
  (pushRange 0 (a.length - 1) []).bind (helperLoop comparator fuel a)

end

/-! ### One pass -/

/-- Two items of the array change places. -/
theorem swap_items (pre mid post : List α) (x y : α) :
    swap (pre ++ x :: (mid ++ y :: post)) pre.length (pre.length + 1 + mid.length) =
      some (pre ++ y :: (mid ++ x :: post)) := by
  have hx : (pre ++ x :: (mid ++ y :: post))[pre.length]? = some x := by
    rw [List.getElem?_append_right (Nat.le_refl _), Nat.sub_self, List.getElem?_cons_zero]
  have hy : (pre ++ x :: (mid ++ y :: post))[pre.length + 1 + mid.length]? = some y := by
    rw [List.getElem?_append_right (by omega), show pre.length + 1 + mid.length - pre.length = mid.length + 1 by omega,
      List.getElem?_cons_succ, List.getElem?_append_right (Nat.le_refl _), Nat.sub_self, List.getElem?_cons_zero]
  rw [swap, hx, hy, Option.bind_some, Option.bind_some, List.set_append_right _ _ (Nat.le_refl _), Nat.sub_self,
    List.set_cons_zero, List.set_append_right _ _ (by omega),
    show pre.length + 1 + mid.length - pre.length = mid.length + 1 by omega, List.set_cons_succ,
    List.set_append_right _ _ (Nat.le_refl _), Nat.sub_self, List.set_cons_zero]

/-- An item changes places with itself. -/
theorem swap_self (pre post : List α) (x : α) :
    swap (pre ++ x :: post) pre.length pre.length = some (pre ++ x :: post) := by
  have hx : (pre ++ x :: post)[pre.length]? = some x := by
    rw [List.getElem?_append_right (Nat.le_refl _), Nat.sub_self, List.getElem?_cons_zero]
  rw [swap, hx, Option.bind_some, Option.bind_some, List.set_append_right _ _ (Nat.le_refl _), Nat.sub_self,
    List.set_cons_zero, List.set_append_right _ _ (Nat.le_refl _), Nat.sub_self, List.set_cons_zero]

/-- The first item behind the smaller ones changes places with a later one: the smaller ones grow by it. -/
theorem swap_grow (pre less geq post : List α) (x : α) :
    ∃ geq', swap (pre ++ (less ++ (geq ++ x :: post))) (pre.length + less.length)
        (pre.length + less.length + geq.length) = some (pre ++ (less ++ x :: (geq' ++ post))) ∧ geq'.Perm geq := by
  cases geq with
  | nil =>
    refine ⟨[], ?_, List.Perm.nil⟩
    have h := swap_self (pre ++ less) post x
    rw [List.length_append, List.append_assoc] at h
    exact h
  | cons y geq =>
    refine ⟨geq ++ [y], ?_, List.perm_append_singleton y geq⟩
    have h := swap_items (pre ++ less) geq post y x
    rw [List.length_append, List.append_assoc, List.append_assoc, Nat.add_assoc, Nat.add_comm 1] at h
    rw [List.append_assoc geq]
    exact h

variable {comparator : α → α → Int}

/-- The items smaller than the pivot come before the others. -/
def Split (comparator : α → α → Int) (pivot : α) (less geq : List α) : Prop :=
  (∀ x ∈ less, comparator x pivot < 0) ∧ ∀ y ∈ geq, ¬ comparator y pivot < 0

theorem partitionLoop_spec (comparator : α → α → Int) (pre post : List α) (pivot : α) (rest : List α) :
    ∀ less geq, Split comparator pivot less geq → ∃ less' geq',
      partitionLoop comparator (pre.length + less.length + geq.length + rest.length) rest.length
          (pre.length + less.length) (pre.length + less.length + geq.length)
          (pre ++ (less ++ (geq ++ (rest ++ pivot :: post)))) =
        some (pre ++ (less' ++ (geq' ++ pivot :: post)), pre.length + less'.length) ∧
      (less' ++ geq').Perm (less ++ (geq ++ rest)) ∧ Split comparator pivot less' geq' := by
  induction rest with
  | nil =>
    intro less geq hsplit
    exact ⟨less, geq, rfl, by rw [List.append_nil], hsplit⟩
  | cons x rest ih =>
    intro less geq hsplit
    have hitem : (pre ++ (less ++ (geq ++ (x :: rest ++ pivot :: post))))[pre.length + less.length + geq.length]? =
        some x := by
      rw [← List.append_assoc, ← List.append_assoc, List.getElem?_append_right, List.length_append,
        List.length_append, Nat.sub_self, List.cons_append, List.getElem?_cons_zero]
      rw [List.length_append, List.length_append]
    have hpivot : (pre ++ (less ++ (geq ++ (x :: rest ++ pivot :: post))))[
        pre.length + less.length + geq.length + (x :: rest).length]? = some pivot := by
      rw [← List.append_assoc, ← List.append_assoc, ← List.append_assoc, List.getElem?_append_right,
        List.length_append, List.length_append, List.length_append, Nat.sub_self, List.getElem?_cons_zero]
      rw [List.length_append, List.length_append, List.length_append]
    rw [List.length_cons] at hpivot ⊢
    rw [partitionLoop, hitem, Option.bind_some, hpivot, Option.bind_some]
    by_cases hlt : comparator x pivot < 0
    · obtain ⟨geq₁, hswap, hperm⟩ := swap_grow pre less geq (rest ++ pivot :: post) x
      have hsplit₁ : Split comparator pivot (less ++ [x]) geq₁ := by
        refine ⟨fun z hz => ?_, fun y hy => hsplit.2 y (hperm.mem_iff.mp hy)⟩
        rcases List.mem_append.mp hz with hz | hz
        · exact hsplit.1 z hz
        · exact List.mem_singleton.mp hz ▸ hlt
      obtain ⟨less', geq', hloop, hperm', hsplit'⟩ := ih (less ++ [x]) geq₁ hsplit₁
      refine ⟨less', geq', ?_, ?_, hsplit'⟩
      · rw [if_pos hlt, List.cons_append, hswap, Option.bind_some, ← hloop, List.length_append, List.length_singleton,
          hperm.length_eq, List.append_assoc less [x], List.singleton_append]
        congr 1 <;> omega
      · refine hperm'.trans ?_
        rw [List.append_assoc less [x], List.singleton_append]
        exact ((hperm.append_right rest).cons x).trans List.perm_middle.symm |>.append_left less
    · have hsplit₁ : Split comparator pivot less (geq ++ [x]) := by
        refine ⟨hsplit.1, fun y hy => ?_⟩
        rcases List.mem_append.mp hy with hy | hy
        · exact hsplit.2 y hy
        · exact List.mem_singleton.mp hy ▸ hlt
      obtain ⟨less', geq', hloop, hperm', hsplit'⟩ := ih less (geq ++ [x]) hsplit₁
      refine ⟨less', geq', ?_, ?_, hsplit'⟩
      · rw [if_neg hlt, ← hloop, List.length_append, List.length_singleton, List.append_assoc geq [x],
          List.singleton_append, List.cons_append]
        congr 1; omega
      · rwa [List.append_assoc geq [x], List.singleton_append] at hperm'

/-- **One pass.**  The pivot comes to stand behind the smaller items and before the others; nothing outside the
range changes. -/
theorem partition_spec (comparator : α → α → Int) (pre range post : List α) (pivot : α) :
    ∃ less geq, partition comparator (pre ++ (range ++ pivot :: post)) pre.length (pre.length + range.length) =
        some (pre ++ (less ++ pivot :: (geq ++ post)), pre.length + less.length) ∧
      (less ++ geq).Perm range ∧ Split comparator pivot less geq := by
  obtain ⟨less, geq, hloop, hperm, hsplit⟩ := partitionLoop_spec comparator pre post pivot range [] []
    ⟨fun x hx => absurd hx List.not_mem_nil, fun y hy => absurd hy List.not_mem_nil⟩
  obtain ⟨geq', hswap, hperm'⟩ := swap_grow pre less geq post pivot
  refine ⟨less, geq', ?_, ((hperm'.append_left less).trans hperm), hsplit.1,
    fun y hy => hsplit.2 y (hperm'.mem_iff.mp hy)⟩
  have hlength : pre.length + range.length = pre.length + less.length + geq.length := by
    have h := hperm.length_eq
    rw [List.nil_append, List.nil_append, List.length_append] at h
    omega
  rw [List.length_nil, Nat.add_zero, List.nil_append, List.nil_append] at hloop
  rw [partition, Nat.add_sub_cancel_left, hloop, Option.bind_some, hlength, hswap, Option.map_some]

/-! ### The stack -/

/-- A range of at least two items lies on the stack. -/
def pending (pre range : List α) (stack : List ℕ) : List ℕ :=
  if 2 ≤ range.length then (pre.length + range.length - 1) :: pre.length :: stack else stack

theorem pending_length_le (pre range : List α) (stack : List ℕ) :
    (pending pre range stack).length ≤ stack.length + 2 := by
  rw [pending]
  split_ifs
  · rfl
  · omega

/-- Only the length of what lies before the range counts. -/
theorem pending_congr {pre pre' : List α} (h : pre.length = pre'.length) (range : List α) (stack : List ℕ) :
    pending pre range stack = pending pre' range stack := by
  rw [pending, pending, h]

theorem pushRange_pending {pre range : List α} {stack : List ℕ} (hrange : 2 ≤ range.length)
    (hroom : stack.length + 2 ≤ sigv4WorstCaseSortStackSize) :
    pushRange pre.length (pre.length + range.length - 1) stack = some (pending pre range stack) := by
  rw [pushRange, pushStack, if_pos (by omega), Option.bind_some, pushStack, if_pos (by rw [List.length_cons]; omega),
    pending, if_pos hrange]

/-- A part of at most half the range has a smaller logarithm. -/
theorem log_half_lt {m n : ℕ} (hn : 3 ≤ n) (h : 2 * m ≤ n) : Nat.log 2 m + 1 ≤ Nat.log 2 n := by
  by_cases hm : m = 0
  · rw [hm, Nat.log_zero_right]
    exact (Nat.le_log_iff_pow_le (by decide) (by omega)).mpr (by omega)
  · have hpow := Nat.pow_log_le_self 2 hm
    refine (Nat.le_log_iff_pow_le (by decide) (by omega)).mpr ?_
    rw [Nat.pow_succ]
    omega

/-- With the larger part on it, the stack still has a pair for every halving of the smaller part. -/
theorem room_under {pre larger : List α} {stack : List ℕ} {m n : ℕ} (hm : m ≤ larger.length)
    (hn : m + larger.length + 1 = n) (hroom : stack.length + 2 * Nat.log 2 n + 2 ≤ sigv4WorstCaseSortStackSize) :
    (pending pre larger stack).length + 2 * Nat.log 2 m + 2 ≤ sigv4WorstCaseSortStackSize := by
  by_cases hlarger : 2 ≤ larger.length
  · have hlog : Nat.log 2 m + 1 ≤ Nat.log 2 n := log_half_lt (by omega) (by omega)
    have hlength := pending_length_le pre larger stack
    omega
  · have hlog : Nat.log 2 m ≤ Nat.log 2 n := Nat.log_mono_right (by omega)
    rw [pending, if_neg hlarger]
    omega

/-- What is pushed after a pass: the parts of at least two items, the smaller one on top. -/
theorem pushPartitions_spec (pre less geq : List α) (pivot : α) (stack : List ℕ)
    (hroom : 2 ≤ less.length ∨ 2 ≤ geq.length → stack.length + 2 ≤ sigv4WorstCaseSortStackSize)
    (hboth : 2 ≤ less.length → 2 ≤ geq.length → stack.length + 4 ≤ sigv4WorstCaseSortStackSize) :
    pushPartitions pre.length (pre.length + less.length) (pre.length + less.length + geq.length) stack =
      some (if less.length > geq.length then pending (pre ++ (less ++ [pivot])) geq (pending pre less stack)
        else pending pre less (pending (pre ++ (less ++ [pivot])) geq stack)) := by
  have hpre : (pre ++ (less ++ [pivot])).length = pre.length + less.length + 1 := by
    rw [List.length_append, List.length_append, List.length_singleton]
    omega
  have hlen1 : (if pre.length + less.length ≠ 0 ∧ pre.length + less.length - 1 > pre.length then
      pre.length + less.length - pre.length else 0) = if 2 ≤ less.length then less.length else 0 := by
    split_ifs <;> omega
  have hlen2 : (if pre.length + less.length + 1 < pre.length + less.length + geq.length then
      pre.length + less.length + geq.length - (pre.length + less.length) else 0) =
        if 2 ≤ geq.length then geq.length else 0 := by
    split_ifs <;> omega
  have hleft : ∀ st : List ℕ, 2 ≤ less.length → st.length + 2 ≤ sigv4WorstCaseSortStackSize →
      pushRange pre.length (pre.length + less.length - 1) st = some (pending pre less st) :=
    fun st => pushRange_pending
  have hright : ∀ st : List ℕ, 2 ≤ geq.length → st.length + 2 ≤ sigv4WorstCaseSortStackSize →
      pushRange (pre.length + less.length + 1) (pre.length + less.length + geq.length) st =
        some (pending (pre ++ (less ++ [pivot])) geq st) := by
    intro st hgeq hst
    rw [← pushRange_pending hgeq hst, hpre]
    congr 1
    omega
  rw [pushPartitions, hlen1, hlen2]
  by_cases hless : 2 ≤ less.length
  · by_cases hgeq : 2 ≤ geq.length
    · have hstack := hboth hless hgeq
      rw [if_pos hless, if_pos hgeq]
      by_cases hlarger : less.length > geq.length
      · rw [if_pos hlarger, if_pos hlarger, hleft stack hless (by omega), Option.bind_some, if_pos (by omega),
          hright _ hgeq (by have := pending_length_le pre less stack; omega)]
      · rw [if_neg hlarger, if_neg hlarger, if_pos (by omega), hright stack hgeq (by omega), Option.bind_some,
          if_pos (by omega), hleft _ hless (by have := pending_length_le (pre ++ (less ++ [pivot])) geq stack; omega)]
    · rw [if_pos hless, if_neg hgeq, if_pos (by omega), hleft stack hless (hroom (.inl hless)), Option.bind_some,
        if_neg (show ¬ 0 > 0 from Nat.lt_irrefl 0), if_pos (by omega), pending.eq_1 _ geq, if_neg hgeq]
  · by_cases hgeq : 2 ≤ geq.length
    · rw [if_neg hless, if_pos hgeq, if_neg (show ¬ 0 > geq.length from Nat.not_lt_zero _), if_pos (by omega),
        hright stack hgeq (hroom (.inr hgeq)), Option.bind_some, if_neg (show ¬ 0 > 0 from Nat.lt_irrefl 0),
        if_neg (by omega), pending.eq_1 _ less, if_neg hless]
    · rw [if_neg hless, if_neg hgeq]
      simp only [pending, if_neg hless, if_neg hgeq, ite_self, gt_iff_lt, Nat.lt_irrefl, if_false, Option.bind_some]

/-! ### All of a range -/

/-- The comparison function is a strict order. -/
structure StrictOrder (comparator : α → α → Int) : Prop where
  asymm : ∀ x y, comparator x y < 0 → ¬ comparator y x < 0
  trans : ∀ x y z, comparator x y < 0 → comparator y z < 0 → comparator x z < 0

/-- The items are the same, and no later one is smaller where the comparison is a strict order. -/
structure Arranged (comparator : α → α → Int) (range range' : List α) : Prop where
  perm : range'.Perm range
  sorted : StrictOrder comparator → range'.Pairwise fun x y => ¬ comparator y x < 0

theorem arranged_short {range : List α} (h : ¬ 2 ≤ range.length) : Arranged comparator range range := by
  refine ⟨List.Perm.refl _, fun _ => ?_⟩
  cases range with
  | nil => exact List.Pairwise.nil
  | cons x range =>
    cases range with
    | nil => exact List.pairwise_singleton _ x
    | cons y range => exact absurd (by rw [List.length_cons, List.length_cons]; omega) h

/-- Two arranged parts and the pivot between them make an arranged range. -/
theorem Arranged.around {pivot : α} {range less geq less' geq' : List α} (hsplit : Split comparator pivot less geq)
    (hperm : (less ++ geq).Perm range) (hless : Arranged comparator less less') (hgeq : Arranged comparator geq geq') :
    Arranged comparator (range ++ [pivot]) (less' ++ pivot :: geq') := by
  refine ⟨?_, fun horder => ?_⟩
  · refine List.perm_middle.trans (((hless.perm.append hgeq.perm).trans hperm).cons pivot |>.trans ?_)
    exact (List.perm_append_singleton pivot range).symm
  · have hsmall : ∀ x ∈ less', comparator x pivot < 0 := fun x hx => hsplit.1 x (hless.perm.mem_iff.mp hx)
    have hlarge : ∀ y ∈ geq', ¬ comparator y pivot < 0 := fun y hy => hsplit.2 y (hgeq.perm.mem_iff.mp hy)
    refine List.pairwise_append.mpr ⟨hless.sorted horder, List.pairwise_cons.mpr ⟨hlarge, hgeq.sorted horder⟩, ?_⟩
    intro x hx y hy
    rcases List.mem_cons.mp hy with rfl | hy
    · exact horder.asymm x y (hsmall x hx)
    · exact fun hyx => hlarge y hy (horder.trans y x pivot hyx (hsmall x hx))

/-- The loop arranges the range on top of the stack and goes on below it, with at most as many turns as the range
has items. -/
def Sorts (comparator : α → α → Int) (pre range post : List α) (top stack : List ℕ) : Prop :=
  ∃ range' turns, turns ≤ range.length ∧ Arranged comparator range range' ∧ ∀ fuel,
    helperLoop comparator (fuel + turns) (pre ++ (range ++ post)) top =
      helperLoop comparator fuel (pre ++ (range' ++ post)) stack

theorem sorts_pending {pre range post : List α} {stack : List ℕ}
    (h : 2 ≤ range.length →
      Sorts comparator pre range post ((pre.length + range.length - 1) :: pre.length :: stack) stack) :
    Sorts comparator pre range post (pending pre range stack) stack := by
  rw [pending]
  split_ifs with hrange
  · exact h hrange
  · exact ⟨range, 0, Nat.zero_le _, arranged_short hrange, fun fuel => rfl⟩

/-- **The ranges of the stack.**  A range is arranged when the stack has a pair left for every halving. -/
theorem helperLoop_range (comparator : α → α → Int) (n : ℕ) :
    ∀ (pre range post : List α) (stack : List ℕ), range.length = n → 1 ≤ n →
    stack.length + 2 * Nat.log 2 n + 2 ≤ sigv4WorstCaseSortStackSize →
    Sorts comparator pre range post ((pre.length + range.length - 1) :: pre.length :: stack) stack := by
  induction n using Nat.strong_induction_on with
  | _ n ih =>
    intro pre range post stack hlength hn hroom
    obtain ⟨range, pivot, rfl⟩ : ∃ init last, range = init ++ [last] :=
      ⟨_, _, (List.dropLast_append_getLast (List.ne_nil_of_length_pos (by omega))).symm⟩
    rw [List.length_append, List.length_singleton] at hlength
    obtain ⟨less, geq, hpass, hperm, hsplit⟩ := partition_spec comparator pre range post pivot
    have hsum : less.length + geq.length = range.length := by
      rw [← hperm.length_eq, List.length_append]
    have hhi : pre.length + (range ++ [pivot]).length - 1 = pre.length + less.length + geq.length := by
      rw [List.length_append, List.length_singleton]
      omega
    have hbig : 2 ≤ less.length → 2 ≤ geq.length → 2 ≤ Nat.log 2 n := fun _ _ =>
      (Nat.le_log_iff_pow_le (by decide) (by omega)).mpr (by omega)
    have hpush := pushPartitions_spec pre less geq pivot stack (fun _ => by omega) fun h1 h2 => by
      have := hbig h1 h2
      omega
    have hturn : ∀ fuel : ℕ, helperLoop comparator (fuel + 1) (pre ++ (range ++ [pivot] ++ post))
        ((pre.length + (range ++ [pivot]).length - 1) :: pre.length :: stack) =
          helperLoop comparator fuel (pre ++ (less ++ pivot :: (geq ++ post)))
            (if less.length > geq.length then pending (pre ++ (less ++ [pivot])) geq (pending pre less stack)
              else pending pre less (pending (pre ++ (less ++ [pivot])) geq stack)) := by
      intro fuel
      rw [helperLoop, hhi, List.append_assoc range, List.singleton_append, show pre.length + less.length + geq.length =
        pre.length + range.length by omega, hpass, Option.bind_some, show pre.length + range.length =
        pre.length + less.length + geq.length by omega, hpush, Option.bind_some]
    have hleft : ∀ post' stack', stack'.length + 2 * Nat.log 2 less.length + 2 ≤ sigv4WorstCaseSortStackSize →
        Sorts comparator pre less post' (pending pre less stack') stack' := fun post' stack' hroom' =>
      sorts_pending fun h => ih less.length (by omega) pre less post' stack' rfl (by omega) hroom'
    have hright : ∀ pre' stack', stack'.length + 2 * Nat.log 2 geq.length + 2 ≤ sigv4WorstCaseSortStackSize →
        Sorts comparator pre' geq post (pending pre' geq stack') stack' := fun pre' stack' hroom' =>
      sorts_pending fun h => ih geq.length (by omega) pre' geq post stack' rfl (by omega) hroom'
    have hmono : ∀ m, m ≤ n → Nat.log 2 m ≤ Nat.log 2 n := fun m hm => Nat.log_mono_right hm
    have hregroup : ∀ left right : List α, pre ++ (left ++ pivot :: (right ++ post)) =
        pre ++ (left ++ [pivot]) ++ (right ++ post) := by
      intro left right
      simp only [List.append_assoc, List.singleton_append]
    by_cases hlarger : less.length > geq.length
    · -- the part behind the pivot is on top
      obtain ⟨geq', turns, hturns, hgeq, hloop⟩ := hright (pre ++ (less ++ [pivot])) (pending pre less stack)
        (room_under (Nat.le_of_lt hlarger) (by omega) hroom)
      obtain ⟨less', turns', hturns', hless, hloop'⟩ := hleft (pivot :: (geq' ++ post)) stack
        (by have := hmono less.length (by omega); omega)
      refine ⟨less' ++ pivot :: geq', turns' + turns + 1, ?_, hless.around hsplit hperm hgeq, fun fuel => ?_⟩
      · rw [List.length_append, List.length_singleton]
        omega
      · rw [← Nat.add_assoc, hturn, if_pos hlarger, hregroup, ← Nat.add_assoc, hloop, ← hregroup, hloop',
          List.append_assoc less', List.cons_append]
    · -- the part before the pivot is on top
      obtain ⟨less', turns, hturns, hless, hloop⟩ := hleft (pivot :: (geq ++ post))
        (pending (pre ++ (less ++ [pivot])) geq stack) (room_under (Nat.not_lt.mp hlarger) (by omega) hroom)
      have hbelow : pending (pre ++ (less ++ [pivot])) geq stack = pending (pre ++ (less' ++ [pivot])) geq stack := by
        refine pending_congr ?_ geq stack
        simp only [List.length_append, hless.perm.length_eq]
      obtain ⟨geq', turns', hturns', hgeq, hloop'⟩ := hright (pre ++ (less' ++ [pivot])) stack
        (by have := hmono geq.length (by omega); omega)
      refine ⟨less' ++ pivot :: geq', turns' + turns + 1, ?_, hless.around hsplit hperm hgeq, fun fuel => ?_⟩
      · rw [List.length_append, List.length_singleton]
        omega
      · rw [← Nat.add_assoc, hturn, if_neg hlarger, ← Nat.add_assoc, hloop, hbelow, hregroup, hloop', ← hregroup,
          List.append_assoc less', List.cons_append]

/-! ### The whole array -/

/-- The sort of an array with room on the stack for every halving. -/
theorem quickSort_arranged (comparator : α → α → Int) {a : List α} (hitems : 0 < a.length)
    (hroom : 2 * Nat.log 2 a.length + 2 ≤ sigv4WorstCaseSortStackSize) {fuel : ℕ} (hfuel : a.length ≤ fuel) :
    ∃ a', quickSort comparator fuel a = some a' ∧ Arranged comparator a a' := by
  obtain ⟨a', turns, hturns, harranged, hloop⟩ :=
    helperLoop_range comparator a.length [] a [] [] rfl hitems (by rw [List.length_nil]; omega)
  refine ⟨a', ?_, harranged⟩
  have hrun := hloop (fuel - turns)
  rw [Nat.sub_add_cancel (by omega), List.nil_append, List.nil_append, List.append_nil, List.append_nil,
    List.length_nil, Nat.zero_add] at hrun
  have hpush : pushRange 0 (a.length - 1) [] = some [a.length - 1, 0] := rfl
  rw [quickSort, hpush, Option.bind_some, hrun]
  cases fuel - turns <;> rfl

/-- A hundred items are few enough for the stack of 14 entries. -/
theorem log_hundred {n : ℕ} (h : n ≤ 100) : 2 * Nat.log 2 n + 2 ≤ sigv4WorstCaseSortStackSize := by
  have hlog : Nat.log 2 n ≤ 6 := Nat.lt_succ_iff.mp (Nat.log_lt_of_lt_pow' (by decide) (by omega))
  rw [sigv4WorstCaseSortStackSize]
  omega

/-- **The sort.**  Of up to a hundred items no access leaves the array, no push leaves the stack and the loop ends,
whatever the comparison does; where it is a strict order the items end up in that order. -/
theorem quickSort_sorts (comparator : α → α → Int) (a : List α) (hitems : 0 < a.length) (hmax : a.length ≤ 100)
    {fuel : ℕ} (hfuel : a.length ≤ fuel) :
    ∃ a', quickSort comparator fuel a = some a' ∧ a'.Perm a ∧
      (StrictOrder comparator → a'.Pairwise fun x y => ¬ comparator y x < 0) := by
  obtain ⟨a', hsort, harranged⟩ := quickSort_arranged comparator hitems (log_hundred hmax) hfuel
  exact ⟨a', hsort, harranged.perm, harranged.sorted⟩

theorem quickSort_sorts_sample :
    ∃ a', quickSort (fun x y : Int => x - y) 3 [5, 1, 4] = some a' ∧ a'.Perm [5, 1, 4] ∧
      (StrictOrder (fun x y : Int => x - y) → a'.Pairwise fun x y => ¬ y - x < 0) :=
  quickSort_sorts (fun x y => x - y) [5, 1, 4] (by decide) (by decide) (by decide)

end IotcRa8p1.Kvs.QuickSort
