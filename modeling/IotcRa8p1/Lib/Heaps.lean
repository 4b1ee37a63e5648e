import Mathlib.Data.List.Basic
import Mathlib.Logic.Function.Basic

/-!
# Allocations and who owns them

Every allocation is one block of a list that only grows, so a pointer is an index and no index is used
twice.  A block says which heap it is from and with which heaps' deallocators it was released, in order.

`held` is the pointers some owner keeps, by name.  `Owns` says that they are live and all different, and
`Settled` that every block is held or was released once, by its own heap.
-/

namespace IotcRa8p1.Heaps

variable {κ ι : Type*}

structure Block (κ : Type*) where
  heap : κ
  frees : List κ
  deriving DecidableEq

abbrev Blocks (κ : Type*) := List (Block κ)

/-- One more block from the heap; its pointer is the number of blocks before. -/
def alloc (bs : Blocks κ) (h : κ) : Blocks κ := bs ++ [⟨h, []⟩]

/-- Release with the deallocator of the heap; NULL is ignored. -/
def free (bs : Blocks κ) (h : κ) : Option ℕ → Blocks κ
  | none => bs
  | some i => bs.modify i fun b => { b with frees := b.frees ++ [h] }

/-- Allocated and not released. -/
def Live (bs : Blocks κ) (i : ℕ) : Prop := ∃ b, bs[i]? = some b ∧ b.frees = []

@[simp] theorem free_none (bs : Blocks κ) (h : κ) : free bs h none = bs := rfl

theorem getElem?_free (bs : Blocks κ) (h : κ) (p : Option ℕ) (i : ℕ) :
    (free bs h p)[i]? =
      if p = some i then bs[i]?.map fun b => { b with frees := b.frees ++ [h] } else bs[i]? := by
  cases p with
  | none => simp
  | some j =>
    rw [free, List.getElem?_modify]
    simp only [Option.some.injEq]
    split_ifs with hj
    · rfl
    · simp

theorem Live.lt {bs : Blocks κ} {i : ℕ} (hi : Live bs i) : i < bs.length := by
  obtain ⟨b, hb, -⟩ := hi
  exact (List.getElem?_eq_some_iff.mp hb).1

theorem Live.alloc {bs : Blocks κ} {i : ℕ} (hi : Live bs i) (h : κ) : Live (alloc bs h) i := by
  obtain ⟨b, hb, hfrees⟩ := hi
  refine ⟨b, ?_, hfrees⟩
  rw [Heaps.alloc, List.getElem?_append_left (List.getElem?_eq_some_iff.mp hb).1, hb]

theorem live_alloc_new (bs : Blocks κ) (h : κ) : Live (alloc bs h) bs.length :=
  ⟨⟨h, []⟩, by simp [alloc], rfl⟩

theorem Live.free {bs : Blocks κ} {i : ℕ} (hi : Live bs i) (h : κ) {p : Option ℕ} (hp : p ≠ some i) :
    Live (free bs h p) i := by
  obtain ⟨b, hb, hfrees⟩ := hi
  exact ⟨b, by rw [getElem?_free, if_neg hp, hb], hfrees⟩

theorem not_live_free (bs : Blocks κ) (h : κ) (i : ℕ) : ¬ Live (free bs h (some i)) i := by
  rintro ⟨b, hb, hfrees⟩
  rw [getElem?_free, if_pos rfl] at hb
  obtain ⟨c, -, rfl⟩ := Option.map_eq_some_iff.mp hb
  exact absurd hfrees (by simp)

/-- A released block stays released, whatever is released after it. -/
theorem Live.of_free {bs : Blocks κ} {i : ℕ} {h : κ} {p : Option ℕ} (hi : Live (Heaps.free bs h p) i) :
    Live bs i := by
  by_cases hp : p = some i
  · subst hp
    exact absurd hi (not_live_free bs h i)
  · obtain ⟨b, hb, hfrees⟩ := hi
    rw [getElem?_free, if_neg hp] at hb
    exact ⟨b, hb, hfrees⟩

@[simp] theorem length_free (bs : Blocks κ) (h : κ) (p : Option ℕ) :
    (free bs h p).length = bs.length := by
  cases p with
  | none => rfl
  | some i => exact List.length_modify _ _ _

/-- A released block stays released, whatever is allocated after it. -/
theorem not_live_alloc {bs : Blocks κ} {i : ℕ} (hlt : i < bs.length) (hi : ¬ Live bs i) (h : κ) :
    ¬ Live (alloc bs h) i := by
  rintro ⟨b, hb, hfrees⟩
  rw [alloc, List.getElem?_append_left hlt] at hb
  exact hi ⟨b, hb, hfrees⟩

/-- All blocks are from one heap. -/
def From (h : κ) (bs : Blocks κ) : Prop := ∀ b ∈ bs, b.heap = h

theorem From.alloc {h : κ} {bs : Blocks κ} (hb : From h bs) : From h (alloc bs h) := by
  intro b hmem
  rcases List.mem_append.mp hmem with hmem | hmem
  · exact hb b hmem
  · rw [List.mem_singleton.mp hmem]

theorem From.free {h : κ} {bs : Blocks κ} (hb : From h bs) (h' : κ) (p : Option ℕ) :
    From h (free bs h' p) := by
  intro b hmem
  obtain ⟨i, hi⟩ := List.mem_iff_getElem?.mp hmem
  rw [getElem?_free] at hi
  split_ifs at hi
  · obtain ⟨c, hc, rfl⟩ := Option.map_eq_some_iff.mp hi
    exact hb c (List.mem_of_getElem? hc)
  · exact hb b (List.mem_of_getElem? hi)

/-! ### Owners -/

/-- The pointers held are live, and no two are the same. -/
structure Owns (held : ι → Option ℕ) (bs : Blocks κ) : Prop where
  live : ∀ {x i}, held x = some i → Live bs i
  uniq : ∀ {x y i}, held x = some i → held y = some i → x = y

/-- Every block is held, or was released once and by its own heap. -/
def Settled (held : ι → Option ℕ) (bs : Blocks κ) : Prop :=
  ∀ i b, bs[i]? = some b → (∃ x, held x = some i) ∨ b.frees = [b.heap]

variable [DecidableEq ι] {held : ι → Option ℕ} {bs : Blocks κ} {x : ι}

/-- Keep a new block under a name that holds none. -/
theorem Owns.alloc (ho : Owns held bs) (h : κ) (x : ι) :
    Owns (Function.update held x (some bs.length)) (alloc bs h) := by
  -- no held pointer is the new one
  have hne {y : ι} : held y ≠ some bs.length := fun hy => (Nat.lt_irrefl _) (ho.live hy).lt
  constructor
  · intro y i hy
    by_cases hxy : y = x
    · subst hxy
      rw [Function.update_self] at hy
      obtain rfl := Option.some.inj hy
      exact live_alloc_new bs h
    · rw [Function.update_of_ne hxy] at hy
      exact (ho.live hy).alloc h
  · intro y z i hy hz
    by_cases hyx : y = x
    · subst hyx
      rw [Function.update_self] at hy
      obtain rfl := Option.some.inj hy
      by_contra hzy
      rw [Function.update_of_ne (Ne.symm hzy)] at hz
      exact hne hz
    · rw [Function.update_of_ne hyx] at hy
      by_cases hzx : z = x
      · subst hzx
        rw [Function.update_self] at hz
        obtain rfl := Option.some.inj hz
        exact absurd hy hne
      · rw [Function.update_of_ne hzx] at hz
        exact ho.uniq hy hz

/-- Let go of a name. -/
theorem Owns.forget (ho : Owns held bs) (x : ι) : Owns (Function.update held x none) bs := by
  have hof {y : ι} {i : ℕ} (hy : Function.update held x none y = some i) : held y = some i := by
    by_cases hyx : y = x
    · rw [hyx, Function.update_self] at hy
      contradiction
    · rwa [Function.update_of_ne hyx] at hy
  exact ⟨fun hy => ho.live (hof hy), fun hy hz => ho.uniq (hof hy) (hof hz)⟩

/-- Release what a name holds, and let go of the name. -/
theorem Owns.free (ho : Owns held bs) (h : κ) (x : ι) :
    Owns (Function.update held x none) (Heaps.free bs h (held x)) := by
  refine ⟨fun {y i} hy => ?_, (ho.forget x).uniq⟩
  have hyx : y ≠ x := by
    rintro rfl
    rw [Function.update_self] at hy
    contradiction
  rw [Function.update_of_ne hyx] at hy
  refine (ho.live hy).free h fun hx => hyx ?_
  exact ho.uniq hy hx

theorem Settled.alloc (hs : Settled held bs) (h : κ) (hx : held x = none) :
    Settled (Function.update held x (some bs.length)) (alloc bs h) := by
  intro i b hb
  rcases Nat.lt_or_ge i bs.length with hi | hi
  · rw [Heaps.alloc, List.getElem?_append_left hi] at hb
    refine (hs i b hb).imp_left ?_
    rintro ⟨y, hy⟩
    have hyx : y ≠ x := by
      rintro rfl
      rw [hx] at hy
      contradiction
    exact ⟨y, by rw [Function.update_of_ne hyx, hy]⟩
  · have hlen := (List.getElem?_eq_some_iff.mp hb).1
    rw [Heaps.alloc, List.length_append, List.length_singleton] at hlen
    exact Or.inl ⟨x, by rw [Function.update_self, show i = bs.length by omega]⟩

/-- Let go of a name that holds nothing. -/
theorem Settled.forget (hs : Settled held bs) (hx : held x = none) :
    Settled (Function.update held x none) bs := by
  rwa [← hx, Function.update_eq_self]

/-- Release what a name holds, to the heap of every block. -/
theorem Settled.free {h : κ} (hs : Settled held bs) (ho : Owns held bs) (hfrom : From h bs) :
    Settled (Function.update held x none) (Heaps.free bs h (held x)) := by
  intro i b hb
  rw [getElem?_free] at hb
  by_cases hx : held x = some i
  · rw [if_pos hx] at hb
    obtain ⟨c, hc, rfl⟩ := Option.map_eq_some_iff.mp hb
    obtain ⟨d, hd, hlive⟩ := ho.live hx
    obtain rfl := Option.some.inj (hc.symm.trans hd)
    right
    rw [hlive, List.nil_append, hfrom c (List.mem_of_getElem? hc)]
  · rw [if_neg hx] at hb
    refine (hs i b hb).imp_left ?_
    rintro ⟨y, hy⟩
    have hyx : y ≠ x := by
      rintro rfl
      exact hx hy
    exact ⟨y, by rw [Function.update_of_ne hyx, hy]⟩

/-! ### Blocks and the pointers to them -/

/-- The blocks, and the pointers kept by name. -/
structure Pointers (κ ι : Type*) where
  blocks : Blocks κ
  held : ι → Option ℕ

namespace Pointers

/-- Nothing allocated. -/
def empty : Pointers κ ι := ⟨[], fun _ => none⟩

/-- Allocate for a name; NULL when that fails. -/
def keep (p : Pointers κ ι) (h : κ) (x : ι) (malloc : Bool) : Pointers κ ι :=
  if malloc = true then ⟨alloc p.blocks h, Function.update p.held x (some p.blocks.length)⟩
  else ⟨p.blocks, Function.update p.held x none⟩

/-- Release what a name holds, and set it to NULL. -/
def release (p : Pointers κ ι) (h : κ) (x : ι) : Pointers κ ι :=
  ⟨free p.blocks h (p.held x), Function.update p.held x none⟩

/-- What is held is live, what is not held was released once, and there is one heap. -/
structure Good (h : κ) (p : Pointers κ ι) : Prop where
  owns : Owns p.held p.blocks
  settled : Settled p.held p.blocks
  heap : From h p.blocks

variable {h : κ} {p : Pointers κ ι}

omit [DecidableEq ι] in
theorem good_empty (h : κ) : Good h (empty : Pointers κ ι) :=
  ⟨⟨fun hx => absurd hx (by simp [empty]), fun hx => absurd hx (by simp [empty])⟩,
    fun _ _ hb => absurd hb (by simp [empty]), fun _ hb => absurd hb List.not_mem_nil⟩

theorem Good.keep (hp : Good h p) (hx : p.held x = none) (malloc : Bool) :
    Good h (p.keep h x malloc) := by
  cases malloc with
  | false => exact ⟨hp.owns.forget x, hp.settled.forget hx, hp.heap⟩
  | true => exact ⟨hp.owns.alloc h x, hp.settled.alloc h hx, hp.heap.alloc⟩

theorem Good.release (hp : Good h p) (x : ι) : Good h (p.release h x) :=
  ⟨hp.owns.free h x, hp.settled.free hp.owns hp.heap, hp.heap.free h (p.held x)⟩

theorem keep_of_ne {y : ι} (hy : y ≠ x) (malloc : Bool) : (p.keep h x malloc).held y = p.held y := by
  cases malloc with
  | false => exact Function.update_of_ne hy _ _
  | true => exact Function.update_of_ne hy _ _

theorem release_held (x y : ι) : (p.release h x).held y = if y = x then none else p.held y :=
  Function.update_apply p.held x none y

omit [DecidableEq ι] in
/-- With no pointer left, every block was released once. -/
theorem Good.released (hp : Good h p) (hnone : ∀ x, p.held x = none) :
    ∀ b ∈ p.blocks, b.frees = [h] := by
  intro b hb
  obtain ⟨i, hi⟩ := List.mem_iff_getElem?.mp hb
  rcases hp.settled i b hi with ⟨x, hx⟩ | hfrees
  · rw [hnone x] at hx
    contradiction
  · rw [hfrees, hp.heap b hb]

end Pointers

end IotcRa8p1.Heaps
