import Mathlib.Data.List.GetD
import Mathlib.Tactic.Ring

/-!
# Byte memories

A C buffer is the memory behind its base pointer: a total function from offsets to bytes.  A read
past the end of an object is then a read of whatever byte stands there, so a function that reads too
far can be modelled as it is written, and "reads only `[off, off + n)`" is a theorem about agreement
of two memories on that range.

`slice` lists a range, `memcpy` and `memset` are the library calls, `leNat`/`leBytes` and `beNat`/`beBytes`
are integers of a fixed number of bytes.
-/

namespace IotcRa8p1.ByteMem

/-- The bytes behind a pointer, by offset. -/
abbrev Mem := ℕ → UInt8

/-- The `n` bytes from `off` on. -/
def slice (m : Mem) (off n : ℕ) : List UInt8 :=
  (List.range n).map fun i => m (off + i)

/-- `memcpy (dst + d) (src + s) n`; since the source is the memory before the call it is also
`memmove`. -/
def memcpy (dst : Mem) (d : ℕ) (src : Mem) (s n : ℕ) : Mem :=
  fun a => if d ≤ a ∧ a < d + n then src (s + (a - d)) else dst a

/-- `memset (dst + d) b n`. -/
def memset (dst : Mem) (d : ℕ) (b : UInt8) (n : ℕ) : Mem :=
  fun a => if d ≤ a ∧ a < d + n then b else dst a

/-- Store a list of bytes at `dst + d`. -/
def store (dst : Mem) (d : ℕ) (bs : List UInt8) : Mem :=
  fun a => if d ≤ a ∧ a < d + bs.length then bs.getD (a - d) 0 else dst a

/-- The memory that holds `bs` at its base and zero after it. -/
def ofList (bs : List UInt8) : Mem := fun a => bs.getD a 0

/-- Two memories hold the same bytes on `[off, off + n)`. -/
def AgreeOn (m m' : Mem) (off n : ℕ) : Prop :=
  ∀ a, off ≤ a → a < off + n → m a = m' a

@[simp] theorem slice_length (m : Mem) (off n : ℕ) : (slice m off n).length = n := by
  simp [slice]

theorem slice_getD (m : Mem) (off n i : ℕ) (d : UInt8) (hi : i < n) :
    (slice m off n).getD i d = m (off + i) := by
  simp [slice, List.getD_eq_getElem?_getD, List.getElem?_range hi]

/-- Equality of slices is agreement byte by byte. -/
theorem slice_eq_iff (m m' : Mem) (off off' n : ℕ) :
    slice m off n = slice m' off' n ↔ ∀ i, i < n → m (off + i) = m' (off' + i) := by
  constructor
  · intro h i hi
    rw [← slice_getD m off n i 0 hi, ← slice_getD m' off' n i 0 hi, h]
  · intro h
    apply List.map_congr_left
    intro i hi
    exact h i (List.mem_range.mp hi)

theorem AgreeOn.symm {m m' : Mem} {off n : ℕ} (h : AgreeOn m m' off n) : AgreeOn m' m off n :=
  fun a h1 h2 => (h a h1 h2).symm

theorem AgreeOn.trans {m m' m'' : Mem} {off n : ℕ} (h : AgreeOn m m' off n)
    (h' : AgreeOn m' m'' off n) : AgreeOn m m'' off n :=
  fun a h1 h2 => (h a h1 h2).trans (h' a h1 h2)

/-- Agreement on a range gives agreement on every range inside it. -/
theorem AgreeOn.mono {m m' : Mem} {off n off' n' : ℕ} (h : AgreeOn m m' off n)
    (h1 : off ≤ off') (h2 : off' + n' ≤ off + n) : AgreeOn m m' off' n' :=
  fun a ha hb => h a (by omega) (by omega)

theorem AgreeOn.slice {m m' : Mem} {off n off' n' : ℕ} (h : AgreeOn m m' off n)
    (h1 : off ≤ off') (h2 : off' + n' ≤ off + n) : slice m off' n' = slice m' off' n' :=
  (slice_eq_iff m m' off' off' n').mpr fun i hi => h (off' + i) (by omega) (by omega)

theorem agreeOn_of_slice {m m' : Mem} {off n : ℕ} (h : slice m off n = slice m' off n) :
    AgreeOn m m' off n := by
  intro a h1 h2
  have := (slice_eq_iff m m' off off n).mp h (a - off) (by omega)
  rwa [show off + (a - off) = a by omega] at this

theorem agreeOn_iff_slice (m m' : Mem) (off n : ℕ) :
    AgreeOn m m' off n ↔ slice m off n = slice m' off n :=
  ⟨fun h => h.slice le_rfl le_rfl, agreeOn_of_slice⟩

/-- A slice is the concatenation of its two halves. -/
theorem slice_add (m : Mem) (off n k : ℕ) :
    slice m off (n + k) = slice m off n ++ slice m (off + n) k := by
  simp only [slice, List.range_add, List.map_append, List.map_map]
  congr 1
  apply List.map_congr_left
  intro i _
  simp [Nat.add_assoc]

/-! ### The library calls -/

theorem memcpy_in (dst : Mem) (d : ℕ) (src : Mem) (s n a : ℕ) (h1 : d ≤ a) (h2 : a < d + n) :
    memcpy dst d src s n a = src (s + (a - d)) := if_pos ⟨h1, h2⟩

theorem memcpy_out (dst : Mem) (d : ℕ) (src : Mem) (s n a : ℕ) (h : a < d ∨ d + n ≤ a) :
    memcpy dst d src s n a = dst a := if_neg (by omega)

/-- What was copied can be read back. -/
theorem slice_memcpy (dst : Mem) (d : ℕ) (src : Mem) (s n : ℕ) :
    slice (memcpy dst d src s n) d n = slice src s n := by
  rw [slice_eq_iff]
  intro i hi
  rw [memcpy_in _ _ _ _ _ _ (by omega) (by omega), Nat.add_sub_cancel_left]

theorem memset_in (dst : Mem) (d : ℕ) (b : UInt8) (n a : ℕ) (h1 : d ≤ a) (h2 : a < d + n) :
    memset dst d b n a = b := if_pos ⟨h1, h2⟩

theorem memset_out (dst : Mem) (d : ℕ) (b : UInt8) (n a : ℕ) (h : a < d ∨ d + n ≤ a) :
    memset dst d b n a = dst a := if_neg (by omega)

theorem store_in (dst : Mem) (d : ℕ) (bs : List UInt8) (a : ℕ) (h1 : d ≤ a)
    (h2 : a < d + bs.length) : store dst d bs a = bs.getD (a - d) 0 := if_pos ⟨h1, h2⟩

theorem store_out (dst : Mem) (d : ℕ) (bs : List UInt8) (a : ℕ) (h : a < d ∨ d + bs.length ≤ a) :
    store dst d bs a = dst a := if_neg (by omega)

/-- A list whose entries are the bytes from `off` on is that slice. -/
theorem slice_eq_of_getD (m : Mem) (off : ℕ) (bs : List UInt8)
    (h : ∀ i, i < bs.length → m (off + i) = bs.getD i 0) : slice m off bs.length = bs := by
  apply List.ext_getElem (by simp)
  intro i h1 h2
  have hi := h i h2
  rw [List.getD_eq_getElem _ _ h2] at hi
  simpa [slice] using hi

/-- What was stored can be read back. -/
theorem slice_store (dst : Mem) (d : ℕ) (bs : List UInt8) :
    slice (store dst d bs) d bs.length = bs := by
  apply slice_eq_of_getD
  intro i hi
  rw [store_in _ _ _ _ (by omega) (by omega), Nat.add_sub_cancel_left]

theorem slice_store_disjoint (dst : Mem) (d : ℕ) (bs : List UInt8) (off n : ℕ)
    (h : off + n ≤ d ∨ d + bs.length ≤ off) : slice (store dst d bs) off n = slice dst off n :=
  (slice_eq_iff _ _ _ _ _).mpr fun i hi => store_out _ _ _ _ (by omega)

theorem slice_memset_disjoint (dst : Mem) (d : ℕ) (b : UInt8) (k off n : ℕ)
    (h : off + n ≤ d ∨ d + k ≤ off) : slice (memset dst d b k) off n = slice dst off n :=
  (slice_eq_iff _ _ _ _ _).mpr fun i hi => memset_out _ _ _ _ _ (by omega)

theorem slice_memset (dst : Mem) (d : ℕ) (b : UInt8) (n : ℕ) :
    slice (memset dst d b n) d n = List.replicate n b := by
  have h := slice_eq_of_getD (memset dst d b n) d (List.replicate n b) (by
    intro i hi
    rw [List.length_replicate] at hi
    rw [memset_in _ _ _ _ _ (by omega) (by omega), List.getD_replicate _ hi])
  rwa [List.length_replicate] at h

/-- A store right behind a prefix extends it. -/
theorem slice_store_append (dst : Mem) (d : ℕ) (bs : List UInt8) {n : ℕ} (hn : n = d + bs.length) :
    slice (store dst d bs) 0 n = slice dst 0 d ++ bs := by
  rw [hn, slice_add, slice_store_disjoint _ _ _ _ _ (Or.inl (by omega)), Nat.zero_add, slice_store]

/-- A part of a slice that is known as a concatenation. -/
theorem slice_of_append {m : Mem} {off n : ℕ} (as bs cs : List UInt8)
    (h : slice m off n = as ++ bs ++ cs) (i k : ℕ) (hi : i = off + as.length)
    (hk : k = bs.length) : slice m i k = bs := by
  subst hi hk
  have hn : n = as.length + bs.length + cs.length := by
    simpa [Nat.add_assoc] using congrArg List.length h
  apply slice_eq_of_getD
  intro j hj
  rw [Nat.add_assoc, ← slice_getD m off n (as.length + j) 0 (by omega), h, List.append_assoc,
    List.getD_append_right _ _ _ _ (by omega), Nat.add_sub_cancel_left,
    List.getD_append _ _ _ _ hj]

/-- A property of every byte, by its 256 cases. -/
theorem forall_byte {P : UInt8 → Prop} (h : ∀ i : Fin 256, P (UInt8.ofFin i)) (b : UInt8) : P b := h b.toFin

/-! ### Little-endian integers -/

/-- The value of a little-endian list of bytes. -/
def leNat : List UInt8 → ℕ
  | [] => 0
  | b :: bs => b.toNat + 256 * leNat bs

/-- The `w` little-endian bytes of `n`; higher bytes of `n` are cut, as by a C conversion. -/
def leBytes : ℕ → ℕ → List UInt8
  | 0, _ => []
  | w + 1, n => UInt8.ofNat n :: leBytes w (n / 256)

@[simp] theorem leBytes_length (w n : ℕ) : (leBytes w n).length = w := by
  induction w generalizing n with
  | zero => rfl
  | succ w ih => simp [leBytes, ih]

/-- Reading back what was written gives the value cut to `w` bytes. -/
theorem leNat_leBytes (w n : ℕ) : leNat (leBytes w n) = n % 256 ^ w := by
  induction w generalizing n with
  | zero => simp [leNat, leBytes, Nat.mod_one]
  | succ w ih =>
    have hb : (UInt8.ofNat n).toNat = n % 256 := by simp
    rw [leBytes, leNat, hb, ih, pow_succ, Nat.mul_comm (256 ^ w) 256, Nat.mod_mul]

theorem leNat_leBytes_of_lt (w n : ℕ) (h : n < 256 ^ w) : leNat (leBytes w n) = n := by
  rw [leNat_leBytes, Nat.mod_eq_of_lt h]

/-! ### Big-endian integers -/

/-- The value of a big-endian list of bytes. -/
def beNat (bs : List UInt8) : ℕ := leNat bs.reverse

/-- The `w` big-endian bytes of `n`. -/
def beBytes (w n : ℕ) : List UInt8 := (leBytes w n).reverse

@[simp] theorem beBytes_length (w n : ℕ) : (beBytes w n).length = w := by
  rw [beBytes, List.length_reverse, leBytes_length]

theorem beNat_beBytes_of_lt (w n : ℕ) (h : n < 256 ^ w) : beNat (beBytes w n) = n := by
  rw [beNat, beBytes, List.reverse_reverse, leNat_leBytes_of_lt w n h]

end IotcRa8p1.ByteMem
