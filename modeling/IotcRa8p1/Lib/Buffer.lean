import IotcRa8p1.Lib.ByteMem

/-!
# Arrays with a size

A `Buffer` is an array of a known size and the memory around it.  A write goes through wherever it points,
and `overrun` remembers that one of them has left the array: a function stays in bounds when it leaves
`overrun` as it was.
-/

namespace IotcRa8p1.ByteMem

structure Buffer where
  size : ℕ
  bytes : Mem
  overrun : Bool

/-- The array before any write. -/
def Buffer.fresh (size : ℕ) (bytes : Mem) : Buffer := ⟨size, bytes, false⟩

/-- Write bytes at an offset. -/
def Buffer.write (b : Buffer) (off : ℕ) (bs : List UInt8) : Buffer where
  size := b.size
  bytes := store b.bytes off bs
  overrun := b.overrun || decide (bs ≠ [] ∧ b.size < off + bs.length)

variable (b : Buffer) {off : ℕ} {bs : List UInt8}

@[simp] theorem Buffer.write_size (off : ℕ) (bs : List UInt8) : (b.write off bs).size = b.size := rfl

@[simp] theorem Buffer.write_bytes (off : ℕ) (bs : List UInt8) :
    (b.write off bs).bytes = store b.bytes off bs := rfl

theorem Buffer.write_overrun (h : off + bs.length ≤ b.size) :
    (b.write off bs).overrun = b.overrun := by
  rw [Buffer.write, decide_eq_false (by omega), Bool.or_false]

/-- The bytes before the offset stay. -/
theorem Buffer.write_before (bs : List UInt8) {n : ℕ} (h : n ≤ off) :
    slice (b.write off bs).bytes 0 n = slice b.bytes 0 n :=
  slice_store_disjoint _ _ _ _ _ (Or.inl (by omega))

/-- A write behind the bytes so far. -/
theorem Buffer.write_append (off : ℕ) (bs : List UInt8) :
    slice (b.write off bs).bytes 0 (off + bs.length) = slice b.bytes 0 off ++ bs :=
  slice_store_append _ _ _ rfl

/-- A single byte at its offset. -/
theorem Buffer.write_at (off : ℕ) (v : UInt8) : (b.write off [v]).bytes off = v := by
  rw [Buffer.write_bytes, store_in _ _ _ _ (Nat.le_refl _) (by simp)]
  simp

end IotcRa8p1.ByteMem
